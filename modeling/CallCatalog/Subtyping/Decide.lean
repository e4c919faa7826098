import CallCatalog.Subtyping.Supertype

/-!
Subtyping over the declared classes: inheritance with containment of type arguments, covariant
arrays, and type variables through their upper bounds.

A question about two types is reduced to questions about other types, and these are answered one
after the other. Nothing stops a question from leading to itself again through `? super`, so a
question may have no answer: `subtype?` is `none` where asking never ends.
-/

namespace CallCatalog

/-- Whether `sub` is a subtype of `sup`, asked while the bounds of the type variables in `opened`
are being looked at. -/
structure Question where
  opened : List TypeVarId
  sub : Ty
  sup : Ty
  deriving DecidableEq

/-- Whether one type argument contains another: clear at once, or up to a question. -/
inductive Containment where
  | settled (holds : Bool)
  | asks (q : Question)
  deriving DecidableEq

inductive Reduction where
  | settled (holds : Bool)
  /-- One of the questions has to be answered with yes. -/
  | anyOf (questions : List Question)
  | allOf (parts : List Containment)
  deriving DecidableEq

def Ty.isRoot (t : Ty) : Bool := t = .cls .object []

/-- The types that may be the element type of a supertype of an array of references. -/
def Ty.isArrayTarget : Ty → Bool
  | cls .. => true
  | arr _ => true
  | var _ => true
  | _ => false

/-- Whether the type argument `formal` contains the type argument `actual`. Under `? super` the two
sides change places. -/
def containment (opened : List TypeVarId) (formal actual : Ty) : Containment :=
  match formal, actual with
  | .any, _ => .settled true
  | .ext upper, .ext actualUpper => .asks ⟨opened, actualUpper, upper⟩
  | .ext upper, .any => .settled upper.isRoot
  | .ext _, .sup _ => .settled false
  | .ext upper, actual => .asks ⟨opened, actual, upper⟩
  | .sup lower, .sup actualLower => .asks ⟨opened, lower, actualLower⟩
  | .sup _, .any => .settled false
  | .sup _, .ext _ => .settled false
  | .sup lower, actual => .asks ⟨opened, lower, actual⟩
  | formal, actual => .settled (formal = actual)

/-- What is left to ask once the supertype `found?` of the wanted class is known, where `args` are
the wanted arguments. No arguments at all take every parameterisation. -/
def matchArguments (opened : List TypeVarId) (args : List Ty) : Option ClassType → Reduction
  | none => .settled false
  | some found =>
    if args.isEmpty then .settled true
    else if found.args.length ≠ args.length then .settled false
    else .allOf (List.zipWith (containment opened) args found.args)

namespace Store

/-- What a question comes down to, or `none` if the search for a supertype never ends. The bounds of
the variables in `opened` are not followed again, since `T extends Comparable<T>` would lead back to
itself. -/
def reduce? (s : Store) (q : Question) : Option Reduction :=
  if q.sub = q.sup then some (.settled true)
  else match q.sub with
    | .var v =>
      if v ∈ q.opened then some (.settled false)
      else match s.typeParam? v with
        | none => some (.settled false)
        | some p =>
          if p.bound.uppers.isEmpty then some (.settled q.sup.isRoot)
          else some (.anyOf (p.bound.uppers.map fun upper => ⟨v :: q.opened, upper, q.sup⟩))
    | .arr elem =>
      if q.sup.isRoot then some (.settled true)
      else match q.sup with
        | .arr supElem =>
          if elem.isReference && supElem.isArrayTarget then
            some (.anyOf [⟨q.opened, elem, supElem⟩])
          else some (.settled false)
        | .cls id args =>
          some (.settled (args.isEmpty && (id = .cloneable || id = .serializable)))
        | _ => some (.settled false)
    | .cls id args =>
      if q.sup.isRoot then some (.settled true)
      else match q.sup with
        | .cls target supArgs =>
          (s.findAbove target [⟨id, args⟩] []).map (matchArguments q.opened supArgs)
        | _ => some (.settled false)
    | _ => some (.settled false)

/-- The answer to a question. Questions that it comes down to are asked in order, and no more of
them than it takes. -/
def answer? (s : Store) (q : Question) : Option Bool := do
  match ← s.reduce? q with
  | .settled holds => return holds
  | .anyOf questions => questions.anyM fun q => s |>.answer? q
  | .allOf parts =>
    parts.allM fun
      | .settled holds => some holds
      | .asks q => s |>.answer? q
partial_fixpoint

/-- Whether `sub` is a subtype of `sup`, or `none` if asking never ends. -/
def subtype? (s : Store) (sub sup : Ty) : Option Bool := s.answer? ⟨[], sub, sup⟩

/-- `subtype?` where a question that is never answered counts as no. -/
def isSubtype (s : Store) (sub sup : Ty) : Bool := s.subtype? sub sup == some true

end Store

end CallCatalog
