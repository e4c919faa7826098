/-!
Types as a class declaration spells them: primitives, parameterised class types, arrays, type
variables and the wildcards that may stand as type arguments. Classes and type variables are named
by number; a store gives the numbers their meaning.
-/

namespace CallCatalog

structure ClassId where
  index : Nat
  deriving DecidableEq

/-- The number of a type parameter in a store. -/
structure TypeVarId where
  index : Nat
  deriving DecidableEq

inductive Primitive where
  | boolean
  | byte
  | short
  | char
  | int
  | long
  | float
  | double
  deriving DecidableEq

namespace Primitive

def all : List Primitive := [boolean, byte, short, char, int, long, float, double]

def keyword : Primitive → String
  | boolean => "boolean"
  | byte => "byte"
  | short => "short"
  | char => "char"
  | int => "int"
  | long => "long"
  | float => "float"
  | double => "double"

def ofKeyword? (word : String) : Option Primitive :=
  all.find? fun p => p.keyword == word

theorem ofKeyword?_keyword (p : Primitive) : ofKeyword? p.keyword = some p := by
  cases p <;> decide

theorem eq_keyword_of_ofKeyword? {word : String} {p : Primitive} (h : ofKeyword? word = some p) :
    word = p.keyword := by
  unfold ofKeyword? at h
  have hword := List.find?_some h
  exact (eq_of_beq hword).symm

theorem ofKeyword?_eq_none {word : String} (h : ∀ p : Primitive, word ≠ p.keyword) :
    ofKeyword? word = none :=
  Option.eq_none_iff_forall_ne_some.2 fun p hp => h p (eq_keyword_of_ofKeyword? hp)

end Primitive

/-- A type. Wildcards (`any`, `ext`, `sup`) are meant to stand directly below `cls`, but nothing
here relies on it. -/
inductive Ty where
  | void
  | primitive (p : Primitive)
  | cls (id : ClassId) (args : List Ty)
  | arr (elem : Ty)
  | var (v : TypeVarId)
  | any
  /-- The wildcard `? extends upper`. -/
  | ext (upper : Ty)
  /-- The wildcard `? super lower`. -/
  | sup (lower : Ty)
  deriving Inhabited

namespace Ty

mutual

def beq : Ty → Ty → Bool
  | void, void => true
  | primitive p, primitive q => p == q
  | cls c as, cls d bs => c == d && beqs as bs
  | arr a, arr b => beq a b
  | var v, var w => v == w
  | any, any => true
  | ext a, ext b => beq a b
  | sup a, sup b => beq a b
  | _, _ => false

def beqs : List Ty → List Ty → Bool
  | [], [] => true
  | a :: as, b :: bs => beq a b && beqs as bs
  | _, _ => false

end

mutual

theorem beq_iff : ∀ a b : Ty, beq a b = true ↔ a = b
  | void, b => by cases b <;> simp [beq]
  | primitive p, b => by cases b <;> simp [beq]
  | cls c as, b => by cases b <;> simp [beq, beqs_iff as]
  | arr a, b => by cases b <;> simp [beq, beq_iff a]
  | var v, b => by cases b <;> simp [beq]
  | any, b => by cases b <;> simp [beq]
  | ext a, b => by cases b <;> simp [beq, beq_iff a]
  | sup a, b => by cases b <;> simp [beq, beq_iff a]

theorem beqs_iff : ∀ as bs : List Ty, beqs as bs = true ↔ as = bs
  | [], bs => by cases bs <;> simp [beqs]
  | a :: as, bs => by cases bs <;> simp [beqs, beq_iff a, beqs_iff as]

end

instance : DecidableEq Ty := fun a b => decidable_of_iff _ (beq_iff a b)

/-- Class and array types. A type variable is a placeholder, not a value, and is not counted. -/
def isReference : Ty → Bool
  | cls .. => true
  | arr _ => true
  | _ => false

def isPrimitive : Ty → Bool
  | primitive _ => true
  | _ => false

def isWildcard : Ty → Bool
  | any => true
  | ext _ => true
  | sup _ => true
  | _ => false

mutual

def mentionsVars : Ty → Bool
  | var _ => true
  | cls _ args => anyMentionsVars args
  | arr elem => elem.mentionsVars
  | ext upper => upper.mentionsVars
  | sup lower => lower.mentionsVars
  | void => false
  | primitive _ => false
  | any => false

def anyMentionsVars : List Ty → Bool
  | [] => false
  | t :: ts => t.mentionsVars || anyMentionsVars ts

end

theorem anyMentionsVars_eq_any (ts : List Ty) : anyMentionsVars ts = ts.any mentionsVars := by
  induction ts with
  | nil => rfl
  | cons t ts ih => simp [anyMentionsVars, ih]

mutual

/-- `seen` followed by the type variables of a type that are not in it yet, in the order in which
they first occur. -/
def varsAfter (seen : List TypeVarId) : Ty → List TypeVarId
  | var v => if v ∈ seen then seen else seen ++ [v]
  | cls _ args => varsAfterAll seen args
  | arr elem => varsAfter seen elem
  | ext upper => varsAfter seen upper
  | sup lower => varsAfter seen lower
  | void => seen
  | primitive _ => seen
  | any => seen

def varsAfterAll (seen : List TypeVarId) : List Ty → List TypeVarId
  | [] => seen
  | t :: ts => varsAfterAll (varsAfter seen t) ts

end

/-- The type variables of a type, each once, in the order in which they first occur. -/
def vars (t : Ty) : List TypeVarId := varsAfter [] t

/-- A type that a value can have: no type variable is left open and it is not itself a wildcard. -/
def isConcrete (t : Ty) : Bool := !t.isWildcard && !t.mentionsVars

end Ty

/-- A class or interface type: the class and its type arguments. No argument at all is either a
class without type parameters or a raw type. -/
structure ClassType where
  id : ClassId
  args : List Ty
  deriving DecidableEq

namespace ClassType

def toTy (t : ClassType) : Ty := .cls t.id t.args

theorem toTy_inj {t u : ClassType} (h : t.toTy = u.toTy) : t = u := by
  cases t
  cases u
  simpa [toTy] using h

/-- No argument mentions a type variable. Wildcards are allowed as arguments. -/
def isConcrete (t : ClassType) : Bool := t.args.all fun arg => !arg.mentionsVars

end ClassType

end CallCatalog
