import CallCatalog.Instantiation.Candidates
import CallCatalog.Instantiation.Error
import CallCatalog.Instantiation.TupleSet
import CallCatalog.Types.Format

/-!
All ways to give the type parameters of a class observed types so that every bound holds.

`substitutions` gives the parameters their types one after the other, and looks only at the types
that the parameter admits after the choices made before it. `substitutionsByProduct` forms all
combinations first and then sorts out those that break a bound. Both check beforehand that a bound
speaks only of its own parameter and of earlier ones.
-/

namespace CallCatalog.Store

/-- The type parameters with their bounds, given those declared before them. A bound may speak of
its own parameter, as in `T extends Comparable<T>`, but must not be that parameter. -/
def boundedParams (s : Store) (className : String) (earlier : List TypeVarId) :
    List TypeVarId → Except InstantiationError (List (TypeVarId × Bound))
  | [] => .ok []
  | v :: vs =>
    match s.typeParam? v with
    | none => .error (.malformedBounds className (s.varText v) (s.varText v))
    | some p =>
      if .var v ∈ p.bound.uppers then .error (.malformedBounds className p.name p.name)
      else match p.bound.vars.find? (· ∉ earlier ++ [v]) with
        | some w => .error (.malformedBounds className p.name (s.varText w))
        | none => (s.boundedParams className (earlier ++ [v]) vs).map ((v, p.bound) :: ·)

def definedClass (s : Store) (id : ClassId) : Except InstantiationError ClassDef :=
  match s.classDef? id with
  | some d => .ok d
  | none => .error (.unknownClass id)

/-- Extends the tuples by each of the parameters in turn, where the tuples so far belong to the
parameters `earlier`. It is `none` if it never ends to find the candidates of a tuple. -/
def extendByParams? (s : Store) (u : Universe) (earlier : List TypeVarId) :
    List (TypeVarId × Bound) → TupleSet → Option (Except TupleLimitExceeded TupleSet)
  | [], set => some (.ok set)
  | (v, bound) :: params, set => ExceptT.run do
    let set ← ExceptT.mk <| set.extendWith? fun tuple =>
      s.selectCandidates? v bound u (.ofPairs (earlier.zip tuple))
    s.extendByParams? u (earlier ++ [v]) params set

/-- `extendByParams?` where a question that is never answered counts as no. -/
def extendByParams (s : Store) (u : Universe) (earlier : List TypeVarId) :
    List (TypeVarId × Bound) → TupleSet → Except TupleLimitExceeded TupleSet
  | [], set => .ok set
  | (v, bound) :: params, set => do
    let set ← set.extendWith fun tuple =>
      s.selectCandidates v bound u (.ofPairs (earlier.zip tuple))
    s.extendByParams u (earlier ++ [v]) params set

/-- What an enumeration for a class gives once the tuples are there. -/
def substitutionsOf (d : ClassDef) :
    Except TupleLimitExceeded TupleSet → Except InstantiationError (List Substitution)
  | .ok set => .ok (set.toSubstitutions d.typeParams)
  | .error ⟨limit⟩ => .error (.tooManyTuples d.name limit)

/-- All substitutions of observed types for the type parameters of a class under which every bound
holds, or `none` if it never ends to find them. A class without type parameters has one, which is
empty. No more than `limit` tuples are kept at any step. -/
def substitutions? (s : Store) (id : ClassId) (u : Universe) (limit : Option Nat) :
    Option (Except InstantiationError (List Substitution)) := ExceptT.run do
  let d ← ofExcept (s.definedClass id)
  let params ← ofExcept (s.boundedParams d.name [] d.typeParams)
  ExceptT.mk ((s.extendByParams? u [] params (.single limit)).map (substitutionsOf d))

/-- `substitutions?` where a question that is never answered counts as no. -/
def substitutions (s : Store) (id : ClassId) (u : Universe) (limit : Option Nat) :
    Except InstantiationError (List Substitution) := do
  let d ← s.definedClass id
  let params ← s.boundedParams d.name [] d.typeParams
  match s.extendByParams u [] params (.single limit) with
  | .ok set => return set.toSubstitutions d.typeParams
  | .error ⟨limit⟩ => throw (.tooManyTuples d.name limit)

/-- Extends the tuples by each of the parameters in turn, with the candidates that its bound admits
on its own. -/
def extendIndependently (s : Store) (u : Universe) :
    List (TypeVarId × Bound) → TupleSet → Except TupleLimitExceeded TupleSet
  | [], set => .ok set
  | (_, bound) :: params, set => do
    s.extendIndependently u params (← set.extend (s.selectIndependentCandidates bound u))

/-- Whether every parameter's type satisfies its bound when all parameters have their types. -/
def satisfiesAll (s : Store) (params : List (TypeVarId × Bound)) (tuple : List Ty) : Bool :=
  (params.zip tuple).all fun ((_, bound), t) =>
    bound.isSatisfiedBy s (.ofPairs ((params.map Prod.fst).zip tuple)) t

def substitutionsByProduct (s : Store) (id : ClassId) (u : Universe) :
    Except InstantiationError (List Substitution) := do
  let d ← s.definedClass id
  let params ← s.boundedParams d.name [] d.typeParams
  match s.extendIndependently u params (.single none) with
  | .ok set => return (set.retain (s.satisfiesAll params)).toSubstitutions d.typeParams
  | .error ⟨limit⟩ => throw (.tooManyTuples d.name limit)

end CallCatalog.Store
