import CallCatalog.OrderedSet
import CallCatalog.Subtyping.Satisfaction

namespace CallCatalog

/-- The observed types, in the order in which they were first seen. Any type may be observed, but
not every type is a candidate for a type parameter. -/
abbrev Universe := OrderedSet Ty

namespace Universe

/-- The types that may be given to a type parameter: concrete reference types. -/
def candidates (u : Universe) : List Ty := u.toList.filter fun t => t.isReference && t.isConcrete

/-- The candidates that pass a test, or `none` if one of the tests never ends. -/
def filter? (keep : Ty → Option Bool) : List Ty → Option (List Ty)
  | [] => some []
  | t :: ts => do
    let holds ← keep t
    let kept ← filter? keep ts
    return if holds then t :: kept else kept

end Universe

namespace Store

/-- The candidates that may be given to parameter `v` when `σ` tells what earlier parameters have
been given, or `none` if it never ends to find out. A bound that speaks of `v` itself is read with
`v` standing for the candidate. -/
def selectCandidates? (s : Store) (v : TypeVarId) (bound : Bound) (u : Universe) (σ : Assignment) :
    Option (List Ty) :=
  if v ∈ bound.vars then Universe.filter? (fun t => bound.satisfied? s (σ.set v t) t) u.candidates
  else Universe.filter? (fun t => bound.satisfied? s σ t) u.candidates

def selectCandidates (s : Store) (v : TypeVarId) (bound : Bound) (u : Universe) (σ : Assignment) :
    List Ty :=
  if v ∈ bound.vars then u.candidates.filter fun t => bound.isSatisfiedBy s (σ.set v t) t
  else u.candidates.filter fun t => bound.isSatisfiedBy s σ t

/-- The candidates that are ruled out by nothing but, perhaps, the dependent parts of the bound. -/
def selectIndependentCandidates (s : Store) (bound : Bound) (u : Universe) : List Ty :=
  u.candidates.filter fun t => bound.admits s t

end Store

end CallCatalog
