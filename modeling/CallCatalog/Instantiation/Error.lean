import CallCatalog.Types.Basic

namespace CallCatalog

/-- The reasons for which a class has no concrete instantiation. -/
inductive InstantiationError where
  /-- The store does not define the class. -/
  | unknownClass (id : ClassId)
  /-- No assignment of observed types satisfies the bounds. -/
  | unresolvable (className : String)
  /-- A bound refers to a type parameter that is not declared before it. -/
  | malformedBounds (className param referenced : String)
  /-- More partial assignments would have to be kept than the limit allows. -/
  | tooManyTuples (className : String) (limit : Nat)
  /-- The chosen instantiation mentions a type variable. -/
  | stillGeneric (className type : String)
  deriving DecidableEq

namespace InstantiationError

def code : InstantiationError → String
  | unknownClass _ => "unknown-class"
  | unresolvable _ => "unresolvable"
  | malformedBounds .. => "malformed-bound-graph"
  | tooManyTuples .. => "tuple-limit-exceeded"
  | stillGeneric .. => "still-generic"

def message : InstantiationError → String
  | unknownClass id => s!"class #{id.index} is not defined in the type store"
  | unresolvable className =>
    s!"no assignment of observed types satisfies the bounds of `{className}`"
  | malformedBounds className param referenced =>
    s!"bound of type parameter `{param}` in `{className}` references `{referenced}`, " ++
      "which is not declared before it"
  | tooManyTuples className limit =>
    s!"instantiating `{className}` exceeded the limit of {limit} candidate tuples"
  | stillGeneric className type =>
    s!"instantiation `{type}` of `{className}` still has open type parameters"

end InstantiationError

end CallCatalog
