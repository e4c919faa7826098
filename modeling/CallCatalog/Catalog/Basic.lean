import CallCatalog.Catalog.Contribution
import CallCatalog.Instantiation.Resolver

namespace CallCatalog

/-- Why a class under test has no concrete type in the catalog. -/
inductive SkipReason where
  | interface
  /-- Abstract classes other than enums. -/
  | abstractClass
  | notInstantiated (error : InstantiationError)
  deriving DecidableEq

namespace SkipReason

def code : SkipReason → String
  | interface => "interface"
  | abstractClass => "abstract"
  | notInstantiated error => error.code

def message : SkipReason → String
  | interface => "interfaces cannot be instantiated"
  | abstractClass => "abstract classes cannot be instantiated"
  | notInstantiated error => error.message

end SkipReason

structure Skipped where
  className : String
  reason : SkipReason
  deriving DecidableEq

/-- The concrete classes and operations.

`hasClasses` tells whether some class under test is neither an interface nor abstract, whether or
not it could be instantiated. -/
structure Catalog where
  classes : OrderedSet ClassType
  operations : OrderedSet Operation
  inputTypes : Universe
  exercised : OrderedSet ClassId
  skipped : List Skipped
  hasClasses : Bool

namespace Catalog

/-- Whether a value of the type can be checked without further calls: primitives, strings and
enums. -/
def isObservable (s : Store) : Ty → Bool
  | .primitive _ => true
  | .cls id _ => id = .string || (s.classDef? id).any fun d => d.kind = .enumeration
  | _ => false

/-- Adds an operation to the group of its declaring type, which is a new one at the end if there is
none. -/
def addToGroup (groups : List (ClassType × List Operation)) (op : Operation) :
    List (ClassType × List Operation) :=
  match groups with
  | [] => [(op.declaring, [op])]
  | (t, ops) :: rest =>
    if t = op.declaring then (t, ops ++ [op]) :: rest else (t, ops) :: addToGroup rest op

/-- The methods that `accept` takes and whose result can be checked, grouped by declaring type. -/
def observers (c : Catalog) (s : Store) (accept : Operation → Bool) :
    List (ClassType × List Operation) :=
  (c.operations.toList.filter fun op =>
    !op.isConstructor && isObservable s op.output && accept op).foldl addToGroup []

end Catalog

end CallCatalog
