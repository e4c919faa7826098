import CallCatalog.Catalog.Operation

namespace CallCatalog

/-- Classes, types and operations that a description asks for, in the order in which it does. -/
structure Contribution where
  classes : List ClassId := []
  /-- The classes that a test has to use to be worth keeping. -/
  exercised : List ClassId := []
  inputTypes : List Ty := []
  operations : List Operation := []
  deriving DecidableEq

namespace Contribution

def isEmpty (c : Contribution) : Bool :=
  c.classes.isEmpty && c.exercised.isEmpty && c.inputTypes.isEmpty && c.operations.isEmpty

def append (c d : Contribution) : Contribution where
  classes := c.classes ++ d.classes
  exercised := c.exercised ++ d.exercised
  inputTypes := c.inputTypes ++ d.inputTypes
  operations := c.operations ++ d.operations

end Contribution

end CallCatalog
