import CallCatalog.Types.Format
import CallCatalog.Types.Substitute

namespace CallCatalog

/-- Whether an operation is a constructor or a method. -/
inductive OperationKind where
  | constructor
  | method (name : String) (isStatic : Bool)
  deriving DecidableEq

/-- A callable member of a class type. The inputs are all values that a call takes: for an instance
method the receiver, then the parameters. -/
structure Operation where
  declaring : ClassType
  kind : OperationKind
  inputs : List Ty
  output : Ty
  deriving DecidableEq

namespace Operation

def constructor (declaring : ClassType) (params : List Ty) : Operation where
  declaring
  kind := .constructor
  inputs := params
  output := declaring.toTy

def method (declaring : ClassType) (name : String) (isStatic : Bool) (params : List Ty)
    (output : Ty) : Operation where
  declaring
  kind := .method name isStatic
  inputs := if isStatic then params else declaring.toTy :: params
  output

def ofConstructor (declaring : ClassType) (s : Substitution) (d : ConstructorDef) : Operation :=
  constructor declaring (d.params.map s.apply)

/-- A declared method of an instantiated class. A method with type parameters of its own has no one
signature and is no operation. -/
def ofMethod? (declaring : ClassType) (s : Substitution) (d : MethodDef) : Option Operation :=
  if d.typeParams.isEmpty then
    some (method declaring d.name d.isStatic (d.params.map s.apply) (s.apply d.returns))
  else none

/-- The name of the method, or the word that stands for constructors. -/
def name (op : Operation) : String :=
  match op.kind with
  | .constructor => "<init>"
  | .method name _ => name

def isConstructor (op : Operation) : Bool :=
  match op.kind with
  | .constructor => true
  | .method .. => false

def isStatic (op : Operation) : Bool :=
  match op.kind with
  | .constructor => false
  | .method _ isStatic => isStatic

def params (op : Operation) : List Ty :=
  match op.kind with
  | .method _ false => op.inputs.tail
  | _ => op.inputs

/-- Whether the declaring type, the inputs and the output are all concrete. -/
def isConcrete (op : Operation) : Bool :=
  op.declaring.isConcrete && op.inputs.all Ty.isConcrete && op.output.isConcrete

/-- The text of an operation, such as
`java.util.ArrayList<java.lang.String>.add(java.lang.String) -> boolean`. -/
def signature (s : Store) (op : Operation) : String :=
  (if op.isStatic then "static " else "") ++ s.formatClass op.declaring ++ "." ++ op.name ++ "(" ++
    ", ".intercalate (op.params.map s.format) ++ ") -> " ++ s.format op.output

end Operation

end CallCatalog
