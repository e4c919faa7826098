import CallCatalog.Types.Store

/-!
A model description as it is written down: classes by their signatures, the classes under test, and
what else has been observed. Types are still names here, and nothing has been looked up.
-/

namespace CallCatalog

/-- A type as it is referred to. A plain name can also be a primitive, a type parameter or a
wildcard, and may end in `[]`. -/
inductive TypeRef where
  | named (text : String)
  | applied (name : String) (args : List TypeRef)
  | ext (upper : TypeRef)
  | sup (lower : TypeRef)
  deriving Inhabited

structure TypeParamDecl where
  name : String
  bounds : List TypeRef := []

structure ConstructorDecl where
  params : List TypeRef := []

/-- A method. Without `returns` its result is `void`. -/
structure MethodDecl where
  name : String
  typeParams : List TypeParamDecl := []
  params : List TypeRef := []
  returns : Option TypeRef := none
  isStatic : Bool := false

structure ClassDecl where
  name : String
  kind : Option ClassKind := none
  isAbstract : Bool := false
  typeParams : List TypeParamDecl := []
  superClass : Option TypeRef := none
  interfaces : List TypeRef := []
  constructors : List ConstructorDecl := []
  methods : List MethodDecl := []

/-- An operation that is given by its signature. Without `method` it is a constructor. -/
structure OperationDecl where
  declaring : TypeRef
  method : Option String := none
  isStatic : Bool := false
  params : List TypeRef := []
  returns : Option TypeRef := none

structure ModelDecl where
  classes : List ClassDecl := []
  underTest : List String := []
  exercised : List String := []
  inputTypes : List TypeRef := []
  operations : List OperationDecl := []

end CallCatalog
