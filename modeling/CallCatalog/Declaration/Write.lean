import CallCatalog.Declaration.Basic
import CallCatalog.Json.Value

namespace CallCatalog

namespace TypeRef

mutual

def toJson : TypeRef → Json
  | named text => .string text
  | applied name args => .object [("name", .string name), ("args", .array (toJsons args))]
  | ext upper => .object [("extends", upper.toJson)]
  | sup lower => .object [("super", lower.toJson)]

def toJsons : List TypeRef → List Json
  | [] => []
  | r :: rs => r.toJson :: toJsons rs

end

end TypeRef

namespace ClassKind

def words : List (String × ClassKind) :=
  [("class", plain), ("interface", interface), ("enum", enumeration)]

def word : ClassKind → String
  | plain => "class"
  | interface => "interface"
  | enumeration => "enum"

end ClassKind

def Json.list {α : Type} (toJson : α → Json) (as : List α) : Json := .array (as.map toJson)

def Json.option {α : Type} (toJson : α → Json) : Option α → Json
  | none => .null
  | some a => toJson a

def TypeParamDecl.toJson (p : TypeParamDecl) : Json := .object [
  ("name", .string p.name),
  ("bounds", .list TypeRef.toJson p.bounds)]

def ConstructorDecl.toJson (c : ConstructorDecl) : Json := .object [
  ("params", .list TypeRef.toJson c.params)]

def MethodDecl.toJson (m : MethodDecl) : Json := .object [
  ("name", .string m.name),
  ("type_params", .list TypeParamDecl.toJson m.typeParams),
  ("params", .list TypeRef.toJson m.params),
  ("returns", .option TypeRef.toJson m.returns),
  ("static", .bool m.isStatic)]

def ClassDecl.toJson (c : ClassDecl) : Json := .object [
  ("name", .string c.name),
  ("kind", .option (fun k => .string k.word) c.kind),
  ("abstract", .bool c.isAbstract),
  ("type_params", .list TypeParamDecl.toJson c.typeParams),
  ("super_class", .option TypeRef.toJson c.superClass),
  ("interfaces", .list TypeRef.toJson c.interfaces),
  ("constructors", .list ConstructorDecl.toJson c.constructors),
  ("methods", .list MethodDecl.toJson c.methods)]

def OperationDecl.toJson (o : OperationDecl) : Json := .object [
  ("class", o.declaring.toJson),
  ("method", .option .string o.method),
  ("static", .bool o.isStatic),
  ("params", .list TypeRef.toJson o.params),
  ("returns", .option TypeRef.toJson o.returns)]

def ModelDecl.toJson (d : ModelDecl) : Json := .object [
  ("classes", .list ClassDecl.toJson d.classes),
  ("classes_under_test", .strings d.underTest),
  ("exercised_classes", .strings d.exercised),
  ("input_types", .list TypeRef.toJson d.inputTypes),
  ("operations", .list OperationDecl.toJson d.operations)]

end CallCatalog
