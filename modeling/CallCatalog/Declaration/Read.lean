import CallCatalog.Declaration.Write
import CallCatalog.Json.Record
import CallCatalog.Json.Symbols

namespace CallCatalog

open Json (Reader RecordShape RecordField Symbols Fault)

namespace TypeRef

structure Reading where
  text? : Option String
  ref? : Option TypeRef
  refs? : Option (List TypeRef)

def only? (name : String) (readings : List (String × Reading)) : Option Reading :=
  match readings.filter fun r => r.1 == name with
  | [(_, r)] => some r
  | _ => none

def applied? (readings : List (String × Reading)) : Option TypeRef := do
  let name ← (← only? "name" readings).text?
  if readings.all fun r => r.1 != "args" then return applied name []
  else return applied name (← (← only? "args" readings).refs?)

def ofReadings? (readings : List (String × Reading)) : Option TypeRef :=
  applied? readings <|>
    ext <$> (only? "extends" readings).bind Reading.ref? <|>
    sup <$> (only? "super" readings).bind Reading.ref?

mutual

def ofJson? : Json → Option TypeRef
  | .string text => some (named text)
  | .object members => ofReadings? (readings members)
  | _ => none

def listOfJson? : Json → Option (List TypeRef)
  | .array items => ofJsons? items
  | _ => none

def ofJsons? : List Json → Option (List TypeRef)
  | [] => some []
  | item :: items =>
    match ofJson? item, ofJsons? items with
    | some r, some rs => some (r :: rs)
    | _, _ => none

def readings : List (String × Json) → List (String × Reading)
  | [] => []
  | (key, value) :: members =>
    (key, ⟨value.string?, ofJson? value, listOfJson? value⟩) :: readings members

end

def read (depth : Nat) : Reader TypeRef := do
  match ofJson? (← Reader.value depth) with
  | some r => pure r
  | none => Reader.misfitInside (.noAlternative "TypeRef")

end TypeRef

def listField {σ α : Type} (name : String) (item : (depth : Nat) → Reader α)
    (store : List α → σ → σ) : RecordField σ :=
  .of name (fun depth => Reader.list item depth) store

def optionField {σ α : Type} (name : String) (inner : (depth : Nat) → Reader α)
    (store : Option α → σ → σ) : RecordField σ :=
  .of name (fun depth => Reader.optional (inner depth)) store

def nameField {σ : Type} (name : String) (store : String → σ → σ) : RecordField σ :=
  .of name (fun _ => Reader.string) store true

def flagField {σ : Type} (name : String) (store : Bool → σ → σ) : RecordField σ :=
  .of name (fun _ => Reader.boolean) store

def TypeParamDecl.shape : RecordShape TypeParamDecl where
  name := "TypeParamInput"
  start := { name := "" }
  fields := [
    nameField "name" fun name p => { p with name },
    listField "bounds" TypeRef.read fun bounds p => { p with bounds }]

def ConstructorDecl.shape : RecordShape ConstructorDecl where
  name := "ConstructorInput"
  start := {}
  fields := [listField "params" TypeRef.read fun params c => { c with params }]

def MethodDecl.shape : RecordShape MethodDecl where
  name := "MethodInput"
  start := { name := "" }
  fields := [
    nameField "name" fun name m => { m with name },
    listField "type_params" TypeParamDecl.shape.read fun typeParams m => { m with typeParams },
    listField "params" TypeRef.read fun params m => { m with params },
    optionField "returns" TypeRef.read fun returns m => { m with returns },
    flagField "static" fun isStatic m => { m with isStatic }]

def ClassDecl.shape : RecordShape ClassDecl where
  name := "ClassInput"
  start := { name := "" }
  fields := [
    nameField "name" fun name c => { c with name },
    optionField "kind" (Reader.choice ClassKind.words) fun kind c => { c with kind },
    flagField "abstract" fun isAbstract c => { c with isAbstract },
    listField "type_params" TypeParamDecl.shape.read fun typeParams c => { c with typeParams },
    optionField "super_class" TypeRef.read fun superClass c => { c with superClass },
    listField "interfaces" TypeRef.read fun interfaces c => { c with interfaces },
    listField "constructors" ConstructorDecl.shape.read
      fun constructors c => { c with constructors },
    listField "methods" MethodDecl.shape.read fun methods c => { c with methods }]

def OperationDecl.shape : RecordShape OperationDecl where
  name := "OperationInput"
  start := { declaring := .named "" }
  fields := [
    .of "class" TypeRef.read (fun declaring o => { o with declaring }) true,
    optionField "method" (fun _ => Reader.string) fun method o => { o with method },
    flagField "static" fun isStatic o => { o with isStatic },
    listField "params" TypeRef.read fun params o => { o with params },
    optionField "returns" TypeRef.read fun returns o => { o with returns }]

def ModelDecl.shape : RecordShape ModelDecl where
  name := "ModelInput"
  start := {}
  fields := [
    listField "classes" ClassDecl.shape.read fun classes d => { d with classes },
    listField "classes_under_test" (fun _ => Reader.string) fun underTest d =>
      { d with underTest },
    listField "exercised_classes" (fun _ => Reader.string) fun exercised d =>
      { d with exercised },
    listField "input_types" TypeRef.read fun inputTypes d => { d with inputTypes },
    listField "operations" OperationDecl.shape.read fun operations d => { d with operations }]

def ModelDecl.parse (text : Symbols) : Except Fault ModelDecl :=
  (ModelDecl.shape.read Reader.maxDepth).run text

end CallCatalog
