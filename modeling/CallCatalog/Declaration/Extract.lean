import CallCatalog.Catalog.Contribution
import CallCatalog.Declaration.Resolve

/-!
Putting the classes of a model description into a store. All classes and their type parameters get
their numbers before any bound or member is looked at, so declarations may refer to each other and
to themselves in any order.
-/

namespace CallCatalog

namespace Names

def resolveBounds (n : Names) (params : List TypeParamDecl) :
    Except DeclarationError (List (List Ty)) :=
  params.mapM fun p => n.resolveAll .value p.bounds

/-- The superclass of a class. One that declares none has the root class, unless it is an interface
or the root class itself. -/
def superClass (n : Names) (c : ClassDecl) (kind : ClassKind) :
    Except DeclarationError (Option Ty) :=
  match c.superClass with
  | some ref => some <$> n.resolve .value ref
  | none =>
    if kind = .interface ∨ c.name = "java.lang.Object" then .ok none
    else .ok (some (.cls .object []))

def constructorDef (n : Names) (c : ConstructorDecl) : Except DeclarationError ConstructorDef := do
  return ⟨← n.resolveAll .value c.params⟩

def resultType (n : Names) : Option TypeRef → Except DeclarationError Ty
  | none => .ok .void
  | some ref => n.resolve .result ref

def methodDef (n : Names) (m : MethodDecl) (own : Scope) : Except DeclarationError MethodDef := do
  let inner := { n with scope := n.scope ++ own }
  let returns ← inner.resultType m.returns
  let params ← inner.resolveAll .value m.params
  return { name := m.name, typeParams := own.map Prod.snd, params, returns, isStatic := m.isStatic }

def classId (n : Names) (name : String) : Except DeclarationError ClassId := do
  return (← n.findClass name).1

/-- An operation that is given by its signature. It has to belong to a class. -/
def operation (n : Names) (o : OperationDecl) : Except DeclarationError Operation := do
  match ← n.resolve .value o.declaring with
  | .cls id args =>
    let params ← n.resolveAll .value o.params
    match o.method with
    | none => return .constructor ⟨id, args⟩ params
    | some name =>
      let output ← n.resultType o.returns
      return .method ⟨id, args⟩ name o.isStatic params output
  | _ => throw (.invalidRef o.declaring.toJson.compact .notAClass)

end Names

namespace ModelDecl

/-- Numbers the declared classes. A name must not be declared twice. -/
def numberClasses (s : Store) (declared : DeclaredClasses) :
    List ClassDecl → Except DeclarationError (Store × DeclaredClasses)
  | [] => .ok (s, declared)
  | c :: cs =>
    if declared.any fun d => d.1 == c.name then .error (.duplicateClass c.name)
    else
      let (id, s) := s.intern c.name
      numberClasses s (declared ++ [(c.name, id, c.typeParams.length)]) cs

/-- Numbers the type parameters of `owner`, which are not bounded yet. `own` are those numbered so
far; a name must not be declared twice. -/
def numberTypeParams (s : Store) (owner : String) (own : Scope) :
    List TypeParamDecl → Except DeclarationError (Store × Scope)
  | [] => .ok (s, own)
  | p :: ps =>
    if own.any fun d => d.1 == p.name then .error (.duplicateTypeParam owner p.name)
    else
      let (v, s) := s.addTypeParam p.name []
      numberTypeParams s owner (own ++ [(p.name, v)]) ps

/-- Gives the type parameters `own` their bounds, in which all of `scope` is known. -/
def bindBounds (s : Store) (declared : DeclaredClasses) (scope own : Scope)
    (params : List TypeParamDecl) : Except DeclarationError Store := do
  let bounds ← Names.resolveBounds ⟨s, declared, scope⟩ params
  return (own.zip bounds).foldl (fun s p => s.setUppers p.1.2 p.2) s

/-- Numbers and bounds the type parameters of the methods of a class, and gives those of each
method. -/
def bindMethods (s : Store) (declared : DeclaredClasses) (scope : Scope) (className : String) :
    List MethodDecl → Except DeclarationError (Store × List Scope)
  | [] => .ok (s, [])
  | m :: ms => do
    let (s, own) ← numberTypeParams s (className ++ "." ++ m.name) [] m.typeParams
    let s ← bindBounds s declared (scope ++ own) own m.typeParams
    let (s, owns) ← bindMethods s declared scope className ms
    return (s, own :: owns)

/-- The definition of a class whose type parameters are `scope`. -/
def classDef (s : Store) (declared : DeclaredClasses) (scope : Scope) (c : ClassDecl) :
    Except DeclarationError (Store × ClassDef) := do
  let (s, owns) ← bindMethods s declared scope c.name c.methods
  let n : Names := ⟨s, declared, scope⟩
  let kind := c.kind.getD .plain
  let superClass ← n.superClass c kind
  let interfaces ← n.resolveAll .value c.interfaces
  let constructors ← c.constructors.mapM n.constructorDef
  let methods ← (c.methods.zip owns).mapM fun (m, own) => n.methodDef m own
  return (s, {
    name := c.name, kind, isAbstract := c.isAbstract || kind = .interface
    typeParams := scope.map Prod.snd, superClass, interfaces, constructors, methods })

/-- Numbers the type parameters of the classes, and gives those of each class. -/
def numberAllTypeParams (s : Store) : List ClassDecl → Except DeclarationError (Store × List Scope)
  | [] => .ok (s, [])
  | c :: cs => do
    let (s, scope) ← numberTypeParams s c.name [] c.typeParams
    let (s, scopes) ← numberAllTypeParams s cs
    return (s, scope :: scopes)

def bindAllBounds (s : Store) (declared : DeclaredClasses) :
    List (ClassDecl × Scope) → Except DeclarationError Store
  | [] => .ok s
  | (c, scope) :: cs => do
    let s ← bindBounds s declared scope scope c.typeParams
    bindAllBounds s declared cs

def defineAll (s : Store) (declared : DeclaredClasses) :
    List (ClassDecl × Scope) → Except DeclarationError Store
  | [] => .ok s
  | (c, scope) :: cs => do
    let (s, d) ← classDef s declared scope c
    let s := match declared.lookup c.name with
      | some (id, _) => s.define id d
      | none => s
    defineAll s declared cs

/-- The parameter types of a class: those of its constructors, then those of its methods. -/
def paramTypes (d : ClassDef) : List Ty :=
  d.constructors.flatMap ConstructorDef.params ++ d.methods.flatMap MethodDef.params

/-- `types`, and after them the concrete parameter types of the classes that are not among them. -/
def withParamTypes (s : Store) (types : List Ty) (ids : List ClassId) : List Ty :=
  (ids.flatMap fun id => (s.classDef? id).elim [] paramTypes).foldl
    (fun ts t => if t.isConcrete && !ts.contains t then ts ++ [t] else ts) types

/-- Defines the classes of a description in a store, and gives what it contributes. Definitions that
were there before are replaced. -/
def extract (d : ModelDecl) (s : Store) : Except DeclarationError (Contribution × Store) := do
  let (s, declared) ← numberClasses s [] d.classes
  let (s, scopes) ← numberAllTypeParams s d.classes
  let s ← bindAllBounds s declared (d.classes.zip scopes)
  let s ← defineAll s declared (d.classes.zip scopes)
  let n : Names := { store := s, declared }
  let classes ← d.underTest.mapM n.classId
  let exercised ← d.exercised.mapM n.classId
  let inputTypes ← n.resolveAll .value d.inputTypes
  let operations ← d.operations.mapM n.operation
  return ({ classes, exercised, inputTypes := withParamTypes s inputTypes classes, operations }, s)

end ModelDecl

end CallCatalog
