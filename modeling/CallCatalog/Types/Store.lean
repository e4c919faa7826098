import CallCatalog.Types.Bound

/-!
Class and type parameter declarations, and the store that holds them. A class has its number from
the moment its name is first mentioned; its definition may come later or never.
-/

namespace CallCatalog

inductive ClassKind where
  | plain
  | interface
  | enumeration
  deriving DecidableEq

structure TypeParam where
  name : String
  bound : Bound
  deriving DecidableEq

structure ConstructorDef where
  params : List Ty
  deriving DecidableEq

structure MethodDef where
  name : String
  typeParams : List TypeVarId := []
  params : List Ty
  returns : Ty
  isStatic : Bool := false
  deriving DecidableEq

structure ClassDef where
  name : String
  kind : ClassKind
  isAbstract : Bool
  typeParams : List TypeVarId := []
  superClass : Option Ty := none
  interfaces : List Ty := []
  constructors : List ConstructorDef := []
  methods : List MethodDef := []
  deriving DecidableEq

namespace ClassDef

def isGeneric (d : ClassDef) : Bool := !d.typeParams.isEmpty

def declaredType (d : ClassDef) (id : ClassId) : ClassType := ⟨id, d.typeParams.map .var⟩

/-- The declared supertypes: the superclass, then the interfaces in declaration order. -/
def supertypes (d : ClassDef) : List Ty := d.superClass.toList ++ d.interfaces

end ClassDef

/-- What a store knows about one class. -/
structure ClassEntry where
  name : String
  definition? : Option ClassDef := none

/-- The known classes and type parameters, each at the position that is its number. -/
structure Store where
  classes : List ClassEntry
  typeParams : List TypeParam

namespace ClassId

def object : ClassId := ⟨0⟩

def string : ClassId := ⟨1⟩

def number : ClassId := ⟨2⟩

def integer : ClassId := ⟨3⟩

def cloneable : ClassId := ⟨4⟩

def serializable : ClassId := ⟨5⟩

end ClassId

namespace Store

def wellKnownNames : List String :=
  ["java.lang.Object", "java.lang.String", "java.lang.Number", "java.lang.Integer",
    "java.lang.Cloneable", "java.io.Serializable"]

/-- The store that numbers the well-known classes and defines none of them. -/
def empty : Store where
  classes := wellKnownNames.map fun name => { name }
  typeParams := []

def classId? (s : Store) (name : String) : Option ClassId :=
  (s.classes.findIdx? fun entry => entry.name == name).map ClassId.mk

def className? (s : Store) (id : ClassId) : Option String :=
  s.classes[id.index]?.map ClassEntry.name

def classDef? (s : Store) (id : ClassId) : Option ClassDef :=
  s.classes[id.index]?.bind ClassEntry.definition?

def typeParam? (s : Store) (v : TypeVarId) : Option TypeParam := s.typeParams[v.index]?

def classCount (s : Store) : Nat := s.classes.length

/-- The number of a class name, which is the next free one if the name is new. -/
def intern (s : Store) (name : String) : ClassId × Store :=
  match s.classId? name with
  | some id => (id, s)
  | none => (⟨s.classes.length⟩, { s with classes := s.classes ++ [{ name }] })

/-- Gives a class its definition. A number that the store has not given out changes nothing. -/
def define (s : Store) (id : ClassId) (d : ClassDef) : Store :=
  { s with classes := s.classes.modify id.index fun entry => { entry with definition? := some d } }

def add (s : Store) (d : ClassDef) : ClassId × Store :=
  let (id, s) := s.intern d.name
  (id, s.define id d)

def addTypeParam (s : Store) (name : String) (uppers : List Ty) : TypeVarId × Store :=
  (⟨s.typeParams.length⟩, { s with typeParams := s.typeParams ++ [⟨name, .ofUppers uppers⟩] })

/-- Replaces the declaration of a type parameter. A number that the store has not given out changes
nothing. -/
def defineTypeParam (s : Store) (v : TypeVarId) (p : TypeParam) : Store :=
  { s with typeParams := s.typeParams.modify v.index fun _ => p }

def setUppers (s : Store) (v : TypeVarId) (uppers : List Ty) : Store :=
  { s with
    typeParams := s.typeParams.modify v.index fun p => { p with bound := .ofUppers uppers } }

end Store

end CallCatalog
