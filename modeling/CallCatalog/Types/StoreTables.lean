import CallCatalog.Types.Store

/-!
A store by its tables: the names and the definitions of the classes are two lists, and a name is
looked up in an index of its own.
-/

namespace CallCatalog

/-- The number after `n` others, in 32 bits. -/
def ClassId.next (n : Nat) : ClassId := ⟨n % UInt32.size⟩

def TypeVarId.next (n : Nat) : TypeVarId := ⟨n % UInt32.size⟩

/-- The numbers of class names. -/
abbrev NameIndex := String → Option ClassId

namespace NameIndex

def empty : NameIndex := fun _ => none

def insert (index : NameIndex) (name : String) (id : ClassId) : NameIndex :=
  fun other => if other = name then some id else index other

end NameIndex

/-- The classes that are named directly. -/
structure WellKnown where
  object : ClassId := .object
  string : ClassId := .string
  number : ClassId := .number
  integer : ClassId := .integer
  cloneable : ClassId := .cloneable
  serializable : ClassId := .serializable
  deriving DecidableEq

/-- The tables of a store. The name and the definition of a class stand at its number. -/
structure StoreTables where
  classNames : List String
  classes : List (Option ClassDef)
  classByName : NameIndex
  typeParams : List TypeParam
  wellKnown : WellKnown

namespace StoreTables

def classId? (t : StoreTables) (name : String) : Option ClassId := t.classByName name

def className? (t : StoreTables) (id : ClassId) : Option String := t.classNames[id.index]?

def classDef? (t : StoreTables) (id : ClassId) : Option ClassDef := t.classes[id.index]?.join

def typeParam? (t : StoreTables) (v : TypeVarId) : Option TypeParam := t.typeParams[v.index]?

def classCount (t : StoreTables) : Nat := t.classNames.length

/-- The number of a class name. A new name is entered in all three tables of classes. -/
def intern (t : StoreTables) (name : String) : ClassId × StoreTables :=
  match t.classByName name with
  | some id => (id, t)
  | none =>
    let id := .next t.classNames.length
    (id, { t with
      classNames := t.classNames ++ [name]
      classes := t.classes ++ [none]
      classByName := t.classByName.insert name id })

/-- Gives a class its definition. A number that has not been given out changes nothing. -/
def define (t : StoreTables) (id : ClassId) (d : ClassDef) : StoreTables :=
  { t with classes := t.classes.set id.index (some d) }

def add (t : StoreTables) (d : ClassDef) : ClassId × StoreTables :=
  let (id, t) := t.intern d.name
  (id, t.define id d)

def addTypeParam (t : StoreTables) (name : String) (uppers : List Ty) : TypeVarId × StoreTables :=
  (.next t.typeParams.length, { t with typeParams := t.typeParams ++ [⟨name, .ofUppers uppers⟩] })

/-- Replaces the declaration of a type parameter. A number that has not been given out changes
nothing. -/
def defineTypeParam (t : StoreTables) (v : TypeVarId) (p : TypeParam) : StoreTables :=
  { t with typeParams := t.typeParams.set v.index p }

def setUppers (t : StoreTables) (v : TypeVarId) (uppers : List Ty) : StoreTables :=
  { t with
    typeParams := t.typeParams.modify v.index fun p => { p with bound := .ofUppers uppers } }

def blank : StoreTables where
  classNames := []
  classes := []
  classByName := .empty
  typeParams := []
  wellKnown := ⟨⟨0⟩, ⟨0⟩, ⟨0⟩, ⟨0⟩, ⟨0⟩, ⟨0⟩⟩

/-- The tables in which the well-known classes have numbers and none of them is defined. -/
def empty : StoreTables :=
  let (object, t) := blank.intern "java.lang.Object"
  let (string, t) := t.intern "java.lang.String"
  let (number, t) := t.intern "java.lang.Number"
  let (integer, t) := t.intern "java.lang.Integer"
  let (cloneable, t) := t.intern "java.lang.Cloneable"
  let (serializable, t) := t.intern "java.io.Serializable"
  { t with wellKnown := { object, string, number, integer, cloneable, serializable } }

def store (t : StoreTables) : Store where
  classes := t.classNames.zipWith ClassEntry.mk t.classes
  typeParams := t.typeParams

end StoreTables

def Store.tables (s : Store) : StoreTables where
  classNames := s.classes.map ClassEntry.name
  classes := s.classes.map ClassEntry.definition?
  classByName := s.classId?
  typeParams := s.typeParams
  wellKnown := {}

end CallCatalog
