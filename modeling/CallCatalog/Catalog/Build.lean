import CallCatalog.Catalog.Basic

/-!
Building a catalog: contributions are collected, and then every class under test is instantiated and
its operations are put into the catalog.
-/

namespace CallCatalog

structure CatalogBuilder where
  classes : OrderedSet ClassId := .empty
  exercised : OrderedSet ClassId := .empty
  inputTypes : Universe := .empty
  operations : List Operation := []

inductive BuildError where
  /-- The store does not define the root class. -/
  | missingRootClass
  deriving DecidableEq

def BuildError.message : BuildError → String
  | missingRootClass => "the type store does not define `java.lang.Object`"

namespace Catalog

def start (inputTypes : Universe) : Catalog where
  classes := .empty
  operations := .empty
  inputTypes
  exercised := .empty
  skipped := []
  hasClasses := false

/-- The operations of an instantiated class: constructors, then methods. -/
def operationsOf (d : ClassDef) (i : Instantiation) : List Operation :=
  d.constructors.map (Operation.ofConstructor i.classType i.substitution) ++
    d.methods.filterMap (Operation.ofMethod? i.classType i.substitution)

def addClass (c : Catalog) (d : ClassDef) (i : Instantiation) : Catalog :=
  { c with
    operations := c.operations.insertAll ((operationsOf d i).filter Operation.isConcrete)
    classes := c.classes.insert i.classType }

def skip (c : Catalog) (s : Store) (id : ClassId) (reason : SkipReason) : Catalog :=
  { c with skipped := c.skipped ++ [⟨s.classText id, reason⟩] }

/-- Adds a class under test that is asked for instances, or records why there are none. -/
def addInstances (c : Catalog) (s : Store) (id : ClassId) (d : ClassDef) :
    Except InstantiationError Instantiation × Resolver → Catalog × Resolver
  | (.ok i, r) => (c.addClass d i, r)
  | (.error e, r) => (c.skip s id (.notInstantiated e), r)

/-- Adds a class under test, or records why it was passed over. It is `none` if it never ends to
find out. -/
def addUnderTest? (s : Store) (u : Universe) (state : Catalog × Resolver) (id : ClassId) :
    Option (Catalog × Resolver) :=
  let (c, r) := state
  match s.classDef? id with
  | none => some (c.skip s id (.notInstantiated (.unknownClass id)), r)
  | some d =>
    if d.kind = .interface then some (c.skip s id .interface, r)
    else if d.isAbstract && d.kind ≠ .enumeration then some (c.skip s id .abstractClass, r)
    else
      let c := { c with hasClasses := true }
      (r.instantiate? s id u).map (c.addInstances s id d)

/-- `addUnderTest?` where a question that is never answered counts as no. -/
def addUnderTest (s : Store) (u : Universe) (state : Catalog × Resolver) (id : ClassId) :
    Catalog × Resolver :=
  let (c, r) := state
  match s.classDef? id with
  | none => (c.skip s id (.notInstantiated (.unknownClass id)), r)
  | some d =>
    if d.kind = .interface then (c.skip s id .interface, r)
    else if d.isAbstract && d.kind ≠ .enumeration then (c.skip s id .abstractClass, r)
    else
      let c := { c with hasClasses := true }
      c.addInstances s id d (r.instantiate s id u)

/-- Adds a class that tests have to use. Interfaces and undefined classes are left out. -/
def addExercised (s : Store) (c : Catalog) (id : ClassId) : Catalog :=
  match s.classDef? id with
  | some d => if d.kind = .interface then c else { c with exercised := c.exercised.insert id }
  | none => c

/-- Adds an operation with its declaring type, if it is concrete. -/
def addOperation (c : Catalog) (op : Operation) : Catalog :=
  if op.isConcrete then
    { c with classes := c.classes.insert op.declaring, operations := c.operations.insert op }
  else c

end Catalog

namespace CatalogBuilder

/-- Adds a contribution. Classes and types stay where they were first seen. -/
def merge (b : CatalogBuilder) (c : Contribution) : CatalogBuilder where
  classes := b.classes.insertAll c.classes
  exercised := b.exercised.insertAll c.exercised
  inputTypes := b.inputTypes.insertAll c.inputTypes
  operations := b.operations ++ c.operations

/-- Adds to the classes under test what else a catalog holds: the operations given directly, and at
last the root class with its constructor. -/
def finish (b : CatalogBuilder) (s : Store) (c : Catalog) : Catalog :=
  let c := b.exercised.toList.foldl (Catalog.addExercised s) c
  let c := b.operations.foldl Catalog.addOperation c
  let root : ClassType := ⟨.object, []⟩
  { c with
    classes := c.classes.insert root
    operations := c.operations.insert (.constructor root []) }

/-- Builds the catalog, beginning with the classes under test. A class that cannot be instantiated
is passed over. It is `none` if it never ends to find out whether one can be instantiated. -/
def build? (b : CatalogBuilder) (s : Store) (r : Resolver) :
    Option (Except BuildError Catalog × Resolver) :=
  if (s.classDef? .object).isNone then some (.error .missingRootClass, r)
  else do
    let (c, r) ← b.classes.toList.foldlM (Catalog.addUnderTest? s b.inputTypes)
      (.start b.inputTypes, r)
    return (.ok (b.finish s c), r)

/-- `build?` where a question that is never answered counts as no. -/
def build (b : CatalogBuilder) (s : Store) (r : Resolver) : Except BuildError Catalog × Resolver :=
  if (s.classDef? .object).isNone then (.error .missingRootClass, r)
  else
    let (c, r) :=
      b.classes.toList.foldl (Catalog.addUnderTest s b.inputTypes) (.start b.inputTypes, r)
    (.ok (b.finish s c), r)

end CatalogBuilder

end CallCatalog
