import CallCatalog.Instantiation.Enumerate
import CallCatalog.Instantiation.Randomness

namespace CallCatalog

inductive Selection where
  /-- Each with the same probability. -/
  | random
  /-- The first one in the order of enumeration. -/
  | first
  deriving DecidableEq

def defaultMaxTuples : Nat := 100000

/-- How instantiations are enumerated and chosen. Without `maxTuples` there is no limit. -/
structure ResolverOptions where
  selection : Selection := .random
  maxTuples : Option Nat := some defaultMaxTuples
  deriving DecidableEq

/-- Chooses instantiations. The state of the randomness is all that one choice leaves to the
next. -/
structure Resolver where
  options : ResolverOptions := {}
  randomness : Randomness := { seed := 0 }
  deriving DecidableEq

/-- A concrete class type with the substitution that led to it. -/
structure Instantiation where
  classType : ClassType
  substitution : Substitution
  deriving DecidableEq

namespace Resolver

/-- The position of the chosen one among `count` substitutions. -/
def choose (r : Resolver) (count : Nat) : Option Nat × Resolver :=
  match r.options.selection with
  | .first => (if count = 0 then none else some 0, r)
  | .random =>
    let (i?, randomness) := r.randomness.nextIndex count
    (i?, { r with randomness })

/-- What comes of the enumeration for a generic class: one of the substitutions that were found. -/
def instantiateFrom (r : Resolver) (s : Store) (id : ClassId) (d : ClassDef) :
    Except InstantiationError (List Substitution) →
      Except InstantiationError Instantiation × Resolver
  | .error e => (.error e, r)
  | .ok valid =>
    let (i?, r) := r.choose valid.length
    match i?.bind fun i => valid[i]? with
    | none => (.error (.unresolvable d.name), r)
    | some substitution =>
      let classType := substitution.applyClass (d.declaredType id)
      if classType.isConcrete then (.ok { classType, substitution }, r)
      else (.error (.stillGeneric d.name (s.formatClass classType)), r)

/-- Chooses a concrete instantiation of a class with type arguments from the universe, or gives
`none` if it never ends to find out what there is to choose from. -/
def instantiate? (r : Resolver) (s : Store) (id : ClassId) (u : Universe) :
    Option (Except InstantiationError Instantiation × Resolver) :=
  match s.classDef? id with
  | none => some (.error (.unknownClass id), r)
  | some d =>
    if d.isGeneric then
      (s.substitutions? id u r.options.maxTuples).map (r.instantiateFrom s id d)
    else some (.ok { classType := ⟨id, []⟩, substitution := .empty }, r)

/-- `instantiate?` where a question that is never answered counts as no. -/
def instantiate (r : Resolver) (s : Store) (id : ClassId) (u : Universe) :
    Except InstantiationError Instantiation × Resolver :=
  match s.classDef? id with
  | none => (.error (.unknownClass id), r)
  | some d =>
    if d.isGeneric then r.instantiateFrom s id d (s.substitutions id u r.options.maxTuples)
    else (.ok { classType := ⟨id, []⟩, substitution := .empty }, r)

def resolve (r : Resolver) (s : Store) (id : ClassId) (u : Universe) :
    Except InstantiationError ClassType × Resolver :=
  let (result, r) := r.instantiate s id u
  (result.map Instantiation.classType, r)

end Resolver

end CallCatalog
