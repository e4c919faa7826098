import CallCatalog.Catalog.Build
import CallCatalog.Types.Platform

/-!
What is in a catalog. Every class under test is tried once, in order, with the resolver that the
class before it left behind; what is tried either gives an instantiation or a reason to pass the
class over. The catalog is read off the list of these attempts.
-/

namespace CallCatalog

/-- Whether instances of the class can be asked for: it is no interface, and not abstract unless it
is an enum. -/
def ClassDef.isInstantiable (d : ClassDef) : Bool :=
  d.kind ≠ .interface && (!d.isAbstract || d.kind = .enumeration)

/-- A class under test, the resolver that is asked for an instantiation, and what comes of it. -/
structure Attempt where
  id : ClassId
  resolver : Resolver
  outcome : Except SkipReason (ClassDef × Instantiation)

namespace Attempt

def types (a : Attempt) : List ClassType :=
  match a.outcome with
  | .ok (_, i) => [i.classType]
  | .error _ => []

/-- The operations that the attempt gives, whether or not they are concrete. -/
def operations (a : Attempt) : List Operation :=
  match a.outcome with
  | .ok (d, i) => Catalog.operationsOf d i
  | .error _ => []

def skips (s : Store) (a : Attempt) : List Skipped :=
  match a.outcome with
  | .ok _ => []
  | .error reason => [⟨s.classText a.id, reason⟩]

end Attempt

namespace Store

def attempt (s : Store) (u : Universe) (r : Resolver) (id : ClassId) :
    Except SkipReason (ClassDef × Instantiation) × Resolver :=
  match s.classDef? id with
  | none => (.error (.notInstantiated (.unknownClass id)), r)
  | some d =>
    if d.kind = .interface then (.error .interface, r)
    else if d.isInstantiable then
      match r.instantiate s id u with
      | (.ok i, r) => (.ok (d, i), r)
      | (.error e, r) => (.error (.notInstantiated e), r)
    else (.error .abstractClass, r)

def attempts (s : Store) (u : Universe) (r : Resolver) : List ClassId → List Attempt
  | [] => []
  | id :: ids =>
    let (outcome, next) := s.attempt u r id
    ⟨id, r, outcome⟩ :: s.attempts u next ids

/-- Whether the store defines the class so that instances can be asked for. -/
def isInstantiable (s : Store) (id : ClassId) : Bool :=
  (s.classDef? id).any ClassDef.isInstantiable

def isExercisable (s : Store) (id : ClassId) : Bool :=
  (s.classDef? id).any fun d => d.kind ≠ .interface

variable {s : Store} {u : Universe}

theorem map_id_attempts (r : Resolver) (ids : List ClassId) :
    (s.attempts u r ids).map Attempt.id = ids := by
  induction ids generalizing r with
  | nil => rfl
  | cons id ids ih => simp [attempts, ih]

theorem outcome_of_mem_attempts {r : Resolver} {ids : List ClassId} {a : Attempt}
    (h : a ∈ s.attempts u r ids) : a.outcome = (s.attempt u a.resolver a.id).1 := by
  induction ids generalizing r with
  | nil => simp [attempts] at h
  | cons id ids ih =>
      rcases List.mem_cons.mp h with rfl | h
      · rfl
      · exact ih h

theorem instantiate_classType_id {r : Resolver} {id : ClassId} {i : Instantiation}
    (h : (r.instantiate s id u).1 = .ok i) : i.classType.id = id := by
  unfold Resolver.instantiate at h
  split at h
  · cases h
  · split at h
    · unfold Resolver.instantiateFrom at h
      split at h
      · cases h
      · dsimp only at h
        split at h
        · cases h
        · split at h
          · cases h
            rfl
          · cases h
    · cases h
      rfl

end Store

namespace Catalog

variable {s : Store} {u : Universe}

theorem addUnderTest_eq (c : Catalog) (r : Resolver) (id : ClassId) :
    addUnderTest s u (c, r) id =
      let a : Attempt := ⟨id, r, (s.attempt u r id).1⟩
      ({ c with
          classes := c.classes.insertAll a.types
          operations := c.operations.insertAll (a.operations.filter Operation.isConcrete)
          skipped := c.skipped ++ a.skips s
          hasClasses := c.hasClasses || s.isInstantiable id }, (s.attempt u r id).2) := by
  unfold addUnderTest Store.attempt Store.isInstantiable
  cases hd : s.classDef? id with
  | none =>
      simp [skip, Attempt.types, Attempt.operations, Attempt.skips, OrderedSet.insertAll]
  | some d =>
      dsimp only
      by_cases hkind : d.kind = .interface
      · simp [hkind, skip, Attempt.types, Attempt.operations, Attempt.skips,
          OrderedSet.insertAll, ClassDef.isInstantiable]
      rw [if_neg hkind, if_neg hkind]
      cases hinst : d.isInstantiable with
      | false =>
          have habstract : (d.isAbstract && d.kind ≠ .enumeration) = true := by
            simpa [ClassDef.isInstantiable, hkind] using hinst
          rw [if_pos habstract, if_neg (by simp)]
          simp [hinst, skip, Attempt.types, Attempt.operations, Attempt.skips,
            OrderedSet.insertAll]
      | true =>
          have habstract : ¬ (d.isAbstract && d.kind ≠ .enumeration) = true := by
            have hplain : d.isAbstract = false ∨ d.kind = .enumeration := by
              simpa [ClassDef.isInstantiable, hkind] using hinst
            rcases hplain with h | h <;> simp [h]
          rw [if_neg habstract, if_pos rfl]
          rcases hresult : r.instantiate s id u with ⟨e | i, next⟩
          · simp [hinst, addInstances, skip, Attempt.types, Attempt.operations, Attempt.skips,
              OrderedSet.insertAll]
          · simp [hinst, addInstances, addClass, Attempt.types, Attempt.operations, Attempt.skips,
              OrderedSet.insertAll]

theorem foldl_addUnderTest (c : Catalog) (r : Resolver) (ids : List ClassId) :
    (ids.foldl (addUnderTest s u) (c, r)).1 =
      let tried := s.attempts u r ids
      { c with
        classes := c.classes.insertAll (tried.flatMap Attempt.types)
        operations := c.operations.insertAll
          ((tried.flatMap Attempt.operations).filter Operation.isConcrete)
        skipped := c.skipped ++ tried.flatMap (Attempt.skips s)
        hasClasses := c.hasClasses || ids.any s.isInstantiable } := by
  induction ids generalizing c r with
  | nil => simp [Store.attempts, OrderedSet.insertAll]
  | cons id ids ih =>
      rw [List.foldl_cons, addUnderTest_eq, ih]
      simp [Store.attempts, OrderedSet.insertAll_insertAll, Bool.or_assoc]

theorem addExercised_eq (c : Catalog) (id : ClassId) :
    addExercised s c id =
      if s.isExercisable id then { c with exercised := c.exercised.insert id } else c := by
  unfold addExercised Store.isExercisable
  cases s.classDef? id with
  | none => rfl
  | some d => by_cases hkind : d.kind = .interface <;> simp [hkind]

theorem foldl_addExercised (c : Catalog) (ids : List ClassId) :
    ids.foldl (addExercised s) c =
      { c with exercised := c.exercised.insertAll (ids.filter s.isExercisable) } := by
  induction ids generalizing c with
  | nil => simp [OrderedSet.insertAll]
  | cons id ids ih =>
      rw [List.foldl_cons, ih, addExercised_eq]
      cases hid : s.isExercisable id <;> simp [hid, OrderedSet.insertAll]

theorem foldl_addOperation (c : Catalog) (ops : List Operation) :
    ops.foldl addOperation c =
      { c with
        classes := c.classes.insertAll ((ops.filter Operation.isConcrete).map Operation.declaring)
        operations := c.operations.insertAll (ops.filter Operation.isConcrete) } := by
  induction ops generalizing c with
  | nil => simp [OrderedSet.insertAll]
  | cons op ops ih =>
      rw [List.foldl_cons, ih, addOperation]
      cases hop : op.isConcrete <;> simp [hop, OrderedSet.insertAll]

end Catalog

namespace CatalogBuilder

variable {s : Store} {r : Resolver} {b : CatalogBuilder}

def attempts (b : CatalogBuilder) (s : Store) (r : Resolver) : List Attempt :=
  s.attempts b.inputTypes r b.classes.toList

def root : ClassType := ⟨.object, []⟩

def contents (b : CatalogBuilder) (s : Store) (r : Resolver) : Catalog where
  classes := .ofList ((b.attempts s r).flatMap Attempt.types ++
    (b.operations.filter Operation.isConcrete).map Operation.declaring ++ [root])
  operations := .ofList (((b.attempts s r).flatMap Attempt.operations).filter
    Operation.isConcrete ++ b.operations.filter Operation.isConcrete ++ [.constructor root []])
  inputTypes := b.inputTypes
  exercised := .ofList (b.exercised.toList.filter s.isExercisable)
  skipped := (b.attempts s r).flatMap (Attempt.skips s)
  hasClasses := b.classes.toList.any s.isInstantiable

theorem build_eq_contents (hroot : (s.classDef? .object).isSome) :
    (b.build s r).1 = .ok (b.contents s r) := by
  have hnone : (s.classDef? .object).isNone = false := by
    rw [Option.isNone_eq_false_iff]
    exact hroot
  simp only [build, hnone, Bool.false_eq_true, if_false]
  rw [Catalog.foldl_addUnderTest, finish, Catalog.foldl_addExercised, Catalog.foldl_addOperation]
  have hinsert : ∀ {α : Type} [DecidableEq α] (set : OrderedSet α) (a : α),
      set.insert a = set.insertAll [a] := fun _ _ => rfl
  simp only [hinsert, OrderedSet.insertAll_insertAll, Catalog.start, contents, attempts,
    OrderedSet.ofList, root, List.nil_append, Bool.false_or, List.append_assoc]

theorem contents_of_build {c : Catalog} (h : (b.build s r).1 = .ok c) : c = b.contents s r := by
  cases hroot : (s.classDef? .object).isNone with
  | true =>
      rw [build, if_pos hroot] at h
      cases h
  | false =>
      rw [build_eq_contents (Option.isNone_eq_false_iff.mp hroot)] at h
      exact (Except.ok.inj h).symm

end CatalogBuilder

namespace Attempt

variable {s : Store} {u : Universe}

/-- Why an attempt ends as it does. The reasons are looked for in this order, and the resolver is
asked only if none of the others applies. -/
structure Explained (s : Store) (u : Universe) (a : Attempt) : Prop where
  undefined : s.classDef? a.id = none →
    a.outcome = .error (.notInstantiated (.unknownClass a.id))
  interface : ∀ d, s.classDef? a.id = some d → d.kind = .interface →
    a.outcome = .error .interface
  abstractClass : ∀ d, s.classDef? a.id = some d → d.kind ≠ .interface → d.isAbstract →
    d.kind ≠ .enumeration → a.outcome = .error .abstractClass
  failed : ∀ d e, s.classDef? a.id = some d → d.kind ≠ .interface →
    (d.isAbstract → d.kind = .enumeration) → (a.resolver.instantiate s a.id u).1 = .error e →
    a.outcome = .error (.notInstantiated e)
  instantiated : ∀ d i, s.classDef? a.id = some d → d.kind ≠ .interface →
    (d.isAbstract → d.kind = .enumeration) → (a.resolver.instantiate s a.id u).1 = .ok i →
    a.outcome = .ok (d, i) ∧ i.classType.id = a.id

theorem isInstantiable_iff {d : ClassDef} :
    d.isInstantiable ↔ d.kind ≠ .interface ∧ (d.isAbstract → d.kind = .enumeration) := by
  cases hkind : d.kind <;> simp [ClassDef.isInstantiable, hkind]

theorem explained_of_mem {r : Resolver} {ids : List ClassId} {a : Attempt}
    (h : a ∈ s.attempts u r ids) : a.Explained s u := by
  have houtcome := Store.outcome_of_mem_attempts h
  unfold Store.attempt at houtcome
  refine ⟨?_, ?_, ?_, ?_, ?_⟩
  · intro hd
    rw [houtcome, hd]
  · intro d hd hkind
    simp only [houtcome, hd, if_pos hkind]
  · intro d hd hkind habstract hnot
    have hinst : ¬ d.isInstantiable := by
      rw [isInstantiable_iff]
      exact fun hboth => hnot (hboth.2 habstract)
    simp only [houtcome, hd, if_neg hkind, if_neg hinst]
  · intro d e hd hkind habstract hresult
    have hinst : d.isInstantiable := isInstantiable_iff.mpr ⟨hkind, habstract⟩
    rcases hboth : a.resolver.instantiate s a.id u with ⟨result, next⟩
    obtain rfl : result = .error e := by rw [← hresult, hboth]
    simp only [houtcome, hd, if_neg hkind, if_pos hinst, hboth]
  · intro d i hd hkind habstract hresult
    have hinst : d.isInstantiable := isInstantiable_iff.mpr ⟨hkind, habstract⟩
    refine ⟨?_, Store.instantiate_classType_id hresult⟩
    rcases hboth : a.resolver.instantiate s a.id u with ⟨result, next⟩
    obtain rfl : result = .ok i := by rw [← hresult, hboth]
    simp only [houtcome, hd, if_neg hkind, if_pos hinst, hboth]

theorem of_outcome_eq_ok {r : Resolver} {ids : List ClassId} {a : Attempt} {d : ClassDef}
    {i : Instantiation} (h : a ∈ s.attempts u r ids) (hok : a.outcome = .ok (d, i)) :
    s.classDef? a.id = some d ∧ (a.resolver.instantiate s a.id u).1 = .ok i := by
  have houtcome := Store.outcome_of_mem_attempts h
  rw [hok] at houtcome
  unfold Store.attempt at houtcome
  split at houtcome
  · cases houtcome
  rename_i d' hd
  split at houtcome
  · cases houtcome
  split at houtcome
  · split at houtcome
    · rename_i i' next hresult
      cases houtcome
      exact ⟨hd, by rw [hresult]⟩
    · cases houtcome
  · cases houtcome

theorem length_types_add_length_skips (s : Store) (tried : List Attempt) :
    (tried.flatMap types).length + (tried.flatMap (skips s)).length = tried.length := by
  induction tried with
  | nil => rfl
  | cons a tried ih =>
      have hone : a.types.length + (a.skips s).length = 1 := by
        cases houtcome : a.outcome <;> simp [types, skips, houtcome]
      simp only [List.flatMap_cons, List.length_append, List.length_cons]
      omega

theorem sublist_map_id_types (tried : List Attempt)
    (h : ∀ a ∈ tried, ∀ t ∈ a.types, t.id = a.id) :
    ((tried.flatMap types).map ClassType.id).Sublist (tried.map Attempt.id) := by
  induction tried with
  | nil => simp
  | cons a tried ih =>
      have hrest := ih fun a' ha' => h a' (List.mem_cons_of_mem a ha')
      rw [List.flatMap_cons, List.map_append, List.map_cons]
      cases houtcome : a.outcome with
      | error _ => simpa [types, houtcome] using hrest.cons a.id
      | ok result =>
          have hid : result.2.classType.id = a.id := h a (by simp) _ (by simp [types, houtcome])
          simpa [types, houtcome, hid] using hrest.cons_cons a.id

theorem declaring_of_mem_operations {a : Attempt} {op : Operation} (h : op ∈ a.operations) :
    op.declaring ∈ a.types := by
  unfold operations at h
  unfold types
  split at h
  · rename_i d i houtcome
    simp only [Catalog.operationsOf, List.mem_append, List.mem_map, List.mem_filterMap] at h
    rcases h with ⟨ctor, -, rfl⟩ | ⟨method, -, hmethod⟩
    · simp [Operation.ofConstructor, Operation.constructor]
    · unfold Operation.ofMethod? at hmethod
      split at hmethod
      · cases hmethod
        simp [Operation.method]
      · cases hmethod
  · simp at h

theorem id_of_mem_types {r : Resolver} {ids : List ClassId} {a : Attempt}
    (h : a ∈ s.attempts u r ids) {t : ClassType} (ht : t ∈ a.types) : t.id = a.id := by
  unfold types at ht
  split at ht
  · rename_i d i houtcome
    rw [List.mem_singleton.mp ht]
    exact Store.instantiate_classType_id (of_outcome_eq_ok h houtcome).2
  · simp at ht

end Attempt

namespace CatalogBuilder

variable {s : Store} {r : Resolver} {b : CatalogBuilder}

/-- How the catalog of a builder comes from the attempts at its classes under test. -/
structure Accounts (b : CatalogBuilder) (s : Store) (r : Resolver) (c : Catalog) : Prop where
  /-- Each class under test is tried once, in the order in which it was first seen. -/
  tried : (b.attempts s r).map Attempt.id = b.classes.toList
  explained : ∀ a ∈ b.attempts s r, a.Explained s b.inputTypes
  skipped : c.skipped = (b.attempts s r).flatMap (Attempt.skips s)
  classes : c.classes.toList = ((b.attempts s r).flatMap Attempt.types ++
    (b.operations.filter Operation.isConcrete).map Operation.declaring ++
    [(⟨.object, []⟩ : ClassType)]).eraseDups
  once : (((b.attempts s r).flatMap Attempt.types).map ClassType.id).Nodup
  /-- Every class under test is either instantiated or passed over. -/
  complete : ((b.attempts s r).flatMap Attempt.types).length + c.skipped.length = b.classes.size
  concrete : ∀ op ∈ c.operations, op.isConcrete
  closed : ∀ op ∈ c.operations, op.declaring ∈ c.classes
  hasClasses : c.hasClasses ↔ ∃ id ∈ b.classes, ∃ d, s.classDef? id = some d ∧
    d.kind ≠ .interface ∧ (d.isAbstract → d.kind = .enumeration)

theorem isConcrete_of_mem_contents {op : Operation} (h : op ∈ (b.contents s r).operations) :
    op.isConcrete := by
  simp only [contents, OrderedSet.mem_ofList, List.mem_append, List.mem_filter,
    List.mem_singleton] at h
  rcases h with (⟨-, h⟩ | ⟨-, h⟩) | rfl
  · exact h
  · exact h
  · decide

theorem declaring_mem_contents {op : Operation} (h : op ∈ (b.contents s r).operations) :
    op.declaring ∈ (b.contents s r).classes := by
  simp only [contents, OrderedSet.mem_ofList, List.mem_append, List.mem_filter, List.mem_flatMap,
    List.mem_singleton, List.mem_map] at h ⊢
  rcases h with (⟨⟨a, ha, hop⟩, -⟩ | hop) | rfl
  · exact Or.inl (Or.inl ⟨a, ha, Attempt.declaring_of_mem_operations hop⟩)
  · exact Or.inl (Or.inr ⟨op, hop, rfl⟩)
  · exact Or.inr rfl

theorem hasClasses_contents_iff : (b.contents s r).hasClasses ↔
    ∃ id ∈ b.classes, ∃ d, s.classDef? id = some d ∧
      d.kind ≠ .interface ∧ (d.isAbstract → d.kind = .enumeration) := by
  simp only [contents, List.any_eq_true, Store.isInstantiable, Option.any_eq_true,
    Attempt.isInstantiable_iff, OrderedSet.mem_def]

/-- A store that defines the root class gives a catalog, and the catalog accounts for every class
under test. -/
theorem exists_build_accounts (b : CatalogBuilder) (s : Store) (r : Resolver)
    (hroot : (s.classDef? .object).isSome) : ∃ c, (b.build s r).1 = .ok c ∧ b.Accounts s r c := by
  have htried : (b.attempts s r).map Attempt.id = b.classes.toList := Store.map_id_attempts _ _
  have hsublist := Attempt.sublist_map_id_types (b.attempts s r)
    fun a ha t ht => Attempt.id_of_mem_types ha ht
  refine ⟨b.contents s r, build_eq_contents hroot, ?_⟩
  constructor
  case tried => exact htried
  case explained => exact fun a ha => Attempt.explained_of_mem ha
  case skipped => rfl
  case classes => exact OrderedSet.toList_ofList _
  case once =>
    rw [htried] at hsublist
    exact b.classes.nodup.sublist hsublist
  case complete =>
    have hlength := congrArg List.length htried
    rw [List.length_map] at hlength
    rw [OrderedSet.size, ← hlength]
    exact Attempt.length_types_add_length_skips s _
  case concrete => exact fun op hop => isConcrete_of_mem_contents hop
  case closed => exact fun op hop => declaring_mem_contents hop
  case hasClasses => exact hasClasses_contents_iff

/-- A generic class, an abstract class, an interface and a class that is not defined are under test,
and an operation of a wildcard type is given directly. -/
def mixedBuilder : CatalogBuilder where
  classes := .ofList [Platform.arrayList, .number, ⟨99⟩, Platform.comparable, .integer]
  inputTypes := .ofList [Platform.stringTy, Platform.intTy]
  operations := [.method ⟨Platform.list, [.any]⟩ "size" false [] Platform.intTy]

theorem exists_build_accounts_platform : (Platform.store.classDef? .object).isSome ∧
    ∃ c, (mixedBuilder.build Platform.store {}).1 = .ok c ∧
      mixedBuilder.Accounts Platform.store {} c :=
  ⟨rfl, exists_build_accounts mixedBuilder Platform.store {} rfl⟩

end CatalogBuilder

end CallCatalog
