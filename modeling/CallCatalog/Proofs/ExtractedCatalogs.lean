import CallCatalog.Proofs.ExtractedStores
import CallCatalog.Proofs.MergedContributions

/-!
Catalogs over stores that descriptions have been put into, one after the other, beginning with the
platform store. Whatever the descriptions redefine, every declaration keeps to the type parameters
that are in scope where it stands, so what is instantiated has only concrete operations.
-/

namespace CallCatalog

/-- The root class is defined, and declarations speak only of type parameters that are in scope. -/
structure Store.WellScoped (s : Store) : Prop where
  root : (s.classDef? .object).isSome
  classDef : ∀ id d, s.classDef? id = some d → d.Scoped

theorem Platform.wellScoped_store : Platform.store.WellScoped := by
  have hdeclarations : ∀ d ∈ declarations, d.Scoped := by decide
  exact ⟨rfl, fun id d hd => hdeclarations d (mem_declarations_of_classDef? hd)⟩

namespace ModelDecl

variable {d : ModelDecl} {s s' : Store} {δ : Contribution}

theorem wellScoped_of_extract (hs : s.WellScoped) (h : d.extract s = .ok (δ, s')) :
    s'.WellScoped := by
  obtain ⟨hdistinct, κ, hκ, rfl, -⟩ := extract_eq_ok_iff.mp h
  refine ⟨?_, fun id d' hd' => ?_⟩
  · rcases classDef?_install_cases hdistinct.classes hκ .object with ⟨c, -, -, hnew⟩ | ⟨-, hsame⟩
    · rw [hnew]
      rfl
    · rw [hsame]
      exact hs.root
  · rcases classDef?_install_cases hdistinct.classes hκ id with ⟨c, hc, -, hnew⟩ | ⟨-, hsame⟩
    · rw [hnew] at hd'
      cases hd'
      exact (Names.defines_of_classDef (Names.contents_eq_ok_iff.mp (hκ c hc)).2.2).scopedDef
    · rw [hsame] at hd'
      exact hs.classDef id d' hd'

/-- Puts descriptions into a store, one after the other, and gives what each contributes. -/
def extractAll : List ModelDecl → Store → Except DeclarationError (List Contribution × Store)
  | [], s => .ok ([], s)
  | d :: ds, s => do
    let (δ, s) ← d.extract s
    let (δs, s) ← extractAll ds s
    return (δ :: δs, s)

theorem wellScoped_of_extractAll {ds : List ModelDecl} {δs : List Contribution}
    (hs : s.WellScoped) (h : extractAll ds s = .ok (δs, s')) :
    s'.WellScoped ∧ ∀ δ ∈ δs, ∀ op ∈ δ.operations, op.isConcrete := by
  induction ds generalizing s δs with
  | nil =>
      cases h
      exact ⟨hs, by simp⟩
  | cons d ds ih =>
      obtain ⟨⟨δ, s₁⟩, hδ, h⟩ := bind_eq_ok_iff.mp h
      obtain ⟨⟨rest, s₂⟩, hrest, h⟩ := bind_eq_ok_iff.mp h
      rw [pure_eq_ok_iff, Prod.mk.injEq] at h
      obtain ⟨rfl, rfl⟩ := h
      obtain ⟨hwell, hconcrete⟩ := ih (wellScoped_of_extract hs hδ) hrest
      obtain ⟨-, κ, -, -, hcontribution⟩ := extract_eq_ok_iff.mp hδ
      refine ⟨hwell, fun δ' hδ' => ?_⟩
      rcases List.mem_cons.mp hδ' with rfl | hδ'
      · exact (isConcrete_of_contribution rfl hcontribution).2
      · exact hconcrete δ' hδ'

end ModelDecl

/-- The operations of an instantiated class: one for each constructor and one for each method
without type parameters of its own, with the type arguments put in. -/
def Instantiation.operations (i : Instantiation) (d : ClassDef) : List Operation :=
  d.constructors.map (fun k => .constructor i.classType (k.params.map i.substitution.apply)) ++
    (d.methods.filter fun m => m.typeParams.isEmpty).map fun m =>
      .method i.classType m.name m.isStatic (m.params.map i.substitution.apply)
        (i.substitution.apply m.returns)

theorem Catalog.operationsOf_eq (d : ClassDef) (i : Instantiation) :
    operationsOf d i = i.operations d := by
  have hmethods : ∀ ms : List MethodDef,
      ms.filterMap (Operation.ofMethod? i.classType i.substitution) =
        (ms.filter fun m => m.typeParams.isEmpty).map fun m =>
          .method i.classType m.name m.isStatic (m.params.map i.substitution.apply)
            (i.substitution.apply m.returns) := by
    intro ms
    induction ms with
    | nil => rfl
    | cons m ms ih =>
        cases hown : m.typeParams.isEmpty <;>
          simp [Operation.ofMethod?, hown, ih]
  rw [operationsOf, hmethods]
  rfl

theorem Instantiation.isConcrete_of_mem_operations {i : Instantiation} {d : ClassDef}
    (hd : d.Scoped) (hcloses : i.substitution.Closes d) (hclass : i.classType.isConcrete) :
    ∀ op ∈ i.operations d, op.isConcrete := by
  intro op hop
  rcases List.mem_append.mp hop with hop | hop
  · obtain ⟨k, hk, rfl⟩ := List.mem_map.mp hop
    have hparams : (k.params.map i.substitution.apply).all Ty.isConcrete := by
      simp only [List.all_map, List.all_eq_true]
      intro t ht
      obtain ⟨hwildcard, hwithin⟩ := hd.constructors k hk t ht
      exact hcloses.isConcrete_apply hwildcard hwithin
    rw [Operation.isConcrete_constructor, hclass, hparams]
    rfl
  · obtain ⟨m, hm, rfl⟩ := List.mem_map.mp hop
    obtain ⟨hm, hown⟩ := List.mem_filter.mp hm
    have htypes : ∀ t ∈ m.returns :: m.params, (i.substitution.apply t).isConcrete := by
      intro t ht
      obtain ⟨hwildcard, hwithin⟩ := hd.methods m hm t ht
      rw [List.isEmpty_iff.mp hown, List.append_nil] at hwithin
      exact hcloses.isConcrete_apply hwildcard hwithin
    have hparams : (m.params.map i.substitution.apply).all Ty.isConcrete := by
      simp only [List.all_map, List.all_eq_true]
      exact fun t ht => htypes t (by simp [ht])
    rw [Operation.isConcrete_method, hclass, hparams, htypes m.returns (by simp)]
    rfl

def Attempt.members (a : Attempt) : List Operation :=
  match a.outcome with
  | .ok (d, i) => i.operations d
  | .error _ => []

namespace Attempt

variable {s : Store} {u : Universe}

theorem operations_eq_members (a : Attempt) : a.operations = a.members := by
  unfold operations members
  cases a.outcome with
  | ok result => exact Catalog.operationsOf_eq result.1 result.2
  | error _ => rfl

theorem isConcrete_of_mem_members (hs : s.WellScoped) {r : Resolver} {ids : List ClassId}
    {a : Attempt} (ha : a ∈ s.attempts u r ids) : ∀ op ∈ a.members, op.isConcrete := by
  intro op hop
  unfold members at hop
  split at hop
  · rename_i d i houtcome
    obtain ⟨hd, hi⟩ := of_outcome_eq_ok ha houtcome
    obtain ⟨hcloses, hclass⟩ := Resolver.closes_of_instantiate hd hi
    exact i.isConcrete_of_mem_operations (hs.classDef _ d hd) hcloses hclass op hop
  · cases hop

end Attempt

namespace CatalogBuilder

/-- The builder that has been given the contributions, one after the other. -/
def ofContributions (δs : List Contribution) : CatalogBuilder := δs.foldl merge {}

/-- How the operations of a catalog come from contributions. -/
structure ListsOperations (δs : List Contribution) (s : Store) (r : Resolver) (c : Catalog) :
    Prop where
  /-- Each class under test is tried once, in the order in which it was first seen. -/
  tried : ((ofContributions δs).attempts s r).map Attempt.id =
    (δs.flatMap Contribution.classes).eraseDups
  explained : ∀ a ∈ (ofContributions δs).attempts s r,
    a.Explained s (ofContributions δs).inputTypes
  /-- The members of what is instantiated, then what was given directly, then the root class. -/
  operations : c.operations.toList = (((ofContributions δs).attempts s r).flatMap Attempt.members ++
    δs.flatMap Contribution.operations ++ [Operation.constructor ⟨.object, []⟩ []]).eraseDups

theorem listsOperations_contents {s : Store} (hs : s.WellScoped) {δs : List Contribution}
    (hδs : ∀ δ ∈ δs, ∀ op ∈ δ.operations, op.isConcrete) (r : Resolver) :
    ListsOperations δs s r ((ofContributions δs).contents s r) := by
  refine ⟨?_, fun a ha => Attempt.explained_of_mem ha, ?_⟩
  · have htested : (ofContributions δs).classes =
        OrderedSet.empty.insertAll (δs.flatMap Contribution.classes) := by
      rw [ofContributions, foldl_merge]
      rfl
    rw [attempts, Store.map_id_attempts, htested, OrderedSet.toList_insertAll]
    rfl
  · have hmembers : ((ofContributions δs).attempts s r).flatMap Attempt.operations =
        ((ofContributions δs).attempts s r).flatMap Attempt.members :=
      List.flatMap_congr fun a _ => a.operations_eq_members
    have hinstantiated : (((ofContributions δs).attempts s r).flatMap Attempt.members).filter
        Operation.isConcrete = ((ofContributions δs).attempts s r).flatMap Attempt.members := by
      rw [List.filter_eq_self]
      intro op hop
      obtain ⟨a, ha, hop⟩ := List.mem_flatMap.mp hop
      exact Attempt.isConcrete_of_mem_members hs ha op hop
    have hgiven : (ofContributions δs).operations = δs.flatMap Contribution.operations := by
      rw [ofContributions, foldl_merge]
      rfl
    have hdirect : (δs.flatMap Contribution.operations).filter Operation.isConcrete =
        δs.flatMap Contribution.operations := by
      rw [List.filter_eq_self]
      intro op hop
      obtain ⟨δ, hδ, hop⟩ := List.mem_flatMap.mp hop
      exact hδs δ hδ op hop
    rw [contents, OrderedSet.toList_ofList, hmembers, hinstantiated, hgiven, hdirect]
    rfl

theorem exists_build_listsOperations {ds : List ModelDecl} {extracted : List Contribution}
    {s : Store} (hs : ModelDecl.extractAll ds Platform.store = .ok (extracted, s))
    {δs : List Contribution} (hδs : δs ⊆ extracted) (r : Resolver) :
    ∃ c, ((ofContributions δs).build s r).1 = .ok c ∧ ListsOperations δs s r c := by
  obtain ⟨hwell, hconcrete⟩ :=
    ModelDecl.wellScoped_of_extractAll Platform.wellScoped_store hs
  exact ⟨_, build_eq_contents hwell.root,
    listsOperations_contents hwell (fun δ hδ => hconcrete δ (hδs hδ)) r⟩

/-- A class with a bounded type parameter and a method that has one of its own. -/
def boxModel : ModelDecl where
  classes := [{
    name := "Box"
    typeParams := [{ name := "T", bounds := [.applied "java.lang.Comparable" [.named "T"]] }]
    constructors := [⟨[.named "T"]⟩]
    methods := [
      { name := "get", returns := some (.named "T") },
      { name := "map", typeParams := [{ name := "R" }], params := [.named "R[]"] }] }]
  underTest := ["Box"]
  inputTypes := [.named "java.lang.Integer"]
  operations := [
    { declaring := .applied "Box" [.named "java.lang.Integer"], method := some "get" }]

end CatalogBuilder

end CallCatalog
