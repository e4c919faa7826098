import CallCatalog.Proofs.EndlessEnumerations
import CallCatalog.Proofs.ExtractedCatalogs

/-!
Builds that never end. The classes under test are tried one after the other, and the first one whose
enumeration never ends keeps the catalog from being built. What may draw from the source of
randomness before it makes no difference, since only the limit on the number of tuples matters.
-/

namespace CallCatalog

variable {s : Store} {u : Universe} {r : Resolver} {id : ClassId}

namespace Resolver

theorem eq_instantiate_of_instantiate? {result : Except InstantiationError Instantiation × Resolver}
    (h : r.instantiate? s id u = some result) : result = r.instantiate s id u := by
  unfold instantiate? at h
  unfold instantiate
  cases hd : s.classDef? id with
  | none =>
      rw [hd] at h
      exact (Option.some.inj h).symm
  | some d =>
      rw [hd] at h
      dsimp only at h ⊢
      split
      · rename_i hgeneric
        rw [if_pos hgeneric] at h
        obtain ⟨found, hfound, rfl⟩ := Option.map_eq_some_iff.mp h
        rw [Store.eq_substitutions_of_substitutions? hfound]
      · rename_i hgeneric
        rw [if_neg hgeneric] at h
        exact (Option.some.inj h).symm

theorem instantiate?_eq_none_iff :
    r.instantiate? s id u = none ↔ ¬ s.Decides id u r.options.maxTuples := by
  rw [Store.not_decides_iff, ← Store.substitutions?_eq_none_iff, instantiate?]
  cases hd : s.classDef? id with
  | none => simp [Store.substitutions?_of_undefined hd]
  | some d =>
      dsimp only
      split
      · exact Option.map_eq_none_iff
      · rename_i hgeneric
        have hparams : d.typeParams = [] := by simpa [ClassDef.isGeneric] using hgeneric
        rw [Store.substitutions?_of_accepted hd (by rw [hparams]; rfl)]
        exact iff_of_false (Option.some_ne_none _) (Option.some_ne_none _)

theorem instantiate?_of_decides (h : s.Decides id u r.options.maxTuples) :
    r.instantiate? s id u = some (r.instantiate s id u) := by
  cases hresult : r.instantiate? s id u with
  | none => exact absurd h (instantiate?_eq_none_iff.mp hresult)
  | some result => rw [eq_instantiate_of_instantiate? hresult]

end Resolver

/-- The class is asked for instances, and it never ends to find out what there is to choose from. -/
def Store.Stalls (s : Store) (u : Universe) (limit : Option Nat) (id : ClassId) : Prop :=
  s.isInstantiable id ∧
    ∃ bound σ t, s.Examines id u limit bound σ t ∧ bound.satisfied? s σ t = none

namespace Catalog

variable {state state' : Catalog × Resolver} {ids : List ClassId}

theorem addUnderTest?_eq (c : Catalog) (r : Resolver) (id : ClassId) :
    addUnderTest? s u (c, r) id =
      if s.isInstantiable id then
        (r.instantiate? s id u).map fun _ => addUnderTest s u (c, r) id
      else some (addUnderTest s u (c, r) id) := by
  unfold addUnderTest? addUnderTest Store.isInstantiable
  cases hd : s.classDef? id with
  | none => rfl
  | some d =>
      dsimp only [Option.any_some]
      by_cases hkind : d.kind = .interface
      · simp [hkind, ClassDef.isInstantiable]
      by_cases habstract : (d.isAbstract && d.kind ≠ .enumeration) = true
      · have hinst : d.isInstantiable = false := by
          simpa [ClassDef.isInstantiable, hkind] using habstract
        simp only [if_neg hkind, if_pos habstract, hinst, Bool.false_eq_true, if_false]
      · have hinst : d.isInstantiable = true := by
          cases ha : d.isAbstract <;> simp_all [ClassDef.isInstantiable]
        simp only [if_neg hkind, if_neg habstract, if_pos hinst]
        cases hresult : r.instantiate? s id u with
        | none => rfl
        | some result => rw [Resolver.eq_instantiate_of_instantiate? hresult]; rfl

theorem eq_addUnderTest_of_addUnderTest? (h : addUnderTest? s u state id = some state') :
    state' = addUnderTest s u state id := by
  rw [addUnderTest?_eq] at h
  split at h
  · obtain ⟨-, -, rfl⟩ := Option.map_eq_some_iff.mp h
    rfl
  · exact (Option.some.inj h).symm

theorem addUnderTest?_eq_none_iff : addUnderTest? s u state id = none ↔
    s.Stalls u state.2.options.maxTuples id := by
  rw [addUnderTest?_eq, Store.Stalls]
  split
  · rename_i hinst
    rw [Option.map_eq_none_iff, Resolver.instantiate?_eq_none_iff, Store.not_decides_iff,
      and_iff_right hinst]
  · rename_i hinst
    exact ⟨nofun, fun h => absurd h.1 hinst⟩

theorem options_addUnderTest : (addUnderTest s u state id).2.options = state.2.options := by
  rw [addUnderTest_eq]
  exact Store.options_attempt state.2 id

theorem eq_foldl_of_foldlM_addUnderTest? (h : ids.foldlM (addUnderTest? s u) state = some state') :
    state' = ids.foldl (addUnderTest s u) state := by
  induction ids generalizing state with
  | nil => exact (Option.some.inj h).symm
  | cons id ids ih =>
      rw [List.foldlM_cons] at h
      obtain ⟨next, hnext, h⟩ := Option.bind_eq_some_iff.mp h
      rw [List.foldl_cons, ← eq_addUnderTest_of_addUnderTest? hnext]
      exact ih h

theorem foldlM_addUnderTest?_eq_none_iff : ids.foldlM (addUnderTest? s u) state = none ↔
    ∃ id ∈ ids, s.Stalls u state.2.options.maxTuples id := by
  induction ids generalizing state with
  | nil => simp
  | cons id ids ih =>
      rw [List.foldlM_cons, List.exists_mem_cons_iff, ← addUnderTest?_eq_none_iff]
      cases hnext : addUnderTest? s u state id with
      | none => simp [bind]
      | some next =>
          have hoptions : next.2.options = state.2.options := by
            rw [eq_addUnderTest_of_addUnderTest? hnext, options_addUnderTest]
          simp [bind, ih, hoptions]

end Catalog

namespace Store

theorem options_of_mem_attempts {ids : List ClassId} {a : Attempt} (h : a ∈ s.attempts u r ids) :
    a.resolver.options = r.options := by
  induction ids generalizing r with
  | nil => cases h
  | cons id ids ih =>
      rcases List.mem_cons.mp h with rfl | h
      · rfl
      · exact (ih h).trans (options_attempt r id)

end Store

theorem ModelDecl.store_eq_of_extract {d : ModelDecl} {s s' : Store} {δ : Contribution}
    (hclasses : d.classes = []) (h : d.extract s = .ok (δ, s')) : s' = s := by
  obtain ⟨-, κ, -, hs, -⟩ := extract_eq_ok_iff.mp h
  rw [hs, install, hclasses]
  simp [allParams, Store.appendParams, defineEach, Store.internAll]

namespace CatalogBuilder

variable {b : CatalogBuilder}

theorem eq_build_of_build? {result : Except BuildError Catalog × Resolver}
    (h : b.build? s r = some result) : result = b.build s r := by
  unfold build? at h
  unfold build
  split
  · rename_i hroot
    rw [if_pos hroot] at h
    exact (Option.some.inj h).symm
  · rename_i hroot
    rw [if_neg hroot] at h
    obtain ⟨state, hstate, h⟩ := Option.bind_eq_some_iff.mp h
    rw [← Catalog.eq_foldl_of_foldlM_addUnderTest? hstate]
    exact (Option.some.inj h).symm

theorem build?_eq_none_iff (hroot : (s.classDef? .object).isSome) : b.build? s r = none ↔
    ∃ id ∈ b.classes, s.Stalls b.inputTypes r.options.maxTuples id := by
  have hsome : ¬ (s.classDef? .object).isNone = true := by
    simpa [Option.isNone_iff_eq_none, Option.isSome_iff_ne_none] using hroot
  have hloop := @Catalog.foldlM_addUnderTest?_eq_none_iff s b.inputTypes
    (.start b.inputTypes, r) b.classes.toList
  rw [build?, if_neg hsome]
  refine Iff.trans ?_ hloop
  cases b.classes.toList.foldlM (Catalog.addUnderTest? s b.inputTypes)
    (.start b.inputTypes, r) <;> simp [bind]

/-- Whether the catalog over a store that descriptions have been put into is ever built depends on
the classes under test alone: one of them must not be asked for instances that it never ends to
find. If it is built, no constructor, no method and no operation that was given directly is missing
from it. It is built if there is no cycle in the declarations and no declared supertype mentions
`? super`. -/
theorem build?_listsOperations {ds : List ModelDecl} {extracted : List Contribution}
    {s : Store} (hs : ModelDecl.extractAll ds Platform.store = .ok (extracted, s))
    {δs : List Contribution} (hδs : δs ⊆ extracted) (r : Resolver) :
    ((ofContributions δs).build? s r = none ↔
      ∃ id ∈ (ofContributions δs).classes, s.isInstantiable id ∧ ∃ bound σ t,
        s.Examines id (ofContributions δs).inputTypes r.options.maxTuples bound σ t ∧
          bound.satisfied? s σ t = none) ∧
    (∀ result next, (ofContributions δs).build? s r = some (result, next) →
      ∃ c, result = .ok c ∧ ListsOperations δs s r c ∧
        ∀ a ∈ (ofContributions δs).attempts s r, s.isInstantiable a.id →
          a.resolver.instantiate? s a.id (ofContributions δs).inputTypes =
            some (a.resolver.instantiate s a.id (ofContributions δs).inputTypes)) ∧
    (s.Acyclic → s.DeclaresNoLower → (ofContributions δs).build? s r ≠ none) := by
  have hroot := (ModelDecl.wellScoped_of_extractAll Platform.wellScoped_store hs).1.root
  refine ⟨build?_eq_none_iff hroot, fun result next hresult => ?_,
    fun hacyclic hlower hnone => ?_⟩
  · obtain ⟨c, hc, hlists⟩ := exists_build_listsOperations hs hδs r
    rw [← eq_build_of_build? hresult] at hc
    refine ⟨c, hc, hlists, fun a ha hinst => ?_⟩
    apply Resolver.instantiate?_of_decides
    rw [Store.options_of_mem_attempts ha]
    by_contra hnot
    have hid : a.id ∈ (ofContributions δs).classes.toList := by
      rw [← Store.map_id_attempts r (ofContributions δs).classes.toList]
      exact List.mem_map_of_mem ha
    rw [(build?_eq_none_iff hroot).mpr ⟨a.id, hid, hinst, Store.not_decides_iff.mp hnot⟩] at hresult
    cases hresult
  · obtain ⟨id, -, -, hstuck⟩ := (build?_eq_none_iff hroot).mp hnone
    exact Store.not_decides_iff.mpr hstuck (Store.decides_of_acyclic hacyclic hlower _ _ _)

/-- `class N<T>`, `class C extends N<N<? super C>>` and
`class D<U extends N<? super C> & Cloneable>`, with `D` under test and `C` observed. -/
def knotModel : ModelDecl where
  classes := [
    { name := "N", typeParams := [{ name := "T" }] },
    { name := "C", superClass := some (.applied "N" [.applied "N" [.sup (.named "C")]]) },
    { name := "D", typeParams := [{
        name := "U"
        bounds := [.applied "N" [.sup (.named "C")], .named "java.lang.Cloneable"] }] }]
  underTest := ["D"]
  inputTypes := [.named "C"]

theorem exists_extractAll_knotModel : ∃ s,
    ModelDecl.extractAll [knotModel] Platform.store =
      .ok ([{ classes := [⟨21⟩], inputTypes := [.cls ⟨20⟩ []] }], s) ∧ s.HasKnot := by
  have hfacts : (ModelDecl.extractAll [knotModel] Platform.store).toOption.map (fun p =>
      (p.1, p.2.classDef? ⟨20⟩, p.2.classDef? ⟨21⟩, p.2.typeParam? ⟨11⟩)) =
        some ([{ classes := [⟨21⟩], inputTypes := [.cls ⟨20⟩ []] }], some Store.knotDef,
          some Store.knotBoundDef, some ⟨"U", Store.knotBound⟩) := by
    decide +kernel
  cases hextracted : ModelDecl.extractAll [knotModel] Platform.store with
  | error _ =>
      rw [hextracted] at hfacts
      cases hfacts
  | ok result =>
      rw [hextracted] at hfacts
      obtain ⟨hδs, hfacts⟩ := Prod.mk.inj (Option.some.inj hfacts)
      obtain ⟨hknot, hfacts⟩ := Prod.mk.inj hfacts
      obtain ⟨hbounded, hparam⟩ := Prod.mk.inj hfacts
      exact ⟨result.2, by rw [← hδs], hknot, hbounded, hparam⟩

def listModel : ModelDecl where
  underTest := ["java.util.ArrayList"]
  inputTypes := [.named "java.lang.Integer"]

theorem extractAll_listModel : ModelDecl.extractAll [listModel] Platform.store =
    .ok ([{ classes := [Platform.arrayList]
            inputTypes := [Platform.plain .integer, Platform.intTy] }], Platform.store) := by
  have hδ : (listModel.extract Platform.store).toOption.map Prod.fst =
      some { classes := [Platform.arrayList]
             inputTypes := [Platform.plain .integer, Platform.intTy] } := by
    decide +kernel
  cases hextracted : listModel.extract Platform.store with
  | error _ =>
      rw [hextracted] at hδ
      cases hδ
  | ok result =>
      obtain ⟨δ, s⟩ := result
      rw [hextracted] at hδ
      obtain rfl := ModelDecl.store_eq_of_extract rfl hextracted
      obtain rfl := Option.some.inj hδ
      simp only [ModelDecl.extractAll, hextracted]
      rfl

/-- With `D` under test no catalog is ever built, and with `ArrayList` one is. -/
theorem build?_listsOperations_knot :
    (∃ extracted s, ModelDecl.extractAll [knotModel] Platform.store = .ok (extracted, s) ∧
      (ofContributions extracted).build? s {} = none) ∧
    ∃ extracted, ModelDecl.extractAll [listModel] Platform.store = .ok (extracted, Platform.store) ∧
      ∃ c r, (ofContributions extracted).build? Platform.store {} = some (.ok c, r) ∧
        ListsOperations extracted Platform.store {} c := by
  obtain ⟨s, hextracted, hknot⟩ := exists_extractAll_knotModel
  refine ⟨⟨_, s, hextracted, ?_⟩, _, extractAll_listModel, ?_⟩
  · refine (build?_listsOperations hextracted (List.Subset.refl _) {}).1.mpr ?_
    refine ⟨⟨21⟩, List.mem_singleton.mpr rfl, ?_, Store.not_decides_iff.mp ?_⟩
    · simp only [Store.isInstantiable, hknot.bounded]
      rfl
    · exact hknot.not_decides (by decide) _
  · obtain ⟨-, hlists, hends⟩ :=
      build?_listsOperations extractAll_listModel (List.Subset.refl _) {}
    obtain ⟨⟨result, r⟩, hresult⟩ :=
      Option.ne_none_iff_exists'.mp (hends Store.acyclic_platform (.of_classes (by decide)))
    obtain ⟨c, rfl, hc, -⟩ := hlists result r hresult
    exact ⟨c, r, hresult, hc⟩

end CatalogBuilder

end CallCatalog
