import CallCatalog.Proofs.ExtractedCatalogs

namespace CallCatalog

variable {f : Renaming} {s s' : Store}

namespace Store.Mentions

variable {C : ClassId → Prop} {V : TypeVarId → Prop} (hs : s.Mentions C V)
  (hC : ∀ id, C id → f.cls id = id) (hV : ∀ v, V v → f.var v = v)

include hs hC hV

theorem map_rename_classDef? (id : ClassId) :
    (s.classDef? id).map (ClassDef.rename f) = s.classDef? id := by
  cases hd : s.classDef? id with
  | none => rfl
  | some d => exact congrArg some (ClassDef.rename_eq_self ((hs.classDef id d hd).mono hC hV))

theorem map_rename_typeParam? (v : TypeVarId) :
    (s.typeParam? v).map (TypeParam.rename f) = s.typeParam? v := by
  cases hp : s.typeParam? v with
  | none => rfl
  | some p =>
      have hbound : p.bound.rename f = p.bound :=
        Bound.rename_eq_self p.bound (Bound.Within.mono hC hV _ (hs.typeParam v p hp))
      simp [TypeParam.rename, hbound]

end Store.Mentions

namespace ModelDecl

variable {cs cs' : List ClassDecl} {κ : ClassDecl → ClassContents} {ν ν' : Numbering}

theorem reads_rename (hn : Names.Renames f (names s cs) (names s' cs')) (hcs : cs.Perm cs')
    (hν : ∀ p ∈ places cs, ν' p = f.var (ν p)) (hκ : Reads s cs ν κ) :
    Reads s' cs' ν' fun c => (κ c).rename f := by
  intro c hc'
  have hc : c ∈ cs := hcs.mem_iff.mpr hc'
  have hown : ∀ p ∈ c.ownPlaces, ν' p = f.var (ν p) := fun p hp =>
    hν p (List.mem_append_left _ (List.mem_flatMap.mpr ⟨c, hc, hp⟩))
  have hmethods : ∀ p ∈ c.placesOfMethods, ν' p = f.var (ν p) := fun p hp =>
    hν p (List.mem_append_right _ (List.mem_flatMap.mpr ⟨c, hc, hp⟩))
  rw [Names.contents_rename hn hown hmethods, hκ c hc]
  rfl

theorem Distinct.perm (h : Distinct cs) (hcs : cs.Perm cs') : Distinct cs' where
  classes := (hcs.map ClassDecl.name).nodup_iff.mp h.classes
  typeParams c hc := h.typeParams c (hcs.mem_iff.mpr hc)
  methodTypeParams c hc := h.methodTypeParams c (hcs.mem_iff.mpr hc)

theorem classDef?_install_rename (hcs : cs.Perm cs') (hdistinct : Distinct cs)
    (hκ : Reads s cs ν κ) (hκ' : Reads s' cs' ν' fun c => (κ c).rename f)
    (hnumber : ∀ c ∈ cs, f.cls (s.numberOf (cs.map ClassDecl.name) c.name) =
      s'.numberOf (cs'.map ClassDecl.name) c.name)
    (hother : ∀ id, (∀ c ∈ cs, id ≠ s.numberOf (cs.map ClassDecl.name) c.name) →
      s'.classDef? (f.cls id) = (s.classDef? id).map (ClassDef.rename f)) (id : ClassId) :
    (install s' cs' fun c => (κ c).rename f).classDef? (f.cls id) =
      ((install s cs κ).classDef? id).map (ClassDef.rename f) := by
  have hnames := hdistinct.classes
  have hnames' := (hdistinct.perm hcs).classes
  rcases classDef?_install_cases hnames hκ id with ⟨c, hc, rfl, hnew⟩ | ⟨hid, hsame⟩
  · rw [hnumber c hc, hnew, classDef?_install_of_mem hnames' hκ' (hcs.mem_iff.mp hc)]
    rfl
  · -- Different numbers stay different, so no declared class takes the place of another one.
    have hid' : ∀ c ∈ cs', f.cls id ≠ s'.numberOf (cs'.map ClassDecl.name) c.name := by
      intro c hc' heq
      have hc := hcs.mem_iff.mpr hc'
      rw [← hnumber c hc] at heq
      exact hid c hc (f.cls_injective heq)
    rw [hsame, classDef?_install_of_ne hnames' hκ' hid', hother id hid]

section TypeParams

theorem zip_flatMap {α β γ : Type} {as : List α} {g : α → List β} {h : α → List γ}
    (hlength : ∀ a ∈ as, (g a).length = (h a).length) :
    (as.flatMap g).zip (as.flatMap h) = as.flatMap fun a => (g a).zip (h a) := by
  induction as with
  | nil => rfl
  | cons a as ih =>
      rw [List.flatMap_cons, List.flatMap_cons, List.flatMap_cons,
        List.zip_append (hlength a (by simp)), ih fun a' ha' => hlength a' (by simp [ha'])]

theorem zip_places (hκ : Reads s cs ν κ) : (places cs).zip (allParams cs κ) =
    (cs.flatMap fun c => c.ownPlaces.zip (κ c).params) ++
      cs.flatMap fun c => c.placesOfMethods.zip (κ c).methodParams := by
  have hown := fun c (hc : c ∈ cs) => (length_params_of_reads hκ hc).symm
  have hmethods := fun c (hc : c ∈ cs) => (length_methodParams_of_reads hκ hc).symm
  rw [places, allParams, List.zip_append (length_flatMap_eq hown), zip_flatMap hown,
    zip_flatMap hmethods]

variable (hcs : cs.Perm cs') (hdistinct : Distinct cs) (hκ : Reads s cs ν κ)
  (hκ' : Reads s' cs' ν' fun c => (κ c).rename f)

include hcs hκ hκ'

theorem zip_places_perm :
    (((places cs).zip (allParams cs κ)).map (Prod.map id (TypeParam.rename f))).Perm
      ((places cs').zip (allParams cs' fun c => (κ c).rename f)) := by
  rw [zip_places hκ, zip_places hκ', List.map_append, List.map_flatMap, List.map_flatMap]
  simp only [ClassContents.rename, List.zip_map_right]
  exact (hcs.flatMap_right _).append (hcs.flatMap_right _)

include hdistinct

theorem getElem?_allParams_of_place {i j : Nat}
    (hplace : (places cs')[j]? = (places cs)[i]?) :
    (allParams cs' fun c => (κ c).rename f)[j]? =
      (allParams cs κ)[i]?.map (TypeParam.rename f) := by
  have hlength := length_allParams_of_reads hκ
  have hlength' := length_allParams_of_reads hκ'
  cases hp : (places cs)[i]? with
  | none =>
      rw [hp] at hplace
      rw [List.getElem?_eq_none_iff] at hp hplace
      rw [List.getElem?_eq_none (hlength' ▸ hplace), List.getElem?_eq_none (hlength ▸ hp)]
      rfl
  | some p =>
      rw [hp] at hplace
      have hi : i < (allParams cs κ).length := by
        rw [hlength]
        exact (List.getElem?_eq_some_iff.mp hp).choose
      have hzip : ((places cs).zip (allParams cs κ))[i]? = some (p, (allParams cs κ)[i]) :=
        List.getElem?_zip_eq_some.mpr ⟨hp, List.getElem?_eq_getElem hi⟩
      have hmem := (zip_places_perm hcs hκ hκ').mem_iff.mp
        (List.mem_map_of_mem (List.mem_of_getElem? hzip))
      obtain ⟨j', hj'⟩ := List.getElem?_of_mem hmem
      obtain ⟨hplace', hparam⟩ := List.getElem?_zip_eq_some.mp hj'
      -- No place occurs twice, so `j` is where the pair stands.
      have hnodup := nodup_places (hdistinct.perm hcs).classes
      have hj : j' = j := by
        have hlt := (List.getElem?_eq_some_iff.mp hplace').choose
        exact (List.getElem?_inj hlt hnodup).mp (hplace'.trans hplace.symm)
      rw [← hj, hparam, List.getElem?_eq_getElem hi]
      rfl

theorem typeParam?_install_rename
    (hold : ∀ v, s.HasParam v → s'.HasParam (f.var v) ∧
      s'.typeParam? (f.var v) = (s.typeParam? v).map (TypeParam.rename f))
    (hnew : ∀ i, ∃ j, f.var ⟨s.typeParams.length + i⟩ = ⟨s'.typeParams.length + j⟩ ∧
      (places cs')[j]? = (places cs)[i]?) (v : TypeVarId) :
    (install s' cs' fun c => (κ c).rename f).typeParam? (f.var v) =
      ((install s cs κ).typeParam? v).map (TypeParam.rename f) := by
  have hnames := hdistinct.classes
  have hnames' := (hdistinct.perm hcs).classes
  by_cases hv : s.HasParam v
  · obtain ⟨hv', hsame⟩ := hold v hv
    rw [typeParam?_install_of_hasParam hnames hv, typeParam?_install_of_hasParam hnames' hv', hsame]
  · obtain ⟨i, rfl⟩ := Store.exists_eq_add_of_not_hasParam hv
    obtain ⟨j, hj, hplace⟩ := hnew i
    rw [hj, typeParam?_install_add hnames, typeParam?_install_add hnames']
    exact getElem?_allParams_of_place hcs hdistinct hκ hκ' hplace

end TypeParams

theorem renames_install (hcs : cs.Perm cs') (hdistinct : Distinct cs) (hκ : Reads s cs ν κ)
    (hn : Names.Renames f (names s cs) (names s' cs')) (hν : ∀ p ∈ places cs, ν' p = f.var (ν p)) :
    Names.Renames f ⟨install s cs κ, declaredClasses s cs, []⟩
      ⟨install s' cs' fun c => (κ c).rename f, declaredClasses s' cs', []⟩ := by
  have hκ' := reads_rename hn hcs hν hκ
  refine ⟨fun name => ?_, rfl⟩
  rw [← matches_install (hdistinct.perm hcs).classes hκ' name,
    ← matches_install hdistinct.classes hκ name]
  exact hn.classes name

section Extract

variable {d : ModelDecl} {δ : Contribution} (hcs : d.classes.Perm cs')
  (hdistinct : Distinct d.classes)
  (hκ : Reads s d.classes (numbering s.typeParams.length d.classes) κ)
  (hn : Names.Renames f (names s d.classes) (names s' cs'))
  (hν : ∀ p ∈ places d.classes, numbering s'.typeParams.length cs' p =
    f.var (numbering s.typeParams.length d.classes p))
  (hδ : d.contribution ⟨install s d.classes κ, declaredClasses s d.classes, []⟩ = .ok δ)

include hcs hdistinct hκ hn hν hδ

theorem exists_extract_of_renames :
    ∃ δ' s₁', ({ d with classes := cs' } : ModelDecl).extract s' = .ok (δ', s₁') := by
  obtain ⟨_, -, hδ'⟩ :=
    contribution_of_renames (renames_install hcs hdistinct hκ hn hν) hδ
  exact ⟨_, _, extract_eq_ok_iff.mpr
    ⟨hdistinct.perm hcs, _, reads_rename hn hcs hν hκ, rfl, hδ'⟩⟩

theorem extract_rename
    (hstore : f.Carries (install s d.classes κ) (install s' cs' fun c => (κ c).rename f)) :
    ({ d with classes := cs' } : ModelDecl).extract s' =
      .ok (δ.rename f, install s' cs' fun c => (κ c).rename f) := by
  have hδ' := contribution_rename (renames_install hcs hdistinct hκ hn hν) hstore hδ
  exact extract_eq_ok_iff.mpr ⟨hdistinct.perm hcs, _, reads_rename hn hcs hν hκ, rfl, hδ'⟩

end Extract

end ModelDecl

namespace CatalogBuilder

theorem report_ofContributions_rename (h : f.Carries s s')
    (hs : s.Mentions (fun _ => True) s.HasParam) {δ : Contribution}
    (hinputTypes : ∀ t ∈ δ.inputTypes, t.isConcrete) (r : Resolver) :
    (ofContributions [δ.rename f]).report s' r = (ofContributions [δ]).report s r := by
  have hrename : ofContributions [δ.rename f] = (ofContributions [δ]).rename f :=
    merge_rename {} δ
  rw [hrename]
  refine report_rename h hs fun t ht => ?_
  have hmem : t ∈ δ.inputTypes := by
    have hinserted : t ∈ OrderedSet.empty.insertAll δ.inputTypes := ht
    exact OrderedSet.mem_ofList.mp hinserted
  exact (Ty.isConcrete_iff.mp (hinputTypes t hmem)).2

end CatalogBuilder

namespace ModelDecl

/-- The report on what descriptions contribute that are put into a store, one after the other. There
is none if one of them cannot be extracted. -/
def reportAll? (ds : List ModelDecl) (s : Store) (r : Resolver) :
    Option (Except BuildError Report) :=
  match extractAll ds s with
  | .ok (δs, s') => some ((CatalogBuilder.ofContributions δs).report s' r)
  | .error _ => none

variable {d : ModelDecl} {ds : List ModelDecl} {δ : Contribution} {δs : List Contribution}
  {s₁ s₂ : Store} {r : Resolver}

theorem extractAll_cons (h : d.extract s = .ok (δ, s₁)) (hrest : extractAll ds s₁ = .ok (δs, s₂)) :
    extractAll (d :: ds) s = .ok (δ :: δs, s₂) :=
  bind_eq_ok_iff.mpr ⟨_, h, bind_eq_ok_iff.mpr ⟨_, hrest, rfl⟩⟩

theorem reportAll?_of_extractAll (h : extractAll ds s = .ok (δs, s₁)) :
    reportAll? ds s r = some ((CatalogBuilder.ofContributions δs).report s₁ r) := by
  rw [reportAll?, h]

theorem reportAll?_of_extract (h : d.extract s = .ok (δ, s₁)) :
    reportAll? [d] s r = some ((CatalogBuilder.ofContributions [δ]).report s₁ r) :=
  reportAll?_of_extractAll (extractAll_cons h rfl)

theorem reportAll?_of_error {e : DeclarationError} (h : d.extract s = .error e) :
    reportAll? (d :: ds) s r = none := by
  rw [reportAll?, extractAll, h]
  rfl

end ModelDecl

end CallCatalog
