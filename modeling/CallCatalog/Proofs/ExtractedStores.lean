import CallCatalog.Proofs.Extraction

namespace CallCatalog

namespace ModelDecl

variable {s s' : Store}

section DefineEach

variable {number : String → ClassId} {ds : List ClassDef}

theorem typeParams_defineEach : (defineEach s number ds).typeParams = s.typeParams := by
  induction ds generalizing s with
  | nil => rfl
  | cons d ds ih => exact ih (s := s.define (number d.name) d)

theorem classId?_defineEach (name : String) :
    (defineEach s number ds).classId? name = s.classId? name := by
  induction ds generalizing s with
  | nil => rfl
  | cons d ds ih => exact ih.trans (Store.classId?_define (number d.name) d name)

theorem className?_defineEach (id : ClassId) :
    (defineEach s number ds).className? id = s.className? id := by
  induction ds generalizing s with
  | nil => rfl
  | cons d ds ih => exact ih.trans (Store.className?_define (number d.name) d id)

theorem classDef?_defineEach_of_ne {id : ClassId} (hclass : ∀ d ∈ ds, s.HasClass (number d.name))
    (hne : ∀ d ∈ ds, id ≠ number d.name) :
    (defineEach s number ds).classDef? id = s.classDef? id := by
  induction ds generalizing s with
  | nil => rfl
  | cons d ds ih =>
      have hrest : ∀ d' ∈ ds, (s.define (number d.name) d).HasClass (number d'.name) := by
        intro d' hd'
        rw [Store.HasClass, Store.length_classes_define]
        exact hclass d' (by simp [hd'])
      refine (ih hrest fun d' hd' => hne d' (by simp [hd'])).trans ?_
      rw [Store.classDef?_define (hclass d (by simp)), if_neg (hne d (by simp))]

theorem classDef?_defineEach_of_mem (hclass : ∀ d ∈ ds, s.HasClass (number d.name))
    (hnodup : (ds.map fun d => number d.name).Nodup) {d : ClassDef} (hd : d ∈ ds) :
    (defineEach s number ds).classDef? (number d.name) = some d := by
  induction ds generalizing s with
  | nil => cases hd
  | cons first ds ih =>
      obtain ⟨hfirst, hnodup⟩ := List.nodup_cons.mp hnodup
      have hrest : ∀ d' ∈ ds, (s.define (number first.name) first).HasClass (number d'.name) := by
        intro d' hd'
        rw [Store.HasClass, Store.length_classes_define]
        exact hclass d' (by simp [hd'])
      rcases List.mem_cons.mp hd with rfl | hd
      · have hne : ∀ d' ∈ ds, number d.name ≠ number d'.name := by
          intro d' hd' heq
          exact hfirst (List.mem_map.mpr ⟨d', hd', heq.symm⟩)
        refine (classDef?_defineEach_of_ne hrest hne).trans ?_
        rw [Store.classDef?_define (hclass d (by simp)), if_pos rfl]
      · exact ih hrest hnodup hd

theorem matches_defineEach {declared : DeclaredClasses} {n : Names} (hn : Matches s declared n)
    (hlookup : ∀ d ∈ ds, ∃ arity, declared.lookup d.name = some (number d.name, arity))
    (hid : ∀ d ∈ ds, s.classId? d.name = some (number d.name)) :
    Matches (defineEach s number ds) declared n := by
  induction ds generalizing s with
  | nil => exact hn
  | cons d ds ih =>
      obtain ⟨arity, harity⟩ := hlookup d (by simp)
      refine ih (hn.define harity (hid d (by simp)) d) (fun d' hd' => hlookup d' (by simp [hd'])) ?_
      intro d' hd'
      rw [Store.classId?_define]
      exact hid d' (by simp [hd'])

end DefineEach

section Install

variable {cs : List ClassDecl} {κ : ClassDecl → ClassContents} {ν : Numbering}

/-- Every class of the description has been read. -/
def Reads (s : Store) (cs : List ClassDecl) (ν : Numbering) (κ : ClassDecl → ClassContents) :
    Prop :=
  ∀ c ∈ cs, (names s cs).contents ν c = .ok (κ c)

theorem classId?_install (name : String) : (install s cs κ).classId? name =
    (s.internAll (cs.map ClassDecl.name)).classId? name :=
  classId?_defineEach name

variable (hnames : (cs.map ClassDecl.name).Nodup)

include hnames

theorem typeParams_install :
    (install s cs κ).typeParams = s.typeParams ++ allParams cs κ := by
  simp only [install, Store.appendParams, typeParams_defineEach, Store.typeParams_internAll hnames]

theorem typeParam?_install_of_hasParam {v : TypeVarId} (hv : s.HasParam v) :
    (install s cs κ).typeParam? v = s.typeParam? v := by
  rw [Store.typeParam?, typeParams_install hnames]
  exact List.getElem?_append_left hv

theorem typeParam?_install_add (i : Nat) :
    (install s cs κ).typeParam? ⟨s.typeParams.length + i⟩ = (allParams cs κ)[i]? := by
  rw [Store.typeParam?, typeParams_install hnames,
    List.getElem?_append_right (Nat.le_add_right _ _), Nat.add_sub_cancel_left]

theorem className?_install (id : ClassId) : (install s cs κ).className? id =
    if id.index < s.classes.length then s.className? id
    else (s.newNames (cs.map ClassDecl.name))[id.index - s.classes.length]? := by
  rw [← Store.className?_internAll hnames]
  exact className?_defineEach id

theorem classId?_install_of_mem {c : ClassDecl} (hc : c ∈ cs) :
    (install s cs κ).classId? c.name = some (s.numberOf (cs.map ClassDecl.name) c.name) := by
  rw [classId?_install]
  exact Store.classId?_internAll_of_mem hnames (List.mem_map_of_mem hc)

theorem hasClass_numberOf {c : ClassDecl} (hc : c ∈ cs) :
    (s.internAll (cs.map ClassDecl.name)).HasClass
      (s.numberOf (cs.map ClassDecl.name) c.name) :=
  Store.hasClass_of_classId? (Store.classId?_internAll_of_mem hnames (List.mem_map_of_mem hc))

theorem numberOf_injective {c c' : ClassDecl} (hc : c ∈ cs) (hc' : c' ∈ cs)
    (h : s.numberOf (cs.map ClassDecl.name) c.name =
      s.numberOf (cs.map ClassDecl.name) c'.name) : c.name = c'.name := by
  have hid := Store.classId?_internAll_of_mem (s := s) hnames (List.mem_map_of_mem hc)
  have hid' := Store.classId?_internAll_of_mem (s := s) hnames (List.mem_map_of_mem hc')
  rw [← h] at hid'
  exact Store.classId?_injective hid hid'

variable (hκ : Reads s cs ν κ)

include hκ

omit hnames in
theorem name_of_reads {c : ClassDecl} (hc : c ∈ cs) : (κ c).definition.name = c.name :=
  (Names.defines_of_classDef (Names.contents_eq_ok_iff.mp (hκ c hc)).2.2).name

theorem classDef?_install_of_mem {c : ClassDecl} (hc : c ∈ cs) :
    (install s cs κ).classDef? (s.numberOf (cs.map ClassDecl.name) c.name) =
      some (κ c).definition := by
  have hclass : ∀ d ∈ cs.map fun c => (κ c).definition,
      (s.internAll (cs.map ClassDecl.name)).HasClass
        (s.numberOf (cs.map ClassDecl.name) d.name) := by
    intro d hd
    obtain ⟨c', hc', rfl⟩ := List.mem_map.mp hd
    rw [name_of_reads hκ hc']
    exact hasClass_numberOf hnames hc'
  have hnodup : ((cs.map fun c => (κ c).definition).map fun d =>
      s.numberOf (cs.map ClassDecl.name) d.name).Nodup := by
    have hnumbers : ((cs.map fun c => (κ c).definition).map fun d =>
        s.numberOf (cs.map ClassDecl.name) d.name) =
          (cs.map ClassDecl.name).map (s.numberOf (cs.map ClassDecl.name)) := by
      rw [List.map_map, List.map_map]
      exact List.map_congr_left fun c' hc' => congrArg _ (name_of_reads hκ hc')
    rw [hnumbers]
    refine hnames.map_on ?_
    intro name hname name' hname' heq
    obtain ⟨c₁, hc₁, rfl⟩ := List.mem_map.mp hname
    obtain ⟨c₂, hc₂, rfl⟩ := List.mem_map.mp hname'
    exact numberOf_injective hnames hc₁ hc₂ heq
  have hdef := classDef?_defineEach_of_mem hclass hnodup (List.mem_map_of_mem hc)
  rw [name_of_reads hκ hc] at hdef
  exact hdef

theorem classDef?_install_of_ne {id : ClassId}
    (hne : ∀ c ∈ cs, id ≠ s.numberOf (cs.map ClassDecl.name) c.name) :
    (install s cs κ).classDef? id = s.classDef? id := by
  refine Eq.trans (classDef?_defineEach_of_ne ?_ ?_) (Store.classDef?_internAll hnames id)
  · intro d hd
    obtain ⟨c, hc, rfl⟩ := List.mem_map.mp hd
    rw [name_of_reads hκ hc]
    exact hasClass_numberOf hnames hc
  · intro d hd
    obtain ⟨c, hc, rfl⟩ := List.mem_map.mp hd
    rw [name_of_reads hκ hc]
    exact hne c hc

theorem classDef?_install_cases (id : ClassId) :
    (∃ c ∈ cs, id = s.numberOf (cs.map ClassDecl.name) c.name ∧
        (install s cs κ).classDef? id = some (κ c).definition) ∨
      ((∀ c ∈ cs, id ≠ s.numberOf (cs.map ClassDecl.name) c.name) ∧
        (install s cs κ).classDef? id = s.classDef? id) := by
  by_cases hid : ∃ c ∈ cs, id = s.numberOf (cs.map ClassDecl.name) c.name
  · obtain ⟨c, hc, rfl⟩ := hid
    exact Or.inl ⟨c, hc, rfl, classDef?_install_of_mem hnames hκ hc⟩
  · simp only [not_exists, not_and] at hid
    exact Or.inr ⟨hid, classDef?_install_of_ne hnames hκ hid⟩

omit hnames in
theorem length_params_of_reads {c : ClassDecl} (hc : c ∈ cs) :
    (κ c).params.length = c.ownPlaces.length := by
  obtain ⟨hparams, -, -⟩ := Names.contents_eq_ok_iff.mp (hκ c hc)
  simp [Names.length_of_typeParams hparams, ClassDecl.ownPlaces, paramPlaces]

omit hnames in
theorem length_methodParams_of_reads {c : ClassDecl} (hc : c ∈ cs) :
    (κ c).methodParams.length = c.placesOfMethods.length := by
  obtain ⟨-, hparams, -⟩ := Names.contents_eq_ok_iff.mp (hκ c hc)
  exact Names.length_of_methodTypeParams hparams

omit hnames in
theorem length_allParams_of_reads : (allParams cs κ).length = (places cs).length := by
  have hown := length_flatMap_eq fun c hc => length_params_of_reads hκ hc
  have hmethods := length_flatMap_eq fun c hc => length_methodParams_of_reads hκ hc
  rw [allParams, places, List.length_append, List.length_append, hown, hmethods]

theorem length_typeParams_install :
    (install s cs κ).typeParams.length = s.typeParams.length + (places cs).length := by
  rw [typeParams_install hnames, List.length_append, length_allParams_of_reads hκ]

theorem hasParam_install {v : TypeVarId} (hv : s.HasParam v) : (install s cs κ).HasParam v := by
  rw [Store.HasParam, length_typeParams_install hnames hκ]
  exact Nat.lt_add_right _ hv

section Counts

variable (hν : ν.Counts s.typeParams.length (places cs))

include hν

theorem hasParam_install_of_mem_places {p : ParamPlace} (hp : p ∈ places cs) :
    (install s cs κ).HasParam (ν p) := by
  obtain ⟨i, hi, rfl⟩ := List.getElem_of_mem hp
  rw [hν i _ (List.getElem?_eq_getElem hi), Store.HasParam, length_typeParams_install hnames hκ]
  exact Nat.add_lt_add_left hi _

theorem hasParam_install_of_inside {c : ClassDecl} (hc : c ∈ cs) {v : TypeVarId}
    (hv : ((names s cs).inside ν c).Scopes v) : (install s cs κ).HasParam v := by
  rw [Names.Scopes, Names.inside, Numbering.map_snd_scope] at hv
  obtain ⟨p, hp, rfl⟩ := List.mem_map.mp hv
  exact hasParam_install_of_mem_places hnames hκ hν
    (List.mem_append_left _ (List.mem_flatMap.mpr ⟨c, hc, hp⟩))

theorem hasParam_install_of_methodScopes {c : ClassDecl} (hc : c ∈ cs) {own : Scope}
    (hown : own ∈ ν.methodScopes c.name 0 c.methods) {v : TypeVarId} (hv : v ∈ own.map Prod.snd) :
    (install s cs κ).HasParam v := by
  obtain ⟨p, hp, rfl⟩ := Numbering.mem_of_mem_methodScopes hown hv
  exact hasParam_install_of_mem_places hnames hκ hν
    (List.mem_append_right _ (List.mem_flatMap.mpr ⟨c, hc, hp⟩))

theorem within_definition_of_reads {c : ClassDecl} (hc : c ∈ cs) :
    (κ c).definition.Within (fun _ => True) (install s cs κ).HasParam := by
  obtain ⟨-, -, hdefinition⟩ := Names.contents_eq_ok_iff.mp (hκ c hc)
  exact (Names.defines_of_classDef hdefinition).withinDef (fun _ _ => trivial) trivial
    (fun _ hv => hasParam_install_of_inside hnames hκ hν hc hv)
    fun _ hown _ hv => hasParam_install_of_methodScopes hnames hκ hν hc hown hv

theorem within_params_of_reads {c : ClassDecl} (hc : c ∈ cs) :
    ∀ p ∈ (κ c).params ++ (κ c).methodParams,
      p.bound.Within (fun _ => True) (install s cs κ).HasParam := by
  obtain ⟨hparams, hmethodParams, -⟩ := Names.contents_eq_ok_iff.mp (hκ c hc)
  intro p hp
  rcases List.mem_append.mp hp with hp | hp
  · exact Names.within_of_typeParams (fun _ _ => trivial)
      (fun _ hv => hasParam_install_of_inside hnames hκ hν hc hv) hparams p hp
  · refine Names.within_of_methodTypeParams (fun _ _ => trivial) ?_ hmethodParams p hp
    intro m hm v hv
    rw [List.map_append, List.mem_append] at hv
    rcases hv with hv | hv
    · exact hasParam_install_of_inside hnames hκ hν hc hv
    · exact hasParam_install_of_methodScopes hnames hκ hν hc (List.of_mem_zip hm).2 hv

theorem mentions_install (hs : s.Mentions (fun _ => True) s.HasParam) :
    (install s cs κ).Mentions (fun _ => True) (install s cs κ).HasParam := by
  have hold : ∀ v, s.HasParam v → (install s cs κ).HasParam v :=
    fun _ hv => hasParam_install hnames hκ hv
  refine ⟨?_, ?_⟩
  · intro id d hd
    rcases classDef?_install_cases hnames hκ id with ⟨c, hc, -, hnew⟩ | ⟨-, hsame⟩
    · rw [hnew] at hd
      cases hd
      exact within_definition_of_reads hnames hκ hν hc
    · rw [hsame] at hd
      exact (hs.classDef id d hd).mono (fun _ _ => trivial) hold
  · intro v p hp
    have hmem := List.mem_of_getElem? hp
    rw [typeParams_install hnames, List.mem_append, allParams, List.mem_append] at hmem
    rcases hmem with hmem | hmem | hmem
    · obtain ⟨i, hi⟩ := List.getElem?_of_mem hmem
      exact Bound.Within.mono (fun _ hid => hid) hold _ (hs.typeParam ⟨i⟩ p hi)
    · obtain ⟨c, hc, hmem⟩ := List.mem_flatMap.mp hmem
      exact within_params_of_reads hnames hκ hν hc p (List.mem_append_left _ hmem)
    · obtain ⟨c, hc, hmem⟩ := List.mem_flatMap.mp hmem
      exact within_params_of_reads hnames hκ hν hc p (List.mem_append_right _ hmem)

end Counts

theorem matches_install :
    Matches (install s cs κ) (declaredClasses s cs) (names s cs) := by
  have hdefined : Matches (defineEach (s.internAll (cs.map ClassDecl.name))
      (s.numberOf (cs.map ClassDecl.name)) (cs.map fun c => (κ c).definition))
        (declaredClasses s cs) (names s cs) := by
    refine matches_defineEach (matches_internAll hnames) ?_ ?_
    · intro d hd
      obtain ⟨c, hc, rfl⟩ := List.mem_map.mp hd
      rw [name_of_reads hκ hc]
      exact ⟨_, lookup_declaredClasses hnames hc⟩
    · intro d hd
      obtain ⟨c, hc, rfl⟩ := List.mem_map.mp hd
      rw [name_of_reads hκ hc]
      exact Store.classId?_internAll_of_mem hnames (List.mem_map_of_mem hc)
  exact hdefined

end Install

/-- What a description contributes once its classes have been defined. -/
def contribution (d : ModelDecl) (n : Names) : Except DeclarationError Contribution := do
  let classes ← d.underTest.mapM n.classId
  let exercised ← d.exercised.mapM n.classId
  let inputTypes ← n.resolveAll .value d.inputTypes
  let operations ← d.operations.mapM n.operation
  return { classes, exercised, inputTypes := withParamTypes n.store inputTypes classes, operations }

theorem extract_eq_bind (d : ModelDecl) (s : Store) : d.extract s = (do
    let (declared, s') ← defineClasses s d.classes
    let δ ← d.contribution ⟨s', declared, []⟩
    return (δ, s')) := by
  simp only [extract, defineClasses, contribution, bind_assoc, pure_bind]

/-- A description is extracted exactly if its classes can be defined, and what it contributes has
been resolved where they are. -/
theorem extract_eq_ok_iff {d : ModelDecl} {δ : Contribution} :
    d.extract s = .ok (δ, s') ↔
      Distinct d.classes ∧ ∃ κ : ClassDecl → ClassContents,
        Reads s d.classes (numbering s.typeParams.length d.classes) κ ∧
          s' = install s d.classes κ ∧
          d.contribution ⟨s', declaredClasses s d.classes, []⟩ = .ok δ := by
  simp only [extract_eq_bind, bind_eq_ok_iff, pure_eq_ok_iff, Prod.exists, Prod.mk.injEq,
    defineClasses_eq_ok_iff]
  constructor
  · rintro ⟨_, _, ⟨hdistinct, rfl, κ, hκ, rfl⟩, _, hδ, rfl, rfl⟩
    exact ⟨hdistinct, κ, hκ, rfl, hδ⟩
  · rintro ⟨hdistinct, κ, hκ, rfl, hδ⟩
    exact ⟨_, _, ⟨hdistinct, rfl, κ, hκ, rfl⟩, _, hδ, rfl, rfl⟩

section Contribution

variable {d : ModelDecl} {n n' : Names} {δ : Contribution}

theorem isConcrete_of_mem_withParamTypes {types : List Ty} {ids : List ClassId}
    (htypes : ∀ t ∈ types, t.isConcrete) : ∀ t ∈ withParamTypes s types ids, t.isConcrete := by
  unfold withParamTypes
  generalize (ids.flatMap fun id => (s.classDef? id).elim [] paramTypes) = more
  induction more generalizing types with
  | nil => exact htypes
  | cons t more ih =>
      rw [List.foldl_cons]
      apply ih
      split
      · rename_i ht
        simp only [Bool.and_eq_true] at ht
        intro u hu
        rcases List.mem_append.mp hu with hu | hu
        · exact htypes u hu
        · rw [List.mem_singleton.mp hu]
          exact ht.1
      · exact htypes

theorem isConcrete_of_contribution (hscope : n.scope = []) (h : d.contribution n = .ok δ) :
    (∀ t ∈ δ.inputTypes, t.isConcrete) ∧ ∀ op ∈ δ.operations, op.isConcrete := by
  obtain ⟨classes, -, h⟩ := bind_eq_ok_iff.mp h
  obtain ⟨exercised, -, h⟩ := bind_eq_ok_iff.mp h
  obtain ⟨inputTypes, hinputTypes, h⟩ := bind_eq_ok_iff.mp h
  obtain ⟨operations, hoperations, h⟩ := bind_eq_ok_iff.mp h
  rw [pure_eq_ok_iff] at h
  subst h
  refine ⟨isConcrete_of_mem_withParamTypes fun t ht => ?_, fun op hop => ?_⟩
  · exact (Names.admits_of_resolveAll _ hinputTypes t ht).isConcrete hscope (by decide)
  · obtain ⟨o, -, ho⟩ := exists_of_mapM_eq_ok hoperations hop
    exact Names.isConcrete_of_operation hscope ho

variable {f : Renaming}

theorem paramTypes_rename (d : ClassDef) :
    paramTypes (d.rename f) = (paramTypes d).map (Ty.rename f) := by
  simp [paramTypes, ClassDef.rename, ConstructorDef.rename, MethodDef.rename, List.flatMap_map,
    List.map_flatMap]

theorem withParamTypes_rename (h : f.Carries s s') (types : List Ty) (ids : List ClassId) :
    withParamTypes s' (types.map (Ty.rename f)) (ids.map f.cls) =
      (withParamTypes s types ids).map (Ty.rename f) := by
  have hparams : ((ids.map f.cls).flatMap fun id => (s'.classDef? id).elim [] paramTypes) =
      (ids.flatMap fun id => (s.classDef? id).elim [] paramTypes).map (Ty.rename f) := by
    rw [List.flatMap_map, List.map_flatMap]
    refine List.flatMap_congr fun id _ => ?_
    rw [h.classDef id]
    cases s.classDef? id with
    | none => rfl
    | some d => exact paramTypes_rename d
  unfold withParamTypes
  rw [hparams]
  generalize (ids.flatMap fun id => (s.classDef? id).elim [] paramTypes) = more
  induction more generalizing types with
  | nil => rfl
  | cons t more ih =>
      have hmem : (types.map (Ty.rename f)).contains (t.rename f) = types.contains t := by
        rw [Bool.eq_iff_iff]
        simp
      rw [List.map_cons, List.foldl_cons, List.foldl_cons, ← ih, Ty.isConcrete_rename, hmem]
      split <;> simp

theorem contribution_of_renames (h : Names.Renames f n n') (hδ : d.contribution n = .ok δ) :
    ∃ types, δ.inputTypes = withParamTypes n.store types δ.classes ∧
      d.contribution n' = .ok { δ.rename f with
        inputTypes :=
          withParamTypes n'.store (types.map (Ty.rename f)) (δ.classes.map f.cls) } := by
  obtain ⟨classes, hclasses, hδ⟩ := bind_eq_ok_iff.mp hδ
  obtain ⟨exercised, hexercised, hδ⟩ := bind_eq_ok_iff.mp hδ
  obtain ⟨types, htypes, hδ⟩ := bind_eq_ok_iff.mp hδ
  obtain ⟨operations, hoperations, hδ⟩ := bind_eq_ok_iff.mp hδ
  rw [pure_eq_ok_iff] at hδ
  subst hδ
  have hids : ∀ (names : List String) (ids : List ClassId), names.mapM n.classId = .ok ids →
      names.mapM n'.classId = .ok (ids.map f.cls) := by
    intro names ids hids
    rw [mapM_eq_map names fun name _ => Names.classId_rename h name, hids]
    rfl
  have htypes' : n'.resolveAll .value d.inputTypes = .ok (types.map (Ty.rename f)) := by
    rw [Names.resolveAll_rename h, htypes]
    rfl
  have hoperations' : d.operations.mapM n'.operation =
      .ok (operations.map (Operation.rename f)) := by
    rw [mapM_eq_map d.operations fun o _ => Names.operation_rename h o, hoperations]
    rfl
  refine ⟨types, rfl, bind_eq_ok_iff.mpr ⟨_, hids _ _ hclasses, ?_⟩⟩
  refine bind_eq_ok_iff.mpr ⟨_, hids _ _ hexercised, ?_⟩
  refine bind_eq_ok_iff.mpr ⟨_, htypes', ?_⟩
  exact bind_eq_ok_iff.mpr ⟨_, hoperations', rfl⟩

theorem contribution_rename (h : Names.Renames f n n') (hstore : f.Carries n.store n'.store)
    (hδ : d.contribution n = .ok δ) : d.contribution n' = .ok (δ.rename f) := by
  obtain ⟨types, hinputTypes, hδ'⟩ := contribution_of_renames h hδ
  rw [withParamTypes_rename hstore, ← hinputTypes] at hδ'
  exact hδ'

end Contribution

end ModelDecl

end CallCatalog
