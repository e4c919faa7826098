import CallCatalog.Proofs.RenamedExtractions

/-!
What the classes of a description are in the store that it has been put into. Every name means there
what it meant while the description was read, so a class can be checked against its declaration in
the finished store alone.
-/

namespace CallCatalog

section Forall₂

variable {α β γ : Type} {R : α → β → Prop} {as : List α} {bs : List β} {cs : List γ}

theorem forall₂_trans {S : β → γ → Prop} {T : α → γ → Prop}
    (h : ∀ a b c, R a b → S b c → T a c) (hR : List.Forall₂ R as bs) (hS : List.Forall₂ S bs cs) :
    List.Forall₂ T as cs := by
  induction hR generalizing cs with
  | nil =>
      cases hS
      exact .nil
  | cons hab _ ih =>
      cases hS with
      | cons hbc hrest => exact .cons (h _ _ _ hab hbc) (ih hrest)

theorem forall₂_of_zip {S : α × β → γ → Prop} (hR : List.Forall₂ R as bs)
    (hS : List.Forall₂ S (as.zip bs) cs) :
    List.Forall₂ (fun a c => ∃ b, R a b ∧ S (a, b) c) as cs := by
  induction hR generalizing cs with
  | nil =>
      cases hS
      exact .nil
  | cons hab _ ih =>
      cases hS with
      | cons hbc hrest => exact .cons ⟨_, hab, hbc⟩ (ih hrest)

end Forall₂

/-- The scope that declared type parameters make when they have these numbers. -/
def scopeOf (ps : List TypeParamDecl) (vs : List TypeVarId) : Scope :=
  (ps.map TypeParamDecl.name).zip vs

/-- The type variable is one of the inner type parameters, or an outer one whose name no inner one
has. -/
def Shows (outer inner : Scope) (v : TypeVarId) : Prop :=
  v ∈ inner.map Prod.snd ∨ ∃ name, (name, v) ∈ outer ∧ name ∉ inner.map Prod.fst

namespace Store

def namesIn (s : Store) (scope : Scope) : Names := { store := s, declared := [], scope }

/-- The class is defined, and it is given no type arguments or one for each type parameter. -/
def Takes (s : Store) (id : ClassId) (k : Nat) : Prop :=
  ∃ d, s.classDef? id = some d ∧ (k = 0 ∨ k = d.typeParams.length)

/-- The type parameters have the declared names and the bounds that are declared for them, which are
well-formed types over the type variables in `V`. -/
def Declares (s : Store) (scope : Scope) (V : TypeVarId → Prop) (ps : List TypeParamDecl)
    (vs : List TypeVarId) : Prop :=
  List.Forall₂ (fun p v => ∃ uppers, (s.namesIn scope).resolveAll .value p.bounds = .ok uppers ∧
    s.typeParam? v = some ⟨p.name, .ofUppers uppers⟩ ∧
    ∀ t ∈ uppers, t.Formed s.Takes V .value) ps vs

/-- The method is as it is declared. Its own type parameters hide those of the class. -/
structure DefinesMethod (s : Store) (outer : Scope) (m : MethodDecl) (k : MethodDef) : Prop where
  name : k.name = m.name
  isStatic : k.isStatic = m.isStatic
  typeParams : s.Declares (outer ++ scopeOf m.typeParams k.typeParams)
    (Shows outer (scopeOf m.typeParams k.typeParams)) m.typeParams k.typeParams
  params : (s.namesIn (outer ++ scopeOf m.typeParams k.typeParams)).resolveAll .value m.params =
    .ok k.params
  returns : (s.namesIn (outer ++ scopeOf m.typeParams k.typeParams)).resultType m.returns =
    .ok k.returns
  formedParams : ∀ t ∈ k.params,
    t.Formed s.Takes (Shows outer (scopeOf m.typeParams k.typeParams)) .value
  formedReturns :
    k.returns.Formed s.Takes (Shows outer (scopeOf m.typeParams k.typeParams)) .result

/-- The class is as it is declared. -/
structure DefinesClass (s : Store) (c : ClassDecl) (k : ClassDef) : Prop where
  name : k.name = c.name
  typeParams : s.Declares (scopeOf c.typeParams k.typeParams) (· ∈ k.typeParams) c.typeParams
    k.typeParams
  superClass : (s.namesIn (scopeOf c.typeParams k.typeParams)).superClass c (c.kind.getD .plain) =
    .ok k.superClass
  interfaces : (s.namesIn (scopeOf c.typeParams k.typeParams)).resolveAll .value c.interfaces =
    .ok k.interfaces
  constructors : (c.constructors.mapM
    (s.namesIn (scopeOf c.typeParams k.typeParams)).constructorDef) = .ok k.constructors
  methods : List.Forall₂ (s.DefinesMethod (scopeOf c.typeParams k.typeParams)) c.methods k.methods
  /-- The root class need not be defined where it is the superclass by default. -/
  formedSuperClass : ∀ t, k.superClass = some t → t.Formed s.Takes (· ∈ k.typeParams) .value ∨
    c.superClass = none ∧ t = .cls .object []
  formedInterfaces : ∀ t ∈ k.interfaces, t.Formed s.Takes (· ∈ k.typeParams) .value
  formedConstructors : ∀ ctor ∈ k.constructors, ∀ t ∈ ctor.params,
    t.Formed s.Takes (· ∈ k.typeParams) .value

end Store

def ClassDef.allTypeParams (d : ClassDef) : List TypeVarId :=
  d.typeParams ++ d.methods.flatMap MethodDef.typeParams

namespace Names

variable {s : Store} {scope outer inner : Scope}

theorem takes_of_namesIn {id : ClassId} {k : Nat} (h : (s.namesIn scope).Takes id k) :
    s.Takes id k := by
  obtain ⟨name, arity, hclass, hk⟩ := h
  obtain ⟨id', -, hclass⟩ := Option.bind_eq_some_iff.mp hclass
  obtain ⟨d, hd, hclass⟩ := Option.bind_eq_some_iff.mp hclass
  cases hclass
  exact ⟨d, hd, hk⟩

theorem shows_of_sees {v : TypeVarId} (h : (s.namesIn (outer ++ inner)).Sees v) :
    Shows outer inner v := by
  obtain ⟨name, hname⟩ := h
  simp only [typeParam?, Store.namesIn, List.reverse_append, List.lookup_append] at hname
  cases hinner : inner.reverse.lookup name with
  | some w =>
      rw [hinner] at hname
      cases hname
      obtain ⟨front, back, hsplit, -⟩ := List.lookup_eq_some_iff.mp hinner
      have hmem : (name, v) ∈ inner.reverse := by simp [hsplit]
      exact Or.inl (List.mem_map.mpr ⟨(name, v), List.mem_reverse.mp hmem, rfl⟩)
  | none =>
      rw [hinner] at hname
      obtain ⟨front, back, hsplit, -⟩ := List.lookup_eq_some_iff.mp hname
      have hmem : (name, v) ∈ outer.reverse := by simp [hsplit]
      refine Or.inr ⟨name, List.mem_reverse.mp hmem, ?_⟩
      intro hname
      obtain ⟨p, hp, rfl⟩ := List.mem_map.mp hname
      have hne := List.lookup_eq_none_iff.mp hinner p (List.mem_reverse.mpr hp)
      simp at hne

theorem formed_of_namesIn {position : RefPosition} {t : Ty} {V : TypeVarId → Prop}
    (hV : ∀ v, (s.namesIn scope).Sees v → V v)
    (h : t.Formed (s.namesIn scope).Takes (s.namesIn scope).Sees position) :
    t.Formed s.Takes V position :=
  h.mono (fun _ _ => takes_of_namesIn) hV

end Names

namespace ModelDecl

variable {s : Store} {cs : List ClassDecl} {κ : ClassDecl → ClassContents} {ν : Numbering}

section Store

variable {n : Names} {scope : Scope}

theorem forall₂_of_typeParams {ps : List TypeParamDecl} {params : List TypeParam}
    (h : n.typeParams ps = .ok params) :
    List.Forall₂ (fun p q => ∃ uppers, n.resolveAll .value p.bounds = .ok uppers ∧
      q = p.bounded uppers) ps params := by
  unfold Names.typeParams at h
  cases hbounds : n.resolveBounds ps with
  | error _ =>
      rw [hbounds] at h
      cases h
  | ok bounds =>
      rw [hbounds] at h
      cases h
      have hall := mapM_eq_ok_iff.mp hbounds
      clear hbounds
      induction hall with
      | nil => exact .nil
      | cons hhead _ ih => exact .cons ⟨_, hhead, rfl⟩ ih

theorem declares_of_typeParams {ps : List TypeParamDecl} {params : List TypeParam}
    {vs : List TypeVarId} {V : TypeVarId → Prop} (hV : ∀ v, (s.namesIn scope).Sees v → V v)
    (h : (s.namesIn scope).typeParams ps = .ok params)
    (hstore : List.Forall₂ (fun q v => s.typeParam? v = some q) params vs) :
    s.Declares scope V ps vs := by
  refine forall₂_trans ?_ (forall₂_of_typeParams h) hstore
  rintro p q v ⟨uppers, huppers, rfl⟩ hv
  refine ⟨uppers, huppers, hv, fun t ht => ?_⟩
  exact Names.formed_of_namesIn hV (Names.formed_of_resolveAll p.bounds huppers t ht)

theorem forall₂_typeParam? {places : List ParamPlace} {params : List TypeParam}
    (hlength : params.length = places.length)
    (h : ∀ p q, (p, q) ∈ places.zip params → s.typeParam? (ν p) = some q) :
    List.Forall₂ (fun q v => s.typeParam? v = some q) params (places.map ν) := by
  rw [List.forall₂_map_right_iff]
  apply List.Forall₂.flip
  exact List.forall₂_iff_zip.mpr ⟨hlength.symm, fun hmem => h _ _ hmem⟩

theorem eq_scopeOf {own : Scope} {ps : List TypeParamDecl}
    (h : own.map Prod.fst = ps.map TypeParamDecl.name) : own = scopeOf ps (own.map Prod.snd) := by
  rw [scopeOf, ← h, List.zip_map', List.map_id']

theorem forall₂_of_methodTypeParams {className : String} {method : Nat} {ms : List MethodDecl}
    {all : List TypeParam}
    (h : (s.namesIn scope).methodTypeParams (ms.zip (ν.methodScopes className method ms)) =
      .ok all)
    (hstore : ∀ p q, (p, q) ∈ (methodPlaces className method ms).zip all →
      s.typeParam? (ν p) = some q) :
    List.Forall₂ (fun m own => own = scopeOf m.typeParams (own.map Prod.snd) ∧
      s.Declares (scope ++ own) (Shows scope own) m.typeParams (own.map Prod.snd)) ms
        (ν.methodScopes className method ms) := by
  induction ms generalizing method all with
  | nil => exact .nil
  | cons m ms ih =>
      have hscopes : ν.methodScopes className method (m :: ms) =
          ν.scope className (some method) 0 m.typeParams ::
            ν.methodScopes className (method + 1) ms := by
        simp [Numbering.methodScopes]
      have hplaces : methodPlaces className method (m :: ms) =
          paramPlaces className (some method) 0 m.typeParams ++
            methodPlaces className (method + 1) ms := by
        simp [methodPlaces]
      rw [hscopes, List.zip_cons_cons] at h
      obtain ⟨params, hparams, more, hmore, rfl⟩ := Names.methodTypeParams_cons_eq_ok_iff.mp h
      -- The type parameters of the first method are the first ones of all.
      have hlength : params.length =
          (paramPlaces className (some method) 0 m.typeParams).length := by
        simp [Names.length_of_typeParams hparams, paramPlaces]
      rw [hplaces, List.zip_append hlength.symm] at hstore
      rw [hscopes]
      refine .cons ⟨eq_scopeOf (Numbering.map_fst_scope _ _ _ _ _), ?_⟩
        (ih hmore fun p q hmem => hstore p q (List.mem_append_right _ hmem))
      rw [Numbering.map_snd_scope]
      exact declares_of_typeParams (fun v hv => Names.shows_of_sees hv) hparams
        (forall₂_typeParam? hlength fun p q hmem => hstore p q (List.mem_append_left _ hmem))

theorem definesMethod_of_methodDef {m : MethodDecl} {own : Scope} {k : MethodDef}
    (hown : own = scopeOf m.typeParams (own.map Prod.snd))
    (hdeclares : s.Declares (scope ++ own) (Shows scope own) m.typeParams (own.map Prod.snd))
    (h : (s.namesIn scope).methodDef m own = .ok k) : s.DefinesMethod scope m k := by
  obtain ⟨hname, hstatic, htypeParams, hparams, hreturns⟩ := Names.of_methodDef_eq_ok h
  have hV : ∀ v, (s.namesIn (scope ++ own)).Sees v → Shows scope own v :=
    fun v hv => Names.shows_of_sees hv
  rw [← htypeParams] at hown hdeclares
  constructor
  case name => exact hname
  case isStatic => exact hstatic
  all_goals rw [← hown]
  case typeParams => exact hdeclares
  case params => exact hparams
  case returns => exact hreturns
  case formedParams =>
    intro t ht
    exact Names.formed_of_namesIn hV (Names.formed_of_resolveAll m.params hparams t ht)
  case formedReturns => exact Names.formed_of_namesIn hV (Names.formed_of_resultType hreturns)

theorem definesClass_of_contents {c : ClassDecl} {k : ClassContents}
    (h : (s.namesIn []).contents ν c = .ok k)
    (hown : ∀ p q, (p, q) ∈ c.ownPlaces.zip k.params → s.typeParam? (ν p) = some q)
    (hmethods : ∀ p q, (p, q) ∈ c.placesOfMethods.zip k.methodParams →
      s.typeParam? (ν p) = some q) : s.DefinesClass c k.definition := by
  obtain ⟨hparams, hmethodParams, hdefinition⟩ := Names.contents_eq_ok_iff.mp h
  generalize houter : ν.scope c.name none 0 c.typeParams = outer at *
  have hinside : (s.namesIn []).inside ν c = s.namesIn outer := by
    rw [Names.inside, houter]
    rfl
  rw [hinside] at hparams hmethodParams hdefinition
  obtain ⟨hname, htypeParams, hsuperClass, hinterfaces, hconstructors, hmethodDefs⟩ :=
    Names.of_classDef_eq_ok hdefinition
  have hscope : outer = scopeOf c.typeParams k.definition.typeParams := by
    rw [htypeParams]
    exact eq_scopeOf (houter ▸ Numbering.map_fst_scope _ _ _ _ _)
  have hV : ∀ v, (s.namesIn outer).Sees v → v ∈ k.definition.typeParams := by
    intro v hv
    rw [htypeParams]
    exact Names.scopes_of_sees hv
  have hvariables : k.definition.typeParams = c.ownPlaces.map ν := by
    rw [htypeParams, ClassDecl.ownPlaces, ← Numbering.map_snd_scope, houter]
    rfl
  constructor
  case name => exact hname
  case formedSuperClass =>
    intro t ht
    rw [ht] at hsuperClass
    exact (Names.formed_of_superClass hsuperClass).imp_left (Names.formed_of_namesIn hV)
  case formedInterfaces =>
    intro t ht
    exact Names.formed_of_namesIn hV (Names.formed_of_resolveAll c.interfaces hinterfaces t ht)
  case formedConstructors =>
    intro ctor hctor t ht
    obtain ⟨decl, -, hdecl⟩ := exists_of_mapM_eq_ok hconstructors hctor
    exact Names.formed_of_namesIn hV (Names.formed_of_constructorDef hdecl t ht)
  all_goals rw [← hscope]
  case typeParams =>
    refine declares_of_typeParams hV hparams ?_
    rw [hvariables]
    refine forall₂_typeParam? ?_ hown
    simp [Names.length_of_typeParams hparams, ClassDecl.ownPlaces, paramPlaces]
  case superClass => exact hsuperClass
  case interfaces => exact hinterfaces
  case constructors => exact hconstructors
  case methods =>
    refine (forall₂_of_zip (forall₂_of_methodTypeParams hmethodParams hmethods)
      (mapM_eq_ok_iff.mp hmethodDefs)).imp ?_
    rintro m k ⟨own, ⟨hown, hdeclares⟩, hk⟩
    exact definesMethod_of_methodDef hown hdeclares hk

theorem allTypeParams_of_contents {n : Names} {c : ClassDecl} {k : ClassContents}
    (h : n.contents ν c = .ok k) :
    k.definition.allTypeParams = (c.ownPlaces ++ c.placesOfMethods).map ν := by
  obtain ⟨-, -, hdefinition⟩ := Names.contents_eq_ok_iff.mp h
  obtain ⟨-, htypeParams, -, -, -, hmethods⟩ := Names.of_classDef_eq_ok hdefinition
  have howns : (ν.methodScopes c.name 0 c.methods).map (List.map Prod.snd) =
      k.definition.methods.map MethodDef.typeParams := by
    have hall : List.Forall₂ (· = ·)
        ((c.methods.zip (ν.methodScopes c.name 0 c.methods)).map fun m => m.2.map Prod.snd)
        (k.definition.methods.map MethodDef.typeParams) := by
      rw [List.forall₂_map_left_iff, List.forall₂_map_right_iff]
      refine (mapM_eq_ok_iff.mp hmethods).imp ?_
      intro m d hd
      exact (Names.of_methodDef_eq_ok hd).2.2.1.symm
    rw [List.forall₂_eq_eq_eq] at hall
    have hlength : (ν.methodScopes c.name 0 c.methods).length ≤ c.methods.length := by
      simp [Numbering.methodScopes]
    have hsnd := List.map_snd_zip hlength
    rw [← hall]
    conv_lhs => rw [← hsnd, List.map_map]
    rfl
  rw [ClassDef.allTypeParams, htypeParams, List.map_append, List.flatMap_def, ← howns,
    ← List.flatMap_def, Numbering.flatMap_methodScopes]
  exact congrArg (· ++ _) (Numbering.map_snd_scope ν c.name none 0 c.typeParams)

end Store

section Install

variable (hdistinct : Distinct cs) (hκ : Reads s cs ν κ)

include hdistinct hκ

omit hdistinct in
theorem length_typeParams_of_reads {c : ClassDecl} (hc : c ∈ cs) :
    (κ c).definition.typeParams.length = c.typeParams.length := by
  obtain ⟨-, -, hdefinition⟩ := Names.contents_eq_ok_iff.mp (hκ c hc)
  rw [(Names.of_classDef_eq_ok hdefinition).2.1]
  simp [Names.inside, Numbering.scope]

theorem matches_namesIn : Matches (install s cs κ) [] (names s cs) := by
  have hnames := hdistinct.classes
  intro name
  rw [matches_install hnames hκ name]
  by_cases hmem : name ∈ cs.map ClassDecl.name
  · obtain ⟨c, hc, rfl⟩ := List.mem_map.mp hmem
    simp only [Names.class?, lookup_declaredClasses hnames hc, List.lookup_nil,
      classId?_install_of_mem hnames hc, bind, Option.bind, classDef?_install_of_mem hnames hκ hc,
      length_typeParams_of_reads hκ hc, pure]
  · simp only [Names.class?, lookup_declaredClasses_eq_none.mpr hmem, List.lookup_nil]

theorem contents_namesIn {c : ClassDecl} (hc : c ∈ cs) :
    ((install s cs κ).namesIn []).contents ν c = .ok (κ c) := by
  have hrenames := (matches_namesIn hdistinct hκ).renames []
  have hcontents := Names.contents_congr (ν := ν) hrenames c
  exact hcontents.trans (hκ c hc)

variable (hν : ν.Counts s.typeParams.length (places cs))

include hν

omit hκ in
theorem typeParam?_install_of_mem_zip {p : ParamPlace} {q : TypeParam}
    (h : (p, q) ∈ (places cs).zip (allParams cs κ)) :
    (install s cs κ).typeParam? (ν p) = some q := by
  obtain ⟨i, hi⟩ := List.getElem?_of_mem h
  obtain ⟨hp, hq⟩ := List.getElem?_zip_eq_some.mp hi
  rw [hν i p hp, typeParam?_install_add hdistinct.classes, hq]

theorem definesClass_install {c : ClassDecl} (hc : c ∈ cs) :
    (install s cs κ).DefinesClass c (κ c).definition := by
  refine definesClass_of_contents (contents_namesIn hdistinct hκ hc) ?_ ?_
  · intro p q hmem
    apply typeParam?_install_of_mem_zip hdistinct hν
    rw [zip_places hκ]
    exact List.mem_append_left _ (List.mem_flatMap.mpr ⟨c, hc, hmem⟩)
  · intro p q hmem
    apply typeParam?_install_of_mem_zip hdistinct hν
    rw [zip_places hκ]
    exact List.mem_append_right _ (List.mem_flatMap.mpr ⟨c, hc, hmem⟩)

omit hκ hν in
theorem nodup_flatMap_allPlaces :
    (cs.flatMap fun c => c.ownPlaces ++ c.placesOfMethods).Nodup := by
  apply nodup_flatMap_places hdistinct.classes
  · intro c
    rw [List.nodup_append]
    refine ⟨ClassDecl.nodup_paramPlaces _ _ _ _, ClassDecl.nodup_methodPlaces _ _ _, ?_⟩
    rintro p hp _ hp' rfl
    exact (ClassDecl.mem_placesOfMethods hp').2 (ClassDecl.mem_ownPlaces hp).2
  · intro c p hp
    rcases List.mem_append.mp hp with hp | hp
    · exact (ClassDecl.mem_ownPlaces hp).1
    · exact (ClassDecl.mem_placesOfMethods hp).1

omit hdistinct hκ hν in
theorem mem_places_of_class {c : ClassDecl} (hc : c ∈ cs) {p : ParamPlace}
    (hp : p ∈ c.ownPlaces ++ c.placesOfMethods) : p ∈ places cs := by
  rcases List.mem_append.mp hp with hp | hp
  · exact List.mem_append_left _ (List.mem_flatMap.mpr ⟨c, hc, hp⟩)
  · exact List.mem_append_right _ (List.mem_flatMap.mpr ⟨c, hc, hp⟩)

theorem fresh_allTypeParams :
    (cs.flatMap fun c => (κ c).definition.allTypeParams).Nodup ∧
      ∀ c ∈ cs, ∀ v ∈ (κ c).definition.allTypeParams, ¬ s.HasParam v := by
  have hnumber : ∀ p ∈ places cs, ∃ i, (places cs)[i]? = some p ∧
      ν p = ⟨s.typeParams.length + i⟩ := by
    intro p hp
    obtain ⟨i, hi⟩ := List.getElem?_of_mem hp
    exact ⟨i, hi, hν i p hi⟩
  constructor
  · have hvariables : (cs.flatMap fun c => (κ c).definition.allTypeParams) =
        (cs.flatMap fun c => c.ownPlaces ++ c.placesOfMethods).map ν := by
      rw [List.map_flatMap]
      exact List.flatMap_congr fun c hc => allTypeParams_of_contents (hκ c hc)
    rw [hvariables]
    refine (nodup_flatMap_allPlaces hdistinct).map_on ?_
    intro p hp p' hp' heq
    obtain ⟨c, hc, hp⟩ := List.mem_flatMap.mp hp
    obtain ⟨c', hc', hp'⟩ := List.mem_flatMap.mp hp'
    obtain ⟨i, hi, hnumber₁⟩ := hnumber p (mem_places_of_class hc hp)
    obtain ⟨j, hj, hnumber₂⟩ := hnumber p' (mem_places_of_class hc' hp')
    rw [hnumber₁, hnumber₂, TypeVarId.mk.injEq, Nat.add_left_cancel_iff] at heq
    rw [heq, hj, Option.some.injEq] at hi
    exact hi.symm
  · intro c hc v hv
    rw [allTypeParams_of_contents (hκ c hc)] at hv
    obtain ⟨p, hp, rfl⟩ := List.mem_map.mp hv
    obtain ⟨i, -, hi⟩ := hnumber p (mem_places_of_class hc hp)
    rw [hi, Store.HasParam]
    exact Nat.not_lt.mpr (Nat.le_add_right _ i)

end Install

/-- Each class of an extracted description is defined as it is declared, over type parameters that
are new and differ from each other. -/
theorem exists_definesClass_of_extract (d : ModelDecl) (s s' : Store) (δ : Contribution)
    (h : d.extract s = .ok (δ, s')) :
    ∃ κ : ClassDecl → ClassDef,
      (∀ c ∈ d.classes, ∃ id, s'.classId? c.name = some id ∧ s'.classDef? id = some (κ c) ∧
        s'.DefinesClass c (κ c)) ∧
      (d.classes.flatMap fun c => (κ c).allTypeParams).Nodup ∧
      ∀ c ∈ d.classes, ∀ v ∈ (κ c).allTypeParams, ¬ s.HasParam v := by
  obtain ⟨hdistinct, κ, hκ, rfl, -⟩ := extract_eq_ok_iff.mp h
  have hnames := hdistinct.classes
  have hν := counts_numbering hnames s.typeParams.length
  refine ⟨fun c => (κ c).definition, fun c hc => ?_, fresh_allTypeParams hdistinct hκ hν⟩
  exact ⟨_, classId?_install_of_mem hnames hc, classDef?_install_of_mem hnames hκ hc,
    definesClass_install hdistinct hκ hν hc⟩

/-- `Pair` refers to classes that are declared after it, one of which had two type parameters
before, and one of its methods hides a type parameter. -/
def pairModel : ModelDecl where
  classes := [
    { name := "Pair"
      typeParams := [
        { name := "A" },
        { name := "B", bounds := [.applied "java.util.Map" [.named "A"], .named "Runnable"] }]
      interfaces := [.applied "java.util.Map" [.ext (.named "A[]")]]
      constructors := [⟨[.named "A", .named "B"]⟩]
      methods := [
        { name := "swap"
          typeParams := [{ name := "B", bounds := [.applied "java.util.Map" [.named "B"]] }]
          params := [.named "A", .named "B", .named "int"]
          returns := some (.named "B[]") },
        { name := "clear" }] },
    { name := "java.util.Map", kind := some .interface, typeParams := [{ name := "K" }] },
    { name := "Runnable", kind := some .interface }]

theorem exists_definesClass_of_extract_pair :
    ∃ δ s', pairModel.extract Platform.store = .ok (δ, s') ∧
      ∃ κ : ClassDecl → ClassDef,
        (∀ c ∈ pairModel.classes, ∃ id, s'.classId? c.name = some id ∧
          s'.classDef? id = some (κ c) ∧ s'.DefinesClass c (κ c)) ∧
        (pairModel.classes.flatMap fun c => (κ c).allTypeParams).Nodup ∧
        ∀ c ∈ pairModel.classes, ∀ v ∈ (κ c).allTypeParams, ¬ Platform.store.HasParam v := by
  have hsome : (pairModel.extract Platform.store).toOption.isSome := by decide +kernel
  cases h : pairModel.extract Platform.store with
  | error _ =>
      rw [h] at hsome
      cases hsome
  | ok result =>
      exact ⟨result.1, result.2, rfl,
        exists_definesClass_of_extract pairModel Platform.store result.2 result.1 h⟩

end ModelDecl

end CallCatalog
