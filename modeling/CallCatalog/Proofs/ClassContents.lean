import CallCatalog.Proofs.Numbering

namespace CallCatalog

def TypeParamDecl.unbound (p : TypeParamDecl) : TypeParam := ⟨p.name, .ofUppers []⟩

def TypeParamDecl.bounded (p : TypeParamDecl) (uppers : List Ty) : TypeParam :=
  ⟨p.name, .ofUppers uppers⟩

/-- What a class declaration says once its types have been resolved. -/
structure ClassContents where
  params : List TypeParam
  methodParams : List TypeParam
  definition : ClassDef

def ClassContents.rename (f : Renaming) (k : ClassContents) : ClassContents where
  params := k.params.map (TypeParam.rename f)
  methodParams := k.methodParams.map (TypeParam.rename f)
  definition := k.definition.rename f

namespace Names

def typeParams (n : Names) (ps : List TypeParamDecl) : Except DeclarationError (List TypeParam) :=
  (n.resolveBounds ps).map (List.zipWith TypeParamDecl.bounded ps)

def methodTypeParams (n : Names) (ms : List (MethodDecl × Scope)) :
    Except DeclarationError (List TypeParam) :=
  (ms.mapM fun m => typeParams { n with scope := n.scope ++ m.2 } m.1.typeParams).map List.flatten

def classDef (n : Names) (c : ClassDecl) (owns : List Scope) :
    Except DeclarationError ClassDef := do
  let kind := c.kind.getD .plain
  let superClass ← n.superClass c kind
  let interfaces ← n.resolveAll .value c.interfaces
  let constructors ← c.constructors.mapM n.constructorDef
  let methods ← (c.methods.zip owns).mapM fun (m, own) => n.methodDef m own
  return {
    name := c.name, kind, isAbstract := c.isAbstract || kind = .interface
    typeParams := n.scope.map Prod.snd, superClass, interfaces, constructors, methods }

def inside (n : Names) (ν : Numbering) (c : ClassDecl) : Names :=
  { n with scope := ν.scope c.name none 0 c.typeParams }

def contents (n : Names) (ν : Numbering) (c : ClassDecl) :
    Except DeclarationError ClassContents := do
  let n := n.inside ν c
  let owns := ν.methodScopes c.name 0 c.methods
  let params ← n.typeParams c.typeParams
  let methodParams ← n.methodTypeParams (c.methods.zip owns)
  let definition ← n.classDef c owns
  return { params, methodParams, definition }

variable {n n' : Names}

theorem classDef_rename {f : Renaming} (h : Renames f n n') (c : ClassDecl)
    {owns owns' : List Scope} (howns : owns' = owns.map (List.map (Prod.map id f.var))) :
    n'.classDef c owns' = (n.classDef c owns).map (ClassDef.rename f) := by
  have hconstructors := mapM_eq_map c.constructors fun k _ => constructorDef_rename h k
  have hmethods : ((c.methods.zip owns').mapM fun (m, own) => n'.methodDef m own) =
      ((c.methods.zip owns).mapM fun (m, own) => n.methodDef m own).map
        (List.map (MethodDef.rename f)) := by
    rw [howns, List.zip_map_right, List.mapM_map]
    exact mapM_eq_map _ fun m _ => methodDef_rename h m.1 rfl
  have hscope : n'.scope.map Prod.snd = (n.scope.map Prod.snd).map f.var := by
    simp [h.scope, Function.comp_def]
  unfold classDef
  dsimp only
  rw [superClass_rename h, resolveAll_rename h, hconstructors, hmethods, hscope]
  cases n.superClass c (c.kind.getD .plain) with
  | error _ => rfl
  | ok superClass =>
      cases n.resolveAll .value c.interfaces with
      | error _ => rfl
      | ok interfaces =>
          cases c.constructors.mapM n.constructorDef with
          | error _ => rfl
          | ok constructors =>
              cases (c.methods.zip owns).mapM fun (m, own) => n.methodDef m own <;> rfl

theorem classDef_congr (h : Renames .refl n n') (c : ClassDecl) (owns : List Scope) :
    n'.classDef c owns = n.classDef c owns := by
  have howns : owns = owns.map (List.map (Prod.map id Renaming.refl.var)) := by
    simp [Renaming.refl]
  rw [classDef_rename h c howns, ClassDef.rename_refl, Except.map_id, id]

theorem length_of_typeParams {ps : List TypeParamDecl} {params : List TypeParam}
    (h : n.typeParams ps = .ok params) : params.length = ps.length := by
  unfold typeParams at h
  cases hbounds : n.resolveBounds ps with
  | error _ =>
      rw [hbounds] at h
      cases h
  | ok bounds =>
      rw [hbounds] at h
      cases h
      have hlength := (mapM_eq_ok_iff.mp hbounds).length_eq
      simp [hlength]

theorem methodTypeParams_cons_eq_ok_iff {m : MethodDecl} {own : Scope}
    {ms : List (MethodDecl × Scope)} {all : List TypeParam} :
    n.methodTypeParams ((m, own) :: ms) = .ok all ↔
      ∃ params, typeParams { n with scope := n.scope ++ own } m.typeParams = .ok params ∧
        ∃ more, n.methodTypeParams ms = .ok more ∧ all = params ++ more := by
  have hmap : ∀ ms, n.methodTypeParams ms = (ms.mapM fun m =>
      typeParams { n with scope := n.scope ++ m.2 } m.1.typeParams) >>= fun params =>
        pure params.flatten := by
    intro ms
    rw [← map_eq_pure_bind]
    rfl
  simp only [hmap, List.mapM_cons, bind_eq_ok_iff, pure_eq_ok_iff]
  constructor
  · rintro ⟨-, ⟨params, hparams, more, hmore, rfl⟩, rfl⟩
    exact ⟨params, hparams, more.flatten, ⟨more, hmore, rfl⟩, rfl⟩
  · rintro ⟨params, hparams, -, ⟨more, hmore, rfl⟩, rfl⟩
    exact ⟨params :: more, ⟨params, hparams, more, hmore, rfl⟩, rfl⟩

theorem length_of_methodTypeParams {ν : Numbering} {className : String} {method : Nat}
    {ms : List MethodDecl} {params : List TypeParam}
    (h : n.methodTypeParams (ms.zip (ν.methodScopes className method ms)) = .ok params) :
    params.length = (methodPlaces className method ms).length := by
  induction ms generalizing method params with
  | nil =>
      cases h
      rfl
  | cons m ms ih =>
      have hscopes : ν.methodScopes className method (m :: ms) =
          ν.scope className (some method) 0 m.typeParams ::
            ν.methodScopes className (method + 1) ms := by
        simp [Numbering.methodScopes]
      rw [hscopes, List.zip_cons_cons] at h
      obtain ⟨own, hown, more, hmore, rfl⟩ := methodTypeParams_cons_eq_ok_iff.mp h
      have hrest := ih hmore
      rw [methodPlaces] at hrest
      simp [methodPlaces, paramPlaces, length_of_typeParams hown, hrest]

theorem contents_eq_ok_iff {ν : Numbering} {c : ClassDecl} {k : ClassContents} :
    n.contents ν c = .ok k ↔
      (n.inside ν c).typeParams c.typeParams = .ok k.params ∧
        (n.inside ν c).methodTypeParams (c.methods.zip (ν.methodScopes c.name 0 c.methods)) =
          .ok k.methodParams ∧
        (n.inside ν c).classDef c (ν.methodScopes c.name 0 c.methods) = .ok k.definition := by
  obtain ⟨params, methodParams, definition⟩ := k
  simp only [Names.contents, bind_eq_ok_iff, pure_eq_ok_iff, ClassContents.mk.injEq]
  constructor
  · rintro ⟨_, hparams, _, hmethodParams, _, hdefinition, rfl, rfl, rfl⟩
    exact ⟨hparams, hmethodParams, hdefinition⟩
  · rintro ⟨hparams, hmethodParams, hdefinition⟩
    exact ⟨_, hparams, _, hmethodParams, _, hdefinition, rfl, rfl, rfl⟩

section Renaming

variable {f : Renaming} {ν ν' : Numbering}

theorem typeParams_rename (h : Renames f n n') (ps : List TypeParamDecl) :
    n'.typeParams ps = (n.typeParams ps).map (List.map (TypeParam.rename f)) := by
  have hbounded : ∀ bounds : List (List Ty),
      List.zipWith TypeParamDecl.bounded ps (bounds.map (List.map (Ty.rename f))) =
        (List.zipWith TypeParamDecl.bounded ps bounds).map (TypeParam.rename f) := by
    intro bounds
    simp [List.map_zipWith, List.zipWith_map_right, TypeParamDecl.bounded, TypeParam.rename,
      Bound.rename_ofUppers]
  unfold typeParams
  rw [resolveBounds_rename h]
  cases n.resolveBounds ps with
  | error _ => rfl
  | ok bounds => exact congrArg Except.ok (hbounded bounds)

theorem methodTypeParams_rename (h : Renames f n n') (ms : List MethodDecl)
    {owns owns' : List Scope} (howns : owns' = owns.map (List.map (Prod.map id f.var))) :
    n'.methodTypeParams (ms.zip owns') =
      (n.methodTypeParams (ms.zip owns)).map (List.map (TypeParam.rename f)) := by
  have hinner : ∀ own : Scope, Renames f { n with scope := n.scope ++ own }
      { n' with scope := n'.scope ++ own.map (Prod.map id f.var) } := fun _ => h.append rfl
  have hparams := mapM_eq_map (ms.zip owns) fun m _ =>
    typeParams_rename (hinner m.2) m.1.typeParams
  unfold methodTypeParams
  rw [howns, List.zip_map_right, List.mapM_map]
  refine (congrArg (Except.map List.flatten) hparams).trans ?_
  cases (ms.zip owns).mapM fun m =>
      typeParams { n with scope := n.scope ++ m.2 } m.1.typeParams with
  | error _ => rfl
  | ok params => exact congrArg Except.ok List.map_flatten.symm

theorem inside_rename (h : Renames f n n') {c : ClassDecl}
    (hν : ∀ p ∈ c.ownPlaces, ν' p = f.var (ν p)) :
    Renames f (n.inside ν c) (n'.inside ν' c) :=
  ⟨h.classes, Numbering.scope_rename hν⟩

/-- A declaration that is read under other numbers contains the same but for the numbers. -/
theorem contents_rename (h : Renames f n n') {c : ClassDecl}
    (hown : ∀ p ∈ c.ownPlaces, ν' p = f.var (ν p))
    (hmethods : ∀ p ∈ c.placesOfMethods, ν' p = f.var (ν p)) :
    n'.contents ν' c = (n.contents ν c).map (ClassContents.rename f) := by
  have hinside := inside_rename h hown
  have howns := Numbering.methodScopes_rename hmethods
  unfold contents
  dsimp only
  rw [typeParams_rename hinside, methodTypeParams_rename hinside c.methods howns,
    classDef_rename hinside c howns]
  cases (n.inside ν c).typeParams c.typeParams with
  | error _ => rfl
  | ok params =>
      cases (n.inside ν c).methodTypeParams
          (c.methods.zip (ν.methodScopes c.name 0 c.methods)) with
      | error _ => rfl
      | ok methodParams =>
          cases (n.inside ν c).classDef c (ν.methodScopes c.name 0 c.methods) <;> rfl

theorem typeParams_congr (h : Renames .refl n n') (ps : List TypeParamDecl) :
    n'.typeParams ps = n.typeParams ps := by
  rw [typeParams, typeParams, resolveBounds_congr h]

theorem contents_congr (h : Renames .refl n n') (c : ClassDecl) :
    n'.contents ν c = n.contents ν c := by
  have hinside : Renames .refl (n.inside ν c) (n'.inside ν c) := inside_rename h fun _ _ => rfl
  have hmethods : ∀ ms,
      (n'.inside ν c).methodTypeParams ms = (n.inside ν c).methodTypeParams ms := by
    intro ms
    have hparams : ∀ m : MethodDecl × Scope,
        typeParams { n'.inside ν c with scope := (n'.inside ν c).scope ++ m.2 } m.1.typeParams =
          typeParams { n.inside ν c with scope := (n.inside ν c).scope ++ m.2 } m.1.typeParams :=
      fun m => typeParams_congr (hinside.append (List.map_id m.2).symm) m.1.typeParams
    rw [methodTypeParams, methodTypeParams, funext hparams]
  unfold contents
  dsimp only
  rw [typeParams_congr hinside, hmethods, classDef_congr hinside]

end Renaming

section Occurrences

variable {C : ClassId → Prop} {V : TypeVarId → Prop}

theorem within_of_typeParams (hC : ∀ id, n.Knows id → C id) (hV : ∀ v, n.Scopes v → V v)
    {ps : List TypeParamDecl} {params : List TypeParam} (h : n.typeParams ps = .ok params) :
    ∀ p ∈ params, p.bound.Within C V := by
  intro p hp
  unfold typeParams at h
  cases hbounds : n.resolveBounds ps with
  | error _ =>
      rw [hbounds] at h
      cases h
  | ok bounds =>
      rw [hbounds] at h
      cases h
      rw [← List.map_uncurry_zip_eq_zipWith] at hp
      obtain ⟨⟨decl, uppers⟩, hmem, rfl⟩ := List.mem_map.mp hp
      refine Bound.within_ofUppers fun t ht => ?_
      have hadmits := admits_of_resolveBounds hbounds uppers (List.of_mem_zip hmem).2 t ht
      exact Ty.Within.mono hC hV t hadmits.within

theorem within_of_methodTypeParams (hC : ∀ id, n.Knows id → C id) {ms : List (MethodDecl × Scope)}
    (hV : ∀ m ∈ ms, ∀ v ∈ (n.scope ++ m.2).map Prod.snd, V v) {params : List TypeParam}
    (h : n.methodTypeParams ms = .ok params) : ∀ p ∈ params, p.bound.Within C V := by
  induction ms generalizing params with
  | nil =>
      cases h
      simp
  | cons m ms ih =>
      obtain ⟨own, hown, more, hmore, rfl⟩ := methodTypeParams_cons_eq_ok_iff.mp h
      intro p hp
      rcases List.mem_append.mp hp with hp | hp
      · exact within_of_typeParams (n := { n with scope := n.scope ++ m.2 }) hC
          (hV m (by simp)) hown p hp
      · exact ih (fun m' hm' => hV m' (by simp [hm'])) hmore p hp

/-- Where the parts of a definition come from. -/
structure Defines (n : Names) (c : ClassDecl) (owns : List Scope) (d : ClassDef) : Prop where
  name : d.name = c.name
  typeParams : d.typeParams = n.scope.map Prod.snd
  superClass : n.superClass c (c.kind.getD .plain) = .ok d.superClass
  interfaces : n.resolveAll .value c.interfaces = .ok d.interfaces
  constructors : ∀ k ∈ d.constructors, ∃ decl, n.constructorDef decl = .ok k
  methods : ∀ m ∈ d.methods, ∃ decl, ∃ own ∈ owns, n.methodDef decl own = .ok m

theorem of_classDef_eq_ok {c : ClassDecl} {owns : List Scope} {d : ClassDef}
    (h : n.classDef c owns = .ok d) :
    d.name = c.name ∧ d.typeParams = n.scope.map Prod.snd ∧
      n.superClass c (c.kind.getD .plain) = .ok d.superClass ∧
      n.resolveAll .value c.interfaces = .ok d.interfaces ∧
      c.constructors.mapM n.constructorDef = .ok d.constructors ∧
      ((c.methods.zip owns).mapM fun m => n.methodDef m.1 m.2) = .ok d.methods := by
  unfold classDef at h
  obtain ⟨superClass, hsuperClass, h⟩ := bind_eq_ok_iff.mp h
  obtain ⟨interfaces, hinterfaces, h⟩ := bind_eq_ok_iff.mp h
  obtain ⟨constructors, hconstructors, h⟩ := bind_eq_ok_iff.mp h
  obtain ⟨methods, hmethods, h⟩ := bind_eq_ok_iff.mp h
  rw [pure_eq_ok_iff] at h
  subst h
  exact ⟨rfl, rfl, hsuperClass, hinterfaces, hconstructors, hmethods⟩

theorem defines_of_classDef {c : ClassDecl} {owns : List Scope} {d : ClassDef}
    (h : n.classDef c owns = .ok d) : n.Defines c owns d := by
  obtain ⟨hname, htypeParams, hsuperClass, hinterfaces, hconstructors, hmethods⟩ :=
    of_classDef_eq_ok h
  refine ⟨hname, htypeParams, hsuperClass, hinterfaces, ?_, ?_⟩
  · intro k hk
    obtain ⟨decl, -, hdecl⟩ := exists_of_mapM_eq_ok hconstructors hk
    exact ⟨decl, hdecl⟩
  · intro m hm
    obtain ⟨⟨decl, own⟩, hmem, hdecl⟩ := exists_of_mapM_eq_ok hmethods hm
    exact ⟨decl, own, (List.of_mem_zip hmem).2, hdecl⟩

namespace Defines

variable {c : ClassDecl} {owns : List Scope} {d : ClassDef}

theorem scopedDef (h : n.Defines c owns d) : d.Scoped := by
  refine ⟨?_, ?_⟩
  · intro k hk t ht
    obtain ⟨decl, hdecl⟩ := h.constructors k hk
    have hadmits := admits_of_constructorDef hdecl t ht
    refine ⟨hadmits.isWildcard (by decide), ?_⟩
    refine Ty.Within.mono (fun _ _ => trivial) (fun v hv => ?_) t hadmits.within
    rw [h.typeParams]
    exact hv
  · intro m hm t ht
    obtain ⟨decl, own, -, hdecl⟩ := h.methods m hm
    obtain ⟨htypeParams, hparams, hreturns⟩ := admits_of_methodDef hdecl
    have hscope : ∀ v, Scopes { n with scope := n.scope ++ own } v →
        v ∈ d.typeParams ++ m.typeParams := by
      intro v hv
      rw [h.typeParams, htypeParams, ← List.map_append]
      exact hv
    rcases List.mem_cons.mp ht with rfl | ht
    · exact ⟨hreturns.isWildcard (by decide),
        Ty.Within.mono (fun _ _ => trivial) hscope _ hreturns.within⟩
    · exact ⟨(hparams t ht).isWildcard (by decide),
        Ty.Within.mono (fun _ _ => trivial) hscope _ (hparams t ht).within⟩

theorem withinDef (hC : ∀ id, n.Knows id → C id) (hobject : C .object)
    (hV : ∀ v, n.Scopes v → V v) (howns : ∀ own ∈ owns, ∀ v ∈ own.map Prod.snd, V v)
    (h : n.Defines c owns d) : d.Within C V := by
  refine ⟨?_, ?_, ?_, ?_⟩
  · rw [h.typeParams]
    exact hV
  · intro t ht
    rcases List.mem_append.mp ht with ht | ht
    · have hsuperClass := h.superClass
      rw [Option.mem_toList.mp ht] at hsuperClass
      exact Ty.Within.mono (fun _ hid => hid) hV t (within_of_superClass hC hobject hsuperClass)
    · exact Ty.Within.mono hC hV t (admits_of_resolveAll _ h.interfaces t ht).within
  · intro k hk t ht
    obtain ⟨decl, hdecl⟩ := h.constructors k hk
    exact Ty.Within.mono hC hV t (admits_of_constructorDef hdecl t ht).within
  · intro m hm
    obtain ⟨decl, own, hown, hdecl⟩ := h.methods m hm
    obtain ⟨htypeParams, hparams, hreturns⟩ := admits_of_methodDef hdecl
    have hscope : ∀ v, Scopes { n with scope := n.scope ++ own } v → V v := by
      intro v hv
      rw [Scopes, List.map_append, List.mem_append] at hv
      exact hv.elim (hV v) (howns own hown v)
    refine ⟨?_, ?_, Ty.Within.mono hC hscope _ hreturns.within⟩
    · rw [htypeParams]
      exact howns own hown
    · exact fun t ht => Ty.Within.mono hC hscope t (hparams t ht).within

end Defines

end Occurrences

end Names

instance : Nonempty ClassDef := ⟨{ name := "", kind := .plain, isAbstract := false }⟩

end CallCatalog
