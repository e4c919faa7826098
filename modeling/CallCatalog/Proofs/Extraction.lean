import CallCatalog.Proofs.ClassContents

/-!
The passes through the class declarations of a description, put together. All numbers are known in
advance, so the passes find in every class what reading it on its own gives.
-/

namespace CallCatalog

namespace Store

def appendParams (s : Store) (params : List TypeParam) : Store :=
  { s with typeParams := s.typeParams ++ params }

theorem appendParams_appendParams (s : Store) (params more : List TypeParam) :
    (s.appendParams params).appendParams more = s.appendParams (params ++ more) := by
  simp [appendParams]

end Store

/-- The names differ from each other and from those that are taken. -/
def Fresh (taken names : List String) : Prop := names.Nodup ∧ ∀ name ∈ names, name ∉ taken

theorem fresh_nil_left {names : List String} : Fresh [] names ↔ names.Nodup := by
  simp [Fresh]

theorem fresh_cons {taken names : List String} {name : String} :
    Fresh taken (name :: names) ↔ name ∉ taken ∧ Fresh (taken ++ [name]) names := by
  simp only [Fresh, List.nodup_cons, List.mem_cons, forall_eq_or_imp, List.mem_append,
    List.not_mem_nil, or_false, not_or]
  constructor
  · rintro ⟨⟨hname, hnodup⟩, hfree, hall⟩
    exact ⟨hfree, hnodup, fun x hx => ⟨hall x hx, fun heq => hname (heq ▸ hx)⟩⟩
  · rintro ⟨hfree, hnodup, hall⟩
    exact ⟨⟨fun hname => (hall name hname).2 rfl, hnodup⟩, hfree, fun x hx => (hall x hx).1⟩

theorem any_fst_iff {β : Type} {pairs : List (String × β)} {name : String} :
    (pairs.any fun p => p.1 == name) = true ↔ name ∈ pairs.map Prod.fst := by
  simp only [List.any_eq_true, beq_iff_eq, List.mem_map]

namespace ModelDecl

variable {ν : Numbering} {s s' : Store} {n : Names} {declared : DeclaredClasses}

theorem numberTypeParams_eq_ok_iff {className owner : String} {method : Option Nat}
    {position : Nat} {own own' : Scope} {ps : List TypeParamDecl}
    (hν : ν.Counts s.typeParams.length (paramPlaces className method position ps)) :
    numberTypeParams s owner own ps = .ok (s', own') ↔
      Fresh (own.map Prod.fst) (ps.map TypeParamDecl.name) ∧
        s' = s.appendParams (ps.map TypeParamDecl.unbound) ∧
        own' = own ++ ν.scope className method position ps := by
  induction ps generalizing s position own with
  | nil =>
      simp only [numberTypeParams, Store.appendParams, Numbering.scope, Except.ok.injEq,
        Prod.mk.injEq, eq_comm (b := s'), eq_comm (b := own')]
      simp [Fresh]
  | cons p ps ih =>
      rw [numberTypeParams, List.map_cons, fresh_cons]
      split
      · rename_i htaken
        rw [any_fst_iff] at htaken
        constructor
        · intro h
          cases h
        · rintro ⟨⟨hfree, -⟩, -⟩
          exact absurd htaken hfree
      · rename_i hfree
        rw [any_fst_iff] at hfree
        have hplaces : paramPlaces className method position (p :: ps) =
            ⟨className, method, position⟩ :: paramPlaces className method (position + 1) ps := by
          simp [paramPlaces]
        rw [hplaces] at hν
        have hnext : ν.Counts (s.addTypeParam p.name []).2.typeParams.length
            (paramPlaces className method (position + 1) ps) := by
          simpa [Store.addTypeParam] using hν.tail
        have hstore : (s.addTypeParam p.name []).2.appendParams (ps.map TypeParamDecl.unbound) =
            s.appendParams (p.unbound :: ps.map TypeParamDecl.unbound) := by
          simp [Store.addTypeParam, Store.appendParams, TypeParamDecl.unbound]
        have hscope : own ++ [(p.name, (s.addTypeParam p.name []).1)] ++
            ν.scope className method (position + 1) ps =
              own ++ ν.scope className method position (p :: ps) := by
          simp [Numbering.scope, hν.head, Store.addTypeParam]
        dsimp only
        rw [ih hnext, hstore, hscope, List.map_append]
        simp [hfree]

theorem numberAllTypeParams_eq_ok_iff {cs : List ClassDecl} {scopes : List Scope}
    (hν : ν.Counts s.typeParams.length (cs.flatMap ClassDecl.ownPlaces)) :
    numberAllTypeParams s cs = .ok (s', scopes) ↔
      (∀ c ∈ cs, (c.typeParams.map TypeParamDecl.name).Nodup) ∧
        s' = s.appendParams ((cs.flatMap ClassDecl.typeParams).map TypeParamDecl.unbound) ∧
        scopes = cs.map fun c => ν.scope c.name none 0 c.typeParams := by
  induction cs generalizing s scopes with
  | nil =>
      simp only [numberAllTypeParams, Store.appendParams, Except.ok.injEq, Prod.mk.injEq,
        eq_comm (b := s'), eq_comm (b := scopes)]
      simp
  | cons c cs ih =>
      rw [List.flatMap_cons] at hν
      have hrest : ν.Counts (s.appendParams
          (c.typeParams.map TypeParamDecl.unbound)).typeParams.length
          (cs.flatMap ClassDecl.ownPlaces) := by
        simpa [Store.appendParams, ClassDecl.ownPlaces, paramPlaces] using hν.right
      have hstore : s.appendParams (((c :: cs).flatMap ClassDecl.typeParams).map
          TypeParamDecl.unbound) = (s.appendParams (c.typeParams.map
            TypeParamDecl.unbound)).appendParams
              ((cs.flatMap ClassDecl.typeParams).map TypeParamDecl.unbound) := by
        simp [Store.appendParams_appendParams]
      rw [numberAllTypeParams, hstore]
      constructor
      · intro h
        obtain ⟨⟨s₁, own⟩, h₁, h⟩ := bind_eq_ok_iff.mp h
        obtain ⟨⟨s₂, owns⟩, h₂, h⟩ := bind_eq_ok_iff.mp h
        rw [pure_eq_ok_iff] at h
        cases h
        obtain ⟨hfresh, rfl, rfl⟩ := (numberTypeParams_eq_ok_iff hν.left).mp h₁
        obtain ⟨hnodup, rfl, rfl⟩ := (ih hrest).mp h₂
        refine ⟨?_, rfl, rfl⟩
        rintro c' hc'
        rcases List.mem_cons.mp hc' with rfl | hc'
        · exact fresh_nil_left.mp hfresh
        · exact hnodup c' hc'
      · rintro ⟨hnodup, rfl, rfl⟩
        refine bind_eq_ok_iff.mpr ⟨_, (numberTypeParams_eq_ok_iff hν.left).mpr
          ⟨fresh_nil_left.mpr (hnodup c (by simp)), rfl, rfl⟩, ?_⟩
        exact bind_eq_ok_iff.mpr ⟨_, (ih hrest).mpr
          ⟨fun c' hc' => hnodup c' (by simp [hc']), rfl, rfl⟩, rfl⟩

theorem modify_length_append {α : Type} (front : List α) (a : α) (back : List α) (g : α → α) :
    (front ++ a :: back).modify front.length g = front ++ g a :: back := by
  induction front with
  | nil => rfl
  | cons b front ih => simp [ih]

/-- The bounds go to the type parameters that were numbered for them, wherever those stand. -/
theorem foldl_setUppers {className : String} {method : Option Nat} {position : Nat}
    {front : List TypeParam} {ps : List TypeParamDecl} {bounds : List (List Ty)}
    (classes : List ClassEntry) (back : List TypeParam)
    (hν : ν.Counts front.length (paramPlaces className method position ps))
    (hlength : bounds.length = ps.length) :
    ((ν.scope className method position ps).zip bounds).foldl
        (fun s p => s.setUppers p.1.2 p.2)
        (⟨classes, front ++ ps.map TypeParamDecl.unbound ++ back⟩ : Store) =
      ⟨classes, front ++ ps.zipWith TypeParamDecl.bounded bounds ++ back⟩ := by
  induction ps generalizing position front bounds with
  | nil => simp [Numbering.scope]
  | cons p ps ih =>
      obtain ⟨uppers, bounds, rfl⟩ := List.exists_cons_of_length_eq_add_one hlength
      have hplaces : paramPlaces className method position (p :: ps) =
          ⟨className, method, position⟩ :: paramPlaces className method (position + 1) ps := by
        simp [paramPlaces]
      rw [hplaces] at hν
      have hset : Store.setUppers ⟨classes, front ++ (p :: ps).map TypeParamDecl.unbound ++ back⟩
          ⟨front.length⟩ uppers = ⟨classes, (front ++ [p.bounded uppers]) ++
            ps.map TypeParamDecl.unbound ++ back⟩ := by
        simp [Store.setUppers, TypeParamDecl.unbound, TypeParamDecl.bounded,
          modify_length_append]
      have hscope : ν.scope className method position (p :: ps) =
          (p.name, ⟨front.length⟩) :: ν.scope className method (position + 1) ps := by
        simp [Numbering.scope, hν.head]
      have hnext : ν.Counts (front ++ [p.bounded uppers]).length
          (paramPlaces className method (position + 1) ps) := by
        simpa using hν.tail
      rw [hscope, List.zip_cons_cons, List.foldl_cons, hset, ih hnext (by simpa using hlength)]
      simp

/-- `n` knows the same classes as the store does with the declared ones. -/
def Matches (s : Store) (declared : DeclaredClasses) (n : Names) : Prop :=
  ∀ name, n.class? name = (⟨s, declared, []⟩ : Names).class? name

theorem Matches.renames (h : Matches s declared n) (scope : Scope) :
    Names.Renames .refl { n with scope } ⟨s, declared, scope⟩ := by
  refine ⟨fun name => ?_, (List.map_id _).symm⟩
  have hclass : (⟨s, declared, scope⟩ : Names).class? name =
      ({ n with scope } : Names).class? name := (h name).symm
  rw [hclass]
  cases Names.class? { n with scope } name <;> rfl

theorem bindBounds_eq_ok_iff {className : String} {method : Option Nat} {scope : Scope}
    {front back : List TypeParam} {ps : List TypeParamDecl}
    (hn : Matches s declared n)
    (hs : s.typeParams = front ++ ps.map TypeParamDecl.unbound ++ back)
    (hν : ν.Counts front.length (paramPlaces className method 0 ps)) :
    bindBounds s declared scope (ν.scope className method 0 ps) ps = .ok s' ↔
      ∃ params, Names.typeParams { n with scope } ps = .ok params ∧
        s' = { s with typeParams := front ++ params ++ back } := by
  obtain ⟨classes, typeParams⟩ := s
  dsimp only at hs
  subst hs
  rw [bindBounds, Names.resolveBounds_congr (hn.renames scope), Names.typeParams]
  cases hbounds : Names.resolveBounds { n with scope } ps with
  | error _ =>
      constructor
      · intro h
        cases h
      · rintro ⟨_, h, -⟩
        cases h
  | ok bounds =>
      have hlength : bounds.length = ps.length := (mapM_eq_ok_iff.mp hbounds).length_eq.symm
      have hfold := foldl_setUppers classes back hν hlength
      simp only [bind, Except.bind, pure, Except.pure, Except.map, hfold, Except.ok.injEq,
        eq_comm (b := s')]
      constructor
      · exact fun h => ⟨_, rfl, h⟩
      · rintro ⟨params, rfl, h⟩
        exact h

theorem bindAllBounds_eq_ok_iff {front : List TypeParam} {cs : List ClassDecl}
    (hn : Matches s declared n)
    (hs : s.typeParams = front ++ (cs.flatMap ClassDecl.typeParams).map TypeParamDecl.unbound)
    (hν : ν.Counts front.length (cs.flatMap ClassDecl.ownPlaces)) :
    bindAllBounds s declared (cs.zip (cs.map fun c => ν.scope c.name none 0 c.typeParams)) =
        .ok s' ↔
      ∃ params, (cs.mapM fun c => (n.inside ν c).typeParams c.typeParams) = .ok params ∧
        s' = { s with typeParams := front ++ params.flatten } := by
  -- `front` are the type parameters that have their bounds already, in whatever order they came.
  induction cs generalizing s front with
  | nil =>
      obtain ⟨classes, typeParams⟩ := s
      dsimp only at hs
      subst hs
      simp only [bindAllBounds, List.zip_nil_left, List.mapM_nil, pure_eq_ok_iff, Except.ok.injEq,
        eq_comm (b := s')]
      simp
  | cons c cs ih =>
      rw [List.flatMap_cons, List.map_append] at hs
      rw [List.flatMap_cons] at hν
      have hbind : ∀ s₁, bindBounds s declared (ν.scope c.name none 0 c.typeParams)
          (ν.scope c.name none 0 c.typeParams) c.typeParams = .ok s₁ ↔
            ∃ params, (n.inside ν c).typeParams c.typeParams = .ok params ∧
              s₁ = { s with typeParams := front ++ params ++
                (cs.flatMap ClassDecl.typeParams).map TypeParamDecl.unbound } :=
        fun s₁ => bindBounds_eq_ok_iff hn (by rw [hs, List.append_assoc]) hν.left
      rw [List.map_cons, List.zip_cons_cons, bindAllBounds]
      simp only [List.mapM_cons, bind_eq_ok_iff, pure_eq_ok_iff, hbind]
      have hrest : ∀ params, (n.inside ν c).typeParams c.typeParams = .ok params →
          (bindAllBounds { s with typeParams := front ++ params ++
              (cs.flatMap ClassDecl.typeParams).map TypeParamDecl.unbound } declared
              (cs.zip (cs.map fun c => ν.scope c.name none 0 c.typeParams)) = .ok s' ↔
            ∃ more, (cs.mapM fun c => (n.inside ν c).typeParams c.typeParams) = .ok more ∧
              s' = { s with typeParams := front ++ params ++ more.flatten }) := by
        intro params hparams
        refine ih hn rfl ?_
        have hplaces : (front ++ params).length = front.length + c.ownPlaces.length := by
          simp [Names.length_of_typeParams hparams, ClassDecl.ownPlaces, paramPlaces]
        rw [hplaces]
        exact hν.right
      constructor
      · rintro ⟨-, ⟨params, hparams, rfl⟩, h⟩
        obtain ⟨more, hmore, rfl⟩ := (hrest params hparams).mp h
        exact ⟨params :: more, ⟨params, hparams, more, hmore, rfl⟩, by simp⟩
      · rintro ⟨-, ⟨params, hparams, more, hmore, rfl⟩, rfl⟩
        exact ⟨_, ⟨params, hparams, rfl⟩,
          (hrest params hparams).mpr ⟨more, hmore, by simp⟩⟩

theorem bindBounds_appendParams_eq_ok_iff {className : String} {method : Option Nat}
    {scope : Scope} {ps : List TypeParamDecl} (hn : Matches s declared n)
    (hν : ν.Counts s.typeParams.length (paramPlaces className method 0 ps)) :
    bindBounds (s.appendParams (ps.map TypeParamDecl.unbound)) declared scope
        (ν.scope className method 0 ps) ps = .ok s' ↔
      ∃ params, Names.typeParams { n with scope } ps = .ok params ∧
        s' = s.appendParams params := by
  have hmatches : Matches (s.appendParams (ps.map TypeParamDecl.unbound)) declared n := hn
  have hunbound : (s.appendParams (ps.map TypeParamDecl.unbound)).typeParams =
      s.typeParams ++ ps.map TypeParamDecl.unbound ++ [] := by
    simp [Store.appendParams]
  rw [bindBounds_eq_ok_iff hmatches hunbound hν]
  simp [Store.appendParams]

theorem bindMethods_cons_eq_ok_iff {className : String} {method : Nat} {scope own : Scope}
    {owns : List Scope} {m : MethodDecl} {ms : List MethodDecl} (hn : Matches s declared n)
    (hν : ν.Counts s.typeParams.length (paramPlaces className (some method) 0 m.typeParams))
    (hown : ν.scope className (some method) 0 m.typeParams = own) :
    bindMethods s declared scope className (m :: ms) = .ok (s', owns) ↔
      (m.typeParams.map TypeParamDecl.name).Nodup ∧
        ∃ params, Names.typeParams { n with scope := scope ++ own } m.typeParams = .ok params ∧
          ∃ rest, bindMethods (s.appendParams params) declared scope className ms =
            .ok (s', rest) ∧ owns = own :: rest := by
  subst hown
  have hbind : ∀ s₁, bindBounds (s.appendParams (m.typeParams.map TypeParamDecl.unbound)) declared
      (scope ++ ν.scope className (some method) 0 m.typeParams)
      (ν.scope className (some method) 0 m.typeParams) m.typeParams = .ok s₁ ↔ _ :=
    fun s₁ => bindBounds_appendParams_eq_ok_iff hn hν
  rw [bindMethods]
  constructor
  · intro h
    obtain ⟨⟨s₁, own₁⟩, h₁, h⟩ := bind_eq_ok_iff.mp h
    obtain ⟨hfresh, rfl, rfl⟩ := (numberTypeParams_eq_ok_iff hν).mp h₁
    obtain ⟨s₂, h₂, h⟩ := bind_eq_ok_iff.mp h
    obtain ⟨params, hparams, rfl⟩ := (hbind s₂).mp h₂
    obtain ⟨⟨s₃, rest⟩, h₃, h⟩ := bind_eq_ok_iff.mp h
    rw [pure_eq_ok_iff, Prod.mk.injEq] at h
    obtain ⟨rfl, rfl⟩ := h
    exact ⟨fresh_nil_left.mp hfresh, params, hparams, rest, h₃, rfl⟩
  · rintro ⟨hnodup, params, hparams, rest, hrest, rfl⟩
    refine bind_eq_ok_iff.mpr ⟨_, (numberTypeParams_eq_ok_iff hν).mpr
      ⟨fresh_nil_left.mpr hnodup, rfl, rfl⟩, ?_⟩
    refine bind_eq_ok_iff.mpr ⟨_, (hbind _).mpr ⟨params, hparams, rfl⟩, ?_⟩
    exact bind_eq_ok_iff.mpr ⟨_, hrest, rfl⟩

theorem bindMethods_eq_ok_iff {className : String} {method : Nat} {scope : Scope}
    {owns : List Scope} {ms : List MethodDecl} (hn : Matches s declared n)
    (hν : ν.Counts s.typeParams.length (methodPlaces className method ms)) :
    bindMethods s declared scope className ms = .ok (s', owns) ↔
      (∀ m ∈ ms, (m.typeParams.map TypeParamDecl.name).Nodup) ∧
        owns = ν.methodScopes className method ms ∧
        ∃ params, Names.methodTypeParams { n with scope } (ms.zip owns) = .ok params ∧
          s' = s.appendParams params := by
  induction ms generalizing s s' method owns with
  | nil =>
      simp only [bindMethods, Except.ok.injEq, Prod.mk.injEq, eq_comm (b := s'),
        eq_comm (b := owns), Numbering.methodScopes]
      constructor
      · rintro ⟨rfl, rfl⟩
        exact ⟨by simp, rfl, [], rfl, by simp [Store.appendParams]⟩
      · rintro ⟨-, rfl, -, ⟨⟩, rfl⟩
        exact ⟨by simp [Store.appendParams], rfl⟩
  | cons m ms ih =>
      have hplaces : methodPlaces className method (m :: ms) =
          paramPlaces className (some method) 0 m.typeParams ++
            methodPlaces className (method + 1) ms := by
        simp [methodPlaces]
      have hscopes : ν.methodScopes className method (m :: ms) =
          ν.scope className (some method) 0 m.typeParams ::
            ν.methodScopes className (method + 1) ms := by
        simp [Numbering.methodScopes]
      rw [hplaces] at hν
      generalize hown : ν.scope className (some method) 0 m.typeParams = own at hscopes
      rw [bindMethods_cons_eq_ok_iff hn hν.left hown, hscopes, List.forall_mem_cons]
      have hrest : ∀ params, Names.typeParams { n with scope := scope ++ own } m.typeParams =
          .ok params → ν.Counts (s.appendParams params).typeParams.length
            (methodPlaces className (method + 1) ms) := by
        intro params hparams
        have hcounts := hν.right
        simpa [Store.appendParams, paramPlaces, Names.length_of_typeParams hparams] using hcounts
      constructor
      · rintro ⟨hnodup, params, hparams, rest, h, rfl⟩
        obtain ⟨hnodups, rfl, more, hmore, rfl⟩ :=
          (ih (s := s.appendParams params) hn (hrest params hparams)).mp h
        refine ⟨⟨hnodup, hnodups⟩, rfl, params ++ more, ?_, Store.appendParams_appendParams _ _ _⟩
        exact Names.methodTypeParams_cons_eq_ok_iff.mpr ⟨params, hparams, more, hmore, rfl⟩
      · rintro ⟨⟨hnodup, hnodups⟩, rfl, all, hall, rfl⟩
        rw [List.zip_cons_cons] at hall
        obtain ⟨params, hparams, more, hmore, rfl⟩ :=
          Names.methodTypeParams_cons_eq_ok_iff.mp hall
        refine ⟨hnodup, params, hparams, _,
          (ih (s := s.appendParams params) hn (hrest params hparams)).mpr
            ⟨hnodups, rfl, more, hmore, ?_⟩, rfl⟩
        exact (Store.appendParams_appendParams _ _ _).symm

theorem classDef_eq_bind (scope : Scope) (c : ClassDecl) :
    classDef s declared scope c = (do
      let (s₁, owns) ← bindMethods s declared scope c.name c.methods
      let d ← Names.classDef ⟨s₁, declared, scope⟩ c owns
      return (s₁, d)) := by
  simp only [classDef, Names.classDef, bind_assoc, pure_bind]

theorem classDef_eq_ok_iff {c : ClassDecl} {d : ClassDef} (hn : Matches s declared n)
    (hν : ν.Counts s.typeParams.length c.placesOfMethods) :
    classDef s declared (ν.scope c.name none 0 c.typeParams) c = .ok (s', d) ↔
      (∀ m ∈ c.methods, (m.typeParams.map TypeParamDecl.name).Nodup) ∧
        (n.inside ν c).classDef c (ν.methodScopes c.name 0 c.methods) = .ok d ∧
        ∃ params, (n.inside ν c).methodTypeParams
            (c.methods.zip (ν.methodScopes c.name 0 c.methods)) = .ok params ∧
          s' = s.appendParams params := by
  have hclass : ∀ params owns, Names.classDef ⟨s.appendParams params, declared,
      ν.scope c.name none 0 c.typeParams⟩ c owns = (n.inside ν c).classDef c owns := by
    intro params owns
    have hmatches : Matches (s.appendParams params) declared n := hn
    exact Names.classDef_congr (hmatches.renames _) c owns
  rw [classDef_eq_bind]
  constructor
  · intro h
    obtain ⟨⟨s₁, owns⟩, h₁, h⟩ := bind_eq_ok_iff.mp h
    obtain ⟨hnodup, rfl, params, hparams, rfl⟩ := (bindMethods_eq_ok_iff hn hν).mp h₁
    obtain ⟨d', hd, h⟩ := bind_eq_ok_iff.mp h
    rw [pure_eq_ok_iff, Prod.mk.injEq] at h
    obtain ⟨rfl, rfl⟩ := h
    rw [hclass] at hd
    exact ⟨hnodup, hd, params, hparams, rfl⟩
  · rintro ⟨hnodup, hd, params, hparams, rfl⟩
    refine bind_eq_ok_iff.mpr ⟨_, (bindMethods_eq_ok_iff hn hν).mpr
      ⟨hnodup, rfl, params, hparams, rfl⟩, ?_⟩
    exact bind_eq_ok_iff.mpr ⟨d, (hclass params _).trans hd, rfl⟩

/-- Defining a declared class changes nothing about what names refer to: it has been known since it
was declared. -/
theorem Matches.define {name : String} {id : ClassId} {arity : Nat} (h : Matches s declared n)
    (hlookup : declared.lookup name = some (id, arity)) (hid : s.classId? name = some id)
    (d : ClassDef) : Matches (s.define id d) declared n := by
  intro other
  rw [h other]
  cases hother : declared.lookup other with
  | some found => simp [Names.class?, hother]
  | none =>
      simp only [Names.class?, hother, Store.classId?_define]
      cases hc : s.classId? other with
      | none => rfl
      | some c =>
          have hne : c ≠ id := by
            rintro rfl
            rw [Store.classId?_injective hid hc, hother] at hlookup
            cases hlookup
          simp [Store.classDef?_define (Store.hasClass_of_classId? hid), hne]

/-- The definition of classes under the numbers that their names have. -/
def defineEach (s : Store) (number : String → ClassId) (ds : List ClassDef) : Store :=
  ds.foldl (fun s d => s.define (number d.name) d) s

theorem defineEach_appendParams (number : String → ClassId) (ds : List ClassDef)
    (params : List TypeParam) :
    defineEach (s.appendParams params) number ds =
      (defineEach s number ds).appendParams params := by
  induction ds generalizing s with
  | nil => rfl
  | cons d ds ih => exact ih (s := s.define (number d.name) d)

theorem defineEach_define_appendParams (number : String → ClassId) (d : ClassDef)
    (ds : List ClassDef) (params more : List TypeParam) :
    (defineEach ((s.appendParams params).define (number d.name) d) number ds).appendParams more =
      (defineEach s number (d :: ds)).appendParams (params ++ more) := by
  have hfirst : (s.appendParams params).define (number d.name) d =
      (s.define (number d.name) d).appendParams params := rfl
  rw [hfirst, defineEach_appendParams, Store.appendParams_appendParams]
  rfl

theorem defineAll_cons_eq_ok_iff {c : ClassDecl} {id : ClassId} {arity : Nat}
    {rest : List (ClassDecl × Scope)} (hn : Matches s declared n)
    (hlookup : declared.lookup c.name = some (id, arity))
    (hν : ν.Counts s.typeParams.length c.placesOfMethods) :
    defineAll s declared ((c, ν.scope c.name none 0 c.typeParams) :: rest) = .ok s' ↔
      (∀ m ∈ c.methods, (m.typeParams.map TypeParamDecl.name).Nodup) ∧
        ∃ params, (n.inside ν c).methodTypeParams
            (c.methods.zip (ν.methodScopes c.name 0 c.methods)) = .ok params ∧
          ∃ d, (n.inside ν c).classDef c (ν.methodScopes c.name 0 c.methods) = .ok d ∧
            defineAll ((s.appendParams params).define id d) declared rest = .ok s' := by
  rw [defineAll, bind_eq_ok_iff]
  constructor
  · rintro ⟨⟨s₁, d⟩, h₁, h⟩
    obtain ⟨hnodup, hd, params, hparams, rfl⟩ := (classDef_eq_ok_iff hn hν).mp h₁
    rw [hlookup] at h
    exact ⟨hnodup, params, hparams, d, hd, h⟩
  · rintro ⟨hnodup, params, hparams, d, hd, h⟩
    refine ⟨(s.appendParams params, d), (classDef_eq_ok_iff hn hν).mpr
      ⟨hnodup, hd, params, hparams, rfl⟩, ?_⟩
    rw [hlookup]
    exact h

theorem counts_define_appendParams {c : ClassDecl} {id : ClassId} {d : ClassDef}
    {params : List TypeParam} {places : List ParamPlace}
    (hparams : (n.inside ν c).methodTypeParams
      (c.methods.zip (ν.methodScopes c.name 0 c.methods)) = .ok params)
    (hν : ν.Counts (s.typeParams.length + c.placesOfMethods.length) places) :
    ν.Counts ((s.appendParams params).define id d).typeParams.length places := by
  have hlength : ((s.appendParams params).define id d).typeParams.length =
      s.typeParams.length + c.placesOfMethods.length := by
    simp [Store.appendParams, Store.define, Names.length_of_methodTypeParams hparams,
      ClassDecl.placesOfMethods]
  rwa [hlength]

theorem defineAll_eq_ok_iff {number : String → ClassId} {cs : List ClassDecl}
    (hn : Matches s declared n)
    (hlookup : ∀ c ∈ cs, declared.lookup c.name = some (number c.name, c.typeParams.length))
    (hid : ∀ c ∈ cs, s.classId? c.name = some (number c.name))
    (hν : ν.Counts s.typeParams.length (cs.flatMap ClassDecl.placesOfMethods)) :
    defineAll s declared (cs.zip (cs.map fun c => ν.scope c.name none 0 c.typeParams)) =
        .ok s' ↔
      (∀ c ∈ cs, ∀ m ∈ c.methods, (m.typeParams.map TypeParamDecl.name).Nodup) ∧
        ∃ params, (cs.mapM fun c => (n.inside ν c).methodTypeParams
            (c.methods.zip (ν.methodScopes c.name 0 c.methods))) = .ok params ∧
          ∃ ds, (cs.mapM fun c => (n.inside ν c).classDef c
              (ν.methodScopes c.name 0 c.methods)) = .ok ds ∧
            s' = (defineEach s number ds).appendParams params.flatten := by
  -- A class is read in a store that defines the ones before it. This changes neither what its names
  -- refer to nor the numbers of its type parameters, so `n` and `ν` stay the same throughout.
  induction cs generalizing s s' with
  | nil =>
      simp only [defineAll, List.zip_nil_left, List.mapM_nil, pure_eq_ok_iff, Except.ok.injEq,
        eq_comm (b := s')]
      constructor
      · rintro rfl
        exact ⟨by simp, [], rfl, [], rfl, by simp [defineEach, Store.appendParams]⟩
      · rintro ⟨-, -, rfl, -, rfl, rfl⟩
        simp [defineEach, Store.appendParams]
  | cons c cs ih =>
      obtain ⟨hlook, hlookup⟩ := List.forall_mem_cons.mp hlookup
      obtain ⟨hown, hid⟩ := List.forall_mem_cons.mp hid
      rw [List.flatMap_cons] at hν
      rw [List.map_cons, List.zip_cons_cons, defineAll_cons_eq_ok_iff hn hlook hν.left,
        List.forall_mem_cons]
      simp only [List.mapM_cons, bind_eq_ok_iff, pure_eq_ok_iff]
      have hrest := fun params d (hparams : (n.inside ν c).methodTypeParams
          (c.methods.zip (ν.methodScopes c.name 0 c.methods)) = .ok params) =>
        @ih ((s.appendParams params).define (number c.name) d) s'
          (Matches.define (s := s.appendParams params) hn hlook hown d) hlookup
          (fun c' hc' => (Store.classId?_define _ d _).trans (hid c' hc'))
          (counts_define_appendParams hparams hν.right)
      constructor
      · rintro ⟨hnodup, params, hparams, d, hd, h⟩
        have hname : d.name = c.name := (Names.defines_of_classDef hd).name
        obtain ⟨hnodups, more, hmore, ds, hds, rfl⟩ := (hrest params d hparams).mp h
        refine ⟨⟨hnodup, hnodups⟩, params :: more, ⟨params, hparams, more, hmore, rfl⟩, d :: ds,
          ⟨d, hd, ds, hds, rfl⟩, ?_⟩
        rw [← hname, defineEach_define_appendParams, List.flatten_cons]
      · rintro ⟨⟨hnodup, hnodups⟩, -, ⟨params, hparams, more, hmore, rfl⟩, -,
          ⟨d, hd, ds, hds, rfl⟩, rfl⟩
        have hname : d.name = c.name := (Names.defines_of_classDef hd).name
        refine ⟨hnodup, params, hparams, d, hd, (hrest params d hparams).mpr
          ⟨hnodups, more, hmore, ds, hds, ?_⟩⟩
        rw [← hname, defineEach_define_appendParams, List.flatten_cons]

/-- The classes of a description with the numbers that they get in a store. -/
def declaredClasses (s : Store) (cs : List ClassDecl) : DeclaredClasses :=
  cs.map fun c => (c.name, s.numberOf (cs.map ClassDecl.name) c.name, c.typeParams.length)

/-- What names refer to while the classes of a description are put into a store. -/
def names (s : Store) (cs : List ClassDecl) : Names := ⟨s, declaredClasses s cs, []⟩

theorem lookup_map_name {β : Type} {cs : List ClassDecl} (hnames : (cs.map ClassDecl.name).Nodup)
    (g : ClassDecl → β) {c : ClassDecl} (hc : c ∈ cs) :
    (cs.map fun c => (c.name, g c)).lookup c.name = some (g c) := by
  induction cs with
  | nil => cases hc
  | cons first cs ih =>
      obtain ⟨hfirst, hnames⟩ := List.nodup_cons.mp hnames
      rcases List.mem_cons.mp hc with rfl | hc
      · simp
      · have hne : c.name ≠ first.name := fun h => hfirst (h ▸ List.mem_map_of_mem hc)
        have hbeq : (c.name == first.name) = false := by simpa using hne
        simp only [List.map_cons, List.lookup_cons, hbeq]
        exact ih hnames hc

theorem lookup_declaredClasses {cs : List ClassDecl} (hnames : (cs.map ClassDecl.name).Nodup)
    {c : ClassDecl} (hc : c ∈ cs) : (declaredClasses s cs).lookup c.name =
      some (s.numberOf (cs.map ClassDecl.name) c.name, c.typeParams.length) :=
  lookup_map_name hnames _ hc

theorem lookup_declaredClasses_eq_none {cs : List ClassDecl} {name : String} :
    (declaredClasses s cs).lookup name = none ↔ name ∉ cs.map ClassDecl.name := by
  simp only [declaredClasses, List.lookup_eq_none_iff, List.mem_map, forall_exists_index, and_imp,
    forall_apply_eq_imp_iff₂, not_exists, not_and, bne_iff_ne]
  exact ⟨fun h c hc heq => h c hc heq.symm, fun h c hc heq => h c hc heq.symm⟩

theorem numberClasses_eq_ok_iff {cs : List ClassDecl} {declared' : DeclaredClasses} :
    numberClasses s declared cs = .ok (s', declared') ↔
      Fresh (declared.map Prod.fst) (cs.map ClassDecl.name) ∧
        s' = s.internAll (cs.map ClassDecl.name) ∧
        declared' = declared ++ declaredClasses s cs := by
  induction cs generalizing s declared with
  | nil =>
      simp only [numberClasses, Except.ok.injEq, Prod.mk.injEq, eq_comm (b := s'),
        eq_comm (b := declared'), declaredClasses]
      simp [Fresh, Store.internAll]
  | cons c cs ih =>
      rw [numberClasses, List.map_cons, fresh_cons]
      split
      · rename_i htaken
        rw [any_fst_iff] at htaken
        constructor
        · intro h
          cases h
        · rintro ⟨⟨hfree, -⟩, -⟩
          exact absurd htaken hfree
      · rename_i hfree
        rw [any_fst_iff] at hfree
        have hdeclared : (cs.map ClassDecl.name).Nodup →
            declared ++ [(c.name, (s.intern c.name).1, c.typeParams.length)] ++
                declaredClasses (s.intern c.name).2 cs =
              declared ++ declaredClasses s (c :: cs) := by
          intro hnames
          have hnumber := Store.numberOf_cons (s := s) hnames c.name
          simp only [declaredClasses, List.map_cons, hnumber, List.append_assoc, List.cons_append,
            List.nil_append]
          rfl
        dsimp only
        rw [ih, List.map_append]
        constructor
        · rintro ⟨hfresh, rfl, rfl⟩
          exact ⟨⟨hfree, hfresh⟩, rfl, hdeclared hfresh.1⟩
        · rintro ⟨⟨-, hfresh⟩, rfl, rfl⟩
          exact ⟨hfresh, rfl, (hdeclared hfresh.1).symm⟩

theorem matches_internAll {cs : List ClassDecl} (hnames : (cs.map ClassDecl.name).Nodup) :
    Matches (s.internAll (cs.map ClassDecl.name)) (declaredClasses s cs) (names s cs) := by
  intro name
  cases hlookup : (declaredClasses s cs).lookup name with
  | some found => simp [Names.class?, names, hlookup]
  | none =>
      have hnot := lookup_declaredClasses_eq_none.mp hlookup
      simp only [Names.class?, names, hlookup, Store.classId?_internAll_of_not_mem hnames hnot,
        Store.classDef?_internAll hnames]

/-- Nothing is declared twice in the same place. -/
structure Distinct (cs : List ClassDecl) : Prop where
  classes : (cs.map ClassDecl.name).Nodup
  typeParams : ∀ c ∈ cs, (c.typeParams.map TypeParamDecl.name).Nodup
  methodTypeParams : ∀ c ∈ cs, ∀ m ∈ c.methods, (m.typeParams.map TypeParamDecl.name).Nodup

def defineClasses (s : Store) (cs : List ClassDecl) :
    Except DeclarationError (DeclaredClasses × Store) := do
  let (s, declared) ← numberClasses s [] cs
  let (s, scopes) ← numberAllTypeParams s cs
  let s ← bindAllBounds s declared (cs.zip scopes)
  let s ← defineAll s declared (cs.zip scopes)
  return (declared, s)

/-- The type parameters of a description, in the order of their numbers. -/
def allParams (cs : List ClassDecl) (κ : ClassDecl → ClassContents) : List TypeParam :=
  (cs.flatMap fun c => (κ c).params) ++ cs.flatMap fun c => (κ c).methodParams

def install (s : Store) (cs : List ClassDecl) (κ : ClassDecl → ClassContents) : Store :=
  (defineEach (s.internAll (cs.map ClassDecl.name)) (s.numberOf (cs.map ClassDecl.name))
    (cs.map fun c => (κ c).definition)).appendParams (allParams cs κ)

theorem length_flatMap_eq {α β γ : Type} {as : List α} {g : α → List β} {h : α → List γ}
    (hlength : ∀ a ∈ as, (g a).length = (h a).length) :
    (as.flatMap g).length = (as.flatMap h).length := by
  rw [List.length_flatMap, List.length_flatMap, List.map_congr_left hlength]

theorem bindAllBounds_internAll_eq_ok_iff {cs : List ClassDecl}
    (hnames : (cs.map ClassDecl.name).Nodup)
    (hν : ν.Counts s.typeParams.length (cs.flatMap ClassDecl.ownPlaces)) :
    bindAllBounds ((s.internAll (cs.map ClassDecl.name)).appendParams
        ((cs.flatMap ClassDecl.typeParams).map TypeParamDecl.unbound)) (declaredClasses s cs)
        (cs.zip (cs.map fun c => ν.scope c.name none 0 c.typeParams)) = .ok s' ↔
      ∃ φ : ClassDecl → List TypeParam,
        (∀ c ∈ cs, ((names s cs).inside ν c).typeParams c.typeParams = .ok (φ c)) ∧
          s' = (s.internAll (cs.map ClassDecl.name)).appendParams (cs.flatMap φ) := by
  have hmatches : Matches ((s.internAll (cs.map ClassDecl.name)).appendParams
      ((cs.flatMap ClassDecl.typeParams).map TypeParamDecl.unbound)) (declaredClasses s cs)
      (names s cs) := matches_internAll hnames
  have hparams := Store.typeParams_internAll (s := s) hnames
  have hunbound : ((s.internAll (cs.map ClassDecl.name)).appendParams
      ((cs.flatMap ClassDecl.typeParams).map TypeParamDecl.unbound)).typeParams =
        s.typeParams ++ (cs.flatMap ClassDecl.typeParams).map TypeParamDecl.unbound := by
    rw [← hparams]
    rfl
  rw [bindAllBounds_eq_ok_iff hmatches hunbound hν]
  simp only [mapM_eq_ok_iff_exists]
  constructor
  · rintro ⟨_, ⟨φ, hφ, rfl⟩, rfl⟩
    exact ⟨φ, hφ, by simp [Store.appendParams, hparams, List.flatMap]⟩
  · rintro ⟨φ, hφ, rfl⟩
    exact ⟨_, ⟨φ, hφ, rfl⟩, by simp [Store.appendParams, hparams, List.flatMap]⟩

theorem defineAll_internAll_eq_ok_iff {cs : List ClassDecl} {φ : ClassDecl → List TypeParam}
    (hnames : (cs.map ClassDecl.name).Nodup)
    (hν : ν.Counts s.typeParams.length (places cs))
    (hφ : ∀ c ∈ cs, ((names s cs).inside ν c).typeParams c.typeParams = .ok (φ c)) :
    defineAll ((s.internAll (cs.map ClassDecl.name)).appendParams (cs.flatMap φ))
        (declaredClasses s cs)
        (cs.zip (cs.map fun c => ν.scope c.name none 0 c.typeParams)) = .ok s' ↔
      (∀ c ∈ cs, ∀ m ∈ c.methods, (m.typeParams.map TypeParamDecl.name).Nodup) ∧
        ∃ ψ : ClassDecl → List TypeParam,
          (∀ c ∈ cs, ((names s cs).inside ν c).methodTypeParams
            (c.methods.zip (ν.methodScopes c.name 0 c.methods)) = .ok (ψ c)) ∧
          ∃ χ : ClassDecl → ClassDef,
            (∀ c ∈ cs, ((names s cs).inside ν c).classDef c
              (ν.methodScopes c.name 0 c.methods) = .ok (χ c)) ∧
            s' = install s cs fun c => ⟨φ c, ψ c, χ c⟩ := by
  have hmatches : Matches ((s.internAll (cs.map ClassDecl.name)).appendParams (cs.flatMap φ))
      (declaredClasses s cs) (names s cs) := matches_internAll hnames
  have hlength : (cs.flatMap φ).length = (cs.flatMap ClassDecl.ownPlaces).length := by
    apply length_flatMap_eq
    intro c hc
    simp [Names.length_of_typeParams (hφ c hc), ClassDecl.ownPlaces, paramPlaces]
  have hplaces : ((s.internAll (cs.map ClassDecl.name)).appendParams
      (cs.flatMap φ)).typeParams.length =
        s.typeParams.length + (cs.flatMap ClassDecl.ownPlaces).length := by
    simp only [Store.appendParams, Store.typeParams_internAll hnames, List.length_append, hlength]
  have hcounts := hν.right
  rw [← hplaces] at hcounts
  rw [defineAll_eq_ok_iff hmatches (fun c hc => lookup_declaredClasses hnames hc)
    (fun c hc => Store.classId?_internAll_of_mem hnames (List.mem_map_of_mem hc)) hcounts]
  simp only [mapM_eq_ok_iff_exists, defineEach_appendParams, Store.appendParams_appendParams]
  constructor
  · rintro ⟨hnodup, _, ⟨ψ, hψ, rfl⟩, _, ⟨χ, hχ, rfl⟩, rfl⟩
    exact ⟨hnodup, ψ, hψ, χ, hχ, rfl⟩
  · rintro ⟨hnodup, ψ, hψ, χ, hχ, rfl⟩
    exact ⟨hnodup, _, ⟨ψ, hψ, rfl⟩, _, ⟨χ, hχ, rfl⟩, rfl⟩

theorem defineClasses_eq_ok_iff_of_counts {cs : List ClassDecl}
    (hν : ν.Counts s.typeParams.length (places cs)) :
    defineClasses s cs = .ok (declared, s') ↔
      Distinct cs ∧ declared = declaredClasses s cs ∧
        ∃ κ : ClassDecl → ClassContents,
          (∀ c ∈ cs, (names s cs).contents ν c = .ok (κ c)) ∧ s' = install s cs κ := by
  simp only [Names.contents_eq_ok_iff]
  constructor
  · intro h
    obtain ⟨⟨s₁, declared₁⟩, h₁, h⟩ := bind_eq_ok_iff.mp h
    obtain ⟨hfresh, rfl, rfl⟩ := numberClasses_eq_ok_iff.mp h₁
    have hnames := fresh_nil_left.mp hfresh
    have hown := hν.left
    rw [← Store.typeParams_internAll (s := s) hnames] at hown
    obtain ⟨⟨s₂, scopes⟩, h₂, h⟩ := bind_eq_ok_iff.mp h
    obtain ⟨htypeParams, rfl, rfl⟩ := (numberAllTypeParams_eq_ok_iff hown).mp h₂
    obtain ⟨s₃, h₃, h⟩ := bind_eq_ok_iff.mp h
    obtain ⟨φ, hφ, rfl⟩ := (bindAllBounds_internAll_eq_ok_iff hnames hν.left).mp h₃
    obtain ⟨s₄, h₄, h⟩ := bind_eq_ok_iff.mp h
    obtain ⟨hmethods, ψ, hψ, χ, hχ, rfl⟩ :=
      (defineAll_internAll_eq_ok_iff hnames hν hφ).mp h₄
    rw [pure_eq_ok_iff, Prod.mk.injEq] at h
    obtain ⟨rfl, rfl⟩ := h
    exact ⟨⟨hnames, htypeParams, hmethods⟩, rfl, fun c => ⟨φ c, ψ c, χ c⟩,
      fun c hc => ⟨hφ c hc, hψ c hc, hχ c hc⟩, rfl⟩
  · rintro ⟨hdistinct, rfl, κ, hκ, rfl⟩
    have hnames := hdistinct.classes
    have hown := hν.left
    rw [← Store.typeParams_internAll (s := s) hnames] at hown
    refine bind_eq_ok_iff.mpr ⟨_, numberClasses_eq_ok_iff.mpr
      ⟨fresh_nil_left.mpr hnames, rfl, rfl⟩, ?_⟩
    refine bind_eq_ok_iff.mpr ⟨_, (numberAllTypeParams_eq_ok_iff hown).mpr
      ⟨hdistinct.typeParams, rfl, rfl⟩, ?_⟩
    refine bind_eq_ok_iff.mpr ⟨_, (bindAllBounds_internAll_eq_ok_iff hnames hν.left).mpr
      ⟨fun c => (κ c).params, fun c hc => (hκ c hc).1, rfl⟩, ?_⟩
    refine bind_eq_ok_iff.mpr ⟨_, (defineAll_internAll_eq_ok_iff hnames hν
      fun c hc => (hκ c hc).1).mpr ⟨hdistinct.methodTypeParams, fun c => (κ c).methodParams,
        fun c hc => (hκ c hc).2.1, fun c => (κ c).definition, fun c hc => (hκ c hc).2.2, rfl⟩,
      rfl⟩

/-- The passes succeed exactly if nothing is declared twice and every class can be read on its own,
and then the store holds what the classes contain. -/
theorem defineClasses_eq_ok_iff {cs : List ClassDecl} :
    defineClasses s cs = .ok (declared, s') ↔
      Distinct cs ∧ declared = declaredClasses s cs ∧
        ∃ κ : ClassDecl → ClassContents,
          (∀ c ∈ cs, (names s cs).contents (numbering s.typeParams.length cs) c = .ok (κ c)) ∧
            s' = install s cs κ := by
  -- Counting the places needs that no class is declared twice, which the first pass checks.
  constructor
  · intro h
    obtain ⟨_, hfirst, -⟩ := bind_eq_ok_iff.mp h
    have hnames := fresh_nil_left.mp (numberClasses_eq_ok_iff.mp hfirst).1
    exact (defineClasses_eq_ok_iff_of_counts (counts_numbering hnames _)).mp h
  · intro h
    exact (defineClasses_eq_ok_iff_of_counts (counts_numbering h.1.classes _)).mpr h

end ModelDecl

end CallCatalog
