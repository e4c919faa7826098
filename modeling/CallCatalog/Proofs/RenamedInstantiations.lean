import CallCatalog.Proofs.Instantiations
import CallCatalog.Proofs.RenamedStores

namespace CallCatalog

variable {f : Renaming} {s s' : Store}

namespace Store

theorem typeParam?_isSome {v : TypeVarId} (hv : s.HasParam v) : ∃ p, s.typeParam? v = some p :=
  ⟨_, List.getElem?_eq_getElem hv⟩

theorem classText_rename (h : f.Carries s s') (id : ClassId) :
    s'.classText (f.cls id) = s.classText id := by
  unfold classText
  rw [h.className id]
  cases hname : s.className? id with
  | some _ => rfl
  | none =>
      have hdef : s.classDef? id = none := by
        simp only [className?, Option.map_eq_none_iff] at hname
        simp [classDef?, hname]
      rw [h.undefined id hdef]

theorem varText_rename (h : f.Carries s s') {v : TypeVarId} (hv : s.HasParam v) :
    s'.varText (f.var v) = s.varText v := by
  obtain ⟨p, hp⟩ := typeParam?_isSome hv
  simp only [varText, h.typeParam v, hp, Option.map_some, TypeParam.rename]

mutual

theorem format_rename (h : f.Carries s s') :
    ∀ t : Ty, t.Within (fun _ => True) s.HasParam → s'.format (t.rename f) = s.format t
  | .void, _ => rfl
  | .primitive _, _ => rfl
  | .cls id [], _ => by simp [Ty.rename, Ty.renameAll, format, classText_rename h]
  | .cls id (arg :: args), ht => by
      simp only [Ty.rename, Ty.renameAll, format, classText_rename h,
        format_rename h arg ht.2.1, formatMore_rename h args ht.2.2]
  | .arr elem, ht => by simp only [Ty.rename, format, format_rename h elem ht]
  | .var v, ht => varText_rename h ht
  | .any, _ => rfl
  | .ext upper, ht => by simp only [Ty.rename, format, format_rename h upper ht]
  | .sup lower, ht => by simp only [Ty.rename, format, format_rename h lower ht]

theorem formatMore_rename (h : f.Carries s s') :
    ∀ ts : List Ty, Ty.AllWithin (fun _ => True) s.HasParam ts →
      s'.formatMore (Ty.renameAll f ts) = s.formatMore ts
  | [], _ => rfl
  | t :: ts, hts => by
      simp only [Ty.renameAll, formatMore, format_rename h t hts.1, formatMore_rename h ts hts.2]

end

theorem format_rename_of_closed (h : f.Carries s s') {t : Ty} (ht : t.mentionsVars = false) :
    s'.format (t.rename f) = s.format t := by
  apply format_rename h t
  exact Ty.Within.mono (fun _ hid => hid) (fun _ hv => hv.elim) t
    ((Ty.mentionsVars_eq_false_iff t).mp ht)

theorem formatClass_rename (h : f.Carries s s') {t : ClassType} (ht : t.isConcrete) :
    s'.formatClass (t.rename f) = s.formatClass t := by
  have hclosed : t.toTy.isConcrete := by
    rw [t.isConcrete_toTy]
    exact ht
  unfold formatClass
  rw [ClassType.toTy_rename]
  exact format_rename_of_closed h (Ty.isConcrete_iff.mp hclosed).2

end Store

def Universe.rename (f : Renaming) (u : Universe) : Universe where
  toList := u.toList.map (Ty.rename f)
  nodup := u.nodup.map fun t u => Ty.rename_injective f t u

def TupleSet.rename (f : Renaming) (set : TupleSet) : TupleSet :=
  { set with tuples := set.tuples.map (List.map (Ty.rename f)) }

def Substitution.rename (f : Renaming) (σ : Substitution) : Substitution where
  vars := σ.vars.map f.var
  types := σ.types.map (Ty.rename f)
  length_eq := by rw [List.length_map, List.length_map, σ.length_eq]

def Instantiation.rename (f : Renaming) (i : Instantiation) : Instantiation :=
  ⟨i.classType.rename f, i.substitution.rename f⟩

namespace Substitution

theorem renames_toAssignment (f : Renaming) (σ : Substitution) :
    Assignment.Renames f σ.toAssignment (σ.rename f).toAssignment :=
  Assignment.renames_ofPairs_zip f σ.vars σ.types

theorem apply_rename (σ : Substitution) (t : Ty) :
    (σ.rename f).apply (t.rename f) = (σ.apply t).rename f :=
  (Ty.rename_subst (renames_toAssignment f σ) t).symm

theorem applyClass_rename (σ : Substitution) (t : ClassType) :
    (σ.rename f).applyClass (t.rename f) = (σ.applyClass t).rename f :=
  (ClassType.rename_subst (renames_toAssignment f σ) t).symm

theorem ofLists?_rename (vars : List TypeVarId) (types : List Ty) :
    ofLists? (vars.map f.var) (types.map (Ty.rename f)) =
      (ofLists? vars types).map (Substitution.rename f) := by
  unfold ofLists?
  by_cases hlen : vars.length = types.length
  · rw [dif_pos hlen, dif_pos (by simpa using hlen)]
    rfl
  · rw [dif_neg hlen, dif_neg (by simpa using hlen)]
    rfl

end Substitution

theorem ClassDef.declaredType_rename (d : ClassDef) (id : ClassId) :
    (d.rename f).declaredType (f.cls id) = (d.declaredType id).rename f := by
  simp [declaredType, rename, ClassType.rename, Ty.rename]

theorem TupleSet.toSubstitutions_rename (set : TupleSet) (vars : List TypeVarId) :
    (set.rename f).toSubstitutions (vars.map f.var) =
      (set.toSubstitutions vars).map (Substitution.rename f) := by
  simp only [toSubstitutions, rename, List.filterMap_map, List.map_filterMap]
  apply List.filterMap_congr
  intro tuple _
  exact Substitution.ofLists?_rename vars tuple

theorem Universe.candidates_rename (u : Universe) :
    (u.rename f).candidates = u.candidates.map (Ty.rename f) := by
  simp [candidates, rename, List.filter_map, Function.comp_def]

namespace Store

variable {u : Universe}

theorem selectCandidates_rename (h : f.Carries s s') {σ τ : Assignment}
    (hσ : Assignment.Renames f σ τ) (v : TypeVarId) (b : Bound) :
    s'.selectCandidates (f.var v) (b.rename f) (u.rename f) τ =
      (s.selectCandidates v b u σ).map (Ty.rename f) := by
  unfold selectCandidates
  simp only [Bound.vars_rename, Ty.mem_map_var, Universe.candidates_rename]
  split
  · rw [List.filter_map]
    congr 1
    apply List.filter_congr
    intro t _
    exact Bound.isSatisfiedBy_rename h (hσ.set v t) t b
  · rw [List.filter_map]
    congr 1
    apply List.filter_congr
    intro t _
    exact Bound.isSatisfiedBy_rename h hσ t b

theorem extendWith_rename {set : TupleSet} (candidates candidates' : List Ty → List Ty)
    (hcandidates : ∀ tuple,
      candidates' (tuple.map (Ty.rename f)) = (candidates tuple).map (Ty.rename f)) :
    (set.rename f).extendWith candidates' =
      (set.extendWith candidates).map (TupleSet.rename f) := by
  have hnext : (set.tuples.map (List.map (Ty.rename f))).flatMap
        (fun tuple => (candidates' tuple).map (tuple ++ [·])) =
      (set.tuples.flatMap fun tuple => (candidates tuple).map (tuple ++ [·])).map
        (List.map (Ty.rename f)) := by
    simp [List.flatMap_map, List.map_flatMap, hcandidates, Function.comp_def]
  rw [TupleSet.extendWith_eq, TupleSet.extendWith_eq]
  simp only [TupleSet.rename, hnext, List.length_map]
  cases set.limit with
  | none => rfl
  | some n =>
      dsimp only
      split <;> rfl

theorem extendByParams_rename (h : f.Carries s s') (earlier : List TypeVarId)
    (params : List (TypeVarId × Bound)) (set : TupleSet) :
    s'.extendByParams (u.rename f) (earlier.map f.var)
        (params.map (Prod.map f.var (Bound.rename f))) (set.rename f) =
      (s.extendByParams u earlier params set).map (TupleSet.rename f) := by
  induction params generalizing earlier set with
  | nil => rfl
  | cons p params ih =>
      obtain ⟨v, bound⟩ := p
      simp only [List.map_cons, Prod.map, extendByParams]
      rw [extendWith_rename fun tuple =>
        s.selectCandidates v bound u (.ofPairs (earlier.zip tuple))]
      · cases set.extendWith fun tuple =>
            s.selectCandidates v bound u (.ofPairs (earlier.zip tuple)) with
        | error _ => rfl
        | ok next =>
            have hrest := ih (earlier ++ [v]) next
            rw [List.map_append] at hrest
            exact hrest
      · intro tuple
        exact selectCandidates_rename h (Assignment.renames_ofPairs_zip f earlier tuple) v bound

theorem boundedParams_rename (h : f.Carries s s') (className : String)
    (earlier vs : List TypeVarId) (hvs : ∀ v ∈ vs, s.HasParam v)
    (hbounds : ∀ v p, s.typeParam? v = some p → ∀ w ∈ p.bound.vars, s.HasParam w) :
    s'.boundedParams className (earlier.map f.var) (vs.map f.var) =
      (s.boundedParams className earlier vs).map
        (List.map (Prod.map f.var (Bound.rename f))) := by
  induction vs generalizing earlier with
  | nil => rfl
  | cons v vs ih =>
      obtain ⟨p, hp⟩ := typeParam?_isSome (hvs v (by simp))
      have hself : .var (f.var v) ∈ (p.rename f).bound.uppers ↔ .var v ∈ p.bound.uppers := by
        have hmap := List.mem_map_of_injective (a := .var v) (l := p.bound.uppers)
          fun t u => Ty.rename_injective f t u
        simpa [TypeParam.rename, Bound.uppers_rename, Ty.rename] using hmap
      have hoffending : (p.rename f).bound.vars.find? (· ∉ earlier.map f.var ++ [f.var v]) =
          (p.bound.vars.find? (· ∉ earlier ++ [v])).map f.var := by
        have hconcat : earlier.map f.var ++ [f.var v] = (earlier ++ [v]).map f.var := by simp
        rw [hconcat, TypeParam.rename, Bound.vars_rename, List.find?_map]
        simp only [Function.comp_def, Ty.mem_map_var]
      simp only [List.map_cons, boundedParams, h.typeParam v, hp, Option.map_some, hself,
        hoffending]
      split
      · rfl
      cases hfind : p.bound.vars.find? (· ∉ earlier ++ [v]) with
      | some w =>
          have hw := hbounds v p hp w (List.mem_of_find?_eq_some hfind)
          simp only [Option.map_some, varText_rename h hw]
          rfl
      | none =>
          have hrest := ih (earlier ++ [v]) fun w hw => hvs w (by simp [hw])
          rw [List.map_append] at hrest
          simp only [Option.map_none, List.map_cons, List.map_nil] at hrest ⊢
          rw [hrest]
          cases s.boundedParams className (earlier ++ [v]) vs <;> rfl

/-- A class whose bounds speak only of declared type variables has the same substitutions, in the
same order, or is refused for the same reason. -/
theorem substitutions_rename (h : f.Carries s s') (hs : s.Mentions (fun _ => True) s.HasParam)
    (id : ClassId) (limit : Option Nat) :
    s'.substitutions (f.cls id) (u.rename f) limit =
      (s.substitutions id u limit).map (List.map (Substitution.rename f)) := by
  simp only [substitutions, definedClass, h.classDef id]
  cases hd : s.classDef? id with
  | none =>
      simp only [Option.map_none, h.undefined id hd]
      rfl
  | some d =>
      have hparams := boundedParams_rename h d.name [] d.typeParams (hs.classDef id d hd).typeParams
        fun v p hp w hw => Bound.mem_vars_of_within (hs.typeParam v p hp) w hw
      simp only [Option.map_some, ClassDef.rename, bind, Except.bind, List.map_nil] at hparams ⊢
      rw [hparams]
      cases s.boundedParams d.name [] d.typeParams with
      | error _ => rfl
      | ok params =>
          have hext := extendByParams_rename (u := u) h [] params (.single limit)
          simp only [Except.map, List.map_nil] at hext ⊢
          have hsingle : (TupleSet.single limit).rename f = .single limit := rfl
          rw [hsingle] at hext
          rw [hext]
          cases s.extendByParams u [] params (.single limit) with
          | error _ => rfl
          | ok set => exact congrArg Except.ok (TupleSet.toSubstitutions_rename set d.typeParams)

end Store

namespace Resolver

variable {u : Universe}

theorem pick_rename (r : Resolver) (d : ClassDef) (c : ClassId) (valid : List Substitution) :
    r.pick (d.rename f) (f.cls c) (valid.map (Substitution.rename f)) =
      Prod.map (Except.map (Instantiation.rename f)) id (r.pick d c valid) := by
  unfold pick
  rw [List.length_map]
  rcases r.choose valid.length with ⟨i?, next⟩
  cases i? with
  | none => rfl
  | some i =>
      simp only [Option.bind_some, List.getElem?_map]
      cases valid[i]? with
      | none => rfl
      | some σ =>
          simp only [Option.map_some, ClassDef.declaredType_rename, Substitution.applyClass_rename]
          rfl

theorem instantiate_rename (h : f.Carries s s') (hs : s.Mentions (fun _ => True) s.HasParam)
    (r : Resolver) (c : ClassId) :
    r.instantiate s' (f.cls c) (u.rename f) =
      Prod.map (Except.map (Instantiation.rename f)) id (r.instantiate s c u) := by
  cases hd : s.classDef? c with
  | none =>
      have hd' : s'.classDef? (f.cls c) = none := by rw [h.classDef c, hd, Option.map_none]
      simp only [instantiate, hd, hd']
      rw [h.undefined c hd]
      rfl
  | some d =>
      have hd' : s'.classDef? (f.cls c) = some (d.rename f) := by
        rw [h.classDef c, hd, Option.map_some]
      have hgeneric : (d.rename f).isGeneric = d.isGeneric := by
        simp [ClassDef.isGeneric, ClassDef.rename]
      rw [instantiate_eq r hd, instantiate_eq r hd', hgeneric,
        Store.substitutions_rename h hs c r.options.maxTuples]
      split
      · cases s.substitutions c u r.options.maxTuples with
        | error _ => rfl
        | ok valid => exact pick_rename r d c valid
      · rfl

end Resolver

end CallCatalog
