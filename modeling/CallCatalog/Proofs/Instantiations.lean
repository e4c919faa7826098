import CallCatalog.Instantiation.Resolver
import CallCatalog.Proofs.Enumeration
import CallCatalog.Proofs.Occurrences
import CallCatalog.Proofs.Substitutions

namespace CallCatalog

namespace Store

variable {s : Store} {u : Universe}

theorem mem_candidates_of_mem_selectCandidates {v : TypeVarId} {bound : Bound} {σ : Assignment}
    {t : Ty} (h : t ∈ s.selectCandidates v bound u σ) : t ∈ u.candidates := by
  unfold selectCandidates at h
  split at h <;> exact (List.mem_filter.mp h).1

theorem mem_tuples_of_extendByParams {earlier : List TypeVarId}
    {params : List (TypeVarId × Bound)} {set result : TupleSet} {n : Nat}
    (hset : ∀ tuple ∈ set.tuples, tuple ∈ u.tuples n)
    (h : s.extendByParams u earlier params set = .ok result) :
    ∀ tuple ∈ result.tuples, tuple ∈ u.tuples (n + params.length) := by
  induction params generalizing earlier set n with
  | nil =>
      cases h
      exact hset
  | cons p params ih =>
      obtain ⟨v, bound⟩ := p
      rw [extendByParams, TupleSet.extendWith_eq] at h
      have hnext : ∀ tuple ∈ set.tuples.flatMap (fun tuple =>
          (s.selectCandidates v bound u (.ofPairs (earlier.zip tuple))).map (tuple ++ [·])),
          tuple ∈ u.tuples (n + 1) := by
        intro tuple htuple
        simp only [List.mem_flatMap, List.mem_map] at htuple
        obtain ⟨front, hfront, last, hlast, rfl⟩ := htuple
        have hcandidate := mem_candidates_of_mem_selectCandidates hlast
        exact List.mem_flatMap.mpr ⟨front, hset front hfront, List.mem_map_of_mem hcandidate⟩
      rw [List.length_cons, Nat.add_comm params.length 1, ← Nat.add_assoc]
      dsimp only at h
      split at h
      · exact ih hnext h
      · split at h
        · cases h
        · exact ih hnext h

theorem mem_tuples_of_extendByParams_single {params : List (TypeVarId × Bound)}
    {limit : Option Nat} {result : TupleSet}
    (h : s.extendByParams u [] params (.single limit) = .ok result) :
    ∀ tuple ∈ result.tuples, tuple ∈ u.tuples params.length := by
  have hsingle : ∀ tuple ∈ (TupleSet.single limit).tuples, tuple ∈ u.tuples 0 := fun _ h => h
  simpa using mem_tuples_of_extendByParams hsingle h

theorem mem_substitutions {id : ClassId} {d : ClassDef} {limit : Option Nat}
    {valid : List Substitution} (hd : s.classDef? id = some d)
    (h : s.substitutions id u limit = .ok valid) {σ : Substitution} (hσ : σ ∈ valid) :
    σ.vars = d.typeParams ∧ ∀ t ∈ σ.types, t ∈ u.candidates := by
  cases hparams : s.boundedParams d.name [] d.typeParams with
  | error e =>
      rw [substitutions_of_refused hd hparams] at h
      cases h
  | ok params =>
      rw [substitutions_of_accepted hd hparams] at h
      split at h
      · rename_i set hext
        cases h
        obtain ⟨hvars, htypes⟩ := mem_toSubstitutions_iff.mp hσ
        have htuple := mem_tuples_of_extendByParams_single hext σ.types htypes
        exact ⟨hvars, (Universe.mem_tuples_iff.mp htuple).2⟩
      · cases h

end Store

theorem Ty.mentionsVars_subst_iff {σ : Assignment} {t : Ty} : (t.subst σ).mentionsVars = false ↔
    ∀ v ∈ t.vars, ∃ a, σ v = some a ∧ a.mentionsVars = false := by
  simp only [mentionsVars_eq_false_iff, within_iff_occurrences, occurrences_subst,
    List.mem_flatMap, mem_vars_iff]
  constructor
  · intro h v hv
    cases ha : σ v with
    | none => exact (h v ⟨v, hv, by simp [ha, occurrences]⟩).elim
    | some a => exact ⟨a, rfl, fun w hw => h w ⟨v, hv, by simpa [ha] using hw⟩⟩
  · rintro h w ⟨v, hv, hw⟩
    obtain ⟨a, ha, hfree⟩ := h v hv
    rw [ha] at hw
    exact hfree w hw

/-- Every type parameter has a type, and that type mentions no type variable. -/
structure Substitution.Closes (σ : Substitution) (d : ClassDef) : Prop where
  vars : σ.vars = d.typeParams
  types : ∀ t ∈ σ.types, t.isReference ∧ t.isConcrete

namespace Substitution.Closes

variable {σ : Substitution} {d : ClassDef}

theorem toAssignment_isSome (h : σ.Closes d) {v : TypeVarId} (hv : v ∈ d.typeParams) :
    ∃ t ∈ σ.types, σ.toAssignment v = some t := by
  have hfst : σ.toList.map Prod.fst = d.typeParams := by
    rw [Substitution.toList, List.map_fst_zip σ.length_eq.le, h.vars]
  obtain ⟨t, ht⟩ := Assignment.exists_ofPairs_eq_some (by rwa [hfst])
  exact ⟨t, (List.of_mem_zip (Assignment.mem_of_ofPairs_eq_some ht)).2, ht⟩

theorem isWildcard_of_assigned (h : σ.Closes d) {v : TypeVarId} {t : Ty}
    (ht : σ.toAssignment v = some t) : t.isWildcard = false := by
  have hmem := (List.of_mem_zip (Assignment.mem_of_ofPairs_eq_some ht)).2
  exact (Ty.isConcrete_iff.mp (h.types t hmem).2).1

theorem mentionsVars_apply (h : σ.Closes d) {t : Ty}
    (ht : t.Within (fun _ => True) (· ∈ d.typeParams)) : (σ.apply t).mentionsVars = false := by
  apply Ty.mentionsVars_subst_iff.mpr
  intro v hv
  obtain ⟨u, hu, hsome⟩ := h.toAssignment_isSome (Ty.mem_vars_of_within ht v hv)
  exact ⟨u, hsome, (Ty.isConcrete_iff.mp (h.types u hu).2).2⟩

theorem isConcrete_apply (h : σ.Closes d) {t : Ty} (hwildcard : t.isWildcard = false)
    (ht : t.Within (fun _ => True) (· ∈ d.typeParams)) : (σ.apply t).isConcrete := by
  have hsubst : (σ.apply t).isWildcard = false :=
    Ty.isWildcard_subst (fun v t => h.isWildcard_of_assigned) hwildcard
  exact Ty.isConcrete_iff.mpr ⟨hsubst, h.mentionsVars_apply ht⟩

theorem isConcrete_applyClass (h : σ.Closes d) (id : ClassId) :
    (σ.applyClass (d.declaredType id)).isConcrete := by
  simp only [ClassType.isConcrete, applyClass, ClassType.subst, ClassDef.declaredType,
    List.all_map, List.all_eq_true]
  intro v hv
  have happly : (σ.apply (.var v)).mentionsVars = false := h.mentionsVars_apply hv
  simpa [apply] using happly

end Substitution.Closes

namespace Resolver

variable {s : Store} {u : Universe} {id : ClassId} {d : ClassDef}

def pick (r : Resolver) (d : ClassDef) (id : ClassId) (valid : List Substitution) :
    Except InstantiationError Instantiation × Resolver :=
  let (i?, r) := r.choose valid.length
  match i?.bind fun i => valid[i]? with
  | none => (.error (.unresolvable d.name), r)
  | some σ => (.ok ⟨σ.applyClass (d.declaredType id), σ⟩, r)

theorem of_pick_eq_ok {r : Resolver} {valid : List Substitution} {i : Instantiation}
    (h : (r.pick d id valid).1 = .ok i) :
    i.substitution ∈ valid ∧ i.classType = i.substitution.applyClass (d.declaredType id) := by
  unfold pick at h
  rcases r.choose valid.length with ⟨i?, next⟩
  dsimp only at h
  split at h
  · cases h
  · rename_i σ hσ
    obtain ⟨n, -, hn⟩ := Option.bind_eq_some_iff.mp hσ
    cases h
    exact ⟨List.mem_of_getElem? hn, rfl⟩

theorem closes_of_mem_substitutions {limit : Option Nat} {valid : List Substitution}
    (hd : s.classDef? id = some d) (hvalid : s.substitutions id u limit = .ok valid)
    {σ : Substitution} (hσ : σ ∈ valid) : σ.Closes d := by
  obtain ⟨hvars, htypes⟩ := Store.mem_substitutions hd hvalid hσ
  exact ⟨hvars, fun t ht => (Universe.mem_candidates.mp (htypes t ht)).2⟩

/-- A class without type parameters is its own instantiation, and of a generic one any substitution
will do: the instantiation is never refused afterwards. -/
theorem instantiate_eq (r : Resolver) (hd : s.classDef? id = some d) :
    r.instantiate s id u =
      if d.isGeneric then
        match s.substitutions id u r.options.maxTuples with
        | .error e => (.error e, r)
        | .ok valid => r.pick d id valid
      else (.ok ⟨⟨id, []⟩, .empty⟩, r) := by
  simp only [instantiate, hd]
  split
  · cases hvalid : s.substitutions id u r.options.maxTuples with
    | error _ => rfl
    | ok valid =>
        simp only [instantiateFrom, pick]
        rcases r.choose valid.length with ⟨i?, next⟩
        dsimp only
        cases hpick : i?.bind fun i => valid[i]? with
        | none => rfl
        | some σ =>
            obtain ⟨n, -, hn⟩ := Option.bind_eq_some_iff.mp hpick
            have hcloses := closes_of_mem_substitutions hd hvalid (List.mem_of_getElem? hn)
            simp only [hcloses.isConcrete_applyClass id, if_true]
  · rfl

theorem closes_of_instantiate {r : Resolver} {i : Instantiation} (hd : s.classDef? id = some d)
    (h : (r.instantiate s id u).1 = .ok i) : i.substitution.Closes d ∧ i.classType.isConcrete := by
  rw [instantiate_eq r hd] at h
  split at h
  · cases hvalid : s.substitutions id u r.options.maxTuples with
    | error _ =>
        rw [hvalid] at h
        cases h
    | ok valid =>
        rw [hvalid] at h
        obtain ⟨hmem, htype⟩ := of_pick_eq_ok h
        have hcloses := closes_of_mem_substitutions hd hvalid hmem
        rw [htype]
        exact ⟨hcloses, hcloses.isConcrete_applyClass id⟩
  · rename_i hgeneric
    cases h
    have hparams : d.typeParams = [] := by simpa [ClassDef.isGeneric] using hgeneric
    exact ⟨⟨hparams.symm, by simp [Substitution.empty]⟩, rfl⟩

end Resolver

end CallCatalog
