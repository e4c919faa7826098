import CallCatalog.Proofs.BoundVariables

namespace CallCatalog

namespace Assignment

theorem exists_ofPairs_eq_some {pairs : List (TypeVarId × Ty)} {v : TypeVarId}
    (h : v ∈ pairs.map Prod.fst) : ∃ t, ofPairs pairs v = some t := by
  induction pairs using List.reverseRecOn with
  | nil => cases h
  | append_singleton pairs last ih =>
      rw [ofPairs_concat]
      by_cases hv : v = last.1
      · exact ⟨last.2, by rw [hv, set_self]⟩
      · rw [set_ne _ _ hv]
        apply ih
        simpa [hv] using h

theorem ofPairs_eq_some_of_mem {pairs : List (TypeVarId × Ty)} (h : (pairs.map Prod.fst).Nodup)
    {v : TypeVarId} {t : Ty} (hmem : (v, t) ∈ pairs) : ofPairs pairs v = some t := by
  induction pairs using List.reverseRecOn with
  | nil => cases hmem
  | append_singleton pairs last ih =>
      rw [List.map_append, List.nodup_append] at h
      obtain ⟨hpairs, -, hlast⟩ := h
      rw [ofPairs_concat]
      rcases List.mem_append.mp hmem with hmem | hmem
      · have hne : v ≠ last.1 := hlast v (List.mem_map_of_mem hmem) last.1 (by simp)
        rw [set_ne _ _ hne]
        exact ih hpairs hmem
      · rw [← List.mem_singleton.mp hmem, set_self]

theorem ofPairs_map (f : Ty → Ty) (pairs : List (TypeVarId × Ty)) (v : TypeVarId) :
    ofPairs (pairs.map (Prod.map id f)) v = (ofPairs pairs v).map f := by
  induction pairs using List.reverseRecOn with
  | nil => rfl
  | append_singleton pairs last ih =>
      rw [List.map_append, List.map_singleton, ofPairs_concat, ofPairs_concat]
      by_cases hv : v = last.1
      · simp [set, hv]
      · simpa [set, hv] using ih

def andThen (σ τ : Assignment) : Assignment := fun v => ((σ v).map (Ty.subst τ)).or (τ v)

end Assignment

namespace Ty

mutual

theorem subst_empty : ∀ t : Ty, t.subst .empty = t
  | var _ => rfl
  | cls _ args => by simp [subst, substAll_empty args]
  | arr elem => by simp [subst, subst_empty elem]
  | ext upper => by simp [subst, subst_empty upper]
  | sup lower => by simp [subst, subst_empty lower]
  | void => rfl
  | primitive _ => rfl
  | any => rfl

theorem substAll_empty : ∀ ts : List Ty, substAll .empty ts = ts
  | [] => rfl
  | t :: ts => by simp [substAll, subst_empty t, substAll_empty ts]

end

mutual

theorem subst_subst (σ τ : Assignment) : ∀ t : Ty, (t.subst σ).subst τ = t.subst (σ.andThen τ)
  | var v => by cases hv : σ v <;> simp [subst, Assignment.andThen, hv]
  | cls _ args => by simp [subst, substAll_substAll σ τ args]
  | arr elem => by simp [subst, subst_subst σ τ elem]
  | ext upper => by simp [subst, subst_subst σ τ upper]
  | sup lower => by simp [subst, subst_subst σ τ lower]
  | void => rfl
  | primitive _ => rfl
  | any => rfl

theorem substAll_substAll (σ τ : Assignment) :
    ∀ ts : List Ty, substAll τ (substAll σ ts) = substAll (σ.andThen τ) ts
  | [] => rfl
  | t :: ts => by simp [substAll, subst_subst σ τ t, substAll_substAll σ τ ts]

end

mutual

theorem occurrences_subst (σ : Assignment) : ∀ t : Ty, (t.subst σ).occurrences =
    t.occurrences.flatMap fun v => ((σ v).getD (var v)).occurrences
  | var v => by simp [subst, occurrences]
  | cls _ args => by simp [subst, occurrences, occurrencesAll_substAll σ args]
  | arr elem => by simp [subst, occurrences, occurrences_subst σ elem]
  | ext upper => by simp [subst, occurrences, occurrences_subst σ upper]
  | sup lower => by simp [subst, occurrences, occurrences_subst σ lower]
  | void => rfl
  | primitive _ => rfl
  | any => rfl

theorem occurrencesAll_substAll (σ : Assignment) :
    ∀ ts : List Ty, occurrencesAll (substAll σ ts) =
      (occurrencesAll ts).flatMap fun v => ((σ v).getD (var v)).occurrences
  | [] => rfl
  | t :: ts => by
      simp [substAll, occurrencesAll, occurrences_subst σ t, occurrencesAll_substAll σ ts]

end

theorem subst_ofPairs_subst {vs : List TypeVarId} {ts : List Ty} (hlength : ts.length = vs.length)
    {t : Ty} (ht : ∀ v ∈ t.vars, v ∈ vs) (σ : Assignment) :
    (t.subst (.ofPairs (vs.zip ts))).subst σ =
      t.subst (.ofPairs (vs.zip (ts.map (subst σ)))) := by
  rw [subst_subst]
  apply subst_congr
  intro v hv
  have hmem : v ∈ (vs.zip ts).map Prod.fst := by
    rw [List.map_fst_zip (Nat.le_of_eq hlength.symm)]
    exact ht v hv
  obtain ⟨a, ha⟩ := Assignment.exists_ofPairs_eq_some hmem
  rw [Assignment.andThen, List.zip_map_right, Assignment.ofPairs_map, ha]
  rfl

end Ty

namespace Bound

variable {s : Store} {σ : Assignment} {t : Ty}

theorem isSubtype_of_isSatisfiedBy_ofUpper {upper : Ty}
    (h : (ofUpper upper).isSatisfiedBy s σ t) : s.isSubtype t (upper.subst σ) := by
  unfold ofUpper at h
  split at h
  · rename_i hvars
    have hsame : upper.subst σ = upper.subst .empty := by
      apply Ty.subst_congr
      simp [List.isEmpty_iff.mp hvars]
    rwa [hsame, Ty.subst_empty]
  · simp only [isSatisfiedBy, Bool.and_eq_true] at h
    exact h.2

theorem IsBuilt.mem_vars_of_mem_uppers {b : Bound} (hb : b.IsBuilt) {upper : Ty}
    (hupper : upper ∈ b.uppers) {v : TypeVarId} (hv : v ∈ upper.vars) : v ∈ b.vars := by
  obtain ⟨uppers, rfl⟩ := hb
  rw [uppers_ofUppers] at hupper
  exact mem_vars_ofUppers.mpr ⟨upper, hupper, hv⟩

theorem isSubtype_of_isSatisfiedBy {b : Bound} (hb : b.IsBuilt) (h : b.isSatisfiedBy s σ t)
    {upper : Ty} (hupper : upper ∈ b.uppers) : s.isSubtype t (upper.subst σ) := by
  obtain ⟨uppers, rfl⟩ := hb
  rw [uppers_ofUppers] at hupper
  exact isSubtype_of_isSatisfiedBy_ofUpper ((isSatisfiedBy_ofUppers_iff.mp h).2 upper hupper)

end Bound

end CallCatalog
