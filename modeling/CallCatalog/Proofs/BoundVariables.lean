import CallCatalog.Proofs.BoundParts
import Mathlib.Data.List.Induction

namespace CallCatalog

namespace Ty

variable {σ τ : Assignment}

mutual

theorem subst_eq_subst_iff_occurrences : ∀ t : Ty, t.subst σ = t.subst τ ↔
    ∀ v ∈ t.occurrences, (σ v).getD (var v) = (τ v).getD (var v)
  | var v => by simp [subst, occurrences]
  | cls _ args => by simp [subst, occurrences, substAll_eq_substAll_iff_occurrences args]
  | arr elem => by simp [subst, occurrences, subst_eq_subst_iff_occurrences elem]
  | ext upper => by simp [subst, occurrences, subst_eq_subst_iff_occurrences upper]
  | sup lower => by simp [subst, occurrences, subst_eq_subst_iff_occurrences lower]
  | void => by simp [subst, occurrences]
  | primitive _ => by simp [subst, occurrences]
  | any => by simp [subst, occurrences]

theorem substAll_eq_substAll_iff_occurrences : ∀ ts : List Ty, substAll σ ts = substAll τ ts ↔
    ∀ v ∈ occurrencesAll ts, (σ v).getD (var v) = (τ v).getD (var v)
  | [] => by simp [substAll, occurrencesAll]
  | t :: ts => by
      simp [substAll, occurrencesAll, subst_eq_subst_iff_occurrences t,
        substAll_eq_substAll_iff_occurrences ts, or_imp, forall_and]

end

theorem subst_eq_subst_iff {t : Ty} : t.subst σ = t.subst τ ↔
    ∀ v ∈ t.vars, (σ v).getD (var v) = (τ v).getD (var v) := by
  simp only [subst_eq_subst_iff_occurrences, mem_vars_iff]

theorem subst_congr {t : Ty} (h : ∀ v ∈ t.vars, σ v = τ v) : t.subst σ = t.subst τ :=
  subst_eq_subst_iff.mpr fun v hv => by rw [h v hv]

end Ty

namespace Bound

/-- The bound was made from a declared list of upper types. -/
def IsBuilt (b : Bound) : Prop := ∃ uppers, b = ofUppers uppers

variable {s : Store} {σ τ : Assignment} {t : Ty}

theorem isSatisfiedBy_ofUpper_congr {upper : Ty} (h : ∀ v ∈ upper.vars, σ v = τ v) :
    (ofUpper upper).isSatisfiedBy s σ t = (ofUpper upper).isSatisfiedBy s τ t := by
  unfold ofUpper
  split
  · rfl
  · simp only [isSatisfiedBy, Ty.subst_congr h]

theorem isSatisfiedBy_congr {b : Bound} (hb : b.IsBuilt) (h : ∀ v ∈ b.vars, σ v = τ v) :
    b.isSatisfiedBy s σ t = b.isSatisfiedBy s τ t := by
  obtain ⟨uppers, rfl⟩ := hb
  rw [Bool.eq_iff_iff, isSatisfiedBy_ofUppers_iff, isSatisfiedBy_ofUppers_iff]
  apply and_congr_right
  intro _
  apply forall₂_congr
  intro upper hupper
  rw [isSatisfiedBy_ofUpper_congr fun v hv => h v (mem_vars_ofUppers.mpr ⟨upper, hupper, hv⟩)]

mutual

theorem admits_of_isSatisfiedBy (ht : t.isReference) :
    ∀ b : Bound, b.isSatisfiedBy s σ t → b.admits s t
  | unconstrained, h => h
  | concrete _, h => h
  | dependent _ _, _ => ht
  | all parts, h => admitsAll_of_isSatisfiedByAll ht parts h

theorem admitsAll_of_isSatisfiedByAll (ht : t.isReference) :
    ∀ bs : List Bound, isSatisfiedByAll s σ t bs → admitsAll s t bs
  | [], _ => rfl
  | b :: bs, h => by
      simp only [isSatisfiedByAll, Bool.and_eq_true] at h
      simp only [admitsAll, Bool.and_eq_true]
      exact ⟨admits_of_isSatisfiedBy ht b h.1, admitsAll_of_isSatisfiedByAll ht bs h.2⟩

end

end Bound

namespace Assignment

theorem ofPairs_concat (pairs : List (TypeVarId × Ty)) (v : TypeVarId) (t : Ty) :
    ofPairs (pairs ++ [(v, t)]) = (ofPairs pairs).set v t := by
  simp [ofPairs, List.foldl_append]

theorem mem_of_ofPairs_eq_some {pairs : List (TypeVarId × Ty)} {v : TypeVarId} {t : Ty}
    (h : ofPairs pairs v = some t) : (v, t) ∈ pairs := by
  induction pairs using List.reverseRecOn with
  | nil => cases h
  | append_singleton pairs last ih =>
      rw [ofPairs_concat] at h
      by_cases hv : v = last.1
      · rw [hv, set_self] at h
        simp [hv, ← Option.some.inj h]
      · rw [set_ne _ _ hv] at h
        exact List.mem_append_left _ (ih h)

end Assignment

end CallCatalog
