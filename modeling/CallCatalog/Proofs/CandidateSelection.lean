import CallCatalog.Proofs.BoundChecks

namespace CallCatalog

namespace Bound

variable {b : Bound} {s : Store} {σ : Assignment} {t : Ty}

theorem assigned_of_isSatisfiedBy_ofUpper {upper : Ty}
    (h : (ofUpper upper).isSatisfiedBy s σ t) {v : TypeVarId} (hv : v ∈ upper.vars) :
    ∃ a, σ v = some a ∧ a.mentionsVars = false := by
  unfold ofUpper at h
  split at h
  · rename_i hvars
    rw [List.isEmpty_iff.mp hvars] at hv
    cases hv
  · simp only [isSatisfiedBy, Bool.and_eq_true, Bool.not_eq_true'] at h
    exact Ty.mentionsVars_subst_iff.mp h.1 v hv

/-- The answer of a bound that was made from upper types is the same under all assignments that give
its variables the same types, and if it is yes, then each of them has a type that mentions no type
variable. -/
theorem isSatisfiedBy_rests_on_vars (s : Store) (t : Ty) (b : Bound) (hb : b.IsBuilt) :
    (∀ σ τ : Assignment, (∀ v ∈ b.vars, σ v = τ v) →
      b.isSatisfiedBy s σ t = b.isSatisfiedBy s τ t) ∧
    ∀ σ : Assignment, b.isSatisfiedBy s σ t →
      ∀ v ∈ b.vars, ∃ a, σ v = some a ∧ a.mentionsVars = false := by
  refine ⟨fun σ τ h => isSatisfiedBy_congr hb h, fun σ h v hv => ?_⟩
  obtain ⟨uppers, rfl⟩ := hb
  obtain ⟨upper, hupper, hvar⟩ := mem_vars_ofUppers.mp hv
  exact assigned_of_isSatisfiedBy_ofUpper ((isSatisfiedBy_ofUppers_iff.mp h).2 upper hupper) hvar

/-- `T extends Object & Comparable<U>` is satisfied by `String` if `U` is `String`, and whatever
else is assigned makes no difference. -/
theorem isSatisfiedBy_rests_on_vars_string :
    ∃ b : Bound, b.IsBuilt ∧ b.vars = [⟨1⟩] ∧
      b.isSatisfiedBy Platform.store (.ofPairs [(⟨1⟩, Platform.stringTy)]) Platform.stringTy ∧
      (∃ a, Assignment.ofPairs [(⟨1⟩, Platform.stringTy)] ⟨1⟩ = some a ∧ a.mentionsVars = false) ∧
      ∀ w a, w ≠ ⟨1⟩ → b.isSatisfiedBy Platform.store
        ((Assignment.ofPairs [(⟨1⟩, Platform.stringTy)]).set w a) Platform.stringTy := by
  have hbuilt : (ofUppers [Platform.plain .object, Platform.comparableOf (.var ⟨1⟩)]).IsBuilt :=
    ⟨_, rfl⟩
  have hvars : (ofUppers [Platform.plain .object, Platform.comparableOf (.var ⟨1⟩)]).vars = [⟨1⟩] :=
    rfl
  obtain ⟨hcongr, hassigned⟩ :=
    isSatisfiedBy_rests_on_vars Platform.store Platform.stringTy _ hbuilt
  have hsatisfied : (ofUppers
      [Platform.plain .object, Platform.comparableOf (.var ⟨1⟩)]).isSatisfiedBy Platform.store
        (.ofPairs [(⟨1⟩, Platform.stringTy)]) Platform.stringTy := by
    cbv
  refine ⟨_, hbuilt, hvars, hsatisfied, hassigned _ hsatisfied ⟨1⟩ (by simp [hvars]), ?_⟩
  intro w a hw
  rw [← hcongr (.ofPairs [(⟨1⟩, Platform.stringTy)])]
  · exact hsatisfied
  · intro v hv
    rw [hvars, List.mem_singleton] at hv
    rw [hv, Assignment.set_ne _ a hw.symm]

theorem admits_ofUpper {upper : Ty} (h : upper.vars = []) :
    (ofUpper upper).admits s t = (ofUpper upper).isSatisfiedBy s σ t := by
  rw [ofUpper, h]
  rfl

theorem admits_eq_isSatisfiedBy (hb : b.IsBuilt) (hvars : b.vars = []) (σ : Assignment) :
    b.admits s t = b.isSatisfiedBy s σ t := by
  obtain ⟨uppers, rfl⟩ := hb
  rw [Bool.eq_iff_iff, admits_ofUppers_iff, isSatisfiedBy_ofUppers_iff]
  apply and_congr_right
  intro _
  apply forall₂_congr
  intro upper hupper
  have hindependent : upper.vars = [] := by
    apply List.eq_nil_iff_forall_not_mem.mpr
    intro v hv
    have hmem := mem_vars_ofUppers.mpr ⟨upper, hupper, hv⟩
    rw [hvars] at hmem
    cases hmem
  rw [admits_ofUpper hindependent]

end Bound

namespace Store

theorem valuesFor_valuesFor (v : TypeVarId) (bound : Bound) (σ : Assignment) (t t' : Ty) :
    valuesFor v bound (valuesFor v bound σ t) t' = valuesFor v bound σ t' := by
  unfold valuesFor
  split
  · funext w
    by_cases hw : w = v
    · rw [hw, Assignment.set_self, Assignment.set_self]
    · rw [Assignment.set_ne _ _ hw, Assignment.set_ne _ _ hw, Assignment.set_ne _ _ hw]
  · rfl

/-- The selection with one assignment for all candidates: if the bound speaks of `v`, then each
candidate is entered for `v` before it is looked at and stays there until the next one. -/
def selectInTurn (s : Store) (v : TypeVarId) (bound : Bound) : List Ty → Assignment → List Ty
  | [], _ => []
  | t :: ts, σ =>
    let σ := valuesFor v bound σ t
    if bound.isSatisfiedBy s σ t then t :: s.selectInTurn v bound ts σ
    else s.selectInTurn v bound ts σ

theorem selectInTurn_eq_filter (s : Store) (v : TypeVarId) (bound : Bound) (ts : List Ty)
    (σ : Assignment) : s.selectInTurn v bound ts σ =
      ts.filter fun t => bound.isSatisfiedBy s (valuesFor v bound σ t) t := by
  induction ts generalizing σ with
  | nil => rfl
  | cons t ts ih =>
      rw [selectInTurn, ih, List.filter_cons]
      simp only [valuesFor_valuesFor]

end Store

end CallCatalog
