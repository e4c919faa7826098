import CallCatalog.Proofs.Substitutions

/-!
What replacing type variables does to a type as a whole. A type is looked at through its variables
only, so two assignments have the same result exactly if they give each of these variables the same
type. The variables of the result are listed as they come when each variable is replaced, in its
place, by the variables of what it stands for.
-/

namespace CallCatalog

namespace OrderedSet

variable {α : Type} [DecidableEq α]

theorem insertAll_flatMap_of_eraseDups {β : Type} [DecidableEq β] (s : OrderedSet α)
    (f : β → List α) (bs : List β) :
    s.insertAll (bs.eraseDups.flatMap f) = s.insertAll (bs.flatMap f) := by
  induction bs using List.reverseRecOn with
  | nil => rfl
  | append_singleton bs b ih =>
      rw [List.eraseDups_append, List.flatMap_append, List.flatMap_append, List.flatMap_singleton,
        ← insertAll_insertAll, ← insertAll_insertAll, ih]
      by_cases hb : b ∈ bs
      · have hold : ∀ a ∈ f b, a ∈ s.insertAll (bs.flatMap f) := fun a ha =>
          mem_insertAll.mpr (Or.inr (List.mem_flatMap.mpr ⟨b, hb, ha⟩))
        rw [insertAll_of_subset hold]
        simp [List.removeAll, hb, insertAll]
      · simp [List.removeAll, hb, List.eraseDups_cons]

theorem eraseDups_flatMap_of_eraseDups {β : Type} [DecidableEq β] (f : β → List α)
    (bs : List β) : (bs.eraseDups.flatMap f).eraseDups = (bs.flatMap f).eraseDups := by
  rw [← toList_ofList, ofList, insertAll_flatMap_of_eraseDups, ← ofList, toList_ofList]

end OrderedSet

namespace Assignment

def restrict (σ : Assignment) (vs : List TypeVarId) : Assignment :=
  fun v => if v ∈ vs then σ v else none

theorem ofPairs_append (ps qs : List (TypeVarId × Ty)) (v : TypeVarId) :
    ofPairs (ps ++ qs) v = (ofPairs qs v).or (ofPairs ps v) := by
  induction qs using List.reverseRecOn with
  | nil => simp [ofPairs, empty]
  | append_singleton qs last ih =>
      rw [← List.append_assoc, ofPairs_concat, ofPairs_concat]
      by_cases hv : v = last.1
      · rw [hv, set_self, set_self, Option.some_or]
      · rw [set_ne _ _ hv, set_ne _ _ hv, ih]

theorem andThen_ofPairs (ps qs : List (TypeVarId × Ty)) :
    (ofPairs ps).andThen (ofPairs qs) =
      ofPairs (qs ++ ps.map (Prod.map id (Ty.subst (ofPairs qs)))) := by
  funext v
  rw [ofPairs_append, ofPairs_map, andThen]

end Assignment

namespace Ty

theorem subst_restrict_vars (σ : Assignment) (t : Ty) : t.subst (σ.restrict t.vars) = t.subst σ :=
  subst_congr fun _ hv => if_pos hv

theorem vars_subst (σ : Assignment) (t : Ty) :
    (t.subst σ).vars = (t.vars.flatMap fun v => (σ v).elim [v] vars).eraseDups := by
  have himage : ∀ v, (σ v).elim [v] vars = ((σ v).getD (var v)).occurrences.eraseDups := by
    intro v
    rw [← vars_eq_eraseDups]
    cases σ v <;> rfl
  simp only [himage]
  rw [OrderedSet.eraseDups_flatMap_eraseDups, vars_eq_eraseDups t,
    OrderedSet.eraseDups_flatMap_of_eraseDups, ← occurrences_subst, vars_eq_eraseDups]

/-- To replace once and then again is to replace once by the composed assignment, and finite maps
compose to a finite map. The variables of the result are those of what is put in for each variable,
or the variable itself where nothing is, each where it first occurs. Only what the variables of the
type are given counts: two assignments have the same result exactly if they agree there. -/
theorem subst_subst_and_vars_subst (t : Ty) (σ τ : Assignment) :
    (t.subst σ).subst τ = t.subst (σ.andThen τ) ∧
      (∀ ps qs, (t.subst (.ofPairs ps)).subst (.ofPairs qs) =
        t.subst (.ofPairs (qs ++ ps.map (Prod.map id (subst (.ofPairs qs)))))) ∧
      (t.subst σ).vars = (t.vars.flatMap fun v => (σ v).elim [v] vars).eraseDups ∧
      t.subst (σ.restrict t.vars) = t.subst σ ∧
      (t.subst σ = t.subst τ ↔ ∀ v ∈ t.vars, (σ v).getD (var v) = (τ v).getD (var v)) := by
  refine ⟨subst_subst σ τ t, fun ps qs => ?_, vars_subst σ t, subst_restrict_vars σ t,
    subst_eq_subst_iff⟩
  rw [subst_subst, Assignment.andThen_ofPairs]

/-- A variable that comes in at an earlier place is listed there. -/
example : ((cls ⟨19⟩ [var ⟨1⟩, arr (var ⟨0⟩), ext (var ⟨3⟩)]).subst
    (.ofPairs [(⟨1⟩, cls ⟨20⟩ [var ⟨2⟩, var ⟨3⟩])])).vars = [⟨2⟩, ⟨3⟩, ⟨0⟩] := by
  decide

end Ty

end CallCatalog
