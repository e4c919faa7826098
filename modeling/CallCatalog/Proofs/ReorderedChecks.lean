import CallCatalog.Proofs.ReorderedBounds

/-!
Whether a type passes a bound, told by questions that need not have an answer. The parts of a bound
are looked at in order and no more of them than it takes, so a part that is never done with can be
hidden behind one that fails, or stand before it.
-/

namespace CallCatalog

namespace Bound

variable {s s' : Store} {σ : Assignment} {t : Ty} {ask ask' : Ty → Option Bool} {b b' : Bound}

mutual

theorem check?_eq_allM : ∀ b : Bound, b.check? s t ask = b.conjuncts.allM (check? s t ask)
  | all parts => checkAll?_eq_allM parts
  | unconstrained => (allM_singleton _ _).symm
  | concrete _ => (allM_singleton _ _).symm
  | dependent _ _ => (allM_singleton _ _).symm

theorem checkAll?_eq_allM :
    ∀ bs : List Bound, checkAll? s t ask bs = (conjunctsAll bs).allM (check? s t ask)
  | [] => rfl
  | b :: bs => by
      rw [checkAll?, conjunctsAll, allM_append, ← check?_eq_allM b, checkAll?_eq_allM bs]

end

mutual

theorem all_notMem_conjuncts {parts : List Bound} : ∀ b : Bound, all parts ∉ b.conjuncts
  | all parts' => all_notMem_conjunctsAll parts'
  | unconstrained => by simp [conjuncts]
  | concrete _ => by simp [conjuncts]
  | dependent _ _ => by simp [conjuncts]

theorem all_notMem_conjunctsAll {parts : List Bound} :
    ∀ bs : List Bound, all parts ∉ conjunctsAll bs
  | [] => List.not_mem_nil
  | b :: bs => by
      rw [conjunctsAll, List.mem_append, not_or]
      exact ⟨all_notMem_conjuncts b, all_notMem_conjunctsAll bs⟩

end

theorem check?_ne_none
    (hconcrete : ∀ upper, concrete upper ∈ b.conjuncts → s.subtype? t upper ≠ none)
    (hdependent : ∀ upper on, dependent upper on ∈ b.conjuncts → ask upper ≠ none) :
    b.check? s t ask ≠ none := by
  intro h
  rw [check?_eq_allM] at h
  obtain ⟨before, c, after, hsplit, -, hc⟩ := exists_of_allM_eq_none h
  have hmem : c ∈ b.conjuncts := by simp [hsplit]
  cases c with
  | unconstrained => cases hc
  | concrete upper => exact hconcrete upper hmem hc
  | dependent upper on => exact hdependent upper on hmem hc
  | all parts => exact all_notMem_conjuncts b hmem

theorem Reorders.exists_of_check? (h : b.Reorders b') (htrue : b.check? s t ask = some true)
    (hfalse : b'.check? s' t ask' = some false) :
    (∃ upper, s.subtype? t upper = some true ∧ s'.subtype? t upper = some false) ∨
      ∃ upper, ask upper = some true ∧ ask' upper = some false := by
  rw [check?_eq_allM] at htrue hfalse
  obtain ⟨c, hc, hcfalse⟩ := exists_of_allM_eq_some_false hfalse
  have hctrue := allM_eq_some_true_iff.mp htrue c (h.mem_iff.mpr hc)
  cases c with
  | unconstrained =>
      have hsame := hctrue.symm.trans hcfalse
      cases hsame
  | concrete upper => exact Or.inl ⟨upper, hctrue, hcfalse⟩
  | dependent upper on => exact Or.inr ⟨upper, hctrue, hcfalse⟩
  | all parts => exact absurd hc (all_notMem_conjuncts b')

theorem Reorders.check?_agree (hs : s.Reorders s') (h : b.Reorders b')
    (hask : ∀ upper x y, ask upper = some x → ask' upper = some y → x = y) {x y : Bool}
    (hx : b.check? s t ask = some x) (hy : b'.check? s' t ask' = some y) : x = y := by
  cases x with
  | true =>
      cases y with
      | true => rfl
      | false =>
          rcases h.exists_of_check? hx hy with ⟨upper, hupper, hupper'⟩ | ⟨upper, hupper, hupper'⟩
          · exact hs.answer?_agree hupper hupper'
          · exact hask upper true false hupper hupper'
  | false =>
      cases y with
      | false => rfl
      | true =>
          rcases h.symm.exists_of_check? hy hx with
            ⟨upper, hupper', hupper⟩ | ⟨upper, hupper', hupper⟩
          · exact hs.answer?_agree hupper hupper'
          · exact hask upper false true hupper hupper'

theorem Reorders.satisfied?_agree (hs : s.Reorders s') (h : b.Reorders b') {x y : Bool}
    (hx : b.satisfied? s σ t = some x) (hy : b'.satisfied? s' σ t = some y) : x = y := by
  refine h.check?_agree hs ?_ hx hy
  intro upper x y hx hy
  split at hx
  · rename_i hvars
    rw [if_pos hvars] at hy
    exact Option.some.inj (hx.symm.trans hy)
  · rename_i hvars
    rw [if_neg hvars] at hy
    exact hs.answer?_agree hx hy

theorem Reorders.admitted?_agree (hs : s.Reorders s') (h : b.Reorders b') {x y : Bool}
    (hx : b.admitted? s t = some x) (hy : b'.admitted? s' t = some y) : x = y :=
  h.check?_agree hs (fun _ _ _ hx hy => Option.some.inj (hx.symm.trans hy)) hx hy

theorem Reorders.isSatisfiedBy_eq (hs : s.Reorders s') (h : b.Reorders b')
    (hends : b.satisfied? s σ t ≠ none) (hends' : b'.satisfied? s' σ t ≠ none) :
    b'.isSatisfiedBy s' σ t = b.isSatisfiedBy s σ t := by
  obtain ⟨x, hx⟩ := Option.ne_none_iff_exists'.mp hends
  obtain ⟨y, hy⟩ := Option.ne_none_iff_exists'.mp hends'
  rw [isSatisfiedBy_eq_of_satisfied? hx, isSatisfiedBy_eq_of_satisfied? hy,
    h.satisfied?_agree hs hx hy]

theorem Reorders.admits_eq (hs : s.Reorders s') (h : b.Reorders b')
    (hends : b.admitted? s t ≠ none) (hends' : b'.admitted? s' t ≠ none) :
    b'.admits s' t = b.admits s t := by
  obtain ⟨x, hx⟩ := Option.ne_none_iff_exists'.mp hends
  obtain ⟨y, hy⟩ := Option.ne_none_iff_exists'.mp hends'
  rw [admits_eq_of_admitted? hx, admits_eq_of_admitted? hy, h.admitted?_agree hs hx hy]

/-- The types with which a candidate for the bound is compared under the values `σ`. A dependent
part in which a variable is left over is not compared with anything. -/
inductive Compares (b : Bound) (σ : Assignment) : Ty → Prop
  | concrete {upper : Ty} (part : .concrete upper ∈ b.conjuncts) : Compares b σ upper
  | dependent {upper : Ty} {on : List TypeVarId} (part : .dependent upper on ∈ b.conjuncts)
      (closed : (upper.subst σ).mentionsVars = false) : Compares b σ (upper.subst σ)

theorem Reorders.compares (h : b.Reorders b') {upper : Ty} (hb : b.Compares σ upper) :
    b'.Compares σ upper := by
  cases hb with
  | concrete part => exact .concrete (h.mem_iff.mp part)
  | dependent part closed => exact .dependent (h.mem_iff.mp part) closed

theorem satisfied?_ne_none (h : ∀ upper, b.Compares σ upper → s.subtype? t upper ≠ none) :
    b.satisfied? s σ t ≠ none := by
  apply check?_ne_none
  · exact fun upper hpart => h upper (.concrete hpart)
  · intro upper on hpart
    split
    · simp
    · rename_i hvars
      exact h _ (.dependent hpart (by simpa using hvars))

theorem admitted?_ne_none (h : ∀ upper, b.Compares σ upper → s.subtype? t upper ≠ none) :
    b.admitted? s t ≠ none :=
  check?_ne_none (fun upper hpart => h upper (.concrete hpart)) (by simp)

/-- However the upper bounds of type variables are ordered, every comparison that the bound asks for
under the values `σ` ends. -/
def ChecksEnd (b : Bound) (s : Store) (σ : Assignment) (t : Ty) : Prop :=
  ∀ upper, b.Compares σ upper → s.Ends ⟨[], t, upper⟩

namespace ChecksEnd

variable (h : b.ChecksEnd s σ t)

include h

theorem subtype?_ne_none_of_reorders (hs : s.Reorders s') (hb : b.Reorders b') :
    ∀ upper, b'.Compares σ upper → s'.subtype? t upper ≠ none := by
  intro upper hupper
  have hends := h upper (hb.symm.compares hupper)
  rw [Store.subtype?, hs.answer?_eq_of_ends hends]
  exact hends _ .refl

theorem satisfied?_ne_none : b.satisfied? s σ t ≠ none :=
  Bound.satisfied?_ne_none fun upper hupper => h upper hupper _ .refl

theorem admitted?_ne_none : b.admitted? s t ≠ none :=
  Bound.admitted?_ne_none fun upper hupper => h upper hupper _ .refl

theorem satisfied?_ne_none_of_reorders (hs : s.Reorders s') (hb : b.Reorders b') :
    b'.satisfied? s' σ t ≠ none :=
  Bound.satisfied?_ne_none (h.subtype?_ne_none_of_reorders hs hb)

theorem admitted?_ne_none_of_reorders (hs : s.Reorders s') (hb : b.Reorders b') :
    b'.admitted? s' t ≠ none :=
  Bound.admitted?_ne_none (h.subtype?_ne_none_of_reorders hs hb)

end ChecksEnd

end Bound

end CallCatalog
