import CallCatalog.Proofs.BoundVariables
import CallCatalog.Proofs.Questions
import Mathlib.Data.Finset.Card
import Mathlib.Data.Prod.Lex

/-!
Where asking about subtypes ends. Following a bound opens a type variable, and apart from an
exchange under `? super` every other step takes the wanted type apart; so without a cycle in the
declarations only endless exchanges keep a question from being answered. They do occur: a class may
extend `N<N<? super C>>` and lead the question whether it is an `N<? super C>` back to itself. Where
no declared supertype mentions `? super`, each exchange uses up one of the wildcards that the
question came with.
-/

namespace CallCatalog

namespace Ty

mutual

def lowerDepth : Ty → Nat
  | sup lower => lower.lowerDepth + 1
  | cls _ args => lowerDepths args
  | arr elem => elem.lowerDepth
  | ext upper => upper.lowerDepth
  | void => 0
  | primitive _ => 0
  | var _ => 0
  | any => 0

def lowerDepths : List Ty → Nat
  | [] => 0
  | t :: ts => max t.lowerDepth (lowerDepths ts)

end

theorem lowerDepths_le_iff {ts : List Ty} {n : Nat} :
    lowerDepths ts ≤ n ↔ ∀ t ∈ ts, t.lowerDepth ≤ n := by
  induction ts with
  | nil => simp [lowerDepths]
  | cons t ts ih => simp [lowerDepths, ih]

theorem lowerDepth_le_of_mem {t : Ty} {ts : List Ty} (h : t ∈ ts) :
    t.lowerDepth ≤ lowerDepths ts :=
  lowerDepths_le_iff.mp (Nat.le_refl _) t h

mutual

theorem lowerDepth_subst_le {σ : Assignment} {n : Nat}
    (hσ : ∀ v t, σ v = some t → t.lowerDepth ≤ n) :
    ∀ t : Ty, (t.subst σ).lowerDepth ≤ t.lowerDepth + n
  | var v => by
      cases hv : σ v with
      | none => simp [subst, hv, lowerDepth]
      | some t =>
          have hle := hσ v t hv
          simpa [subst, hv, lowerDepth] using hle
  | cls _ args => by
      simpa [subst, lowerDepth] using lowerDepths_substAll_le hσ args
  | arr elem => by
      simpa [subst, lowerDepth] using lowerDepth_subst_le hσ elem
  | ext upper => by
      simpa [subst, lowerDepth] using lowerDepth_subst_le hσ upper
  | sup lower => by
      have hle := lowerDepth_subst_le hσ lower
      simp only [subst, lowerDepth]
      omega
  | void => by simp [subst, lowerDepth]
  | primitive _ => by simp [subst, lowerDepth]
  | any => by simp [subst, lowerDepth]

theorem lowerDepths_substAll_le {σ : Assignment} {n : Nat}
    (hσ : ∀ v t, σ v = some t → t.lowerDepth ≤ n) :
    ∀ ts : List Ty, lowerDepths (substAll σ ts) ≤ lowerDepths ts + n
  | [] => by simp [substAll, lowerDepths]
  | t :: ts => by
      have hfirst := lowerDepth_subst_le hσ t
      have hrest := lowerDepths_substAll_le hσ ts
      simp only [substAll, lowerDepths]
      omega

end

end Ty

namespace Store

variable {s : Store} {q q' : Question} {t u : ClassType}

/-- No declared supertype mentions `? super`. -/
def DeclaresNoLower (s : Store) : Prop :=
  ∀ id d, s.classDef? id = some d → ∀ t ∈ d.supertypes, t.lowerDepth = 0

theorem DeclaresNoLower.of_classes (h : ∀ entry ∈ s.classes, ∀ d ∈ entry.definition?,
    ∀ t ∈ d.supertypes, t.lowerDepth = 0) : s.DeclaresNoLower := by
  intro id d hd
  obtain ⟨entry, hentry, hdefinition⟩ := Option.bind_eq_some_iff.mp hd
  exact h entry (List.mem_of_getElem? hentry) d hdefinition

theorem lowerDepths_of_mem_directSupertypes (hs : s.DeclaresNoLower)
    (h : u ∈ s.directSupertypes t) : Ty.lowerDepths u.args ≤ Ty.lowerDepths t.args := by
  obtain ⟨d, hd, ⟨id, args, hmem, hsup⟩ | ⟨-, rfl⟩⟩ := mem_directSupertypes_iff.mp h
  · simp only [supertypeFrom?] at hsup
    split at hsup
    · rw [← Option.some.inj hsup]
      exact Nat.zero_le _
    · rw [← Option.some.inj hsup, ClassType.subst, ← Ty.substAll_eq_map]
      have hdeclared : Ty.lowerDepths args = 0 := hs t.id d hd _ hmem
      have hgiven : ∀ v t', Assignment.ofPairs (d.typeParams.zip t.args) v = some t' →
          t'.lowerDepth ≤ Ty.lowerDepths t.args := by
        intro v t' hv
        exact Ty.lowerDepth_le_of_mem (List.of_mem_zip (Assignment.mem_of_ofPairs_eq_some hv)).2
      simpa [hdeclared] using Ty.lowerDepths_substAll_le hgiven args
  · exact Nat.zero_le _

theorem lowerDepths_of_above (hs : s.DeclaresNoLower) (h : s.Above t u) :
    Ty.lowerDepths u.args ≤ Ty.lowerDepths t.args := by
  induction h with
  | refl => exact Nat.le_refl _
  | tail _ hstep ih => exact (lowerDepths_of_mem_directSupertypes hs hstep).trans ih

def unopened (s : Store) (opened : List TypeVarId) : Nat :=
  ((Finset.range s.typeParams.length).filter fun i => ⟨i⟩ ∉ opened).card

theorem unopened_cons_lt {v : TypeVarId} {p : TypeParam} {opened : List TypeVarId}
    (hv : v ∉ opened) (hp : s.typeParam? v = some p) :
    s.unopened (v :: opened) < s.unopened opened := by
  have hlt : v.index < s.typeParams.length := (List.getElem?_eq_some_iff.mp hp).1
  apply Finset.card_lt_card
  refine (Finset.ssubset_iff_of_subset ?_).mpr ⟨v.index, by simp [hlt, hv], by simp⟩
  intro i hi
  simp only [Finset.mem_filter, List.mem_cons, not_or] at hi ⊢
  exact ⟨hi.1, hi.2.2⟩

noncomputable def weight (s : Store) (q : Question) : Nat ×ₗ Nat :=
  toLex (s.unopened q.opened, sizeOf q.sup)

/-- What all steps use up if no declared supertype mentions `? super`. -/
noncomputable def lowerWeight (s : Store) (q : Question) : Nat ×ₗ Nat ×ₗ Nat :=
  toLex (s.unopened q.opened, toLex (q.sub.lowerDepth + q.sup.lowerDepth, sizeOf q.sup))

theorem sizeOf_lt_of_ext_mem {target : ClassId} {args : List Ty} {upper : Ty}
    (h : .ext upper ∈ args) : sizeOf upper < sizeOf (Ty.cls target args) := by
  have hlt := List.sizeOf_lt_of_mem h
  simp only [Ty.ext.sizeOf_spec, Ty.cls.sizeOf_spec] at hlt ⊢
  omega

theorem weight_lt_of_leads (h : s.Leads q q') (hsides : ¬ s.Exchanges q q') :
    s.weight q' < s.weight q := by
  cases h with
  | bound hnew hp _ => exact Prod.Lex.left _ _ (unopened_cons_lt hnew hp)
  | element =>
      apply Prod.Lex.right
      simp only [Ty.arr.sizeOf_spec]
      omega
  | upper _ hformal _ => exact Prod.Lex.right _ (sizeOf_lt_of_ext_mem hformal)
  | lower hexchanges => exact absurd hexchanges hsides

theorem lowerDepth_le_of_found (hs : s.DeclaresNoLower) {target : ClassId} {found : ClassType}
    {part wildcard : Ty} (above : s.findAbove target [t] [] = some (some found))
    (hpart : part.lowerDepth ≤ wildcard.lowerDepth)
    (hmem : part ∈ found.args ∨ wildcard ∈ found.args) :
    part.lowerDepth ≤ t.toTy.lowerDepth := by
  have hfound : part.lowerDepth ≤ Ty.lowerDepths found.args := by
    rcases hmem with hmem | hmem
    · exact Ty.lowerDepth_le_of_mem hmem
    · exact hpart.trans (Ty.lowerDepth_le_of_mem hmem)
  exact hfound.trans (lowerDepths_of_above hs (above_of_findAbove above).2)

theorem lowerWeight_lt_of_leads (hs : s.DeclaresNoLower) (h : s.Leads q q') :
    s.lowerWeight q' < s.lowerWeight q := by
  cases h with
  | bound hnew hp _ => exact Prod.Lex.left _ _ (unopened_cons_lt hnew hp)
  | element =>
      apply Prod.Lex.right
      apply Prod.Lex.right
      simp only [Ty.arr.sizeOf_spec]
      omega
  | @upper opened t found target args upper part above hformal hactual =>
      have hext : part.lowerDepth ≤ (Ty.ext part).lowerDepth := Nat.le_refl _
      have hpart := lowerDepth_le_of_found hs above hext hactual
      have hupper : upper.lowerDepth ≤ (Ty.cls target args).lowerDepth :=
        Ty.lowerDepth_le_of_mem (t := .ext upper) hformal
      apply Prod.Lex.right
      rcases (Nat.add_le_add hpart hupper).lt_or_eq with hlt | heq
      · exact Prod.Lex.left _ _ hlt
      · rw [heq]
        exact Prod.Lex.right _ (sizeOf_lt_of_ext_mem hformal)
  | lower hexchanges =>
      obtain @⟨opened, t, found, target, args, lower, part, above, hformal, hactual⟩ := hexchanges
      have hsup : part.lowerDepth ≤ (Ty.sup part).lowerDepth := Nat.le_succ _
      have hpart := lowerDepth_le_of_found hs above hsup hactual
      have hlower : lower.lowerDepth + 1 ≤ (Ty.cls target args).lowerDepth :=
        Ty.lowerDepth_le_of_mem (t := .sup lower) hformal
      apply Prod.Lex.right
      apply Prod.Lex.left
      dsimp only
      omega

theorem answer?_ne_none_of_declaresNoLower (h : s.Acyclic) (hs : s.DeclaresNoLower) (q : Question) :
    s.answer? q ≠ none := by
  intro hnone
  have hwalk : ∀ t target, (s.findAbove target [t] []).isSome :=
    fun t target => findAbove_isSome (finite_above h t)
  obtain ⟨f, -, hasks⟩ := (answer?_eq_none_iff (reduce?_isSome hwalk)).mp hnone
  obtain ⟨k, hk⟩ := WellFounded.not_rel_apply_succ (r := (· < ·)) fun k => s.lowerWeight (f k)
  exact hk (lowerWeight_lt_of_leads hs (leads_of_asks (hasks k)))

/-- Without a cycle every search for a supertype ends. What keeps a question about two types from
being answered is an endless chain of questions that exchanges the sides again and again, and there
is none if no declared supertype mentions `? super`. -/
theorem subtype?_eq_none_iff_exchanges (h : s.Acyclic) :
    (∀ t target, (s.findAbove target [t] []).isSome) ∧
      (∀ sub sup, s.subtype? sub sup = none ↔
        ∃ f : Nat → Question, f 0 = ⟨[], sub, sup⟩ ∧ (∀ n, s.Asks (f n) (f (n + 1))) ∧
          ∀ n, ∃ m, n ≤ m ∧ s.Exchanges (f m) (f (m + 1))) ∧
      (s.DeclaresNoLower → ∀ sub sup, ∃ holds, s.subtype? sub sup = some holds) := by
  have hwalk : ∀ t target, (s.findAbove target [t] []).isSome :=
    fun t target => findAbove_isSome (finite_above h t)
  have hchain := fun sub sup => @answer?_eq_none_iff s ⟨[], sub, sup⟩ (reduce?_isSome hwalk)
  refine ⟨hwalk, ?_, ?_⟩
  · intro sub sup
    rw [subtype?, hchain]
    constructor
    · rintro ⟨f, hstart, hasks⟩
      refine ⟨f, hstart, hasks, ?_⟩
      intro n
      by_contra hlast
      -- after the last exchange the weight would decrease for ever
      obtain ⟨k, hk⟩ := WellFounded.not_rel_apply_succ (r := (· < ·)) fun k => s.weight (f (n + k))
      apply hk
      apply weight_lt_of_leads (leads_of_asks (hasks (n + k)))
      intro hexchanges
      exact hlast ⟨n + k, by omega, hexchanges⟩
    · rintro ⟨f, hstart, hasks, -⟩
      exact ⟨f, hstart, hasks⟩
  · intro hs sub sup
    exact Option.ne_none_iff_exists'.mp (answer?_ne_none_of_declaresNoLower h hs ⟨[], sub, sup⟩)

def knotStore : Store where
  classes := Store.empty.classes ++ [
    { name := "N", definition? := some {
        name := "N", kind := .interface, isAbstract := true, typeParams := [⟨0⟩] } },
    { name := "C", definition? := some {
        name := "C", kind := .plain, isAbstract := false
        superClass := some (.cls ⟨6⟩ [.cls ⟨6⟩ [.sup (.cls ⟨7⟩ [])]]) } }]
  typeParams := [⟨"T", .unconstrained⟩]

def knotQuestion : Question := ⟨[], .cls ⟨7⟩ [], .cls ⟨6⟩ [.sup (.cls ⟨7⟩ [])]⟩

theorem acyclic_knotStore : knotStore.Acyclic := by
  apply Acyclic.of_rank ClassId.index
  rintro ⟨c⟩ ⟨d⟩ hextends
  have hlt : c < 8 := index_lt_of_extends hextends
  obtain ⟨cd, hcd, args, hmem⟩ := hextends
  have hdefined : ∀ i < 8, (knotStore.classDef? ⟨i⟩).isSome → i = 6 ∨ i = 7 := by decide
  rcases hdefined c hlt (Option.isSome_of_eq_some hcd) with rfl | rfl
  · cases hcd
    cases hmem
  · cases hcd
    have hd : d = 6 := congrArg ClassId.index (Ty.cls.inj (List.mem_singleton.mp hmem)).1
    rw [hd]
    decide

theorem asks_knotQuestion : knotStore.Asks knotQuestion knotQuestion := by
  have hreduces : knotStore.reduce? knotQuestion = some (.allOf [.asks knotQuestion]) := by
    cbv
  exact .all [] [] hreduces (by simp)

theorem exchanges_knotQuestion : knotStore.Exchanges knotQuestion knotQuestion := by
  have habove : knotStore.findAbove ⟨6⟩ [⟨⟨7⟩, []⟩] [] =
      some (some ⟨⟨6⟩, [.cls ⟨6⟩ [.sup (.cls ⟨7⟩ [])]]⟩) := by
    cbv
  exact .intro habove (by simp) (by simp)

/-- The question whether `C` is a subtype of `N<? super C>` has no answer. -/
theorem subtype?_eq_none_iff_exchanges_knot : knotStore.Acyclic ∧
    knotStore.subtype? knotQuestion.sub knotQuestion.sup = none := by
  refine ⟨acyclic_knotStore, ?_⟩
  refine ((subtype?_eq_none_iff_exchanges acyclic_knotStore).2.1 _ _).mpr ?_
  exact ⟨fun _ => knotQuestion, rfl, fun _ => asks_knotQuestion,
    fun n => ⟨n, Nat.le_refl n, exchanges_knotQuestion⟩⟩

end Store

end CallCatalog
