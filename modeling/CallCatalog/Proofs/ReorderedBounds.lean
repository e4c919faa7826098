import CallCatalog.Proofs.BoundParts
import CallCatalog.Proofs.SubtypeTermination
import Mathlib.Data.List.Forall2
import Mathlib.Data.List.Permutation
import Mathlib.Logic.Relation

/-!
Stores that differ only in the order in which the upper bounds of type parameters are listed. The
order decides which questions are asked first, and so whether an answer is found at all: one upper
bound may give it, and asking about the one before may never end. What it does not decide is the
answer.
-/

namespace CallCatalog

namespace Bound

variable {b b' : Bound}

/-- The two bounds ask for the same conjuncts, perhaps in another order. -/
def Reorders (b b' : Bound) : Prop := b.conjuncts.Perm b'.conjuncts

theorem Reorders.symm (h : b.Reorders b') : b'.Reorders b := List.Perm.symm h

theorem reorders_ofUppers {uppers uppers' : List Ty} (h : uppers.Perm uppers') :
    (ofUppers uppers).Reorders (ofUppers uppers') := by
  by_cases hnil : uppers = []
  · subst hnil
    rw [h.nil_eq]
    exact List.Perm.refl _
  · have hnil' : uppers' ≠ [] := fun heq => hnil (List.Perm.eq_nil (heq ▸ h))
    rw [Reorders, conjuncts_ofUppers hnil, conjuncts_ofUppers hnil']
    exact h.map ofUpper

theorem Reorders.uppers (h : b.Reorders b') : b.uppers.Perm b'.uppers := by
  rw [uppers_eq_flatMap b, uppers_eq_flatMap b']
  exact h.flatMap_right Bound.uppers

theorem Reorders.mem_vars_iff (h : b.Reorders b') {v : TypeVarId} : v ∈ b.vars ↔ v ∈ b'.vars := by
  rw [Bound.mem_vars_iff, Bound.mem_vars_iff, occurrences_eq_flatMap b, occurrences_eq_flatMap b']
  exact (h.flatMap_right occurrences).mem_iff

end Bound

/-- The same type parameter, but for the order of its upper bounds. -/
structure TypeParam.Reorders (p p' : TypeParam) : Prop where
  name : p'.name = p.name
  bound : p.bound.Reorders p'.bound

namespace Store

variable {s s' : Store}

/-- The same classes and type parameters, but for the order of the upper bounds. -/
structure Reorders (s s' : Store) : Prop where
  classes : s'.classes = s.classes
  typeParams : List.Forall₂ TypeParam.Reorders s.typeParams s'.typeParams

theorem Reorders.symm (h : s.Reorders s') : s'.Reorders s where
  classes := h.classes.symm
  typeParams := by
    apply List.Forall₂.flip
    apply h.typeParams.imp
    intro p p' hp
    exact ⟨hp.name.symm, hp.bound.symm⟩

theorem reorders_setUppers {v : TypeVarId} {uppers uppers' : List Ty} {name : String}
    (hp : s.typeParam? v = some ⟨name, .ofUppers uppers⟩) (h : uppers.Perm uppers') :
    s.Reorders (s.setUppers v uppers') := by
  refine ⟨rfl, List.forall₂_of_length_eq_of_get (by simp [setUppers]) fun i hi hi' => ?_⟩
  simp only [List.get_eq_getElem, setUppers, List.getElem_modify]
  split
  · rename_i hv
    obtain ⟨_, hget⟩ := List.getElem?_eq_some_iff.mp hp
    simp only [← hv, hget]
    exact ⟨rfl, Bound.reorders_ofUppers h⟩
  · exact ⟨rfl, List.Perm.refl _⟩

theorem Reorders.exists_typeParam? (h : s.Reorders s') {v : TypeVarId} {p : TypeParam}
    (hp : s.typeParam? v = some p) : ∃ p', s'.typeParam? v = some p' ∧ p.Reorders p' := by
  obtain ⟨hlt, hget⟩ := List.getElem?_eq_some_iff.mp hp
  have hlt' : v.index < s'.typeParams.length := h.typeParams.length_eq ▸ hlt
  refine ⟨s'.typeParams[v.index], List.getElem?_eq_getElem hlt', ?_⟩
  rw [← hget]
  exact h.typeParams.get hlt hlt'

theorem Reorders.typeParam?_eq_none (h : s.Reorders s') {v : TypeVarId}
    (hp : s.typeParam? v = none) : s'.typeParam? v = none := by
  rw [typeParam?, List.getElem?_eq_none_iff] at hp ⊢
  rwa [← h.typeParams.length_eq]

theorem directSupertypes_eq (h : s'.classes = s.classes) (t : ClassType) :
    s'.directSupertypes t = s.directSupertypes t := by
  rw [directSupertypes, directSupertypes, classDef?, classDef?, h]

theorem findAbove_of_eq_some (h : s'.classes = s.classes) {target : ClassId}
    {queue seen : List ClassType} {result : Option ClassType}
    (hfind : s.findAbove target queue seen = some result) :
    s'.findAbove target queue seen = some result := by
  revert queue seen result
  apply findAbove.partial_correctness s target fun queue seen result =>
    s'.findAbove target queue seen = some result
  intro search ih queue seen result hstep
  rcases queue with _ | ⟨t, queue⟩
  · cases hstep
    rw [findAbove]
  · dsimp only at hstep
    rw [findAbove]
    split at hstep
    · rename_i hseen
      rw [if_pos hseen]
      exact ih _ _ _ hstep
    · rename_i hseen
      rw [if_neg hseen]
      split at hstep
      · rename_i hid
        rw [if_pos hid, hstep]
      · rename_i hid
        rw [if_neg hid, directSupertypes_eq h]
        exact ih _ _ _ hstep

theorem findAbove_eq (h : s'.classes = s.classes) : s'.findAbove = s.findAbove := by
  funext target queue seen
  apply Option.ext
  intro result
  exact ⟨findAbove_of_eq_some h.symm, findAbove_of_eq_some h⟩

end Store

/-- The same reduction, but for the order of alternatives. -/
inductive Reduction.Reorders : Reduction → Reduction → Prop
  | refl (r : Reduction) : Reorders r r
  | anyOf {questions questions' : List Question} (h : questions.Perm questions') :
      Reorders (.anyOf questions) (.anyOf questions')

namespace Reduction

variable {r r' : Reduction} {ask ask' : Question → Option Bool}

theorem Reorders.symm (h : r.Reorders r') : r'.Reorders r := by
  cases h with
  | refl => exact .refl r
  | anyOf h => exact .anyOf h.symm

theorem Reorders.exists_of_evaluate (h : r.Reorders r') (htrue : r.evaluate ask = some true)
    (hfalse : r'.evaluate ask' = some false) : ∃ q, ask q = some true ∧ ask' q = some false := by
  cases h with
  | refl =>
      obtain ⟨q, -, hq, hq'⟩ := exists_mentions_of_evaluate htrue hfalse
      exact ⟨q, hq, hq'⟩
  | anyOf h =>
      obtain ⟨q, hmem, hq⟩ := exists_of_anyM_eq_some_true htrue
      exact ⟨q, hq, anyM_eq_some_false_iff.mp hfalse q (h.mem_iff.mp hmem)⟩

theorem Reorders.evaluate_agree (h : r.Reorders r')
    (hagree : ∀ q x y, ask q = some x → ask' q = some y → x = y) {x y : Bool}
    (hx : r.evaluate ask = some x) (hy : r'.evaluate ask' = some y) : x = y := by
  cases x with
  | true =>
      cases y with
      | true => rfl
      | false =>
          obtain ⟨q, hq, hq'⟩ := h.exists_of_evaluate hx hy
          exact hagree q true false hq hq'
  | false =>
      cases y with
      | false => rfl
      | true =>
          obtain ⟨q, hq', hq⟩ := h.symm.exists_of_evaluate hy hx
          exact hagree q false true hq hq'

end Reduction

namespace Store

variable {s s' : Store} {q q' : Question}

theorem Reorders.exists_reduce? (h : s.Reorders s') {r : Reduction} (hr : s.reduce? q = some r) :
    ∃ r', s'.reduce? q = some r' ∧ r.Reorders r' := by
  obtain ⟨opened, sub, sup⟩ := q
  cases sub with
  | var v =>
      unfold reduce? at hr ⊢
      split at hr
      · rename_i heq
        rw [if_pos heq]
        exact ⟨r, hr, .refl r⟩
      rename_i hne
      rw [if_neg hne]
      dsimp only at hr ⊢
      split at hr
      · rename_i hv
        rw [if_pos hv]
        exact ⟨r, hr, .refl r⟩
      rename_i hv
      rw [if_neg hv]
      cases hp : s.typeParam? v with
      | none =>
          rw [h.typeParam?_eq_none hp]
          rw [hp] at hr
          exact ⟨r, hr, .refl r⟩
      | some p =>
          obtain ⟨p', hp', hreorders⟩ := h.exists_typeParam? hp
          have huppers := hreorders.bound.uppers
          simp only [hp, hp', ← huppers.isEmpty_eq] at hr ⊢
          split at hr
          · rename_i hnil
            rw [if_pos hnil]
            exact ⟨r, hr, .refl r⟩
          · rename_i hsome
            rw [if_neg hsome]
            cases hr
            exact ⟨_, rfl, .anyOf (huppers.map _)⟩
  | _ =>
      refine ⟨r, ?_, .refl r⟩
      rw [← hr]
      simp only [reduce?, findAbove_eq h.classes]

theorem Reorders.answer?_agree (h : s.Reorders s') {x y : Bool} (hx : s.answer? q = some x)
    (hy : s'.answer? q = some y) : x = y := by
  refine answer?_induction s (motive := fun q x => ∀ y, s'.answer? q = some y → x = y)
    ?_ q x hx y hy
  intro q r x ask hr hask hx y hy
  obtain ⟨r', hr', hreorders⟩ := h.exists_reduce? hr
  rw [answer?_eq, hr', Option.bind_some] at hy
  exact hreorders.evaluate_agree (fun q x y hq hq' => (hask q x hq).2 y hq') hx hy

/-- In the course of answering `q` the question `q'` is asked if the upper bounds of type variables
are looked at in a suitable order. -/
inductive MayAsk (s : Store) (q q' : Question) : Prop where
  | any {questions : List Question} (reduces : s.reduce? q = some (.anyOf questions))
      (listed : q' ∈ questions)
  | all (before after : List Containment)
      (reduces : s.reduce? q = some (.allOf (before ++ .asks q' :: after)))
      (leftOpen : ∀ c ∈ before, c.evaluate s.answer? = some true)

/-- All that may be asked in the course of answering `q`, in whatever order, has an answer. -/
def Ends (s : Store) (q : Question) : Prop :=
  ∀ q', Relation.ReflTransGen s.MayAsk q q' → s.answer? q' ≠ none

theorem Ends.exists_answer (h : s.Ends q) : ∃ holds, s.answer? q = some holds :=
  Option.ne_none_iff_exists'.mp (h q .refl)

theorem Ends.of_mayAsk (h : s.Ends q) (hq' : s.MayAsk q q') : s.Ends q' :=
  fun p hp => h p (.head hq' hp)

theorem MayAsk.asks_or_opens (h : s.MayAsk q q') :
    s.Asks q q' ∧ q'.opened = q.opened ∨ s.unopened q'.opened < s.unopened q.opened := by
  cases h with
  | any reduces listed =>
      rcases reduce?_eq_anyOf reduces with
        ⟨v, p, -, hnew, hp, rfl⟩ | ⟨elem, supElem, rfl⟩
      · obtain ⟨upper, -, rfl⟩ := List.mem_map.mp listed
        exact Or.inr (unopened_cons_lt hnew hp)
      · obtain rfl := List.mem_singleton.mp listed
        exact Or.inl ⟨.any [] [] reduces (by simp), rfl⟩
  | all before after reduces leftOpen =>
      have hasks : s.Asks q q' := .all before after reduces leftOpen
      cases leads_of_asks hasks with
      | bound hnew hp _ => exact Or.inr (unopened_cons_lt hnew hp)
      | element => exact Or.inl ⟨hasks, rfl⟩
      | upper _ _ _ => exact Or.inl ⟨hasks, rfl⟩
      | lower hexchanges =>
          cases hexchanges
          exact Or.inl ⟨hasks, rfl⟩

theorem Ends.acc (h : s.Ends q) : Acc (fun q' q => s.MayAsk q q') q := by
  -- Opening a variable leaves fewer to open, and between two such steps the questions are asked in
  -- the course of answering a question that has an answer.
  induction hn : s.unopened q.opened using Nat.strong_induction_on generalizing q with
  | _ n ihn =>
      obtain ⟨holds, hholds⟩ := h.exists_answer
      have hacc := acc_of_answer?_eq_some hholds
      clear hholds
      induction hacc with
      | intro q _ ih =>
          constructor
          intro q' hq'
          rcases hq'.asks_or_opens with ⟨hasks, hopened⟩ | hlt
          · exact ih q' hasks (h.of_mayAsk hq') (by rw [hopened, hn])
          · exact ihn _ (hn ▸ hlt) (h.of_mayAsk hq') rfl

theorem Reorders.leftOpen_of_ends (h : s.Reorders s') (hends : s.Ends q)
    {before after : List Containment} (hr : s.reduce? q = some (.allOf (before ++ after)))
    (hbefore : ∀ c ∈ before, c.evaluate s'.answer? = some true) :
    ∀ c ∈ before, c.evaluate s.answer? = some true := by
  induction before using List.reverseRecOn generalizing after with
  | nil => simp
  | append_singleton before last ih =>
      have hfront : ∀ c ∈ before, c.evaluate s.answer? = some true := by
        refine @ih (last :: after) (by simpa using hr) ?_
        exact fun c hc => hbefore c (List.mem_append_left _ hc)
      have hlast := hbefore last (by simp)
      intro c hc
      rcases List.mem_append.mp hc with hc | hc
      · exact hfront c hc
      · obtain rfl := List.mem_singleton.mp hc
        cases c with
        | settled _ => exact hlast
        | asks p =>
            have hmay : s.MayAsk q p := .all before after (by simpa using hr) hfront
            obtain ⟨holds, hholds⟩ := (hends.of_mayAsk hmay).exists_answer
            obtain rfl := h.answer?_agree hholds hlast
            exact hholds

theorem Reorders.mayAsk_of_asks (h : s.Reorders s') (hends : s.Ends q) (hasks : s'.Asks q q') :
    s.MayAsk q q' := by
  obtain ⟨holds, hholds⟩ := hends.exists_answer
  rw [answer?_eq] at hholds
  obtain ⟨r, hr, -⟩ := Option.bind_eq_some_iff.mp hholds
  obtain ⟨r', hr', hreorders⟩ := h.exists_reduce? hr
  cases hasks with
  | any before after reduces _ =>
      obtain rfl := Option.some.inj (hr'.symm.trans reduces)
      cases hreorders with
      | refl => exact .any hr (by simp)
      | anyOf hperm => exact .any hr (hperm.mem_iff.mpr (by simp))
  | all before after reduces leftOpen =>
      obtain rfl := Option.some.inj (hr'.symm.trans reduces)
      cases hreorders with
      | refl => exact .all before after hr (h.leftOpen_of_ends hends hr leftOpen)

/-- A question that ends in any order has the same answer in the other store. -/
theorem Reorders.answer?_eq_of_ends (h : s.Reorders s') (hends : s.Ends q) :
    s'.answer? q = s.answer? q := by
  have hanswer : s'.answer? q ≠ none := by
    induction hends.acc with
    | intro q _ ih =>
        intro hnone
        obtain ⟨holds, hholds⟩ := hends.exists_answer
        rw [answer?_eq] at hholds
        obtain ⟨r, hr, -⟩ := Option.bind_eq_some_iff.mp hholds
        obtain ⟨r', hr', -⟩ := h.exists_reduce? hr
        obtain ⟨q', hasks, hq'⟩ := exists_asks_of_answer?_eq_none hr' hnone
        have hmay := h.mayAsk_of_asks hends hasks
        exact ih q' hmay (hends.of_mayAsk hmay) hq'
  obtain ⟨x, hx⟩ := hends.exists_answer
  obtain ⟨y, hy⟩ := Option.ne_none_iff_exists'.mp hanswer
  rw [hx, hy, h.answer?_agree hx hy]

end Store

end CallCatalog
