import CallCatalog.Proofs.SubtypeTermination

/-!
The type variables that are opened while a question is asked. It makes no difference whether every
question comes with its own list of them or all questions share one, to which a variable is added
while its upper bounds are looked at: the list is restored on every path. The fewer variables are
opened, the more can hold: a yes under some opened variables is never a no under fewer. So where all
questions about two types have answers, all other questions have answers as well.
-/

namespace CallCatalog

def Ty.enter (opened : List TypeVarId) : Ty → List TypeVarId
  | var v => v :: opened
  | _ => opened

def Ty.leave (opened : List TypeVarId) : Ty → List TypeVarId
  | var v => opened.erase v
  | _ => opened

theorem Ty.leave_enter (opened : List TypeVarId) (t : Ty) : t.leave (t.enter opened) = opened := by
  cases t with
  | var v => exact List.erase_cons_head v opened
  | _ => rfl

theorem Ty.enter_of_ne_var {opened : List TypeVarId} {t : Ty} (h : ∀ v, t ≠ .var v) :
    t.enter opened = opened := by
  cases t with
  | var v => exact absurd rfl (h v)
  | _ => rfl

theorem Store.opened_of_leads {s : Store} {q q' : Question} (h : s.Leads q q') :
    q'.opened = q.sub.enter q.opened := by
  cases h with
  | lower hexchanges =>
      cases hexchanges
      rfl
  | _ => rfl

section Fold

variable {α β : Type} {step : Bool × β → α → Option (Bool × β)} {g : α → Option Bool} {b : β}
  {xs : List α}

theorem foldlM_of_fixed {done : Bool × β} (h : ∀ x, step done x = some done) (xs : List α) :
    xs.foldlM step done = some done := by
  induction xs with
  | nil => rfl
  | cons x xs ih =>
      rw [List.foldlM_cons, h x]
      exact ih

theorem foldlM_any (hdone : ∀ x, step (true, b) x = some (true, b))
    (h : ∀ x ∈ xs, step (false, b) x = (g x).map fun holds => (holds, b)) :
    xs.foldlM step (false, b) = (xs.anyM g).map fun holds => (holds, b) := by
  induction xs with
  | nil => rfl
  | cons x xs ih =>
      have hrest := ih fun y hy => h y (by simp [hy])
      rw [List.foldlM_cons, anyM_cons, h x (by simp)]
      cases g x with
      | none => rfl
      | some holds =>
          cases holds with
          | true => exact foldlM_of_fixed hdone xs
          | false => exact hrest

theorem foldlM_all (hdone : ∀ x, step (false, b) x = some (false, b))
    (h : ∀ x ∈ xs, step (true, b) x = (g x).map fun holds => (holds, b)) :
    xs.foldlM step (true, b) = (xs.allM g).map fun holds => (holds, b) := by
  induction xs with
  | nil => rfl
  | cons x xs ih =>
      have hrest := ih fun y hy => h y (by simp [hy])
      rw [List.foldlM_cons, allM_cons, h x (by simp)]
      cases g x with
      | none => rfl
      | some holds =>
          cases holds with
          | true => exact hrest
          | false => exact foldlM_of_fixed hdone xs

end Fold

namespace Store

/-- Answers a question with one list of opened variables that is handed on from question to
question. A variable is added to it before its upper bounds are looked at and removed afterwards.
The result is the answer with the list that is left. -/
def answerSharing? (s : Store) (sub sup : Ty) (opened : List TypeVarId) :
    Option (Bool × List TypeVarId) := do
  match ← s.reduce? ⟨opened, sub, sup⟩ with
  | .settled holds => return (holds, opened)
  | .anyOf questions =>
    let st ← questions.foldlM
      (fun (st : Bool × List TypeVarId) (q : Question) =>
        if st.1 then some st else s |>.answerSharing? q.sub q.sup st.2)
      (false, sub.enter opened)
    return (st.1, sub.leave st.2)
  | .allOf parts =>
    parts.foldlM
      (fun (st : Bool × List TypeVarId) (part : Containment) =>
        if st.1 then
          match part with
          | .settled holds => some (holds, st.2)
          | .asks q => s |>.answerSharing? q.sub q.sup st.2
        else some st)
      (true, opened)
partial_fixpoint

variable {s : Store} {q q' : Question} {opened : List TypeVarId}

theorem sub_ne_var_of_allOf {parts : List Containment} (h : s.reduce? q = some (.allOf parts))
    (v : TypeVarId) : q.sub ≠ .var v := by
  obtain ⟨opened, sub, sup⟩ := q
  rintro rfl
  simp only [reduce?] at h
  split at h
  · cases h
  split at h
  · cases h
  cases hp : s.typeParam? v with
  | none =>
      rw [hp] at h
      cases h
  | some p =>
      simp only [hp] at h
      split at h <;> cases h

def sharingStep (ask : Ty → Ty → List TypeVarId → Option (Bool × List TypeVarId))
    (sub : Ty) (opened : List TypeVarId) : Reduction → Option (Bool × List TypeVarId)
  | .settled holds => some (holds, opened)
  | .anyOf questions => do
    let st ← questions.foldlM
      (fun st q => if st.1 then some st else ask q.sub q.sup st.2) (false, sub.enter opened)
    return (st.1, sub.leave st.2)
  | .allOf parts =>
    parts.foldlM
      (fun st part =>
        if st.1 then
          match part with
          | .settled holds => some (holds, st.2)
          | .asks q => ask q.sub q.sup st.2
        else some st)
      (true, opened)

/-- The list of opened variables is left as it was. -/
def Restores (ask : Ty → Ty → List TypeVarId → Option (Bool × List TypeVarId)) : Prop :=
  ∀ sub sup opened result, ask sub sup opened = some result → result.2 = opened

theorem sharingStep_eq {ask : Ty → Ty → List TypeVarId → Option (Bool × List TypeVarId)}
    (hask : Restores ask) {r : Reduction} (hr : s.reduce? q = some r) :
    sharingStep ask q.sub q.opened r =
      (r.evaluate fun q => (ask q.sub q.sup q.opened).map Prod.fst).map
        fun holds => (holds, q.opened) := by
  have hrestores : ∀ q : Question, ask q.sub q.sup q.opened =
      ((ask q.sub q.sup q.opened).map Prod.fst).map fun holds => (holds, q.opened) := by
    intro q
    cases hresult : ask q.sub q.sup q.opened with
    | none => rfl
    | some result =>
        obtain ⟨holds, opened⟩ := result
        obtain rfl : opened = q.opened := hask _ _ _ _ hresult
        rfl
  have hopened : ∀ q', r.Mentions q' → q'.opened = q.sub.enter q.opened :=
    fun q' hq' => opened_of_leads (leads_of_mentions hr hq')
  cases r with
  | settled holds => rfl
  | anyOf questions =>
      have hfold : questions.foldlM
          (fun (st : Bool × List TypeVarId) (q : Question) =>
            if st.1 then some st else ask q.sub q.sup st.2) (false, q.sub.enter q.opened) =
          (questions.anyM fun q => (ask q.sub q.sup q.opened).map Prod.fst).map
            fun holds => (holds, q.sub.enter q.opened) := by
        refine foldlM_any (fun _ => rfl) fun q' hq' => ?_
        change ask q'.sub q'.sup (q.sub.enter q.opened) = _
        rw [← hopened q' hq']
        exact hrestores q'
      rw [sharingStep, hfold, Reduction.evaluate]
      cases questions.anyM fun q => (ask q.sub q.sup q.opened).map Prod.fst with
      | none => rfl
      | some holds => simp [Ty.leave_enter]
  | allOf parts =>
      have henter : q.sub.enter q.opened = q.opened := Ty.enter_of_ne_var (sub_ne_var_of_allOf hr)
      refine foldlM_all (fun _ => rfl) fun c hc => ?_
      cases c with
      | settled _ => rfl
      | asks q' =>
          rw [← henter, ← hopened q' hc]
          exact hrestores q'

theorem answerSharing?_eq_step (s : Store) (sub sup : Ty) (opened : List TypeVarId) :
    s.answerSharing? sub sup opened =
      (s.reduce? ⟨opened, sub, sup⟩).bind (sharingStep s.answerSharing? sub opened) := by
  rw [answerSharing?]
  cases s.reduce? ⟨opened, sub, sup⟩ with
  | none => rfl
  | some r =>
      cases r <;> rfl

theorem answer?_of_answerSharing? (sub sup : Ty) (opened : List TypeVarId)
    (result : Bool × List TypeVarId) (h : s.answerSharing? sub sup opened = some result) :
    result.2 = opened ∧ s.answer? ⟨opened, sub, sup⟩ = some result.1 := by
  revert sub sup opened result
  apply answerSharing?.partial_correctness s fun sub sup opened result =>
    result.2 = opened ∧ s.answer? ⟨opened, sub, sup⟩ = some result.1
  intro ask ih sub sup opened result hbody
  obtain ⟨r, hr, hrest⟩ := Option.bind_eq_some_iff.mp hbody
  have hsharing : sharingStep ask sub opened r = some result := by
    cases r <;> exact hrest
  have hrestores : Restores ask := fun sub sup opened result h => (ih sub sup opened result h).1
  have hstep : sharingStep ask sub opened r = _ := sharingStep_eq hrestores hr
  rw [hstep] at hsharing
  obtain ⟨holds, hholds, rfl⟩ := Option.map_eq_some_iff.mp hsharing
  refine ⟨rfl, ?_⟩
  rw [answer?_eq, hr]
  refine Reduction.evaluate_mono ?_ hholds
  intro q holds hq
  obtain ⟨result, hresult, rfl⟩ := Option.map_eq_some_iff.mp hq
  exact (ih _ _ _ result hresult).2

theorem answerSharing?_of_answer? {holds : Bool} (h : s.answer? q = some holds) :
    s.answerSharing? q.sub q.sup q.opened = some (holds, q.opened) := by
  refine answer?_induction s (motive := fun q holds =>
    s.answerSharing? q.sub q.sup q.opened = some (holds, q.opened)) ?_ q holds h
  intro q r holds ask hr hask heval
  have hrestores : Restores s.answerSharing? :=
    fun sub sup opened result h => (answer?_of_answerSharing? sub sup opened result h).1
  have hsharing : (r.evaluate fun q => (s.answerSharing? q.sub q.sup q.opened).map Prod.fst) =
      some holds := by
    refine Reduction.evaluate_mono ?_ heval
    intro q holds hq
    rw [(hask q holds hq).2]
    rfl
  have hreduce : s.reduce? ⟨q.opened, q.sub, q.sup⟩ = some r := hr
  rw [answerSharing?_eq_step, hreduce, Option.bind_some, sharingStep_eq hrestores hr, hsharing]
  rfl

/-- The answer under opened variables is found with one list for all questions as well, and this
list is left as it was. -/
theorem answerSharing?_eq (s : Store) (sub sup : Ty) (opened : List TypeVarId) :
    s.answerSharing? sub sup opened =
      (s.answer? ⟨opened, sub, sup⟩).map fun holds => (holds, opened) := by
  cases hanswer : s.answer? ⟨opened, sub, sup⟩ with
  | some holds => exact answerSharing?_of_answer? hanswer
  | none =>
      rw [Option.map_none, Option.eq_none_iff_forall_ne_some]
      intro result hresult
      rw [(answer?_of_answerSharing? _ _ _ _ hresult).2] at hanswer
      cases hanswer

end Store

/-- The same question, asked while the variables `opened` are being looked at. -/
def Question.reopen (opened : List TypeVarId) (q : Question) : Question := { q with opened }

theorem containment_reopen (opened opened' : List TypeVarId) (formal actual : Ty) :
    containment opened' formal actual =
      (containment opened formal actual).map (Question.reopen opened') := by
  cases formal with
  | ext upper => cases actual <;> rfl
  | sup lower => cases actual <;> rfl
  | _ => rfl

theorem matchArguments_reopen (opened opened' : List TypeVarId) (args : List Ty)
    (found? : Option ClassType) :
    matchArguments opened' args found? =
      (matchArguments opened args found?).map (Question.reopen opened') := by
  cases found? with
  | none => rfl
  | some found =>
      simp only [matchArguments]
      split
      · rfl
      · split
        · rfl
        · simp only [Reduction.map, List.map_zipWith, ← containment_reopen]

namespace Store

variable {s : Store} {q q' : Question} {opened : List TypeVarId}

theorem reduce?_reopen (hsub : ∀ v, q.sub ≠ .var v) (opened : List TypeVarId) :
    s.reduce? (q.reopen opened) =
      (s.reduce? q).map (Reduction.map (Question.reopen opened)) := by
  obtain ⟨opened', sub, sup⟩ := q
  change s.reduce? ⟨opened, sub, sup⟩ =
    (s.reduce? ⟨opened', sub, sup⟩).map (Reduction.map (Question.reopen opened))
  simp only [reduce?]
  split
  · rfl
  cases sub with
  | var v => exact absurd rfl (hsub v)
  | arr elem =>
      dsimp only
      split
      · rfl
      split
      · split <;> rfl
      · rfl
      · rfl
  | cls id args =>
      dsimp only
      split
      · rfl
      split
      · rw [Option.map_map]
        congr 1
        funext found?
        exact matchArguments_reopen opened' opened _ found?
      · rfl
  | _ => rfl

/-- With fewer variables opened a question about a variable comes down to the same questions with
fewer variables opened, unless it was settled with no. -/
theorem reduce?_var_reopen {opened' : List TypeVarId} {v : TypeVarId} {sup : Ty} {r : Reduction}
    (hopened : opened' ⊆ opened) (hr : s.reduce? ⟨opened, .var v, sup⟩ = some r) :
    r = .settled false ∨ s.reduce? ⟨opened', .var v, sup⟩ =
      some (r.map (Question.reopen (v :: opened'))) := by
  simp only [reduce?] at hr ⊢
  split at hr
  · rename_i heq
    cases hr
    exact Or.inr (if_pos heq)
  rename_i hne
  rw [if_neg hne]
  split at hr
  · cases hr
    exact Or.inl rfl
  rename_i hnew
  rw [if_neg fun hv => hnew (hopened hv)]
  cases hp : s.typeParam? v with
  | none =>
      rw [hp] at hr
      cases hr
      exact Or.inl rfl
  | some p =>
      simp only [hp] at hr ⊢
      right
      split at hr
      · rename_i hempty
        cases hr
        exact if_pos hempty
      · rename_i hsome
        cases hr
        rw [if_neg hsome]
        simp [Reduction.map, Question.reopen]

theorem exists_reduce?_reopen {r : Reduction} (hopened : opened ⊆ q.opened)
    (hr : s.reduce? q = some r) : r = .settled false ∨
      ∃ opened', (∀ q', r.Mentions q' → opened' ⊆ q'.opened) ∧
        s.reduce? (q.reopen opened) = some (r.map (Question.reopen opened')) := by
  by_cases hvar : ∃ v, q.sub = .var v
  · obtain ⟨opened', sub, sup⟩ := q
    obtain ⟨v, rfl⟩ := hvar
    rcases reduce?_var_reopen hopened hr with hfalse | hreopened
    · exact Or.inl hfalse
    · refine Or.inr ⟨v :: opened, ?_, hreopened⟩
      intro q' hq'
      rw [opened_of_leads (leads_of_mentions hr hq')]
      exact List.cons_subset_cons v hopened
  · have hsub : ∀ v, q.sub ≠ .var v := fun v hv => hvar ⟨v, hv⟩
    refine Or.inr ⟨opened, ?_, by rw [reduce?_reopen hsub, hr]; rfl⟩
    intro q' hq'
    rw [opened_of_leads (leads_of_mentions hr hq'), Ty.enter_of_ne_var hsub]
    exact hopened

theorem answer?_reopen_ne (h : s.answer? q = some true) (hopened : opened ⊆ q.opened) :
    s.answer? (q.reopen opened) ≠ some false := by
  refine answer?_induction s (motive := fun q holds => holds = true →
    ∀ opened ⊆ q.opened, s.answer? (q.reopen opened) ≠ some false) ?_ q true h rfl opened hopened
  rintro q r - ask hr hask heval rfl opened hopened hfalse
  rcases exists_reduce?_reopen hopened hr with rfl | ⟨opened', hmentions, hreopened⟩
  · cases heval
  · rw [answer?_eq, hreopened, Option.bind_some, Reduction.evaluate_map] at hfalse
    obtain ⟨p, hp, htrue, hpfalse⟩ := Reduction.exists_mentions_of_evaluate heval hfalse
    exact (hask p true htrue).2 rfl opened' (hmentions p hp) hpfalse

theorem isSome_findAbove_of_subtype? (h : ∀ sub sup, s.subtype? sub sup ≠ none) (t : ClassType)
    (target : ClassId) : (s.findAbove target [t] []).isSome := by
  -- any arguments other than those of `t` make the search necessary
  have hanswer := h t.toTy (.cls target (.void :: t.args))
  have hne : t.toTy ≠ .cls target (.void :: t.args) := by
    intro heq
    have hlength := congrArg List.length (Ty.cls.inj heq).2
    rw [List.length_cons] at hlength
    omega
  have hreduce : s.reduce? ⟨[], t.toTy, .cls target (.void :: t.args)⟩ =
      (s.findAbove target [t] []).map (matchArguments [] (.void :: t.args)) := by
    rw [reduce?, if_neg hne]
    simp [ClassType.toTy, Ty.isRoot]
  rw [subtype?, answer?_eq, hreduce] at hanswer
  rw [Option.isSome_iff_ne_none]
  intro hnone
  rw [hnone] at hanswer
  exact hanswer rfl

theorem Asks.reopen_or_opens (hall : ∀ sub sup, s.subtype? sub sup ≠ none) (h : s.Asks q q') :
    s.Asks (q.reopen []) (q'.reopen []) ∧ q'.opened = q.opened ∨
      s.unopened q'.opened < s.unopened q.opened := by
  by_cases hsub : ∀ v, q.sub ≠ .var v
  · have hopened := opened_of_leads (leads_of_asks h)
    rw [Ty.enter_of_ne_var hsub] at hopened
    refine Or.inl ⟨?_, hopened⟩
    cases h with
    | any before after reduces leftOpen =>
        rcases reduce?_eq_anyOf reduces with ⟨v, -, hvar, -⟩ | ⟨elem, supElem, heq⟩
        · exact absurd hvar (hsub v)
        · obtain ⟨rfl, hrest⟩ : before = [] ∧ q' :: after = [⟨q.opened, elem, supElem⟩] := by
            cases before with
            | nil => exact ⟨rfl, heq⟩
            | cons p before => simp at heq
          refine .any [] (after.map (Question.reopen [])) ?_ (by simp)
          rw [reduce?_reopen hsub, reduces]
          rfl
    | all before after reduces leftOpen =>
        have hreduces : s.reduce? (q.reopen []) = some (.allOf
            (before.map (Containment.map (Question.reopen [])) ++
              .asks (q'.reopen []) :: after.map (Containment.map (Question.reopen [])))) := by
          rw [reduce?_reopen hsub, reduces]
          simp [Reduction.map, Containment.map]
        refine .all _ _ hreduces ?_
        intro c hc
        obtain ⟨c, hmem, rfl⟩ := List.mem_map.mp hc
        have htrue := leftOpen c hmem
        cases c with
        | settled _ => exact htrue
        | asks p =>
            obtain ⟨holds, hholds⟩ := Option.ne_none_iff_exists'.mp (hall p.sub p.sup)
            have hne := answer?_reopen_ne htrue (List.nil_subset _)
            cases holds with
            | true => exact hholds
            | false => exact absurd hholds hne
  · obtain ⟨opened, sub, sup⟩ := q
    obtain ⟨v, hvar⟩ := not_forall_not.mp hsub
    obtain rfl : sub = .var v := hvar
    cases leads_of_asks h with
    | bound hnew hp _ => exact Or.inr (unopened_cons_lt hnew hp)
    | lower hexchanges => cases hexchanges

/-- If all questions that are asked with no variable opened have answers, then so do all others. -/
theorem answer?_ne_none (hall : ∀ sub sup, s.subtype? sub sup ≠ none) (q : Question) :
    s.answer? q ≠ none := by
  have hwalk := isSome_findAbove_of_subtype? hall
  -- Opening a variable leaves fewer to open, and between two such steps the questions are asked
  -- under no opened variables as well.
  induction hn : s.unopened q.opened using Nat.strong_induction_on generalizing q with
  | _ n ihn =>
      obtain ⟨holds, hholds⟩ := Option.ne_none_iff_exists'.mp (hall q.sub q.sup)
      have hacc := acc_of_answer?_eq_some hholds
      clear hholds
      generalize hreopened : (⟨[], q.sub, q.sup⟩ : Question) = start at hacc
      induction hacc generalizing q with
      | intro start _ ih =>
          intro hnone
          obtain ⟨r, hr⟩ := Option.isSome_iff_exists.mp (reduce?_isSome hwalk q)
          obtain ⟨q', hasks, hq'⟩ := exists_asks_of_answer?_eq_none hr hnone
          rcases hasks.reopen_or_opens hall with ⟨hreasks, hopened⟩ | hlt
          · rw [← hreopened] at ih
            exact ih _ hreasks q' (by rw [hopened, hn]) rfl hq'
          · exact ihn _ (hn ▸ hlt) q' rfl hq'

end Store

end CallCatalog
