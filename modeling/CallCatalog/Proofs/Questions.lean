import CallCatalog.Proofs.SupertypeWalk
import CallCatalog.Subtyping.Decide
import Mathlib.Order.WellFounded

/-!
How questions about subtypes lead to other questions. A question is answered exactly when no endless
chain of questions starts at it, each asked in the course of answering the one before; and a
question leads to another one in four ways only, of which one exchanges the two sides.
-/

namespace CallCatalog

section InOrder

variable {α : Type} {f g : α → Option Bool} {xs : List α}

theorem anyM_cons (f : α → Option Bool) (x : α) (xs : List α) :
    (x :: xs).anyM f = (f x).bind fun holds => if holds then some true else xs.anyM f := by
  cases hx : f x with
  | none => simp [List.anyM, hx]
  | some holds => cases holds <;> simp [List.anyM, hx]

theorem anyM_singleton (f : α → Option Bool) (x : α) : [x].anyM f = f x := by
  rw [anyM_cons]
  cases f x with
  | none => rfl
  | some holds => cases holds <;> rfl

theorem allM_cons (f : α → Option Bool) (x : α) (xs : List α) :
    (x :: xs).allM f = (f x).bind fun holds => if holds then xs.allM f else some false := by
  cases hx : f x with
  | none => simp [List.allM, hx]
  | some holds => cases holds <;> simp [List.allM, hx]

theorem allM_singleton (f : α → Option Bool) (x : α) : [x].allM f = f x := by
  rw [allM_cons]
  cases f x with
  | none => rfl
  | some holds => cases holds <;> rfl

theorem allM_append (f : α → Option Bool) (xs ys : List α) :
    (xs ++ ys).allM f = (xs.allM f).bind fun holds => if holds then ys.allM f else some false := by
  induction xs with
  | nil => simp [List.allM]
  | cons x xs ih =>
      rw [List.cons_append, allM_cons, allM_cons, ih]
      cases f x with
      | none => rfl
      | some holds => cases holds <;> rfl

theorem anyM_map {β : Type} (g : β → α) (f : α → Option Bool) (xs : List β) :
    (xs.map g).anyM f = xs.anyM fun x => f (g x) := by
  induction xs with
  | nil => rfl
  | cons x xs ih => rw [List.map_cons, anyM_cons, anyM_cons, ih]

theorem allM_map {β : Type} (g : β → α) (f : α → Option Bool) (xs : List β) :
    (xs.map g).allM f = xs.allM fun x => f (g x) := by
  induction xs with
  | nil => rfl
  | cons x xs ih => rw [List.map_cons, allM_cons, allM_cons, ih]

theorem allM_eq_anyM (f : α → Option Bool) (xs : List α) :
    xs.allM f = (xs.anyM fun x => (f x).map not).map not :=
  List.allM_eq_not_anyM_not

theorem exists_of_anyM_eq_none (h : xs.anyM f = none) :
    ∃ before x after, xs = before ++ x :: after ∧
      (∀ y ∈ before, f y = some false) ∧ f x = none := by
  induction xs with
  | nil => cases h
  | cons x xs ih =>
      rw [anyM_cons] at h
      cases hx : f x with
      | none => exact ⟨[], x, xs, rfl, by simp, hx⟩
      | some holds =>
          cases holds with
          | true => simp [hx] at h
          | false =>
              obtain ⟨before, y, after, rfl, hbefore, hy⟩ := ih (by simpa [hx] using h)
              exact ⟨x :: before, y, after, rfl, by simpa [hx] using hbefore, hy⟩

theorem exists_of_anyM_eq_some_true (h : xs.anyM f = some true) : ∃ x ∈ xs, f x = some true := by
  induction xs with
  | nil => cases h
  | cons x xs ih =>
      rw [anyM_cons] at h
      obtain ⟨holds, hx, hrest⟩ := Option.bind_eq_some_iff.mp h
      cases holds with
      | true => exact ⟨x, by simp, hx⟩
      | false =>
          obtain ⟨y, hy, hholds⟩ := ih hrest
          exact ⟨y, List.mem_cons_of_mem x hy, hholds⟩

theorem anyM_eq_none {before after : List α} {x : α} (hbefore : ∀ y ∈ before, f y ≠ some true)
    (hx : f x = none) : (before ++ x :: after).anyM f = none := by
  induction before with
  | nil => simp [hx]
  | cons y before ih =>
      have hrest := ih fun w hw => hbefore w (by simp [hw])
      rw [List.cons_append, anyM_cons, hrest]
      cases hy : f y with
      | none => rfl
      | some holds =>
          cases holds with
          | true => exact absurd hy (hbefore y (by simp))
          | false => rfl

theorem exists_of_allM_eq_none (h : xs.allM f = none) :
    ∃ before x after, xs = before ++ x :: after ∧
      (∀ y ∈ before, f y = some true) ∧ f x = none := by
  rw [allM_eq_anyM, Option.map_eq_none_iff] at h
  simpa using exists_of_anyM_eq_none h

theorem allM_eq_none {before after : List α} {x : α} (hbefore : ∀ y ∈ before, f y ≠ some false)
    (hx : f x = none) : (before ++ x :: after).allM f = none := by
  rw [allM_eq_anyM, Option.map_eq_none_iff]
  apply anyM_eq_none
  · simpa using hbefore
  · simp [hx]

theorem anyM_mono (h : ∀ x holds, f x = some holds → g x = some holds) {holds : Bool}
    (hf : xs.anyM f = some holds) : xs.anyM g = some holds := by
  induction xs with
  | nil => simpa [List.anyM] using hf
  | cons x xs ih =>
      rw [anyM_cons] at hf ⊢
      obtain ⟨first, hfirst, hrest⟩ := Option.bind_eq_some_iff.mp hf
      rw [h x first hfirst, Option.bind_some]
      cases first with
      | true => exact hrest
      | false => exact ih hrest

theorem allM_mono (h : ∀ x holds, f x = some holds → g x = some holds) {holds : Bool}
    (hf : xs.allM f = some holds) : xs.allM g = some holds := by
  rw [allM_eq_anyM] at hf ⊢
  obtain ⟨negated, hany, rfl⟩ := Option.map_eq_some_iff.mp hf
  have hmono : ∀ x holds, (f x).map not = some holds → (g x).map not = some holds := by
    intro x holds hx
    obtain ⟨b, hb, rfl⟩ := Option.map_eq_some_iff.mp hx
    rw [h x b hb]
    rfl
  rw [anyM_mono hmono hany]
  rfl

theorem allM_eq_some_true_iff : xs.allM f = some true ↔ ∀ x ∈ xs, f x = some true := by
  induction xs with
  | nil => simp [List.allM]
  | cons x xs ih =>
      cases hx : f x with
      | none => simp [List.allM, hx]
      | some holds => cases holds <;> simp [List.allM, hx, ih]

theorem anyM_eq_some_false_iff : xs.anyM f = some false ↔ ∀ x ∈ xs, f x = some false := by
  induction xs with
  | nil => simp [List.anyM]
  | cons x xs ih =>
      rw [anyM_cons]
      cases hx : f x with
      | none => simp [hx]
      | some holds => cases holds <;> simp [hx, ih]

theorem exists_of_allM_eq_some_false (h : xs.allM f = some false) :
    ∃ x ∈ xs, f x = some false := by
  rw [allM_eq_anyM] at h
  obtain ⟨negated, hany, hnegated⟩ := Option.map_eq_some_iff.mp h
  obtain rfl : negated = true := by simpa using hnegated
  simpa using exists_of_anyM_eq_some_true hany

end InOrder

/-- Whether one argument contains the other, if questions are answered by `ask`. -/
def Containment.evaluate (ask : Question → Option Bool) : Containment → Option Bool
  | settled holds => some holds
  | asks q => ask q

def Reduction.evaluate (ask : Question → Option Bool) : Reduction → Option Bool
  | settled holds => some holds
  | anyOf questions => questions.anyM ask
  | allOf parts => parts.allM (Containment.evaluate ask)

def Reduction.Mentions : Reduction → Question → Prop
  | settled _, _ => False
  | anyOf questions, q => q ∈ questions
  | allOf parts, q => .asks q ∈ parts

def Containment.map (g : Question → Question) : Containment → Containment
  | settled holds => settled holds
  | asks q => asks (g q)

def Reduction.map (g : Question → Question) : Reduction → Reduction
  | settled holds => settled holds
  | anyOf questions => anyOf (questions.map g)
  | allOf parts => allOf (parts.map (Containment.map g))

theorem Containment.evaluate_map (g : Question → Question) (ask : Question → Option Bool)
    (c : Containment) : (c.map g).evaluate ask = c.evaluate fun q => ask (g q) := by
  cases c <;> rfl

theorem Reduction.evaluate_map (g : Question → Question) (ask : Question → Option Bool)
    (r : Reduction) : (r.map g).evaluate ask = r.evaluate fun q => ask (g q) := by
  cases r with
  | settled _ => rfl
  | anyOf questions => exact anyM_map g ask questions
  | allOf parts =>
      change (parts.map (Containment.map g)).allM (Containment.evaluate ask) = _
      rw [allM_map]
      simp only [Containment.evaluate_map]
      rfl

theorem Containment.evaluate_mono {ask ask' : Question → Option Bool}
    (h : ∀ q holds, ask q = some holds → ask' q = some holds) (c : Containment) (holds : Bool)
    (hc : c.evaluate ask = some holds) : c.evaluate ask' = some holds := by
  cases c with
  | settled _ => exact hc
  | asks q => exact h q holds hc

theorem Reduction.evaluate_mono {ask ask' : Question → Option Bool}
    (h : ∀ q holds, ask q = some holds → ask' q = some holds) {r : Reduction} {holds : Bool}
    (hr : r.evaluate ask = some holds) : r.evaluate ask' = some holds := by
  cases r with
  | settled _ => exact hr
  | anyOf _ => exact anyM_mono h hr
  | allOf _ => exact allM_mono (Containment.evaluate_mono h) hr

theorem Reduction.exists_mentions_of_evaluate {ask ask' : Question → Option Bool} {r : Reduction}
    (h : r.evaluate ask = some true) (h' : r.evaluate ask' = some false) :
    ∃ q, r.Mentions q ∧ ask q = some true ∧ ask' q = some false := by
  cases r with
  | settled holds =>
      cases h
      cases h'
  | anyOf questions =>
      obtain ⟨q, hq, htrue⟩ := exists_of_anyM_eq_some_true h
      exact ⟨q, hq, htrue, anyM_eq_some_false_iff.mp h' q hq⟩
  | allOf parts =>
      obtain ⟨c, hc, hfalse⟩ := exists_of_allM_eq_some_false h'
      have htrue := allM_eq_some_true_iff.mp h c hc
      cases c with
      | settled holds =>
          cases htrue
          cases hfalse
      | asks q => exact ⟨q, hc, htrue, hfalse⟩

namespace Store

variable {s : Store} {q q' : Question}

theorem answer?_eq (s : Store) (q : Question) :
    s.answer? q = (s.reduce? q).bind (Reduction.evaluate s.answer?) := by
  rw [answer?]
  cases s.reduce? q with
  | none => rfl
  | some r =>
      cases r with
      | settled _ => rfl
      | anyOf _ => rfl
      | allOf parts =>
          change List.allM _ parts = parts.allM (Containment.evaluate s.answer?)
          congr 1

theorem answer?_induction (s : Store) {motive : Question → Bool → Prop}
    (step : ∀ q r holds (ask : Question → Option Bool), s.reduce? q = some r →
      (∀ q holds, ask q = some holds → s.answer? q = some holds ∧ motive q holds) →
      r.evaluate ask = some holds → motive q holds)
    (q : Question) (holds : Bool) (h : s.answer? q = some holds) : motive q holds := by
  suffices hboth : ∀ q holds, s.answer? q = some holds →
      s.answer? q = some holds ∧ motive q holds from (hboth q holds h).2
  apply answer?.partial_correctness s fun q holds => s.answer? q = some holds ∧ motive q holds
  intro ask ih q holds hbody
  obtain ⟨r, hr, hrest⟩ := Option.bind_eq_some_iff.mp hbody
  have heval : r.evaluate ask = some holds := by
    cases r with
    | settled _ => exact hrest
    | anyOf _ => exact hrest
    | allOf parts =>
        rw [← hrest]
        change parts.allM (Containment.evaluate ask) = List.allM _ parts
        congr 1
  refine ⟨?_, step q r holds ask hr ih heval⟩
  rw [answer?_eq, hr, Option.bind_some]
  exact Reduction.evaluate_mono (fun q holds hq => (ih q holds hq).1) heval

/-- In the course of answering `q` the question `q'` is asked: those before it left the answer
open. -/
inductive Asks (s : Store) (q q' : Question) : Prop where
  | any (before after : List Question)
      (reduces : s.reduce? q = some (.anyOf (before ++ q' :: after)))
      (leftOpen : ∀ p ∈ before, s.answer? p = some false)
  | all (before after : List Containment)
      (reduces : s.reduce? q = some (.allOf (before ++ .asks q' :: after)))
      (leftOpen : ∀ c ∈ before, c.evaluate s.answer? = some true)

theorem exists_asks_of_answer?_eq_none {r : Reduction} (hr : s.reduce? q = some r)
    (h : s.answer? q = none) : ∃ q', s.Asks q q' ∧ s.answer? q' = none := by
  rw [answer?_eq, hr, Option.bind_some] at h
  cases r with
  | settled _ => cases h
  | anyOf questions =>
      obtain ⟨before, q', after, rfl, hbefore, hq'⟩ := exists_of_anyM_eq_none h
      exact ⟨q', .any before after hr hbefore, hq'⟩
  | allOf parts =>
      obtain ⟨before, c, after, rfl, hbefore, hc⟩ := exists_of_allM_eq_none h
      cases c with
      | settled _ => cases hc
      | asks q' => exact ⟨q', .all before after hr hbefore, hc⟩

/-- If the answers given by `ask` are right and suffice for `q`, then they include all that is asked
in the course of answering `q`. -/
theorem ask_ne_none_of_asks {r : Reduction} {holds : Bool} {ask : Question → Option Bool}
    (hask : ∀ q holds, ask q = some holds → s.answer? q = some holds)
    (hr : s.reduce? q = some r) (heval : r.evaluate ask = some holds) (h : s.Asks q q') :
    ask q' ≠ none := by
  intro hq'
  cases h with
  | any before after hreduces hbefore =>
      have hr' : r = .anyOf (before ++ q' :: after) := Option.some.inj (hr.symm.trans hreduces)
      have hnone : (before ++ q' :: after).anyM ask = none := by
        apply anyM_eq_none _ hq'
        intro p hp htrue
        have hfalse := hbefore p hp
        rw [hask p true htrue] at hfalse
        cases hfalse
      rw [hr', Reduction.evaluate, hnone] at heval
      cases heval
  | all before after hreduces hbefore =>
      have hr' : r = .allOf (before ++ .asks q' :: after) :=
        Option.some.inj (hr.symm.trans hreduces)
      have hnone : (before ++ .asks q' :: after).allM (Containment.evaluate ask) = none := by
        have hx : (Containment.asks q').evaluate ask = none := hq'
        apply allM_eq_none _ hx
        intro c hc hfalse
        have htrue := hbefore c hc
        rw [Containment.evaluate_mono hask c false hfalse] at htrue
        cases htrue
      rw [hr', Reduction.evaluate, hnone] at heval
      cases heval

theorem acc_of_answer?_eq_some {holds : Bool} (h : s.answer? q = some holds) :
    Acc (fun q' q => s.Asks q q') q := by
  refine @answer?_induction s (fun q _ => Acc (fun q' q => s.Asks q q') q) ?_ q holds h
  intro q r holds ask hr hask heval
  constructor
  intro q' hasks
  have hright : ∀ q holds, ask q = some holds → s.answer? q = some holds :=
    fun q holds hq => (hask q holds hq).1
  obtain ⟨holds', hq'⟩ := Option.ne_none_iff_exists'.mp (ask_ne_none_of_asks hright hr heval hasks)
  exact (hask q' holds' hq').2

theorem answer?_ne_none_of_acc (hreduce : ∀ q, (s.reduce? q).isSome)
    (h : Acc (fun q' q => s.Asks q q') q) : s.answer? q ≠ none := by
  induction h with
  | intro q _ ih =>
      intro hnone
      obtain ⟨r, hr⟩ := Option.isSome_iff_exists.mp (hreduce q)
      obtain ⟨q', hasks, hq'⟩ := exists_asks_of_answer?_eq_none hr hnone
      exact ih q' hasks hq'

theorem answer?_eq_none_of_asks_self (h : s.Asks q q) : s.answer? q = none := by
  by_contra hnone
  obtain ⟨holds, hsome⟩ := Option.ne_none_iff_exists'.mp hnone
  induction acc_of_answer?_eq_some hsome with
  | intro q _ ih => exact ih q h h hnone hsome

/-- If every search for a supertype ends, the questions without an answer are those at which an
endless chain of questions starts. -/
theorem answer?_eq_none_iff (hreduce : ∀ q, (s.reduce? q).isSome) :
    s.answer? q = none ↔
      ∃ f : Nat → Question, f 0 = q ∧ ∀ n, s.Asks (f n) (f (n + 1)) := by
  refine Iff.trans ?_
    (@not_acc_iff_exists_descending_chain Question (fun q' q => s.Asks q q') q)
  constructor
  · intro hnone hacc
    exact answer?_ne_none_of_acc hreduce hacc hnone
  · intro hacc
    by_contra hnone
    obtain ⟨holds, h⟩ := Option.ne_none_iff_exists'.mp hnone
    exact hacc (acc_of_answer?_eq_some h)

/-- The argument `? super lower` is compared with a found argument, and `lower` takes the place of
the type that was to be a subtype. What is asked about the found argument is the argument itself or
the bound of a wildcard. -/
inductive Exchanges (s : Store) : Question → Question → Prop where
  | intro {opened : List TypeVarId} {t found : ClassType} {target : ClassId} {args : List Ty}
      {lower part : Ty} (above : s.findAbove target [t] [] = some (some found))
      (formal : .sup lower ∈ args) (actual : part ∈ found.args ∨ .sup part ∈ found.args) :
      Exchanges s ⟨opened, t.toTy, .cls target args⟩ ⟨opened, lower, part⟩

/-- The ways in which a question can lead to another one. -/
inductive Leads (s : Store) : Question → Question → Prop where
  | bound {opened : List TypeVarId} {v : TypeVarId} {p : TypeParam} {upper sup : Ty}
      (unopened : v ∉ opened) (declared : s.typeParam? v = some p)
      (listed : upper ∈ p.bound.uppers) :
      Leads s ⟨opened, .var v, sup⟩ ⟨v :: opened, upper, sup⟩
  | element {opened : List TypeVarId} {elem supElem : Ty} :
      Leads s ⟨opened, .arr elem, .arr supElem⟩ ⟨opened, elem, supElem⟩
  | upper {opened : List TypeVarId} {t found : ClassType} {target : ClassId} {args : List Ty}
      {upper part : Ty} (above : s.findAbove target [t] [] = some (some found))
      (formal : .ext upper ∈ args) (actual : part ∈ found.args ∨ .ext part ∈ found.args) :
      Leads s ⟨opened, t.toTy, .cls target args⟩ ⟨opened, part, upper⟩
  | lower {q q' : Question} (exchanges : s.Exchanges q q') : Leads s q q'

theorem containment_eq_asks {opened : List TypeVarId} {formal actual : Ty}
    (h : containment opened formal actual = .asks q) :
    (∃ upper part, formal = .ext upper ∧ (part = actual ∨ .ext part = actual) ∧
      q = ⟨opened, part, upper⟩) ∨
    ∃ lower part, formal = .sup lower ∧ (part = actual ∨ .sup part = actual) ∧
      q = ⟨opened, lower, part⟩ := by
  cases formal with
  | ext upper =>
      left
      cases actual with
      | ext part => exact ⟨upper, part, rfl, Or.inr rfl, (Containment.asks.inj h).symm⟩
      | any => cases h
      | sup _ => cases h
      | _ => exact ⟨upper, _, rfl, Or.inl rfl, (Containment.asks.inj h).symm⟩
  | sup lower =>
      right
      cases actual with
      | sup part => exact ⟨lower, part, rfl, Or.inr rfl, (Containment.asks.inj h).symm⟩
      | any => cases h
      | ext _ => cases h
      | _ => exact ⟨lower, _, rfl, Or.inl rfl, (Containment.asks.inj h).symm⟩
  | _ => cases h

theorem mentions_matchArguments {opened : List TypeVarId} {args : List Ty}
    {found? : Option ClassType} (h : (matchArguments opened args found?).Mentions q) :
    ∃ found, found? = some found ∧
      ∃ formal ∈ args, ∃ actual ∈ found.args, containment opened formal actual = .asks q := by
  cases found? with
  | none => cases h
  | some found =>
      refine ⟨found, rfl, ?_⟩
      simp only [matchArguments] at h
      split at h
      · cases h
      split at h
      · cases h
      obtain ⟨i, hi⟩ := List.mem_iff_getElem?.mp h
      obtain ⟨formal, actual, hformal, hactual, hasks⟩ := List.getElem?_zipWith_eq_some.mp hi
      exact ⟨formal, List.mem_of_getElem? hformal, actual, List.mem_of_getElem? hactual, hasks⟩

theorem leads_of_mentions_var {opened : List TypeVarId} {v : TypeVarId} {sup : Ty} {r : Reduction}
    (hne : Ty.var v ≠ sup) (hr : s.reduce? ⟨opened, .var v, sup⟩ = some r) (h : r.Mentions q) :
    s.Leads ⟨opened, .var v, sup⟩ q := by
  rw [reduce?, if_neg hne] at hr
  simp only at hr
  split at hr
  · cases hr
    cases h
  rename_i hnew
  cases hp : s.typeParam? v with
  | none =>
      rw [hp] at hr
      cases hr
      cases h
  | some p =>
      simp only [hp] at hr
      split at hr
      · cases hr
        cases h
      · cases hr
        obtain ⟨upper, hupper, rfl⟩ := List.mem_map.mp h
        exact .bound hnew hp hupper

theorem leads_of_mentions_arr {opened : List TypeVarId} {elem sup : Ty} {r : Reduction}
    (hne : Ty.arr elem ≠ sup) (hr : s.reduce? ⟨opened, .arr elem, sup⟩ = some r)
    (h : r.Mentions q) : s.Leads ⟨opened, .arr elem, sup⟩ q := by
  rw [reduce?, if_neg hne] at hr
  simp only at hr
  split at hr
  · cases hr
    cases h
  split at hr
  · split at hr
    · cases hr
      rw [List.mem_singleton.mp h]
      exact .element
    · cases hr
      cases h
  · cases hr
    cases h
  · cases hr
    cases h

theorem leads_of_mentions_cls {opened : List TypeVarId} {id : ClassId} {args : List Ty} {sup : Ty}
    {r : Reduction} (hne : Ty.cls id args ≠ sup)
    (hr : s.reduce? ⟨opened, .cls id args, sup⟩ = some r) (h : r.Mentions q) :
    s.Leads ⟨opened, .cls id args, sup⟩ q := by
  rw [reduce?, if_neg hne] at hr
  simp only at hr
  split at hr
  · cases hr
    cases h
  split at hr
  · obtain ⟨found?, hfound, rfl⟩ := Option.map_eq_some_iff.mp hr
    obtain ⟨found, rfl, formal, hformal, actual, hactual, hasks⟩ := mentions_matchArguments h
    rcases containment_eq_asks hasks with
      ⟨upper, part, rfl, hpart, rfl⟩ | ⟨lower, part, rfl, hpart, rfl⟩
    · refine .upper hfound hformal ?_
      rcases hpart with rfl | rfl
      · exact Or.inl hactual
      · exact Or.inr hactual
    · refine .lower (.intro hfound hformal ?_)
      rcases hpart with rfl | rfl
      · exact Or.inl hactual
      · exact Or.inr hactual
  · cases hr
    cases h

theorem leads_of_mentions {r : Reduction} (hr : s.reduce? q = some r) (h : r.Mentions q') :
    s.Leads q q' := by
  obtain ⟨opened, sub, sup⟩ := q
  by_cases heq : sub = sup
  · rw [reduce?, if_pos heq] at hr
    cases hr
    cases h
  cases sub with
  | var v => exact leads_of_mentions_var heq hr h
  | arr elem => exact leads_of_mentions_arr heq hr h
  | cls id args => exact leads_of_mentions_cls heq hr h
  | _ =>
      rw [reduce?, if_neg heq] at hr
      cases hr
      cases h

theorem reduce?_isSome (hwalk : ∀ t target, (s.findAbove target [t] []).isSome) (q : Question) :
    (s.reduce? q).isSome := by
  obtain ⟨opened, sub, sup⟩ := q
  unfold reduce?
  split
  · rfl
  cases sub with
  | cls id args =>
      simp only
      split
      · rfl
      split
      · simpa using hwalk _ _
      · rfl
  | var v =>
      simp only
      split
      · rfl
      split
      · rfl
      · split <;> rfl
  | arr elem =>
      simp only
      split
      · rfl
      split
      · split <;> rfl
      · rfl
      · rfl
  | _ => rfl

theorem matchArguments_ne_anyOf {opened : List TypeVarId} {args : List Ty}
    {found? : Option ClassType} {questions : List Question} :
    matchArguments opened args found? ≠ .anyOf questions := by
  intro h
  cases found? with
  | none => cases h
  | some found =>
      simp only [matchArguments] at h
      split at h
      · cases h
      · split at h <;> cases h

theorem reduce?_eq_anyOf {questions : List Question} (h : s.reduce? q = some (.anyOf questions)) :
    (∃ v p, q.sub = .var v ∧ v ∉ q.opened ∧ s.typeParam? v = some p ∧
      questions = p.bound.uppers.map fun upper => ⟨v :: q.opened, upper, q.sup⟩) ∨
    ∃ elem supElem, questions = [⟨q.opened, elem, supElem⟩] := by
  obtain ⟨opened, sub, sup⟩ := q
  unfold reduce? at h
  split at h
  · cases h
  cases sub with
  | var v =>
      dsimp only at h
      split at h
      · cases h
      rename_i hnew
      cases hp : s.typeParam? v with
      | none =>
          rw [hp] at h
          cases h
      | some p =>
          simp only [hp] at h
          split at h
          · cases h
          · cases h
            exact Or.inl ⟨v, p, rfl, hnew, hp, rfl⟩
  | arr elem =>
      dsimp only at h
      split at h
      · cases h
      split at h
      · split at h
        · cases h
          exact Or.inr ⟨elem, _, rfl⟩
        · cases h
      · cases h
      · cases h
  | cls id args =>
      dsimp only at h
      split at h
      · cases h
      split at h
      · obtain ⟨found?, -, hmatch⟩ := Option.map_eq_some_iff.mp h
        exact absurd hmatch matchArguments_ne_anyOf
      · cases h
  | _ => cases h

theorem leads_of_asks (h : s.Asks q q') : s.Leads q q' := by
  cases h with
  | any before after reduces _ =>
      have hmem : q' ∈ before ++ q' :: after := by simp
      exact leads_of_mentions reduces hmem
  | all before after reduces _ =>
      have hmem : .asks q' ∈ before ++ .asks q' :: after := by simp
      exact leads_of_mentions reduces hmem

end Store

end CallCatalog
