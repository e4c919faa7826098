import CallCatalog.Instantiation.TupleSet
import Mathlib.Data.List.Nodup

/-!
Tuple sets in use. A set starts with the empty tuple and is then extended and thinned out in any
order, by candidates and tests that may change from one tuple to the next.
-/

namespace CallCatalog

theorem Substitution.map_ofLists? (vars : List TypeVarId) (types : List Ty) :
    (ofLists? vars types).map (fun σ => (σ.vars, σ.types)) =
      if vars.length = types.length then some (vars, types) else none := by
  unfold ofLists?
  split <;> rfl

namespace TupleSet

/-- A change that a tuple set is asked for. Candidates and tests may depend on how many tuples were
looked at before in the same call. -/
inductive Call where
  | extend (candidates : List Ty)
  | extendWith (candidates : Nat → List Ty → List Ty)
  | retain (keep : Nat → List Ty → Bool)

def Call.candidates? : Call → Option (Nat → List Ty → List Ty)
  | extend candidates => some fun _ _ => candidates
  | extendWith candidates => some candidates
  | retain _ => none

/-- Puts what is computed from a set in its place. A failure comes before that. -/
def replace (f : TupleSet → Except TupleLimitExceeded TupleSet) :
    ExceptT TupleLimitExceeded (StateM TupleSet) Unit := do
  set (← f (← get))

def Call.change : Call → ExceptT TupleLimitExceeded (StateM TupleSet) Unit
  | extend candidates => replace fun set => set.extend candidates
  | extendWith candidates => replace fun set => set.extendWithIdx candidates
  | retain keep => modify fun set => set.retainIdx keep

def perform (set : TupleSet) (call : Call) : Except TupleLimitExceeded Unit × TupleSet :=
  call.change.run.run set

def run (set : TupleSet) (calls : List Call) : TupleSet :=
  calls.foldl (fun set call => (set.perform call).2) set

def grows (set : TupleSet) (call : Call) : Bool :=
  call.candidates?.isSome && (set.perform call).1.isOk

def growth (set : TupleSet) : List Call → Nat
  | [] => 0
  | call :: calls => (set.grows call).toNat + (set.perform call).2.growth calls

/-- No list of candidates for one of the tuples repeats a type. -/
def Distinct (set : TupleSet) (call : Call) : Prop :=
  ∀ candidates, call.candidates? = some candidates →
    ∀ p ∈ set.tuples.zipIdx, (candidates p.2 p.1).Nodup

/-- No list of candidates in any of the calls repeats a type. -/
def AllDistinct (set : TupleSet) : List Call → Prop
  | [] => True
  | call :: calls => set.Distinct call ∧ (set.perform call).2.AllDistinct calls

variable {set after : TupleSet} {call : Call} {candidates : Nat → List Ty → List Ty}

theorem run_replace (f : TupleSet → Except TupleLimitExceeded TupleSet) (set : TupleSet) :
    (replace f).run.run set =
      match f set with
      | .ok after => (.ok (), after)
      | .error e => (.error e, set) := by
  have hbind : (replace f).run.run set =
      ExceptT.bindCont (m := StateM TupleSet) (fun after => MonadStateOf.set after) (f set) set :=
    rfl
  rw [hbind]
  cases f set <;> rfl

theorem perform_retain (set : TupleSet) (keep : Nat → List Ty → Bool) :
    set.perform (.retain keep) = (.ok (), set.retainIdx keep) := rfl

theorem perform_of_candidates? (h : call.candidates? = some candidates) :
    set.perform call =
      match set.extendWithIdx candidates with
      | .ok after => (.ok (), after)
      | .error e => (.error e, set) := by
  cases call with
  | extend types =>
      cases h
      rw [extendWithIdx_const set fun _ => types]
      exact run_replace _ set
  | extendWith candidates' =>
      cases h
      exact run_replace _ set
  | retain keep => cases h

theorem perform_of_fits (h : call.candidates? = some candidates)
    (hfits : ∀ n, set.limit = some n → (set.extensions candidates).length ≤ n) :
    set.perform call = (.ok (), { set with tuples := set.extensions candidates }) := by
  rw [perform_of_candidates? h, extendWithIdx_eq]
  cases hlimit : set.limit with
  | none => rfl
  | some n => simp only [if_neg (Nat.not_lt.mpr (hfits n hlimit))]

theorem perform_of_exceeds (h : call.candidates? = some candidates) {n : Nat}
    (hlimit : set.limit = some n) (hn : n < (set.extensions candidates).length) :
    set.perform call = (.error ⟨n⟩, set) := by
  rw [perform_of_candidates? h, extendWithIdx_eq, hlimit]
  simp only [if_pos hn]

theorem fits_or_exceeds (limit : Option Nat) (size : Nat) :
    (∀ n, limit = some n → size ≤ n) ∨ ∃ n, limit = some n ∧ n < size := by
  cases limit with
  | none => exact Or.inl fun n hn => nomatch hn
  | some m =>
      rcases Nat.lt_or_ge m size with hlt | hle
      · exact Or.inr ⟨m, rfl, hlt⟩
      · exact Or.inl fun n hn => Option.some.inj hn ▸ hle

theorem perform_eq_ok_iff (h : call.candidates? = some candidates) :
    set.perform call = (.ok (), after) ↔
      (∀ n, set.limit = some n → (set.extensions candidates).length ≤ n) ∧
        after = { set with tuples := set.extensions candidates } := by
  constructor
  · intro hok
    rcases fits_or_exceeds set.limit (set.extensions candidates).length with
      hfits | ⟨n, hlimit, hn⟩
    · rw [perform_of_fits h hfits] at hok
      cases hok
      exact ⟨hfits, rfl⟩
    · rw [perform_of_exceeds h hlimit hn] at hok
      cases hok
  · rintro ⟨hfits, rfl⟩
    exact perform_of_fits h hfits

theorem perform_eq_error_iff (h : call.candidates? = some candidates) {e : TupleLimitExceeded} :
    set.perform call = (.error e, after) ↔
      (set.limit = some e.limit ∧ e.limit < (set.extensions candidates).length) ∧
        after = set := by
  constructor
  · intro herror
    rcases fits_or_exceeds set.limit (set.extensions candidates).length with
      hfits | ⟨n, hlimit, hn⟩
    · rw [perform_of_fits h hfits] at herror
      cases herror
    · rw [perform_of_exceeds h hlimit hn] at herror
      cases herror
      exact ⟨⟨hlimit, hn⟩, rfl⟩
  · rintro ⟨⟨hlimit, hn⟩, rfl⟩
    exact perform_of_exceeds h hlimit hn

theorem perform_cases (set : TupleSet) (call : Call) :
    (∃ candidates, call.candidates? = some candidates ∧
      set.perform call = (.ok (), { set with tuples := set.extensions candidates })) ∨
    (∃ e, set.perform call = (.error e, set)) ∨
    ∃ keep, call = .retain keep ∧ set.perform call = (.ok (), set.retainIdx keep) := by
  cases h : call.candidates? with
  | some candidates =>
      rcases fits_or_exceeds set.limit (set.extensions candidates).length with
        hfits | ⟨n, hlimit, hn⟩
      · exact Or.inl ⟨candidates, rfl, perform_of_fits h hfits⟩
      · exact Or.inr (Or.inl ⟨⟨n⟩, perform_of_exceeds h hlimit hn⟩)
  | none =>
      cases call with
      | retain keep => exact Or.inr (Or.inr ⟨keep, rfl, perform_retain set keep⟩)
      | extend types => cases h
      | extendWith candidates => cases h

theorem limit_perform (set : TupleSet) (call : Call) : (set.perform call).2.limit = set.limit := by
  rcases perform_cases set call with ⟨candidates, -, hok⟩ | ⟨e, herror⟩ | ⟨keep, -, hkept⟩
  · rw [hok]
  · rw [herror]
  · rw [hkept, retainIdx]

theorem mem_extensions_iff {tuple : List Ty} :
    tuple ∈ set.extensions candidates ↔
      ∃ front i, (front, i) ∈ set.tuples.zipIdx ∧
        ∃ t ∈ candidates i front, tuple = front ++ [t] := by
  simp [extensions, eq_comm]

theorem sublist_retainIdx (set : TupleSet) (keep : Nat → List Ty → Bool) :
    (set.retainIdx keep).tuples.Sublist set.tuples := by
  have hfilter := (List.filter_sublist (p := fun p => keep p.2 p.1)
    (l := set.tuples.zipIdx)).map Prod.fst
  rwa [List.zipIdx_map_fst] at hfilter

theorem length_of_mem_perform {n : Nat} (h : ∀ tuple ∈ set.tuples, tuple.length = n)
    (call : Call) :
    ∀ tuple ∈ (set.perform call).2.tuples, tuple.length = n + (set.grows call).toNat := by
  intro tuple htuple
  rcases perform_cases set call with ⟨candidates, hcall, hok⟩ | ⟨e, herror⟩ | ⟨keep, rfl, hkept⟩
  · rw [hok] at htuple
    obtain ⟨front, i, hfront, t, -, rfl⟩ := mem_extensions_iff.mp htuple
    have hgrows : set.grows call = true := by
      rw [grows, hcall, hok]
      rfl
    rw [List.length_append, h front (List.fst_mem_of_mem_zipIdx hfront), hgrows]
    rfl
  · rw [herror] at htuple
    have hgrows : set.grows call = false := by
      rw [grows, herror]
      exact Bool.and_false _
    rw [h tuple htuple, hgrows]
    rfl
  · rw [hkept] at htuple
    exact h tuple ((sublist_retainIdx set keep).mem htuple)

theorem nodup_flatMap_concat {α : Type} {as : List α} {front candidates : α → List Ty}
    (hfront : (as.map front).Nodup) (hcandidates : ∀ a ∈ as, (candidates a).Nodup) :
    (as.flatMap fun a => (candidates a).map (front a ++ [·])).Nodup := by
  rw [List.nodup_flatMap]
  constructor
  · intro a ha
    refine List.Nodup.map (fun t u htu => ?_) (hcandidates a ha)
    simpa using htu
  · refine (List.pairwise_map.mp hfront).imp fun {a b} hne => ?_
    refine List.disjoint_left.mpr fun tuple ha hb => ?_
    obtain ⟨t, -, rfl⟩ := List.mem_map.mp ha
    obtain ⟨u, -, heq⟩ := List.mem_map.mp hb
    exact hne (List.append_inj' heq rfl).1.symm

theorem nodup_perform (h : set.tuples.Nodup) (hcall : set.Distinct call) :
    (set.perform call).2.tuples.Nodup := by
  rcases perform_cases set call with ⟨candidates, hcand, hok⟩ | ⟨e, herror⟩ | ⟨keep, -, hkept⟩
  · rw [hok]
    have hfront : (set.tuples.zipIdx.map Prod.fst).Nodup := by rwa [List.zipIdx_map_fst]
    exact nodup_flatMap_concat hfront (hcall candidates hcand)
  · rwa [herror]
  · rw [hkept]
    exact h.sublist (sublist_retainIdx set keep)

theorem limit_run (set : TupleSet) (calls : List Call) : (set.run calls).limit = set.limit := by
  induction calls generalizing set with
  | nil => rfl
  | cons call calls ih => exact (ih _).trans (limit_perform set call)

theorem length_of_mem_run {n : Nat} (h : ∀ tuple ∈ set.tuples, tuple.length = n)
    (calls : List Call) :
    ∀ tuple ∈ (set.run calls).tuples, tuple.length = n + set.growth calls := by
  induction calls generalizing set n with
  | nil => exact h
  | cons call calls ih =>
      rw [growth, ← Nat.add_assoc]
      exact ih (length_of_mem_perform h call)

theorem nodup_run {calls : List Call} (h : set.tuples.Nodup) (hcalls : set.AllDistinct calls) :
    (set.run calls).tuples.Nodup := by
  induction calls generalizing set with
  | nil => exact h
  | cons call calls ih => exact ih (nodup_perform h hcalls.1) hcalls.2

theorem map_toSubstitutions {n : Nat} (h : ∀ tuple ∈ set.tuples, tuple.length = n)
    (vars : List TypeVarId) :
    (set.toSubstitutions vars).map (fun σ => (σ.vars, σ.types)) =
      if vars.length = n then set.tuples.map fun tuple => (vars, tuple) else [] := by
  have hpaired : ∀ tuple ∈ set.tuples,
      (Substitution.ofLists? vars tuple).map (fun σ => (σ.vars, σ.types)) =
        if vars.length = n then some (vars, tuple) else none := by
    intro tuple htuple
    rw [Substitution.map_ofLists?, h tuple htuple]
  rw [toSubstitutions, List.map_filterMap, List.filterMap_congr hpaired]
  split
  · exact congrFun List.filterMap_eq_map set.tuples
  · simp

/-- After every sequence of calls on a new set, all tuples are as long as there were successful
extensions, and the set becomes substitutions with all of its tuples or with none. One more
extension gives, in order, each tuple followed by each of its candidates, or fails because these are
more than the limit and leaves the set as it was. The tuples are distinct if no list of candidates
repeats a type. -/
theorem run_single_spec (limit : Option Nat) (calls : List Call) :
    let set := (single limit).run calls
    let n := (single limit).growth calls
    (∀ tuple ∈ set.tuples, tuple.length = n) ∧
      (∀ call candidates after, call.candidates? = some candidates →
        (set.perform call = (.ok (), after) ↔
          (∀ m, limit = some m → (set.extensions candidates).length ≤ m) ∧
            after = { set with tuples := set.extensions candidates })) ∧
      (∀ call candidates e after, call.candidates? = some candidates →
        (set.perform call = (.error e, after) ↔
          (limit = some e.limit ∧ e.limit < (set.extensions candidates).length) ∧
            after = set)) ∧
      (∀ keep, set.perform (.retain keep) = (.ok (), set.retainIdx keep)) ∧
      -- Candidates and tests that look at nothing but the tuple.
      (∀ candidates, set.extendWithIdx (fun _ => candidates) = set.extendWith candidates) ∧
      (∀ keep, set.retainIdx (fun _ => keep) = set.retain keep) ∧
      ((single limit).AllDistinct calls → set.tuples.Nodup) ∧
      ∀ vars, (set.toSubstitutions vars).map (fun σ => (σ.vars, σ.types)) =
        if vars.length = n then set.tuples.map fun tuple => (vars, tuple) else [] := by
  intro set n
  have hlimit : set.limit = limit := limit_run (single limit) calls
  have hlength : ∀ tuple ∈ set.tuples, tuple.length = n := by
    have hstart : ∀ tuple ∈ (single limit).tuples, tuple.length = 0 := by simp [single]
    simpa [n] using length_of_mem_run hstart calls
  refine ⟨hlength, fun call candidates after hcall => ?_, fun call candidates e after hcall => ?_,
    perform_retain set, extendWithIdx_const set, retainIdx_const set,
    nodup_run (List.nodup_singleton []), map_toSubstitutions hlength⟩
  · rw [perform_eq_ok_iff hcall, hlimit]
  · rw [perform_eq_error_iff hcall, hlimit]

/-- Two tuples become four only if there is room for them. When one of them is left, both of its
extensions are distinct, and two parameters are as many as there were successful extensions. -/
theorem run_single_spec_crowded :
    let a := Ty.primitive .int
    let b := Ty.primitive .long
    let calls : List Call := [.extend [a, b], .extend [a, b], .retain fun _ tuple => tuple == [a],
      .extendWith fun i _ => if i = 0 then [a, b] else []]
    let set := (single (some 3)).run calls
    set.tuples = [[a, a], [a, b]] ∧ (∀ tuple ∈ set.tuples, tuple.length = 2) ∧
      (single (some 3)).AllDistinct calls ∧ set.tuples.Nodup ∧
      set.perform (.extend [a, b]) = (.error ⟨3⟩, set) ∧
      set.perform (.extend [b]) = (.ok (), ⟨[[a, a, b], [a, b, b]], some 3⟩) ∧
      set.toSubstitutions [⟨0⟩] = [] := by
  intro a b calls set
  obtain ⟨hlength, hok, herror, -, -, -, hnodup, hvars⟩ := run_single_spec (some 3) calls
  have htuples : set.tuples = [[a, a], [a, b]] := by decide
  have hgrowth : (single (some 3)).growth calls = 2 := by decide
  have hdistinct : (single (some 3)).AllDistinct calls := by
    refine ⟨?_, ?_, ?_, ?_, trivial⟩
    all_goals
      intro candidates hcandidates
      cases hcandidates
    all_goals decide
  rw [hgrowth] at hlength
  refine ⟨htuples, hlength, hdistinct, hnodup hdistinct, ?_, ?_, ?_⟩
  · exact (herror (.extend [a, b]) _ ⟨3⟩ set rfl).mpr ⟨by decide, rfl⟩
  · have hfits : ∀ m, some 3 = some m → (set.extensions fun _ _ => [b]).length ≤ m := by
      rintro m ⟨⟩
      decide
    exact (hok (.extend [b]) _ _ rfl).mpr ⟨hfits, by decide⟩
  · have hnone := hvars [⟨0⟩]
    rw [hgrowth] at hnone
    exact List.map_eq_nil_iff.mp hnone

end TupleSet

end CallCatalog
