import CallCatalog.Proofs.BoundChecks
import CallCatalog.Proofs.TupleLimit

namespace CallCatalog

namespace Universe

variable {keep : Ty → Option Bool} {ts : List Ty}

theorem filter?_eq_none_iff : filter? keep ts = none ↔ ∃ t ∈ ts, keep t = none := by
  induction ts with
  | nil => simp [filter?]
  | cons t ts ih =>
      cases ht : keep t with
      | none => simp [filter?, ht]
      | some holds =>
          rw [List.exists_mem_cons_iff, ht]
          cases hrest : filter? keep ts <;> simp [filter?, ht, hrest, ← ih]

theorem eq_filter_of_filter? {test : Ty → Bool} {kept : List Ty}
    (htest : ∀ t holds, keep t = some holds → test t = holds) (h : filter? keep ts = some kept) :
    kept = ts.filter test := by
  induction ts generalizing kept with
  | nil => exact (Option.some.inj h).symm
  | cons t ts ih =>
      rw [filter?] at h
      obtain ⟨holds, ht, h⟩ := Option.bind_eq_some_iff.mp h
      obtain ⟨rest, hrest, h⟩ := Option.bind_eq_some_iff.mp h
      obtain rfl := Option.some.inj h
      rw [List.filter_cons, htest t holds ht, ih hrest]

end Universe

theorem exists_split_cons_iff {α : Type} {a : α} {as : List α} {P : List α → α → Prop} :
    (∃ before x after, a :: as = before ++ x :: after ∧ P before x) ↔
      P [] a ∨ ∃ before x after, as = before ++ x :: after ∧ P (a :: before) x := by
  constructor
  · rintro ⟨before, x, after, hsplit, h⟩
    cases before with
    | nil =>
        obtain ⟨rfl, -⟩ := List.cons.inj hsplit
        exact Or.inl h
    | cons first before =>
        obtain ⟨rfl, rfl⟩ := List.cons.inj hsplit
        exact Or.inr ⟨before, x, after, rfl, h⟩
  · rintro (h | ⟨before, x, after, rfl, h⟩)
    · exact ⟨[], a, as, rfl, h⟩
    · exact ⟨a :: before, x, after, rfl, h⟩

namespace TupleSet

variable {limit : Option Nat} {candidates? : List Ty → Option (List Ty)}
  {candidates : List Ty → List Ty} {acc : Array (List Ty)} {tuple found : List Ty}
  {tuples : List (List Ty)} {set : TupleSet}

theorem run_foldlM_extendOne?_cons :
    ((tuple :: tuples).foldlM (extendOne? limit candidates?) acc).run =
      (candidates? tuple).bind fun found =>
        (found.foldlM (fun acc t => push limit acc (tuple ++ [t])) acc).casesOn
          (fun e => some (.error e))
          fun acc => (tuples.foldlM (extendOne? limit candidates?) acc).run := by
  rw [List.foldlM_cons, ExceptT.run_bind, extendOne?, ExceptT.run_mk]
  cases candidates? tuple with
  | none => rfl
  | some found =>
      dsimp only [Option.map_some, Option.bind_some, bind]
      cases List.foldlM (fun acc t => push limit acc (tuple ++ [t])) acc found <;> rfl

theorem foldlM_push_candidates (tuple found : List Ty) (h : ∀ n ∈ limit, acc.size ≤ n) :
    (∀ n ∈ limit, acc.size + found.length ≤ n) ∧
        found.foldlM (fun acc t => push limit acc (tuple ++ [t])) acc =
          .ok (acc ++ (found.map (tuple ++ [·])).toArray) ∨
      (¬ ∀ n ∈ limit, acc.size + found.length ≤ n) ∧
        ∃ e, found.foldlM (fun acc t => push limit acc (tuple ++ [t])) acc = .error e := by
  have hpush := foldlM_push (found.map (tuple ++ [·])) h
  rw [List.foldlM_map] at hpush
  cases limit with
  | none => exact Or.inl ⟨fun _ hn => (nomatch hn), hpush⟩
  | some n =>
      simp only [List.length_map] at hpush
      split at hpush
      · rename_i hlt
        exact Or.inr ⟨fun hle => absurd (hle n rfl) (Nat.not_le.mpr hlt), _, hpush⟩
      · rename_i hle
        refine Or.inl ⟨fun m hm => ?_, hpush⟩
        obtain rfl := Option.some.inj hm
        exact Nat.not_lt.mp hle

/-- There is room for the extensions of `tuples` beside `size` other tuples. -/
def Room (limit : Option Nat) (size : Nat) (candidates : List Ty → List Ty)
    (tuples : List (List Ty)) : Prop :=
  ∀ n ∈ limit, size + (tuples.flatMap fun tuple => (candidates tuple).map (tuple ++ [·])).length ≤ n

section Found

variable (hfound : ∀ tuple found, candidates? tuple = some found → found = candidates tuple)

include hfound

theorem room_cons {size : Nat} (htuple : candidates? tuple = some found) :
    Room limit size candidates (tuple :: tuples) ↔
      Room limit (size + found.length) candidates tuples := by
  simp only [Room, List.flatMap_cons, List.length_append, List.length_map,
    hfound tuple found htuple, Nat.add_assoc]

theorem eq_foldlM_of_extendOne? {result : Except TupleLimitExceeded (Array (List Ty))}
    (h : (tuples.foldlM (extendOne? limit candidates?) acc).run = some result) :
    result = tuples.foldlM (fun acc tuple =>
      (candidates tuple).foldlM (fun acc t => push limit acc (tuple ++ [t])) acc) acc := by
  induction tuples generalizing acc with
  | nil => exact (Option.some.inj h).symm
  | cons tuple tuples ih =>
      rw [run_foldlM_extendOne?_cons] at h
      obtain ⟨found, hsome, h⟩ := Option.bind_eq_some_iff.mp h
      rw [List.foldlM_cons, ← hfound tuple found hsome]
      cases hpush : found.foldlM (fun acc t => push limit acc (tuple ++ [t])) acc with
      | error e =>
          rw [hpush] at h
          exact (Option.some.inj h).symm
      | ok next =>
          rw [hpush] at h
          exact ih h

theorem foldlM_extendOne?_eq_none_iff (hacc : ∀ n ∈ limit, acc.size ≤ n) :
    (tuples.foldlM (extendOne? limit candidates?) acc).run = none ↔
      ∃ before tuple after, tuples = before ++ tuple :: after ∧
        Room limit acc.size candidates before ∧ candidates? tuple = none := by
  induction tuples generalizing acc with
  | nil => simp [pure, ExceptT.pure]
  | cons tuple tuples ih =>
      rw [run_foldlM_extendOne?_cons, exists_split_cons_iff]
      cases htuple : candidates? tuple with
      | none => exact ⟨fun _ => Or.inl ⟨by simpa [Room] using hacc, rfl⟩, fun _ => rfl⟩
      | some found =>
          simp only [Option.bind_some, room_cons hfound htuple, reduceCtorEq, and_false, false_or]
          rcases foldlM_push_candidates tuple found hacc with ⟨hroom, hpush⟩ | ⟨hfull, e, hpush⟩
          · have hsize : (acc ++ (found.map (tuple ++ [·])).toArray).size =
                acc.size + found.length := by simp
            rw [hpush, ← hsize]
            exact ih (by rwa [hsize])
          · rw [hpush]
            refine ⟨nofun, ?_⟩
            rintro ⟨before, last, after, -, hroom, -⟩
            exact absurd (fun n hn => Nat.le_trans (Nat.le_add_right _ _) (hroom n hn)) hfull

theorem eq_extendWith_of_extendWith? {result : Except TupleLimitExceeded TupleSet}
    (h : set.extendWith? candidates? = some result) : result = set.extendWith candidates := by
  rw [extendWith?, ExceptT.run_bind] at h
  obtain ⟨next, hnext, h⟩ := Option.bind_eq_some_iff.mp h
  rw [extendWith, ← eq_foldlM_of_extendOne? hfound hnext]
  cases next <;> exact (Option.some.inj h).symm

theorem extendWith?_eq_none_iff : set.extendWith? candidates? = none ↔
    ∃ before tuple after, set.tuples = before ++ tuple :: after ∧
      (∀ n ∈ set.limit,
        (before.flatMap fun tuple => (candidates tuple).map (tuple ++ [·])).length ≤ n) ∧
      candidates? tuple = none := by
  have hloop : (set.tuples.foldlM (extendOne? set.limit candidates?) #[]).run = none ↔
      ∃ before tuple after, set.tuples = before ++ tuple :: after ∧
        Room set.limit 0 candidates before ∧ candidates? tuple = none :=
    foldlM_extendOne?_eq_none_iff hfound fun _ _ => Nat.zero_le _
  simp only [Room, Nat.zero_add] at hloop
  rw [← hloop, extendWith?, ExceptT.run_bind]
  cases (set.tuples.foldlM (extendOne? set.limit candidates?) #[]).run with
  | none => simp [bind]
  | some next => cases next <;> simp [bind]

end Found

end TupleSet

namespace Store

variable {s : Store} {id : ClassId} {u : Universe} {limit : Option Nat} {earlier : List TypeVarId}
  {v : TypeVarId} {b : Bound} {params : List (TypeVarId × Bound)} {tuples : List (List Ty)}

/-- There are no more tuples than the limit allows. -/
def Fits (limit : Option Nat) (tuples : List (List Ty)) : Prop :=
  ∀ n ∈ limit, tuples.length ≤ n

/-- When the tuples of the parameters `earlier` are extended by the remaining parameters, it is
asked whether a type satisfies a bound under some values. A tuple is looked at as long as the
extensions of those before it are within the limit. -/
inductive ExaminesAfter (s : Store) (u : Universe) (limit : Option Nat) :
    List TypeVarId → List (TypeVarId × Bound) → List (List Ty) →
      Bound → Assignment → Ty → Prop
  | now {earlier : List TypeVarId} {v : TypeVarId} {bound : Bound}
      {params : List (TypeVarId × Bound)} {before after : List (List Ty)} {tuple : List Ty} {t : Ty}
      (room : Fits limit (s.grow u earlier [(v, bound)] before)) (candidate : t ∈ u.candidates) :
      ExaminesAfter s u limit earlier ((v, bound) :: params) (before ++ tuple :: after)
        bound (valuesFor v bound (.ofPairs (earlier.zip tuple)) t) t
  | later {earlier : List TypeVarId} {v : TypeVarId} {bound examined : Bound}
      {params : List (TypeVarId × Bound)} {tuples : List (List Ty)} {σ : Assignment} {t : Ty}
      (room : Fits limit (s.grow u earlier [(v, bound)] tuples))
      (next : ExaminesAfter s u limit (earlier ++ [v]) params
        (s.grow u earlier [(v, bound)] tuples) examined σ t) :
      ExaminesAfter s u limit earlier ((v, bound) :: params) tuples examined σ t

/-- In the enumeration for a class under a limit it is asked whether `t` satisfies `bound` under the
values `σ`. -/
inductive Examines (s : Store) (id : ClassId) (u : Universe) (limit : Option Nat)
    (bound : Bound) (σ : Assignment) (t : Ty) : Prop
  | intro {d : ClassDef} {params : List (TypeVarId × Bound)} (defined : s.classDef? id = some d)
      (accepted : s.boundedParams d.name [] d.typeParams = .ok params)
      (examined : s.ExaminesAfter u limit [] params [[]] bound σ t)

/-- Every bound that the enumeration looks at can be decided. -/
def Decides (s : Store) (id : ClassId) (u : Universe) (limit : Option Nat) : Prop :=
  ∀ bound σ t, s.Examines id u limit bound σ t → bound.satisfied? s σ t ≠ none

theorem grow_append (before after : List (List Ty)) :
    s.grow u earlier [(v, b)] (before ++ after) =
      s.grow u earlier [(v, b)] before ++ s.grow u earlier [(v, b)] after := by
  simp only [grow, List.flatMap_append]

theorem fits_some_iff {n : Nat} : Fits (some n) tuples ↔ tuples.length ≤ n := by
  simp [Fits]

theorem Fits.of_append {front back : List (List Ty)} (h : Fits limit (front ++ back)) :
    Fits limit front := by
  intro n hn
  have hle := h n hn
  rw [List.length_append] at hle
  omega

theorem extendWith_of_fits (h : Fits limit (s.grow u earlier [(v, b)] tuples)) :
    TupleSet.extendWith ⟨tuples, limit⟩ (fun tuple =>
        s.selectCandidates v b u (.ofPairs (earlier.zip tuple))) =
      .ok ⟨s.grow u earlier [(v, b)] tuples, limit⟩ := by
  rw [TupleSet.extendWith_eq]
  cases limit with
  | none => rfl
  | some n => exact if_neg (Nat.not_lt.mpr (fits_some_iff.mp h))

theorem extendWith_of_not_fits (h : ¬ Fits limit (s.grow u earlier [(v, b)] tuples)) :
    ∃ n, limit = some n ∧ TupleSet.extendWith ⟨tuples, limit⟩ (fun tuple =>
      s.selectCandidates v b u (.ofPairs (earlier.zip tuple))) = .error ⟨n⟩ := by
  cases limit with
  | none => exact absurd (fun _ hn => nomatch hn) h
  | some n =>
      rw [fits_some_iff, Nat.not_le] at h
      rw [TupleSet.extendWith_eq]
      exact ⟨n, rfl, if_pos h⟩

theorem extendByParams_of_fits (h : Fits limit (s.grow u earlier [(v, b)] tuples)) :
    s.extendByParams u earlier ((v, b) :: params) ⟨tuples, limit⟩ =
      s.extendByParams u (earlier ++ [v]) params ⟨s.grow u earlier [(v, b)] tuples, limit⟩ := by
  rw [extendByParams, extendWith_of_fits h]
  rfl

theorem extendByParams_of_not_fits (h : ¬ Fits limit (s.grow u earlier [(v, b)] tuples)) :
    ∃ n, limit = some n ∧
      s.extendByParams u earlier ((v, b) :: params) ⟨tuples, limit⟩ = .error ⟨n⟩ := by
  obtain ⟨n, hn, herror⟩ := extendWith_of_not_fits h
  refine ⟨n, hn, ?_⟩
  rw [extendByParams, herror]
  rfl

theorem selectCandidates?_eq_none_iff {σ : Assignment} : s.selectCandidates? v b u σ = none ↔
    ∃ t ∈ u.candidates, b.satisfied? s (valuesFor v b σ t) t = none := by
  unfold selectCandidates? valuesFor
  split <;> exact Universe.filter?_eq_none_iff

theorem eq_selectCandidates_of_selectCandidates? {σ : Assignment} {found : List Ty}
    (h : s.selectCandidates? v b u σ = some found) : found = s.selectCandidates v b u σ := by
  unfold selectCandidates? at h
  unfold selectCandidates
  split at h
  all_goals
    rename_i hv
    simp only [hv, if_true, if_false]
    exact Universe.eq_filter_of_filter? (fun _ _ => Bound.isSatisfiedBy_eq_of_satisfied?) h

theorem extendByParams?_cons {set : TupleSet} :
    s.extendByParams? u earlier ((v, b) :: params) set =
      (set.extendWith? fun tuple => s.selectCandidates? v b u (.ofPairs (earlier.zip tuple))).bind
        fun result => result.casesOn (fun e => some (.error e))
          fun set => s.extendByParams? u (earlier ++ [v]) params set := by
  rw [extendByParams?, ExceptT.run_bind, ExceptT.run_mk]
  apply congrArg (Option.bind _)
  funext result
  cases result <;> rfl

theorem eq_extendByParams_of_extendByParams? {set : TupleSet}
    {result : Except TupleLimitExceeded TupleSet}
    (h : s.extendByParams? u earlier params set = some result) :
    result = s.extendByParams u earlier params set := by
  induction params generalizing earlier set with
  | nil => exact (Option.some.inj h).symm
  | cons p params ih =>
      obtain ⟨v, b⟩ := p
      rw [extendByParams?_cons] at h
      obtain ⟨next, hnext, h⟩ := Option.bind_eq_some_iff.mp h
      rw [extendByParams, ← TupleSet.eq_extendWith_of_extendWith?
        (fun _ _ => eq_selectCandidates_of_selectCandidates?) hnext]
      cases next with
      | error e => exact (Option.some.inj h).symm
      | ok set => exact ih h

theorem extendWith?_selectCandidates?_eq_none_iff :
    TupleSet.extendWith? ⟨tuples, limit⟩ (fun tuple =>
        s.selectCandidates? v b u (.ofPairs (earlier.zip tuple))) = none ↔
      ∃ before tuple after, tuples = before ++ tuple :: after ∧
        Fits limit (s.grow u earlier [(v, b)] before) ∧ ∃ t ∈ u.candidates,
          b.satisfied? s (valuesFor v b (.ofPairs (earlier.zip tuple)) t) t = none := by
  rw [TupleSet.extendWith?_eq_none_iff fun _ _ => eq_selectCandidates_of_selectCandidates?]
  simp only [selectCandidates?_eq_none_iff]
  rfl

theorem extendByParams?_eq_none_iff :
    s.extendByParams? u earlier params ⟨tuples, limit⟩ = none ↔ ∃ bound σ t,
      s.ExaminesAfter u limit earlier params tuples bound σ t ∧ bound.satisfied? s σ t = none := by
  induction params generalizing earlier tuples with
  | nil =>
      refine ⟨nofun, ?_⟩
      rintro ⟨bound, σ, t, hexamined, -⟩
      cases hexamined
  | cons p params ih =>
      obtain ⟨v, b⟩ := p
      have hstep := @extendWith?_selectCandidates?_eq_none_iff s u limit earlier v b tuples
      rw [extendByParams?_cons]
      cases hnext : TupleSet.extendWith? ⟨tuples, limit⟩ fun tuple =>
          s.selectCandidates? v b u (.ofPairs (earlier.zip tuple)) with
      | none =>
          refine ⟨fun _ => ?_, fun _ => rfl⟩
          obtain ⟨before, tuple, after, rfl, hroom, t, ht, hnone⟩ := hstep.mp hnext
          exact ⟨b, _, t, .now hroom ht, hnone⟩
      | some next =>
          -- every question about this parameter is answered, so it is left to the later ones
          have hlater : (∃ bound σ t, s.ExaminesAfter u limit earlier ((v, b) :: params) tuples
              bound σ t ∧ bound.satisfied? s σ t = none) ↔
              Fits limit (s.grow u earlier [(v, b)] tuples) ∧ ∃ bound σ t,
                s.ExaminesAfter u limit (earlier ++ [v]) params
                  (s.grow u earlier [(v, b)] tuples) bound σ t ∧
                bound.satisfied? s σ t = none := by
            constructor
            · rintro ⟨bound, σ, t, hexamined, hnone⟩
              cases hexamined with
              | now room ht =>
                  have hstuck := hstep.mpr ⟨_, _, _, rfl, room, t, ht, hnone⟩
                  rw [hstuck] at hnext
                  cases hnext
              | later room next => exact ⟨room, bound, σ, t, next, hnone⟩
            · rintro ⟨room, bound, σ, t, hexamined, hnone⟩
              exact ⟨bound, σ, t, .later room hexamined, hnone⟩
          have hsame := TupleSet.eq_extendWith_of_extendWith?
            (fun _ _ => eq_selectCandidates_of_selectCandidates?) hnext
          rw [hlater, ← ih, Option.bind_some, hsame]
          by_cases hfits : Fits limit (s.grow u earlier [(v, b)] tuples)
          · rw [extendWith_of_fits hfits]
            exact (and_iff_right hfits).symm
          · obtain ⟨n, -, herror⟩ := extendWith_of_not_fits hfits
            rw [herror]
            exact ⟨nofun, fun h => absurd h.1 hfits⟩

end Store

end CallCatalog
