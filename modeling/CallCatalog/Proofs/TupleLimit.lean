import CallCatalog.Proofs.Enumeration
import CallCatalog.Proofs.TupleRuns
import Mathlib.Data.List.Permutation
import Mathlib.Data.Set.Card

namespace CallCatalog

namespace Store

variable {s : Store} {u : Universe}

/-- The tuples that are left when each of the parameters in turn has extended them by the types that
it admits after the choices made before it. -/
def grow (s : Store) (u : Universe) (earlier : List TypeVarId) :
    List (TypeVarId × Bound) → List (List Ty) → List (List Ty)
  | [], tuples => tuples
  | (v, bound) :: params, tuples =>
    s.grow u (earlier ++ [v]) params (tuples.flatMap fun tuple =>
      (s.selectCandidates v bound u (.ofPairs (earlier.zip tuple))).map (tuple ++ [·]))

/-- After one of the steps there are more than `limit` tuples. -/
def Overflows (s : Store) (u : Universe) (earlier : List TypeVarId)
    (params : List (TypeVarId × Bound)) (tuples : List (List Ty)) (limit : Nat) : Prop :=
  ∃ k, 1 ≤ k ∧ k ≤ params.length ∧ limit < (s.grow u earlier (params.take k) tuples).length

section Steps

variable {earlier : List TypeVarId} {v : TypeVarId} {bound : Bound}
  {params : List (TypeVarId × Bound)} {tuples : List (List Ty)} {limit : Nat}

theorem not_overflows_nil : ¬ s.Overflows u earlier [] tuples limit := by
  rintro ⟨k, hpos, hle, -⟩
  rw [List.length_nil] at hle
  omega

theorem overflows_cons_iff : s.Overflows u earlier ((v, bound) :: params) tuples limit ↔
    limit < (s.grow u earlier [(v, bound)] tuples).length ∨
      s.Overflows u (earlier ++ [v]) params (s.grow u earlier [(v, bound)] tuples) limit := by
  constructor
  · rintro ⟨k, hpos, hle, hlimit⟩
    obtain ⟨k, rfl⟩ := Nat.exists_eq_succ_of_ne_zero (Nat.ne_of_gt hpos)
    rw [List.length_cons] at hle
    cases k with
    | zero => exact Or.inl hlimit
    | succ k => exact Or.inr ⟨k + 1, by omega, by omega, hlimit⟩
  · rintro (hlimit | ⟨k, hpos, hle, hlimit⟩)
    · exact ⟨1, by omega, by simp, hlimit⟩
    · exact ⟨k + 1, by omega, by simpa using hle, hlimit⟩

theorem Overflows.mono {more : Nat} (hle : limit ≤ more)
    (h : s.Overflows u earlier params tuples more) : s.Overflows u earlier params tuples limit := by
  obtain ⟨k, hpos, hk, hmore⟩ := h
  exact ⟨k, hpos, hk, by omega⟩

theorem extendByParams_none (earlier : List TypeVarId) (params : List (TypeVarId × Bound))
    (tuples : List (List Ty)) :
    s.extendByParams u earlier params ⟨tuples, none⟩ =
      .ok ⟨s.grow u earlier params tuples, none⟩ := by
  induction params generalizing earlier tuples with
  | nil => rfl
  | cons p params ih =>
      obtain ⟨v, bound⟩ := p
      rw [extendByParams, TupleSet.extendWith_eq]
      exact ih (earlier ++ [v]) _

theorem extendByParams_some_cons :
    s.extendByParams u earlier ((v, bound) :: params) ⟨tuples, some limit⟩ =
      if limit < (s.grow u earlier [(v, bound)] tuples).length then .error ⟨limit⟩
      else s.extendByParams u (earlier ++ [v]) params
        ⟨s.grow u earlier [(v, bound)] tuples, some limit⟩ := by
  have hnext : (tuples.flatMap fun tuple => (s.selectCandidates v bound u
      (.ofPairs (earlier.zip tuple))).map (tuple ++ [·])) =
        s.grow u earlier [(v, bound)] tuples := rfl
  rw [extendByParams, TupleSet.extendWith_eq]
  dsimp only
  rw [hnext]
  split <;> rfl

theorem extendByParams_some (earlier : List TypeVarId) (params : List (TypeVarId × Bound))
    (tuples : List (List Ty)) (limit : Nat) :
    (s.Overflows u earlier params tuples limit →
        s.extendByParams u earlier params ⟨tuples, some limit⟩ = .error ⟨limit⟩) ∧
      (¬ s.Overflows u earlier params tuples limit →
        s.extendByParams u earlier params ⟨tuples, some limit⟩ =
          .ok ⟨s.grow u earlier params tuples, some limit⟩) := by
  induction params generalizing earlier tuples with
  | nil => exact ⟨fun h => absurd h not_overflows_nil, fun _ => rfl⟩
  | cons p params ih =>
      obtain ⟨v, bound⟩ := p
      obtain ⟨hover, hfits⟩ := ih (earlier ++ [v]) (s.grow u earlier [(v, bound)] tuples)
      rw [overflows_cons_iff, extendByParams_some_cons]
      by_cases hlimit : limit < (s.grow u earlier [(v, bound)] tuples).length
      · rw [if_pos hlimit]
        exact ⟨fun _ => rfl, fun h => absurd (Or.inl hlimit) h⟩
      · rw [if_neg hlimit]
        exact ⟨fun h => hover (h.resolve_left hlimit), fun h => hfits fun hrest => h (Or.inr hrest)⟩

end Steps

/-- Each of the types is a candidate that its parameter admits after the choices made before it, the
choices `front` for the parameters `earlier` included. -/
def ChosenAfter (s : Store) (u : Universe) :
    List TypeVarId → List Ty → List (TypeVarId × Bound) → List Ty → Prop
  | _, _, [], [] => True
  | earlier, front, (v, bound) :: params, t :: tuple =>
    t ∈ s.selectCandidates v bound u (.ofPairs (earlier.zip front)) ∧
      s.ChosenAfter u (earlier ++ [v]) (front ++ [t]) params tuple
  | _, _, _, _ => False

/-- The ways to choose types for the parameters one after the other, each as its bound admits it
after the choices made before. -/
def choices (s : Store) (u : Universe) (params : List (TypeVarId × Bound)) : Set (List Ty) :=
  {tuple | s.ChosenAfter u [] [] params tuple}

theorem mem_grow_iff {earlier : List TypeVarId} {params : List (TypeVarId × Bound)}
    {tuples : List (List Ty)} {tuple : List Ty} :
    tuple ∈ s.grow u earlier params tuples ↔
      ∃ front ∈ tuples, ∃ rest, s.ChosenAfter u earlier front params rest ∧
        tuple = front ++ rest := by
  induction params generalizing earlier tuples with
  | nil =>
      rw [grow]
      constructor
      · intro h
        exact ⟨tuple, h, [], trivial, (List.append_nil tuple).symm⟩
      · rintro ⟨front, hfront, rest, hrest, rfl⟩
        cases rest with
        | nil => rwa [List.append_nil]
        | cons t rest => exact hrest.elim
  | cons p params ih =>
      obtain ⟨v, bound⟩ := p
      rw [grow, ih]
      constructor
      · rintro ⟨front, hfront, rest, hrest, rfl⟩
        obtain ⟨front, hmem, hfront⟩ := List.mem_flatMap.mp hfront
        obtain ⟨t, ht, rfl⟩ := List.mem_map.mp hfront
        exact ⟨front, hmem, t :: rest, ⟨ht, hrest⟩, List.append_assoc front [t] rest⟩
      · rintro ⟨front, hmem, rest, hrest, rfl⟩
        cases rest with
        | nil => exact hrest.elim
        | cons t rest =>
            refine ⟨front ++ [t], ?_, rest, hrest.2, (List.append_assoc front [t] rest).symm⟩
            exact List.mem_flatMap.mpr ⟨front, hmem, List.mem_map_of_mem hrest.1⟩

theorem nodup_grow {earlier : List TypeVarId} {params : List (TypeVarId × Bound)}
    {tuples : List (List Ty)} (h : tuples.Nodup) : (s.grow u earlier params tuples).Nodup := by
  induction params generalizing earlier tuples with
  | nil => exact h
  | cons p params ih =>
      obtain ⟨v, bound⟩ := p
      apply ih
      have hfront : (tuples.map fun tuple => tuple).Nodup := by rwa [List.map_id']
      refine TupleSet.nodup_flatMap_concat hfront fun tuple _ => ?_
      rw [selectCandidates]
      split <;> exact (u.nodup.filter _).filter _

theorem ncard_choices (params : List (TypeVarId × Bound)) :
    (s.choices u params).ncard = (s.grow u [] params [[]]).length := by
  have hset : s.choices u params = (s.grow u [] params [[]]).toFinset := by
    ext tuple
    rw [Finset.mem_coe, List.mem_toFinset, mem_grow_iff]
    simp [choices]
  have hnodup : (s.grow u [] params [[]]).Nodup := nodup_grow (List.nodup_singleton [])
  rw [hset, Set.ncard_coe_finset, List.toFinset_card_of_nodup hnodup]

/-- The assignments of observed concrete reference types to the first `k` type parameters of a class
under which the bounds of these parameters hold. -/
def partialAssignments (s : Store) (u : Universe) (d : ClassDef) (k : Nat) : Set Substitution :=
  {σ | σ.vars = d.typeParams.take k ∧ (∀ t ∈ σ.types, t ∈ u ∧ t.isReference ∧ t.isConcrete) ∧
    s.SatisfiesBounds σ}

theorem grow_eq_validTuples {params : List (TypeVarId × Bound)}
    (h : CallCatalog.WellScoped params) : s.grow u [] params [[]] = s.validTuples u params := by
  have hvalid : s.extendByParams u [] params ⟨[[]], none⟩ = .ok ⟨s.validTuples u params, none⟩ :=
    extendByParams_validTuples [] h
  rw [extendByParams_none, Except.ok.injEq, TupleSet.mk.injEq] at hvalid
  exact hvalid.1

theorem boundedParams_take {className : String} {earlier vs : List TypeVarId}
    {params : List (TypeVarId × Bound)} (h : s.boundedParams className earlier vs = .ok params)
    (k : Nat) : s.boundedParams className earlier (vs.take k) = .ok (params.take k) := by
  induction vs generalizing earlier params k with
  | nil =>
      cases h
      simp [boundedParams]
  | cons v vs ih =>
      cases k with
      | zero => rfl
      | succ k =>
          rw [List.take_succ_cons, boundedParams]
          rw [boundedParams] at h
          split at h
          · cases h
          rename_i p hp
          split at h
          · cases h
          rename_i hself
          split at h
          · cases h
          rename_i hfind
          cases hrest : s.boundedParams className (earlier ++ [v]) vs with
          | error e =>
              rw [hrest] at h
              cases h
          | ok rest =>
              rw [hrest] at h
              cases h
              rw [ih hrest k]
              simp only [if_neg hself]
              rfl

theorem map_types_toSubstitutions {set : TupleSet} {vars : List TypeVarId}
    (h : ∀ tuple ∈ set.tuples, vars.length = tuple.length) :
    (set.toSubstitutions vars).map Substitution.types = set.tuples := by
  have hpairs := TupleSet.map_toSubstitutions (fun tuple htuple => (h tuple htuple).symm) vars
  have htypes := congrArg (List.map Prod.snd) hpairs
  rw [if_pos rfl, List.map_map, List.map_map] at htypes
  exact htypes.trans (List.map_id set.tuples)

theorem mem_partialAssignments_iff {d : ClassDef} {params : List (TypeVarId × Bound)} {k : Nat}
    (haccepted : s.boundedParams d.name [] (d.typeParams.take k) = .ok params) {σ : Substitution} :
    σ ∈ s.partialAssignments u d k ↔
      σ ∈ TupleSet.toSubstitutions ⟨s.validTuples u params, none⟩ (d.typeParams.take k) := by
  rw [mem_toSubstitutions_iff]
  apply and_congr_right
  intro hvars
  rw [← hvars] at haccepted
  have hlength : σ.types.length = params.length := by
    rw [← σ.length_eq, ← (boundedParams_eq_ok haccepted).1, List.length_map]
  rw [validTuples, List.mem_filter, satisfiesAll_iff haccepted, Universe.mem_tuples_iff]
  simp only [hlength, true_and, Universe.mem_candidates]

/-- In a class as extraction makes it, it makes no difference whether a bound is looked at when its
parameter is given a type or when all of the first parameters have theirs. -/
theorem ncard_partialAssignments {d : ClassDef} {params : List (TypeVarId × Bound)}
    (hproper : s.ProperParams d)
    (haccepted : s.boundedParams d.name [] d.typeParams = .ok params) (k : Nat) :
    (s.partialAssignments u d k).ncard = (s.choices u (params.take k)).ncard := by
  have hscoped : CallCatalog.WellScoped (params.take k) := by
    have hparams := wellScoped_of_boundedParams hproper haccepted
    rw [← List.take_append_drop k params] at hparams
    exact hparams.left
  have htake := boundedParams_take haccepted k
  have hlength : ∀ tuple ∈ s.validTuples u (params.take k),
      (d.typeParams.take k).length = tuple.length := by
    intro tuple htuple
    rw [Universe.length_of_mem_tuples (List.mem_filter.mp htuple).1,
      ← (boundedParams_eq_ok htake).1, List.length_map]
  have hnodup : (TupleSet.toSubstitutions ⟨s.validTuples u (params.take k), none⟩
      (d.typeParams.take k)).Nodup := by
    apply (pairwise_lex_toSubstitutions s u (params.take k) (d.typeParams.take k)).imp
    rintro σ τ hστ rfl
    exact List.lex_irrefl (fun t => Nat.lt_irrefl (u.toList.idxOf t)) σ.types hστ
  -- The assignments are listed without repetition by an unlimited enumeration of the first `k`.
  have hset : s.partialAssignments u d k = (TupleSet.toSubstitutions
      ⟨s.validTuples u (params.take k), none⟩ (d.typeParams.take k)).toFinset := by
    ext σ
    rw [mem_partialAssignments_iff htake, Finset.mem_coe, List.mem_toFinset]
  rw [hset, Set.ncard_coe_finset, List.toFinset_card_of_nodup hnodup, ncard_choices,
    grow_eq_validTuples hscoped, ← List.length_map Substitution.types,
    map_types_toSubstitutions hlength]

section Limited

variable {id : ClassId} {d : ClassDef} {params : List (TypeVarId × Bound)} {limit : Nat}
  (hd : s.classDef? id = some d)
  (haccepted : s.boundedParams d.name [] d.typeParams = .ok params)

include hd haccepted

theorem substitutions_none :
    s.substitutions id u none =
      .ok (TupleSet.toSubstitutions ⟨s.grow u [] params [[]], none⟩ d.typeParams) := by
  have hext := extendByParams_none (s := s) (u := u) [] params [[]]
  rw [substitutions_of_accepted hd haccepted, TupleSet.single, hext]

theorem substitutions_some_of_overflows (h : s.Overflows u [] params [[]] limit) :
    s.substitutions id u (some limit) = .error (.tooManyTuples d.name limit) := by
  have hext := (extendByParams_some (s := s) (u := u) [] params [[]] limit).1 h
  rw [substitutions_of_accepted hd haccepted, TupleSet.single, hext]

theorem substitutions_some_of_not_overflows (h : ¬ s.Overflows u [] params [[]] limit) :
    s.substitutions id u (some limit) = s.substitutions id u none := by
  have hext := (extendByParams_some (s := s) (u := u) [] params [[]] limit).2 h
  rw [substitutions_none hd haccepted, substitutions_of_accepted hd haccepted, TupleSet.single,
    hext]
  rfl

end Limited

theorem overflows_iff_choices {params : List (TypeVarId × Bound)} {limit : Nat} :
    s.Overflows u [] params [[]] limit ↔
      ∃ k, 1 ≤ k ∧ k ≤ params.length ∧ limit < (s.choices u (params.take k)).ncard := by
  simp only [Overflows, ncard_choices]

theorem substitutions_some_spec (s : Store) (id : ClassId) (u : Universe) (d : ClassDef)
    (params : List (TypeVarId × Bound)) (limit : Nat) (hd : s.classDef? id = some d)
    (haccepted : s.boundedParams d.name [] d.typeParams = .ok params) :
    ∃ valid, s.substitutions id u none = .ok valid ∧
      (s.substitutions id u (some limit) = .ok valid ∨
        s.substitutions id u (some limit) = .error (.tooManyTuples d.name limit)) ∧
      (s.substitutions id u (some limit) = .error (.tooManyTuples d.name limit) ↔
        ∃ k, 1 ≤ k ∧ k ≤ d.typeParams.length ∧ limit < (s.choices u (params.take k)).ncard) ∧
      (s.ProperParams d →
        (s.substitutions id u (some limit) = .error (.tooManyTuples d.name limit) ↔
          ∃ k, 1 ≤ k ∧ k ≤ d.typeParams.length ∧ limit < (s.partialAssignments u d k).ncard)) ∧
      (s.substitutions id u (some limit) = .ok valid →
        ∀ more, limit ≤ more → s.substitutions id u (some more) = .ok valid) := by
  have hnone := substitutions_none (u := u) hd haccepted
  have hlength : params.length = d.typeParams.length := by
    rw [← (boundedParams_eq_ok haccepted).1, List.length_map]
  have hsettled : ∀ limit, ¬ s.Overflows u [] params [[]] limit →
      s.substitutions id u (some limit) = _ := fun limit hfits =>
    (substitutions_some_of_not_overflows hd haccepted hfits).trans hnone
  have hexceeded : s.substitutions id u (some limit) = .error (.tooManyTuples d.name limit) ↔
      ∃ k, 1 ≤ k ∧ k ≤ d.typeParams.length ∧ limit < (s.choices u (params.take k)).ncard := by
    rw [← hlength, ← overflows_iff_choices]
    refine ⟨fun herror => ?_, substitutions_some_of_overflows hd haccepted⟩
    by_contra hfits
    rw [hsettled limit hfits] at herror
    cases herror
  refine ⟨_, hnone, ?_, hexceeded, ?_, ?_⟩
  · by_cases hover : s.Overflows u [] params [[]] limit
    · exact Or.inr (substitutions_some_of_overflows hd haccepted hover)
    · exact Or.inl (hsettled limit hover)
  · intro hproper
    simp only [hexceeded, ncard_partialAssignments hproper haccepted]
  · intro hok more hle
    apply hsettled more
    intro hover
    rw [substitutions_some_of_overflows hd haccepted (hover.mono hle)] at hok
    cases hok

end Store

end CallCatalog
