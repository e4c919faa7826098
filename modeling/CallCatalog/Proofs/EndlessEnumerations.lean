import CallCatalog.Proofs.ExaminedBounds
import CallCatalog.Proofs.ReorderedChecks
import CallCatalog.Proofs.SearchOrder

namespace CallCatalog.Store

variable {s : Store} {id : ClassId} {u : Universe} {d : ClassDef} {limit limit' : Option Nat}
  {earlier : List TypeVarId} {params : List (TypeVarId × Bound)} {tuples : List (List Ty)}
  {bound : Bound} {σ : Assignment} {t : Ty}

theorem substitutions?_of_undefined (hd : s.classDef? id = none) :
    s.substitutions? id u limit = some (.error (.unknownClass id)) := by
  simp [substitutions?, definedClass, hd, ofExcept]

theorem substitutions?_of_refused (hd : s.classDef? id = some d) {e : InstantiationError}
    (hparams : s.boundedParams d.name [] d.typeParams = .error e) :
    s.substitutions? id u limit = some (.error e) := by
  simp [substitutions?, definedClass, hd, hparams, ofExcept]

theorem substitutions?_of_accepted (hd : s.classDef? id = some d)
    (hparams : s.boundedParams d.name [] d.typeParams = .ok params) :
    s.substitutions? id u limit =
      (s.extendByParams? u [] params (.single limit)).map (substitutionsOf d) := by
  simp [substitutions?, definedClass, hd, hparams, ofExcept]

theorem eq_substitutions_of_substitutions? {result : Except InstantiationError (List Substitution)}
    (h : s.substitutions? id u limit = some result) : result = s.substitutions id u limit := by
  cases hd : s.classDef? id with
  | none =>
      rw [substitutions?_of_undefined hd] at h
      rw [substitutions_of_undefined hd, Option.some.inj h]
  | some d =>
      cases hparams : s.boundedParams d.name [] d.typeParams with
      | error e =>
          rw [substitutions?_of_refused hd hparams] at h
          rw [substitutions_of_refused hd hparams, Option.some.inj h]
      | ok params =>
          rw [substitutions?_of_accepted hd hparams] at h
          obtain ⟨run, hrun, rfl⟩ := Option.map_eq_some_iff.mp h
          rw [substitutions_of_accepted hd hparams, ← eq_extendByParams_of_extendByParams? hrun]
          cases run <;> rfl

theorem substitutions?_eq_none_iff : s.substitutions? id u limit = none ↔
    ∃ bound σ t, s.Examines id u limit bound σ t ∧ bound.satisfied? s σ t = none := by
  cases hd : s.classDef? id with
  | none =>
      rw [substitutions?_of_undefined hd]
      refine ⟨nofun, ?_⟩
      rintro ⟨bound, σ, t, ⟨hd', -, -⟩, -⟩
      rw [hd] at hd'
      cases hd'
  | some d =>
      cases hparams : s.boundedParams d.name [] d.typeParams with
      | error e =>
          rw [substitutions?_of_refused hd hparams]
          refine ⟨nofun, ?_⟩
          rintro ⟨bound, σ, t, ⟨hd', haccepted, -⟩, -⟩
          obtain rfl := Option.some.inj (hd.symm.trans hd')
          rw [hparams] at haccepted
          cases haccepted
      | ok params =>
          rw [substitutions?_of_accepted hd hparams, Option.map_eq_none_iff, TupleSet.single,
            extendByParams?_eq_none_iff]
          constructor
          · rintro ⟨bound, σ, t, hexamined, hnone⟩
            exact ⟨bound, σ, t, .intro hd hparams hexamined, hnone⟩
          · rintro ⟨bound, σ, t, ⟨hd', haccepted, hexamined⟩, hnone⟩
            obtain rfl := Option.some.inj (hd.symm.trans hd')
            obtain rfl := Except.ok.inj (hparams.symm.trans haccepted)
            exact ⟨bound, σ, t, hexamined, hnone⟩

theorem not_decides_iff : ¬ s.Decides id u limit ↔
    ∃ bound σ t, s.Examines id u limit bound σ t ∧ bound.satisfied? s σ t = none := by
  simp only [Decides, not_forall, not_not, exists_prop]

theorem Decides.substitutions? (h : s.Decides id u limit) :
    s.substitutions? id u limit = some (s.substitutions id u limit) := by
  cases hresult : s.substitutions? id u limit with
  | none => exact absurd h (not_decides_iff.mpr (substitutions?_eq_none_iff.mp hresult))
  | some result => rw [eq_substitutions_of_substitutions? hresult]

theorem decides_of_substitutions? {result : Except InstantiationError (List Substitution)}
    (h : s.substitutions? id u limit = some result) : s.Decides id u limit := by
  by_contra hnot
  rw [substitutions?_eq_none_iff.mpr (not_decides_iff.mp hnot)] at h
  cases h

/-- Where every question about two types has an answer, every enumeration ends. -/
theorem decides_of_acyclic (hacyclic : s.Acyclic) (hlower : s.DeclaresNoLower) (id : ClassId)
    (u : Universe) (limit : Option Nat) : s.Decides id u limit :=
  fun _ _ _ _ => Bound.satisfied?_ne_none fun _ _ =>
    answer?_ne_none_of_declaresNoLower hacyclic hlower _

theorem ExaminesAfter.mono (hlimit : ∀ tuples, Fits limit tuples → Fits limit' tuples)
    (h : s.ExaminesAfter u limit earlier params tuples bound σ t) :
    s.ExaminesAfter u limit' earlier params tuples bound σ t := by
  induction h with
  | now room candidate => exact .now (hlimit _ room) candidate
  | later room _ ih => exact .later (hlimit _ room) ih

theorem ExaminesAfter.of_not_overflows {n : Nat}
    (h : s.ExaminesAfter u limit earlier params tuples bound σ t)
    (hfits : ¬ s.Overflows u earlier params tuples n) :
    s.ExaminesAfter u (some n) earlier params tuples bound σ t := by
  induction h with
  | @now earlier v bound params before after tuple t room candidate =>
      rw [overflows_cons_iff, not_or, Nat.not_lt, ← fits_some_iff, grow_append] at hfits
      exact .now hfits.1.of_append candidate
  | later room _ ih =>
      rw [overflows_cons_iff, not_or, Nat.not_lt, ← fits_some_iff] at hfits
      exact .later hfits.1 (ih hfits.2)

theorem Decides.mono (h : s.Decides id u limit')
    (hlimit : ∀ tuples, Fits limit tuples → Fits limit' tuples) : s.Decides id u limit := by
  rintro bound σ t ⟨hd, haccepted, hexamined⟩
  exact h bound σ t (.intro hd haccepted (hexamined.mono hlimit))

theorem Decides.of_not_overflows {n : Nat} (h : s.Decides id u (some n))
    (hd : s.classDef? id = some d)
    (haccepted : s.boundedParams d.name [] d.typeParams = .ok params)
    (hfits : ¬ s.Overflows u [] params [[]] n) : s.Decides id u limit := by
  rintro bound σ t ⟨hd', haccepted', hexamined⟩
  obtain rfl := Option.some.inj (hd.symm.trans hd')
  obtain rfl := Except.ok.inj (haccepted.symm.trans haccepted')
  exact h bound σ t (.intro hd haccepted (hexamined.of_not_overflows hfits))

def knotDef : ClassDef where
  name := "C"
  kind := .plain
  isAbstract := false
  superClass := some (.cls ⟨19⟩ [.cls ⟨19⟩ [.sup (.cls ⟨20⟩ [])]])

/-- `class D<U extends N<? super C> & Cloneable>`, whose bound is `knotBound`. -/
def knotBoundDef : ClassDef where
  name := "D"
  kind := .plain
  isAbstract := false
  typeParams := [⟨11⟩]
  superClass := some (.cls .object [])

def knotBound : Bound := .ofUppers [.cls ⟨19⟩ [.sup (.cls ⟨20⟩ [])], .cls .cloneable []]

/-- The store has the two classes under their numbers. -/
structure HasKnot (s : Store) : Prop where
  knot : s.classDef? ⟨20⟩ = some knotDef
  bounded : s.classDef? ⟨21⟩ = some knotBoundDef
  param : s.typeParam? ⟨11⟩ = some ⟨"U", knotBound⟩

namespace HasKnot

variable (h : s.HasKnot)

include h

theorem subtype?_eq_none : s.subtype? (.cls ⟨20⟩ []) (.cls ⟨19⟩ [.sup (.cls ⟨20⟩ [])]) = none := by
  have hsupertypes : s.directSupertypes ⟨⟨20⟩, []⟩ =
      [⟨⟨19⟩, [.cls ⟨19⟩ [.sup (.cls ⟨20⟩ [])]]⟩] := by
    simp only [directSupertypes, h.knot]
    rfl
  have habove : s.findAbove ⟨19⟩ [⟨⟨20⟩, []⟩] [] =
      some (some ⟨⟨19⟩, [.cls ⟨19⟩ [.sup (.cls ⟨20⟩ [])]]⟩) := by
    rw [findAbove, if_neg List.not_mem_nil, if_neg (by decide), hsupertypes, List.nil_append,
      findAbove, if_neg (by decide), if_pos rfl]
  have hreduces : s.reduce? ⟨[], .cls ⟨20⟩ [], .cls ⟨19⟩ [.sup (.cls ⟨20⟩ [])]⟩ =
      some (.allOf [.asks ⟨[], .cls ⟨20⟩ [], .cls ⟨19⟩ [.sup (.cls ⟨20⟩ [])]⟩]) := by
    simp only [reduce?, habove]
    decide
  exact answer?_eq_none_of_asks_self (.all [] [] hreduces (by simp))

theorem accepted : s.boundedParams knotBoundDef.name [] knotBoundDef.typeParams =
    .ok [(⟨11⟩, knotBound)] := by
  simp only [knotBoundDef, boundedParams, h.param]
  rfl

theorem not_decides (hu : .cls ⟨20⟩ [] ∈ u.candidates) (limit : Option Nat) :
    ¬ s.Decides ⟨21⟩ u limit := by
  have hroom : Fits limit (s.grow u [] [(⟨11⟩, knotBound)] []) := fun _ _ => Nat.zero_le _
  have hexamined := @ExaminesAfter.now s u limit _ _ _ [] _ [] [] _ hroom hu
  rw [not_decides_iff]
  refine ⟨_, _, _, .intro h.bounded h.accepted hexamined, ?_⟩
  change (s.subtype? _ _).bind _ = none
  rw [h.subtype?_eq_none]
  rfl

end HasKnot

/-- An unlimited enumeration for a class with accepted bounds never ends exactly if it examines a
bound that cannot be decided. If it ends, it gives the assignments of observed concrete reference
types under which every bound holds, each once and in dictionary order, the first parameter being
the most significant. It ends if there is no cycle in the declarations and no declared supertype
mentions `? super`. -/
theorem unlimited_substitutions?_spec (s : Store) (id : ClassId) (u : Universe) (d : ClassDef)
    (params : List (TypeVarId × Bound)) (hd : s.classDef? id = some d)
    (hproper : s.ProperParams d)
    (haccepted : s.boundedParams d.name [] d.typeParams = .ok params) :
    (s.substitutions? id u none = none ↔
      ∃ bound σ t, s.Examines id u none bound σ t ∧ bound.satisfied? s σ t = none) ∧
    (∀ result, s.substitutions? id u none = some result → ∃ valid, result = .ok valid ∧
      (∀ σ : Substitution, σ ∈ valid ↔
        σ.vars = d.typeParams ∧ (∀ t ∈ σ.types, t ∈ u ∧ t.isReference ∧ t.isConcrete) ∧
          ∀ v t, (v, t) ∈ σ.toList → ∀ p, s.typeParam? v = some p →
            p.bound.satisfied? s σ.toAssignment t = some true) ∧
      valid.Nodup ∧
      valid.Pairwise fun σ τ => List.Lex u.Before σ.types τ.types) ∧
    (s.Acyclic → s.DeclaresNoLower → s.substitutions? id u none ≠ none) := by
  refine ⟨substitutions?_eq_none_iff, fun result hresult => ?_, fun hacyclic hlower => ?_⟩
  · obtain ⟨valid, hvalid, hmem, hnodup, hlex⟩ :=
      substitutions_spec s id u d params hd hproper haccepted
    refine ⟨valid, (eq_substitutions_of_substitutions? hresult).trans hvalid, ?_, hnodup, hlex⟩
    simpa only [SatisfiesBounds, Bound.isSatisfiedBy_iff] using hmem
  · rw [(decides_of_acyclic hacyclic hlower id u none).substitutions?]
    nofun

def boundedKnotStore : Store where
  classes := Platform.store.classes ++ [
    { name := "N", definition? := some {
        name := "N", kind := .plain, isAbstract := false, typeParams := [⟨10⟩]
        superClass := some (.cls .object []) } },
    { name := "C", definition? := some knotDef },
    { name := "D", definition? := some knotBoundDef }]
  typeParams := Platform.store.typeParams ++ [⟨"T", .unconstrained⟩, ⟨"U", knotBound⟩]

def knotUniverse : Universe where
  toList := [.cls ⟨20⟩ []]
  nodup := by decide

theorem hasKnot_boundedKnotStore : boundedKnotStore.HasKnot := ⟨rfl, rfl, rfl⟩

theorem properParams_boundedKnotStore : boundedKnotStore.ProperParams knotBoundDef where
  nodup := by decide
  built v hv p hp := by
    obtain rfl := List.mem_singleton.mp hv
    exact ⟨[.cls ⟨19⟩ [.sup (.cls ⟨20⟩ [])], .cls .cloneable []], by rw [← Option.some.inj hp]; rfl⟩

theorem acyclic_pair : pairStore.Acyclic :=
  .of_heights platformHeight (fun _ _ => rfl) (by decide)

theorem declaresNoLower_pair : pairStore.DeclaresNoLower :=
  .of_classes (by decide)

/-- With `C` as the only observed type it never ends to find the types for `D`, and the pair class
has a list of substitutions. -/
theorem unlimited_substitutions?_spec_knot :
    boundedKnotStore.classDef? ⟨21⟩ = some knotBoundDef ∧
      boundedKnotStore.ProperParams knotBoundDef ∧
      boundedKnotStore.boundedParams knotBoundDef.name [] knotBoundDef.typeParams =
        .ok [(⟨11⟩, knotBound)] ∧
      boundedKnotStore.substitutions? ⟨21⟩ knotUniverse none = none ∧
      ∃ valid, pairStore.substitutions? ⟨19⟩ pairUniverse none = some (.ok valid) ∧
        valid.Nodup := by
  have hknot := hasKnot_boundedKnotStore
  have haccepted : pairStore.boundedParams pairDef.name [] pairDef.typeParams =
      .ok [(⟨10⟩, .ofUppers [Platform.comparableOf (.var ⟨10⟩)]),
        (⟨11⟩, .ofUppers [.var ⟨10⟩])] := rfl
  obtain ⟨hnone, -, -⟩ := unlimited_substitutions?_spec boundedKnotStore ⟨21⟩ knotUniverse
    knotBoundDef _ hknot.bounded properParams_boundedKnotStore hknot.accepted
  obtain ⟨-, hlist, hends⟩ := unlimited_substitutions?_spec pairStore ⟨19⟩ pairUniverse pairDef _
    rfl properParams_pair haccepted
  refine ⟨hknot.bounded, properParams_boundedKnotStore, hknot.accepted,
    hnone.mpr (not_decides_iff.mp (hknot.not_decides (by decide) none)), ?_⟩
  obtain ⟨result, hresult⟩ :=
    Option.ne_none_iff_exists'.mp (hends acyclic_pair declaresNoLower_pair)
  obtain ⟨valid, rfl, -, hnodup, -⟩ := hlist result hresult
  exact ⟨valid, hresult, hnodup⟩

/-- An enumeration for a class with accepted bounds never ends exactly if it examines a bound that
cannot be decided. A limited one that ends gives the list of the unlimited one, which then ends as
well, or the error that names the limit; it gives the error exactly if some first parameters,
possibly all of them, can be given types under their bounds in more ways than the limit. What
succeeds at one limit succeeds with the same list at every larger one, and if the unlimited
enumeration ends, then so does each limited one. -/
theorem limited_substitutions?_spec (s : Store) (id : ClassId) (u : Universe) (d : ClassDef)
    (params : List (TypeVarId × Bound)) (limit : Nat) (hd : s.classDef? id = some d)
    (haccepted : s.boundedParams d.name [] d.typeParams = .ok params) :
    (∀ limit, s.substitutions? id u limit = none ↔
      ∃ bound σ t, s.Examines id u limit bound σ t ∧ bound.satisfied? s σ t = none) ∧
    (∀ result, s.substitutions? id u (some limit) = some result →
      (result = .error (.tooManyTuples d.name limit) ∨
        ∃ valid, result = .ok valid ∧ s.substitutions? id u none = some (.ok valid)) ∧
      (result = .error (.tooManyTuples d.name limit) ↔
        ∃ k, 1 ≤ k ∧ k ≤ d.typeParams.length ∧ limit < (s.choices u (params.take k)).ncard) ∧
      (s.ProperParams d → (result = .error (.tooManyTuples d.name limit) ↔
        ∃ k, 1 ≤ k ∧ k ≤ d.typeParams.length ∧ limit < (s.partialAssignments u d k).ncard))) ∧
    (∀ valid, s.substitutions? id u (some limit) = some (.ok valid) →
      ∀ more, limit ≤ more → s.substitutions? id u (some more) = some (.ok valid)) ∧
    (s.substitutions? id u none ≠ none → s.substitutions? id u (some limit) ≠ none) ∧
    (s.Acyclic → s.DeclaresNoLower → ∀ limit, s.substitutions? id u limit ≠ none) := by
  obtain ⟨valid, hvalid, hresult, hchoices, hassignments, hmore⟩ :=
    substitutions_some_spec s id u d params limit hd haccepted
  -- a limited enumeration that gives a list has stayed within its limit
  have hother : ∀ list, s.substitutions? id u (some limit) = some (.ok list) →
      list = valid ∧ ∀ limit, s.Decides id u limit := by
    intro list hlist
    have hok := eq_substitutions_of_substitutions? hlist
    have hfits : ¬ s.Overflows u [] params [[]] limit := by
      intro hover
      rw [substitutions_some_of_overflows hd haccepted hover] at hok
      cases hok
    refine ⟨?_, fun limit => (decides_of_substitutions? hlist).of_not_overflows hd haccepted hfits⟩
    rw [substitutions_some_of_not_overflows hd haccepted hfits, hvalid] at hok
    exact Except.ok.inj hok
  refine ⟨fun _ => substitutions?_eq_none_iff, fun result hsome => ?_, fun list hlist => ?_, ?_,
    fun hacyclic hlower limit => ?_⟩
  · obtain rfl := eq_substitutions_of_substitutions? hsome
    refine ⟨?_, hchoices, hassignments⟩
    rcases hresult with hok | herror
    · rw [hok] at hsome
      refine Or.inr ⟨valid, hok, ?_⟩
      rw [((hother valid hsome).2 none).substitutions?, hvalid]
    · exact Or.inl herror
  · intro more hle
    obtain ⟨rfl, hdecides⟩ := hother list hlist
    rw [(hdecides (some more)).substitutions?,
      hmore (eq_substitutions_of_substitutions? hlist).symm more hle]
  · intro hends
    obtain ⟨result, hsome⟩ := Option.ne_none_iff_exists'.mp hends
    have hdecides : s.Decides id u (some limit) :=
      (decides_of_substitutions? hsome).mono fun _ _ => nofun
    rw [hdecides.substitutions?]
    nofun
  · rw [(decides_of_acyclic hacyclic hlower id u limit).substitutions?]
    nofun

/-- A limit does not help with `D`. The pair class has two substitutions, so two tuples are enough
and one is not. -/
theorem limited_substitutions?_spec_knot :
    boundedKnotStore.classDef? ⟨21⟩ = some knotBoundDef ∧
      boundedKnotStore.boundedParams knotBoundDef.name [] knotBoundDef.typeParams =
        .ok [(⟨11⟩, knotBound)] ∧
      (∀ limit, boundedKnotStore.substitutions? ⟨21⟩ knotUniverse limit = none) ∧
      pairStore.ProperParams pairDef ∧
      pairStore.substitutions? ⟨19⟩ pairUniverse (some 1) =
        some (.error (.tooManyTuples "Pair" 1)) ∧
      (∃ k, 1 ≤ k ∧ k ≤ 2 ∧ 1 < (pairStore.partialAssignments pairUniverse pairDef k).ncard) ∧
      (∀ k, 1 ≤ k → k ≤ 2 → (pairStore.partialAssignments pairUniverse pairDef k).ncard ≤ 2) ∧
      ∃ valid, pairStore.substitutions? ⟨19⟩ pairUniverse none = some (.ok valid) ∧
        ∀ more, 2 ≤ more →
          pairStore.substitutions? ⟨19⟩ pairUniverse (some more) = some (.ok valid) := by
  have hknot := hasKnot_boundedKnotStore
  have haccepted : pairStore.boundedParams pairDef.name [] pairDef.typeParams =
      .ok [(⟨10⟩, .ofUppers [Platform.comparableOf (.var ⟨10⟩)]),
        (⟨11⟩, .ofUppers [.var ⟨10⟩])] := rfl
  obtain ⟨hnone, -⟩ := limited_substitutions?_spec boundedKnotStore ⟨21⟩ knotUniverse
    knotBoundDef _ 0 hknot.bounded hknot.accepted
  obtain ⟨-, hone, -⟩ :=
    limited_substitutions?_spec pairStore ⟨19⟩ pairUniverse pairDef _ 1 rfl haccepted
  obtain ⟨-, htwo, hmore, -⟩ :=
    limited_substitutions?_spec pairStore ⟨19⟩ pairUniverse pairDef _ 2 rfl haccepted
  have hdecided := fun limit =>
    (decides_of_acyclic acyclic_pair declaresNoLower_pair ⟨19⟩ pairUniverse limit).substitutions?
  have herror : pairStore.substitutions? ⟨19⟩ pairUniverse (some 1) =
      some (.error (.tooManyTuples "Pair" 1)) := by
    rw [hdecided]
    cbv
  have hok : (pairStore.substitutions ⟨19⟩ pairUniverse (some 2)).toOption.isSome := by cbv
  obtain ⟨hresult, -, hcount⟩ := htwo _ (hdecided (some 2))
  have hnoerror : pairStore.substitutions ⟨19⟩ pairUniverse (some 2) ≠
      .error (.tooManyTuples pairDef.name 2) := by
    intro h
    rw [h] at hok
    cases hok
  obtain ⟨valid, hvalid, hunlimited⟩ := hresult.resolve_left hnoerror
  refine ⟨hknot.bounded, hknot.accepted,
    fun limit => (hnone limit).mpr (not_decides_iff.mp (hknot.not_decides (by decide) limit)),
    properParams_pair, herror, ((hone _ herror).2.2 properParams_pair).mp rfl, ?_, valid,
    hunlimited, hmore valid (hvalid ▸ hdecided (some 2))⟩
  intro k hpos hle
  by_contra hover
  exact hnoerror ((hcount properParams_pair).mpr ⟨k, hpos, hle, Nat.lt_of_not_le hover⟩)

end CallCatalog.Store
