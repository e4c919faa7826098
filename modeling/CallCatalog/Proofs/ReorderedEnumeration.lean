import CallCatalog.Proofs.ExaminedBounds
import CallCatalog.Proofs.OpenedVariables
import CallCatalog.Proofs.ReorderedChecks
import CallCatalog.Proofs.SearchOrder

/-!
The enumeration of substitutions when the upper bounds of type parameters are listed in another
order. As long as the bounds that are looked at are decided alike, the enumerations have the same
tuples after every parameter, or both of them exceed the limit there. So the one looks at nothing
that the other one does not look at.
-/

namespace CallCatalog.Store

variable {s s' : Store} {u : Universe} {limit : Option Nat} {earlier : List TypeVarId}
  {v : TypeVarId} {b b' : Bound} {params params' : List (TypeVarId × Bound)}
  {tuples : List (List Ty)} {σ : Assignment} {t : Ty}

theorem valuesFor_of_reorders (h : b.Reorders b') :
    valuesFor v b' σ t = valuesFor v b σ t := by
  simp only [valuesFor, h.mem_vars_iff]

/-- Two stores agree on every candidate for a parameter that both look at when the tuples are
extended by it. -/
def AgreeAt (s s' : Store) (u : Universe) (limit : Option Nat) (earlier : List TypeVarId)
    (v : TypeVarId) (b b' : Bound) (tuples : List (List Ty)) : Prop :=
  ∀ before tuple after, tuples = before ++ tuple :: after →
    Fits limit (s.grow u earlier [(v, b)] before) →
    Fits limit (s'.grow u earlier [(v, b')] before) → ∀ t ∈ u.candidates,
      b'.isSatisfiedBy s' (valuesFor v b' (.ofPairs (earlier.zip tuple)) t) t =
        b.isSatisfiedBy s (valuesFor v b (.ofPairs (earlier.zip tuple)) t) t

theorem AgreeAt.of_append {front back : List (List Ty)}
    (h : AgreeAt s s' u limit earlier v b b' (front ++ back)) :
    AgreeAt s s' u limit earlier v b b' front := by
  rintro before tuple after rfl
  exact h before tuple (after ++ back) (by simp)

theorem AgreeAt.grow (hagree : AgreeAt s s' u limit earlier v b b' tuples) :
    (Fits limit (s.grow u earlier [(v, b)] tuples) ∧
      s'.grow u earlier [(v, b')] tuples = s.grow u earlier [(v, b)] tuples) ∨
    (¬ Fits limit (s.grow u earlier [(v, b)] tuples) ∧
      ¬ Fits limit (s'.grow u earlier [(v, b')] tuples)) := by
  induction tuples using List.reverseRecOn with
  | nil => exact Or.inl ⟨fun _ _ => Nat.zero_le _, by simp only [Store.grow, List.flatMap_nil]⟩
  | append_singleton front last ih =>
      rw [grow_append, grow_append]
      rcases ih hagree.of_append with ⟨hfits, hsame⟩ | ⟨hover, hover'⟩
      · have hlast : s'.grow u earlier [(v, b')] [last] = s.grow u earlier [(v, b)] [last] := by
          simp only [Store.grow, List.flatMap_cons, List.flatMap_nil, selectCandidates_eq_filter]
          have hcandidates : ∀ t ∈ u.candidates,
              b'.isSatisfiedBy s' (valuesFor v b' (.ofPairs (earlier.zip last)) t) t =
                b.isSatisfiedBy s (valuesFor v b (.ofPairs (earlier.zip last)) t) t :=
            hagree front last [] rfl hfits (by rw [hsame]; exact hfits)
          rw [List.filter_congr hcandidates]
        rw [hsame, hlast]
        by_cases h : Fits limit
            (s.grow u earlier [(v, b)] front ++ s.grow u earlier [(v, b)] [last])
        · exact Or.inl ⟨h, rfl⟩
        · exact Or.inr ⟨h, h⟩
      · exact Or.inr ⟨fun h => hover h.of_append, fun h => hover' h.of_append⟩

/-- The same type parameters with the same bounds, but for the order of the parts. -/
abbrev ReorderedParams (params params' : List (TypeVarId × Bound)) : Prop :=
  List.Forall₂ (fun p p' => p'.1 = p.1 ∧ p.2.Reorders p'.2) params params'

/-- If two stores agree on everything that both enumerations look at, these go the same way. -/
theorem extendByParams_agree (h : ReorderedParams params params')
    (hagree : ∀ b b' σ t, b.Reorders b' → s.ExaminesAfter u limit earlier params tuples b σ t →
      s'.ExaminesAfter u limit earlier params' tuples b' σ t →
        b'.isSatisfiedBy s' σ t = b.isSatisfiedBy s σ t) :
    s'.extendByParams u earlier params' ⟨tuples, limit⟩ =
      s.extendByParams u earlier params ⟨tuples, limit⟩ := by
  induction h generalizing earlier tuples with
  | nil => rfl
  | @cons p p' params params' hp hparams ih =>
      obtain ⟨w, b⟩ := p
      obtain ⟨v, b'⟩ := p'
      obtain ⟨rfl, hb⟩ := hp
      have hstep : AgreeAt s s' u limit earlier v b b' tuples := by
        rintro before tuple after rfl hroom hroom' t ht
        rw [valuesFor_of_reorders hb]
        apply hagree _ _ _ _ hb (.now hroom ht)
        rw [← valuesFor_of_reorders hb]
        exact .now hroom' ht
      rcases hstep.grow with ⟨hfits, hsame⟩ | ⟨hover, hover'⟩
      · have hfits' := hfits
        rw [← hsame] at hfits'
        rw [extendByParams_of_fits hfits, extendByParams_of_fits hfits', hsame]
        apply ih
        intro c c' σ t hc hexamined hexamined'
        rw [← hsame] at hexamined'
        exact hagree c c' σ t hc (.later hfits hexamined) (.later hfits' hexamined')
      · obtain ⟨n, hn, herror⟩ := extendByParams_of_not_fits hover
        obtain ⟨m, hm, herror'⟩ := extendByParams_of_not_fits hover'
        rw [herror, herror', Option.some.inj (hn.symm.trans hm)]

theorem exists_examinesAfter (h : ReorderedParams params params')
    (hagree : ∀ b b' σ t, b.Reorders b' → s.ExaminesAfter u limit earlier params tuples b σ t →
      b'.isSatisfiedBy s' σ t = b.isSatisfiedBy s σ t)
    (hexamined : s'.ExaminesAfter u limit earlier params' tuples b' σ t) :
    ∃ b, b.Reorders b' ∧ s.ExaminesAfter u limit earlier params tuples b σ t := by
  induction h generalizing earlier tuples with
  | nil => cases hexamined
  | @cons p p' params params' hp hparams ih =>
      obtain ⟨w, c⟩ := p
      obtain ⟨v, c'⟩ := p'
      obtain ⟨rfl, hc⟩ := hp
      have hstep : AgreeAt s s' u limit earlier v c c' tuples := by
        rintro before tuple after rfl hroom - t ht
        rw [valuesFor_of_reorders hc]
        exact hagree _ _ _ _ hc (.now hroom ht)
      cases hexamined with
      | @now _ _ _ _ before after tuple _ room ht =>
          rw [valuesFor_of_reorders hc]
          rcases hstep.of_append.grow with ⟨hfits, -⟩ | ⟨-, hover'⟩
          · exact ⟨c, hc, .now hfits ht⟩
          · exact absurd room hover'
      | later room next =>
          rcases hstep.grow with ⟨hfits, hsame⟩ | ⟨-, hover'⟩
          · rw [hsame] at next
            obtain ⟨b, hb, hexamined⟩ := ih
              (fun b b' σ t hb hexamined => hagree b b' σ t hb (.later hfits hexamined)) next
            exact ⟨b, hb, .later hfits hexamined⟩
          · exact absurd room hover'

theorem Reorders.classDef? (h : s.Reorders s') (id : ClassId) :
    s'.classDef? id = s.classDef? id := by
  rw [Store.classDef?, Store.classDef?, h.classes]

theorem Reorders.atFault (h : s.Reorders s') (hfault : s.AtFault earlier v) :
    s'.AtFault earlier v := by
  rcases hfault with hnone | ⟨p, hp, hfault⟩
  · exact Or.inl (h.typeParam?_eq_none hnone)
  · obtain ⟨p', hp', hreorders⟩ := h.exists_typeParam? hp
    refine Or.inr ⟨p', hp', ?_⟩
    rcases hfault with hself | ⟨w, hw, hstranger⟩
    · exact Or.inl (hreorders.bound.uppers.mem_iff.mp hself)
    · exact Or.inr ⟨w, hreorders.bound.mem_vars_iff.mp hw, hstranger⟩

theorem Reorders.exists_boundedParams (h : s.Reorders s') {className : String}
    {vs : List TypeVarId} (haccepted : s.boundedParams className earlier vs = .ok params) :
    ∃ params', s'.boundedParams className earlier vs = .ok params' ∧
      ReorderedParams params params' := by
  induction vs generalizing earlier params with
  | nil =>
      cases haccepted
      exact ⟨[], rfl, .nil⟩
  | cons v vs ih =>
      by_cases hfault : s.AtFault earlier v
      · obtain ⟨param, referenced, hcomplains⟩ := atFault_iff_exists_complains.mp hfault
        rw [boundedParams_of_complains hcomplains] at haccepted
        cases haccepted
      · have hfault' : ¬ s'.AtFault earlier v := fun hfault' => hfault (h.symm.atFault hfault')
        obtain ⟨p, hp, hbound⟩ := boundedParams_of_not_atFault hfault
        obtain ⟨p', hp', hbound'⟩ := boundedParams_of_not_atFault hfault'
        obtain ⟨p'', hp'', hreorders⟩ := h.exists_typeParam? hp
        obtain rfl := Option.some.inj (hp'.symm.trans hp'')
        rw [hbound] at haccepted
        cases hrest : s.boundedParams className (earlier ++ [v]) vs with
        | error e =>
            rw [hrest] at haccepted
            cases haccepted
        | ok rest =>
            rw [hrest] at haccepted
            cases haccepted
            obtain ⟨rest', hrest', hparams⟩ := ih hrest
            rw [hbound', hrest']
            exact ⟨_, rfl, .cons ⟨rfl, hreorders.bound⟩ hparams⟩

theorem code_of_boundedParams {className : String} {vs : List TypeVarId} {e : InstantiationError}
    (h : s.boundedParams className earlier vs = .error e) : e.code = "malformed-bound-graph" := by
  obtain ⟨param, referenced, rfl, -⟩ := boundedParams_eq_error_iff.mp h
  rfl

theorem Reorders.substitutions_eq (h : s.Reorders s') {id : ClassId}
    (hagree : ∀ b b' σ t, b.Reorders b' → s.Examines id u limit b σ t →
      s'.Examines id u limit b' σ t → b'.isSatisfiedBy s' σ t = b.isSatisfiedBy s σ t) :
    (s'.substitutions id u limit).mapError InstantiationError.code =
      (s.substitutions id u limit).mapError InstantiationError.code := by
  cases hd : s.classDef? id with
  | none =>
      have hd' : s'.classDef? id = none := (h.classDef? id).trans hd
      rw [substitutions_of_undefined hd, substitutions_of_undefined hd']
  | some d =>
      have hd' : s'.classDef? id = some d := (h.classDef? id).trans hd
      cases hparams : s.boundedParams d.name [] d.typeParams with
      | error e =>
          cases hparams' : s'.boundedParams d.name [] d.typeParams with
          | error e' =>
              rw [substitutions_of_refused hd hparams, substitutions_of_refused hd' hparams']
              simp only [Except.mapError, code_of_boundedParams hparams,
                code_of_boundedParams hparams']
          | ok params' =>
              obtain ⟨params, hok, -⟩ := h.symm.exists_boundedParams hparams'
              rw [hparams] at hok
              cases hok
      | ok params =>
          obtain ⟨params', hparams', hreordered⟩ := h.exists_boundedParams hparams
          have hrun : s'.extendByParams u [] params' (.single limit) =
              s.extendByParams u [] params (.single limit) :=
            extendByParams_agree hreordered fun b b' σ t hb hexamined hexamined' =>
              hagree b b' σ t hb (.intro hd hparams hexamined) (.intro hd' hparams' hexamined')
          rw [substitutions_of_accepted hd hparams, substitutions_of_accepted hd' hparams', hrun]

theorem Reorders.exists_examines (h : s.Reorders s') {id : ClassId}
    (hagree : ∀ b b' σ t, b.Reorders b' → s.Examines id u limit b σ t →
      b'.isSatisfiedBy s' σ t = b.isSatisfiedBy s σ t)
    (hexamined : s'.Examines id u limit b' σ t) :
    ∃ b, b.Reorders b' ∧ s.Examines id u limit b σ t := by
  obtain @⟨d, params', hd', hparams', hexamined⟩ := hexamined
  have hd : s.classDef? id = some d := (h.symm.classDef? id).trans hd'
  obtain ⟨params, hparams, hreordered⟩ := h.symm.exists_boundedParams hparams'
  obtain ⟨params'', hparams'', hreordered'⟩ := h.exists_boundedParams hparams
  obtain rfl := Except.ok.inj (hparams'.symm.trans hparams'')
  obtain ⟨b, hb, hexamined⟩ := exists_examinesAfter hreordered'
    (fun b b' σ t hb hexamined => hagree b b' σ t hb (.intro hd hparams hexamined)) hexamined
  exact ⟨b, hb, .intro hd hparams hexamined⟩

theorem Reorders.decides (h : s.Reorders s') {id : ClassId}
    (hends : ∀ bound σ t, s.Examines id u limit bound σ t → bound.ChecksEnd s σ t) :
    s.Decides id u limit ∧ s'.Decides id u limit := by
  refine ⟨fun b σ t hexamined => (hends b σ t hexamined).satisfied?_ne_none, ?_⟩
  intro b' σ t hexamined
  have hagree : ∀ b b' σ t, b.Reorders b' → s.Examines id u limit b σ t →
      b'.isSatisfiedBy s' σ t = b.isSatisfiedBy s σ t := by
    intro b b' σ t hb hexamined
    have hcheck := hends b σ t hexamined
    exact hb.isSatisfiedBy_eq h hcheck.satisfied?_ne_none
      (hcheck.satisfied?_ne_none_of_reorders h hb)
  obtain ⟨b, hb, hexamined⟩ := h.exists_examines hagree hexamined
  exact (hends b σ t hexamined).satisfied?_ne_none_of_reorders h hb

/-- If two stores differ only in the order in which upper bounds are listed, then they give the same
answers about subtypes and about bounds wherever both give one, and two enumerations that can decide
every bound they look at give the same list or fail with the same kind of error. What ends in one
store in any order ends in the other one as well; and if every question about two types has an
answer, then everything ends in any order. -/
theorem agree_of_reorders (s s' : Store) (h : s.Reorders s') :
    (∀ sub sup opened, s.answerSharing? sub sup opened =
      (s.answer? ⟨opened, sub, sup⟩).map fun holds => (holds, opened)) ∧
    (∀ sub sup,
      (∀ x y, s.subtype? sub sup = some x → s'.subtype? sub sup = some y → x = y) ∧
      (s.Ends ⟨[], sub, sup⟩ → s.subtype? sub sup ≠ none ∧
        s'.subtype? sub sup = s.subtype? sub sup)) ∧
    (∀ b b' : Bound, b.Reorders b' → ∀ σ t,
      (b.satisfied? s σ t ≠ none → b'.satisfied? s' σ t ≠ none →
        b'.isSatisfiedBy s' σ t = b.isSatisfiedBy s σ t) ∧
      (b.admitted? s t ≠ none → b'.admitted? s' t ≠ none → b'.admits s' t = b.admits s t) ∧
      (b.ChecksEnd s σ t → b.satisfied? s σ t ≠ none ∧ b'.satisfied? s' σ t ≠ none ∧
        b.admitted? s t ≠ none ∧ b'.admitted? s' t ≠ none)) ∧
    (∀ id u limit,
      (s.Decides id u limit → s'.Decides id u limit →
        (s'.substitutions id u limit).mapError InstantiationError.code =
          (s.substitutions id u limit).mapError InstantiationError.code) ∧
      ((∀ bound σ t, s.Examines id u limit bound σ t → bound.ChecksEnd s σ t) →
        s.Decides id u limit ∧ s'.Decides id u limit)) ∧
    ((∀ sub sup, s.subtype? sub sup ≠ none) → ∀ q, s.Ends q) := by
  refine ⟨s.answerSharing?_eq, fun sub sup => ⟨?_, ?_⟩, fun b b' hb σ t => ⟨?_, ?_, ?_⟩,
    fun id u limit => ⟨?_, ?_⟩, ?_⟩
  · exact fun x y hx hy => h.answer?_agree hx hy
  · exact fun hends => ⟨hends _ .refl, h.answer?_eq_of_ends hends⟩
  · exact hb.isSatisfiedBy_eq h
  · exact hb.admits_eq h
  · exact fun hends => ⟨hends.satisfied?_ne_none, hends.satisfied?_ne_none_of_reorders h hb,
      hends.admitted?_ne_none, hends.admitted?_ne_none_of_reorders h hb⟩
  · intro hdecides hdecides'
    exact h.substitutions_eq fun b b' σ t hb hexamined hexamined' =>
      hb.isSatisfiedBy_eq h (hdecides b σ t hexamined) (hdecides' b' σ t hexamined')
  · exact h.decides
  · exact fun hall q q' _ => answer?_ne_none hall q'

def rangeDef : ClassDef where
  name := "Range"
  kind := .plain
  isAbstract := false
  typeParams := [⟨10⟩]

def rangeStore : Store where
  classes := Platform.store.classes ++ [⟨"Range", some rangeDef⟩]
  typeParams := Platform.store.typeParams ++
    [⟨"T", .ofUppers [Platform.plain .number, Platform.comparableOf (.var ⟨10⟩)]⟩]

def swappedRangeStore : Store :=
  rangeStore.setUppers ⟨10⟩ [Platform.comparableOf (.var ⟨10⟩), Platform.plain .number]

theorem acyclic_range : rangeStore.Acyclic :=
  .of_heights platformHeight (fun _ _ => rfl) (by decide)

theorem declaresNoLower_range : rangeStore.DeclaresNoLower :=
  .of_classes (by decide)

/-- With the two upper bounds of `T` swapped, `T` is still below `Number`, and `Range` is given
`Integer` and nothing else. -/
theorem agree_of_reorders_range :
    rangeStore.Reorders swappedRangeStore ∧ (∀ q, rangeStore.Ends q) ∧
    swappedRangeStore.subtype? (.var ⟨10⟩) (Platform.plain .number) = some true ∧
    swappedRangeStore.substitutions ⟨19⟩ pairUniverse (some 1) =
      .ok [{ vars := [⟨10⟩], types := [Platform.plain .integer] }] := by
  have hreorders : rangeStore.Reorders swappedRangeStore :=
    @reorders_setUppers rangeStore ⟨10⟩ _ _ "T" rfl (List.Perm.swap _ _ [])
  obtain ⟨-, hsubtype, -, hrun, hends⟩ := agree_of_reorders _ _ hreorders
  have hall : ∀ q, rangeStore.Ends q :=
    hends fun sub sup => answer?_ne_none_of_declaresNoLower acyclic_range declaresNoLower_range _
  have hnumber : rangeStore.subtype? (.var ⟨10⟩) (Platform.plain .number) = some true := by
    cbv
  have hinteger : rangeStore.substitutions ⟨19⟩ pairUniverse (some 1) =
      .ok [{ vars := [⟨10⟩], types := [Platform.plain .integer] }] := by
    cbv
  obtain ⟨hrunAgrees, hrunEnds⟩ := hrun ⟨19⟩ pairUniverse (some 1)
  obtain ⟨hdecides, hdecides'⟩ := hrunEnds fun bound σ t _ upper _ => hall _
  have hcode := hrunAgrees hdecides hdecides'
  refine ⟨hreorders, hall, ?_, ?_⟩
  · rw [((hsubtype _ _).2 (hall _)).2, hnumber]
  · rw [hinteger] at hcode
    cases hswapped : swappedRangeStore.substitutions ⟨19⟩ pairUniverse (some 1) with
    | error e =>
        rw [hswapped] at hcode
        cases hcode
    | ok valid =>
        rw [hswapped] at hcode
        exact congrArg Except.ok (Except.ok.inj hcode)

end CallCatalog.Store
