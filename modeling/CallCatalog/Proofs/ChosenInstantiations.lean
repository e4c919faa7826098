import CallCatalog.Proofs.BoundChecks
import CallCatalog.Proofs.TupleLimit

namespace CallCatalog

namespace Substitution

theorem map_fst_toList (σ : Substitution) : σ.toList.map Prod.fst = σ.vars :=
  List.map_fst_zip σ.length_eq.le

theorem map_apply_vars {σ : Substitution} (h : σ.vars.Nodup) :
    σ.vars.map (fun v => σ.apply (.var v)) = σ.types := by
  have hreplaced : ∀ p ∈ σ.toList, σ.apply (.var p.1) = p.2 := by
    intro p hp
    have hsome : σ.toAssignment p.1 = some p.2 :=
      Assignment.ofPairs_eq_some_of_mem (by rwa [σ.map_fst_toList]) hp
    rw [apply, Ty.subst, hsome, Option.getD_some]
  calc σ.vars.map (fun v => σ.apply (.var v))
      = σ.toList.map (fun p => σ.apply (.var p.1)) := by
        rw [← σ.map_fst_toList, List.map_map]
        rfl
    _ = σ.toList.map Prod.snd := List.map_congr_left hreplaced
    _ = σ.types := List.map_snd_zip σ.length_eq.ge

theorem applyClass_declaredType {σ : Substitution} {d : ClassDef} (hvars : σ.vars = d.typeParams)
    (hnodup : d.typeParams.Nodup) (id : ClassId) :
    σ.applyClass (d.declaredType id) = ⟨id, σ.types⟩ := by
  have htypes : d.typeParams.map (fun v => σ.apply (.var v)) = σ.types := by
    rw [← hvars] at hnodup ⊢
    exact map_apply_vars hnodup
  simp only [applyClass, ClassType.subst, ClassDef.declaredType, List.map_map, ← htypes]
  rfl

end Substitution

namespace Store

variable {s : Store} {u : Universe} {id : ClassId} {d : ClassDef} {limit : Option Nat}
  {valid : List Substitution} {σ : Substitution} {e : InstantiationError}

theorem substitutions_error_cases (hd : s.classDef? id = some d)
    (h : s.substitutions id u limit = .error e) :
    (∃ param referenced, e = .malformedBounds d.name param referenced) ∨
      ∃ n, e = .tooManyTuples d.name n := by
  cases hbounds : s.boundedParams d.name [] d.typeParams with
  | error e' =>
      rw [substitutions_of_refused hd hbounds] at h
      cases h
      obtain ⟨param, referenced, rfl, -⟩ := boundedParams_eq_error_iff.mp hbounds
      exact Or.inl ⟨param, referenced, rfl⟩
  | ok params =>
      rw [substitutions_of_accepted hd hbounds] at h
      split at h
      · cases h
      · cases h
        exact Or.inr ⟨_, rfl⟩

theorem accepted_of_substitutions (hd : s.classDef? id = some d)
    (h : s.substitutions id u limit = .ok valid) :
    ∃ params, s.boundedParams d.name [] d.typeParams = .ok params := by
  cases haccepted : s.boundedParams d.name [] d.typeParams with
  | ok params => exact ⟨params, rfl⟩
  | error e =>
      rw [substitutions_of_refused hd haccepted] at h
      cases h

theorem substitutions_none_of_eq_ok (hd : s.classDef? id = some d)
    (h : s.substitutions id u limit = .ok valid) : s.substitutions id u none = .ok valid := by
  obtain ⟨params, haccepted⟩ := accepted_of_substitutions hd h
  cases limit with
  | none => exact h
  | some limit =>
      by_cases hover : s.Overflows u [] params [[]] limit
      · rw [substitutions_some_of_overflows hd haccepted hover] at h
        cases h
      · rwa [substitutions_some_of_not_overflows hd haccepted hover] at h

theorem isSatisfiedBy_of_mem_substitutions (hd : s.classDef? id = some d)
    (hproper : s.ProperParams d) (h : s.substitutions id u limit = .ok valid) (hσ : σ ∈ valid)
    {v : TypeVarId} {t : Ty} (hmem : (v, t) ∈ σ.toList) :
    ∃ p, s.typeParam? v = some p ∧ p.bound.isSatisfiedBy s σ.toAssignment t := by
  obtain ⟨params, haccepted⟩ := accepted_of_substitutions hd h
  have hlist := substitutions_none_of_eq_ok hd h
  rw [substitutions_eq hd haccepted hproper, Except.ok.injEq] at hlist
  rw [← hlist] at hσ
  obtain ⟨hvars, htypes⟩ := mem_toSubstitutions_iff.mp hσ
  rw [← hvars] at haccepted
  have hsat : s.SatisfiesBounds σ :=
    (satisfiesAll_iff haccepted).mp (List.mem_filter.mp htypes).2
  obtain ⟨hfst, hbounds, -⟩ := boundedParams_eq_ok haccepted
  have hv : v ∈ params.map Prod.fst := by
    rw [hfst, ← σ.map_fst_toList]
    exact List.mem_map_of_mem hmem
  obtain ⟨q, hq, rfl⟩ := List.mem_map.mp hv
  obtain ⟨p, hp, -⟩ := hbounds q hq
  exact ⟨p, hp, hsat q.1 t hmem p hp⟩

end Store

theorem Resolver.choose_eq_some (r : Resolver) {count : Nat} (h : 0 < count) :
    ∃ i, (r.choose count).1 = some i ∧ i < count ∧ (r.options.selection = .first → i = 0) := by
  have hne : count ≠ 0 := Nat.ne_of_gt h
  unfold choose
  cases hselection : r.options.selection with
  | first => exact ⟨0, if_neg hne, h, fun _ => rfl⟩
  | random =>
      dsimp only
      rw [Randomness.nextIndex_of_pos _ h]
      exact ⟨_, rfl, (Randomness.drawIndex ⟨count, h⟩ r.randomness).1.isLt,
        fun hfirst => nomatch hfirst⟩

/-- An instantiation that rests on one of the substitutions: the class over the types that are given
to its type parameters. They have been observed, and they satisfy all bounds together. -/
structure Instantiation.RestsOn (i : Instantiation) (s : Store) (id : ClassId) (d : ClassDef)
    (u : Universe) (valid : List Substitution) : Prop where
  mem : i.substitution ∈ valid
  vars : i.substitution.vars = d.typeParams
  classType : i.classType = ⟨id, i.substitution.types⟩
  isConcrete : i.classType.isConcrete
  observed : ∀ t ∈ i.classType.args, t ∈ u
  satisfied : ∀ v t, (v, t) ∈ d.typeParams.zip i.classType.args → ∃ p, s.typeParam? v = some p ∧
    p.bound.isSatisfiedBy s (.ofPairs (d.typeParams.zip i.classType.args)) t

namespace Resolver

variable {s : Store} {u : Universe} {id : ClassId} {d : ClassDef} {valid : List Substitution}

theorem pick_spec (r : Resolver) (d : ClassDef) (id : ClassId) (valid : List Substitution) :
    (valid = [] → (r.pick d id valid).1 = .error (.unresolvable d.name)) ∧
      (valid ≠ [] → ∃ σ ∈ valid,
        (r.pick d id valid).1 = .ok ⟨σ.applyClass (d.declaredType id), σ⟩ ∧
          (r.options.selection = .first → valid.head? = some σ)) := by
  unfold pick
  constructor
  · rintro rfl
    dsimp only
    cases (r.choose ([] : List Substitution).length).1 <;> rfl
  · intro hne
    obtain ⟨i, hchoose, hlt, hfirst⟩ := r.choose_eq_some (List.length_pos_iff.mpr hne)
    have hget : valid[i]? = some valid[i] := List.getElem?_eq_getElem hlt
    refine ⟨valid[i], List.getElem_mem hlt, ?_, ?_⟩
    · simp only [hchoose, Option.bind_some, hget]
    · intro hselection
      rw [List.head?_eq_getElem?, ← hfirst hselection, hget]

theorem restsOn_of_mem {limit : Option Nat} {σ : Substitution} (hd : s.classDef? id = some d)
    (hproper : s.ProperParams d) (hvalid : s.substitutions id u limit = .ok valid)
    (hσ : σ ∈ valid) :
    Instantiation.RestsOn ⟨σ.applyClass (d.declaredType id), σ⟩ s id d u valid := by
  have hcloses := closes_of_mem_substitutions hd hvalid hσ
  obtain ⟨hvars, htypes⟩ := Store.mem_substitutions hd hvalid hσ
  have htype := Substitution.applyClass_declaredType hvars hproper.nodup id
  refine ⟨hσ, hvars, htype, hcloses.isConcrete_applyClass id, ?_, ?_⟩
  · intro t ht
    rw [htype] at ht
    exact (Universe.mem_candidates.mp (htypes t ht)).1
  · simp only [htype, ← hvars]
    intro v t hmem
    exact Store.isSatisfiedBy_of_mem_substitutions hd hproper hvalid hσ hmem

/-- Instantiating a generic class with distinct type parameters whose bounds were made from upper
types fails as the enumeration does, or because the list is empty, or else gives an instantiation
that rests on a listed substitution, the first one if that is asked for. No other failure occurs. -/
theorem instantiate_spec (r : Resolver) (s : Store) (id : ClassId) (u : Universe) (d : ClassDef)
    (hd : s.classDef? id = some d) (hgeneric : d.isGeneric) (hproper : s.ProperParams d) :
    (∀ e, s.substitutions id u r.options.maxTuples = .error e →
      (r.instantiate s id u).1 = .error e) ∧
    (∀ name, (r.instantiate s id u).1 = .error (.unresolvable name) ↔
      name = d.name ∧ s.substitutions id u r.options.maxTuples = .ok []) ∧
    (∀ valid, s.substitutions id u r.options.maxTuples = .ok valid → valid ≠ [] →
      ∃ i, (r.instantiate s id u).1 = .ok i ∧ i.RestsOn s id d u valid ∧
        (r.options.selection = .first → valid.head? = some i.substitution)) ∧
    ∀ name type, (r.instantiate s id u).1 ≠ .error (.stillGeneric name type) := by
  rw [instantiate_eq r hd, if_pos hgeneric]
  cases hvalid : s.substitutions id u r.options.maxTuples with
  | error e =>
      -- neither of the two complaints is an error of the enumeration
      rcases Store.substitutions_error_cases hd hvalid with ⟨param, referenced, rfl⟩ | ⟨n, rfl⟩
      · simp
      · simp
  | ok valid =>
      obtain ⟨hempty, hpicked⟩ := r.pick_spec d id valid
      by_cases hne : valid = []
      · subst hne
        simp [hempty rfl, eq_comm]
      · obtain ⟨σ, hσ, hpick, hfirst⟩ := hpicked hne
        dsimp only
        rw [hpick]
        refine ⟨by simp, by simp [hne], ?_, by simp⟩
        intro valid' hsame _
        cases hsame
        exact ⟨_, rfl, restsOn_of_mem hd hproper hvalid hσ, hfirst⟩

/-- The pair class has substitutions, and a resolver that picks at random finds one of them. -/
theorem instantiate_spec_pair :
    Store.pairStore.classDef? ⟨19⟩ = some Store.pairDef ∧ Store.pairDef.isGeneric ∧
      Store.pairStore.ProperParams Store.pairDef ∧
      ∃ valid, Store.pairStore.substitutions ⟨19⟩ Store.pairUniverse (some defaultMaxTuples) =
          .ok valid ∧ valid ≠ [] ∧
        ∃ i, (({} : Resolver).instantiate Store.pairStore ⟨19⟩ Store.pairUniverse).1 = .ok i ∧
          i.RestsOn Store.pairStore ⟨19⟩ Store.pairDef Store.pairUniverse valid := by
  obtain ⟨-, -, hchosen, -⟩ := instantiate_spec {} Store.pairStore ⟨19⟩ Store.pairUniverse
    Store.pairDef rfl rfl Store.properParams_pair
  have hlist : (Store.pairStore.substitutions ⟨19⟩ Store.pairUniverse
      (some defaultMaxTuples)).toOption.map (·.isEmpty) = some false := by
    cbv
  cases hvalid : Store.pairStore.substitutions ⟨19⟩ Store.pairUniverse (some defaultMaxTuples) with
  | error e =>
      rw [hvalid] at hlist
      cases hlist
  | ok valid =>
      have hne : valid ≠ [] := by
        rintro rfl
        rw [hvalid] at hlist
        cases hlist
      obtain ⟨i, hi, hrests, -⟩ := hchosen valid hvalid hne
      exact ⟨rfl, rfl, Store.properParams_pair, valid, rfl, hne, i, hi, hrests⟩

end Resolver

end CallCatalog
