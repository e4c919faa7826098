import CallCatalog.Instantiation.Enumerate
import CallCatalog.Proofs.BoundVariables
import CallCatalog.Types.Platform
import Mathlib.Data.List.Lex
import Mathlib.Data.List.Nodup

/-!
What the enumeration of substitutions gives. Both ways of enumerating keep, at every step, those
tuples of candidates that fit the parameters treated so far; they differ only in when they look at a
bound.
-/

namespace CallCatalog

namespace Universe

def Before (u : Universe) (a b : Ty) : Prop := u.toList.idxOf a < u.toList.idxOf b

def tuples (u : Universe) : Nat → List (List Ty)
  | 0 => [[]]
  | n + 1 => (u.tuples n).flatMap fun tuple => u.candidates.map (tuple ++ [·])

variable {u : Universe}

theorem mem_candidates {t : Ty} : t ∈ u.candidates ↔ t ∈ u ∧ t.isReference ∧ t.isConcrete := by
  simp [candidates, OrderedSet.mem_def]

theorem length_of_mem_tuples {n : Nat} {tuple : List Ty} (h : tuple ∈ u.tuples n) :
    tuple.length = n := by
  induction n generalizing tuple with
  | zero =>
      have htuple : tuple = [] := by simpa [tuples] using h
      simp [htuple]
  | succ n ih =>
      simp only [tuples, List.mem_flatMap, List.mem_map] at h
      obtain ⟨front, hfront, t, -, rfl⟩ := h
      simp [ih hfront]

theorem mem_tuples_iff {n : Nat} {tuple : List Ty} :
    tuple ∈ u.tuples n ↔ tuple.length = n ∧ ∀ t ∈ tuple, t ∈ u.candidates := by
  induction n generalizing tuple with
  | zero =>
      constructor
      · intro h
        have htuple : tuple = [] := by simpa [tuples] using h
        simp [htuple]
      · rintro ⟨hlen, -⟩
        simp [tuples, List.eq_nil_of_length_eq_zero hlen]
  | succ n ih =>
      constructor
      · intro h
        refine ⟨length_of_mem_tuples h, ?_⟩
        simp only [tuples, List.mem_flatMap, List.mem_map] at h
        obtain ⟨front, hfront, t, ht, rfl⟩ := h
        intro t' ht'
        rcases List.mem_append.mp ht' with ht' | ht'
        · exact (ih.mp hfront).2 t' ht'
        · rw [List.mem_singleton.mp ht']
          exact ht
      · rintro ⟨hlen, hmem⟩
        rcases List.eq_nil_or_concat tuple with rfl | ⟨front, t, rfl⟩
        · simp at hlen
        · rw [List.concat_eq_append] at hlen hmem ⊢
          simp only [tuples, List.mem_flatMap, List.mem_map]
          refine ⟨front, ih.mpr ⟨by simpa using hlen, ?_⟩, t, hmem t (by simp), rfl⟩
          intro t' ht'
          exact hmem t' (by simp [ht'])

/-- One step of any enumeration: if a longer tuple is kept exactly when its front was kept and its
last component is allowed after that front, then extending the kept tuples by what is allowed gives
the kept longer tuples. -/
theorem flatMap_filter_tuples {n : Nat} {keep keepNext : List Ty → Bool}
    {allow : List Ty → Ty → Bool}
    (h : ∀ tuple ∈ u.tuples n, ∀ t ∈ u.candidates,
      keepNext (tuple ++ [t]) = (keep tuple && allow tuple t)) :
    ((u.tuples n).filter keep).flatMap
        (fun tuple => (u.candidates.filter (allow tuple)).map (tuple ++ [·])) =
      (u.tuples (n + 1)).filter keepNext := by
  rw [tuples, List.filter_flatMap]
  generalize u.tuples n = fronts at h ⊢
  induction fronts with
  | nil => rfl
  | cons tuple rest ih =>
      have hrest := ih fun tuple' hmem => h tuple' (by simp [hmem])
      have hhead : (u.candidates.map (tuple ++ [·])).filter keepNext =
          (u.candidates.filter fun t => keep tuple && allow tuple t).map (tuple ++ [·]) := by
        rw [List.filter_map]
        congr 1
        apply List.filter_congr
        intro t ht
        exact h tuple (by simp) t ht
      rw [List.flatMap_cons, hhead]
      cases hkeep : keep tuple with
      | false => simp [hkeep, hrest]
      | true => simp [hkeep, hrest]

end Universe

/-- No two parameters are the same, every bound was made from upper types, and it speaks only of its
own parameter and of earlier ones. -/
structure WellScoped (params : List (TypeVarId × Bound)) : Prop where
  nodup : (params.map Prod.fst).Nodup
  built : ∀ p ∈ params, p.2.IsBuilt
  looksBack : ∀ before p after, params = before ++ p :: after →
    ∀ v ∈ p.2.vars, v ∈ before.map Prod.fst ++ [p.1]

namespace WellScoped

variable {front : List (TypeVarId × Bound)} {v : TypeVarId} {bound : Bound}

theorem left {rest : List (TypeVarId × Bound)} (h : WellScoped (front ++ rest)) :
    WellScoped front where
  nodup := by
    have hnodup := h.nodup
    rw [List.map_append] at hnodup
    exact hnodup.of_append_left
  built p hp := h.built p (List.mem_append_left _ hp)
  looksBack before p after heq := by
    apply h.looksBack before p (after ++ rest)
    simp [heq]

theorem mem_of_mem_vars {params : List (TypeVarId × Bound)} (h : WellScoped params)
    {p : TypeVarId × Bound} (hp : p ∈ params) {w : TypeVarId} (hw : w ∈ p.2.vars) :
    w ∈ params.map Prod.fst := by
  obtain ⟨before, after, rfl⟩ := List.append_of_mem hp
  have hback := h.looksBack before p after rfl w hw
  rcases List.mem_append.mp hback with hbefore | hself
  · simp only [List.map_append, List.mem_append]
    exact Or.inl hbefore
  · simp [List.mem_singleton.mp hself]

theorem notMem_of_concat (h : WellScoped (front ++ [(v, bound)])) : v ∉ front.map Prod.fst := by
  have hnodup := h.nodup
  rw [List.map_append, List.nodup_append] at hnodup
  intro hv
  exact hnodup.2.2 v hv v (by simp) rfl

end WellScoped

namespace Store

variable {s : Store} {u : Universe} {front : List (TypeVarId × Bound)} {v : TypeVarId}
  {bound : Bound}

/-- What extraction ensures of the type parameters of a class: no two are the same, and every bound
was made from a declared list of upper types. -/
structure ProperParams (s : Store) (d : ClassDef) : Prop where
  nodup : d.typeParams.Nodup
  built : ∀ v ∈ d.typeParams, ∀ p, s.typeParam? v = some p → p.bound.IsBuilt

theorem boundedParams_cons_eq_ok {className : String} {earlier vs : List TypeVarId}
    {params : List (TypeVarId × Bound)}
    (h : s.boundedParams className earlier (v :: vs) = .ok params) :
    ∃ p rest, s.typeParam? v = some p ∧ (∀ w ∈ p.bound.vars, w ∈ earlier ++ [v]) ∧
      s.boundedParams className (earlier ++ [v]) vs = .ok rest ∧
      params = (v, p.bound) :: rest := by
  rw [boundedParams] at h
  split at h
  · cases h
  · rename_i p hp
    split at h
    · cases h
    · split at h
      · cases h
      · rename_i hfind
        cases hrest : s.boundedParams className (earlier ++ [v]) vs with
        | error e =>
            rw [hrest] at h
            cases h
        | ok rest =>
            rw [hrest] at h
            cases h
            refine ⟨p, rest, hp, ?_, rfl, rfl⟩
            intro w hw
            have hnot := List.find?_eq_none.mp hfind w hw
            exact Decidable.not_not.mp fun hout => hnot (decide_eq_true hout)

theorem boundedParams_eq_ok {className : String} {earlier vs : List TypeVarId}
    {params : List (TypeVarId × Bound)} (h : s.boundedParams className earlier vs = .ok params) :
    params.map Prod.fst = vs ∧
      (∀ p ∈ params, ∃ q, s.typeParam? p.1 = some q ∧ q.bound = p.2) ∧
      ∀ before p after, params = before ++ p :: after →
        ∀ w ∈ p.2.vars, w ∈ earlier ++ before.map Prod.fst ++ [p.1] := by
  induction vs generalizing earlier params with
  | nil =>
      cases h
      refine ⟨rfl, by simp, ?_⟩
      intro before p after heq
      simp at heq
  | cons v vs ih =>
      obtain ⟨q, rest, hq, hvars, hrest, rfl⟩ := boundedParams_cons_eq_ok h
      obtain ⟨hfst, hbounds, hback⟩ := ih hrest
      refine ⟨by simp [hfst], ?_, ?_⟩
      · intro p hp
        rcases List.mem_cons.mp hp with rfl | hp
        · exact ⟨q, hq, rfl⟩
        · exact hbounds p hp
      · intro before p after heq w hw
        rcases before with _ | ⟨b, before⟩
        · simp only [List.nil_append, List.cons.injEq] at heq
          obtain ⟨rfl, -⟩ := heq
          simpa using hvars w hw
        · simp only [List.cons_append, List.cons.injEq] at heq
          obtain ⟨rfl, heq⟩ := heq
          simpa using hback before p after heq w hw

theorem built_of_boundedParams {className : String} {earlier vs : List TypeVarId}
    {params : List (TypeVarId × Bound)} (h : s.boundedParams className earlier vs = .ok params)
    (hbuilt : ∀ v ∈ vs, ∀ p, s.typeParam? v = some p → p.bound.IsBuilt) :
    ∀ p ∈ params, p.2.IsBuilt := by
  intro p hp
  obtain ⟨hfst, hbounds, -⟩ := boundedParams_eq_ok h
  obtain ⟨q, hq, hbound⟩ := hbounds p hp
  have hmem : p.1 ∈ vs := by
    rw [← hfst]
    exact List.mem_map_of_mem hp
  rw [← hbound]
  exact hbuilt p.1 hmem q hq

theorem wellScoped_of_boundedParams {d : ClassDef} {params : List (TypeVarId × Bound)}
    (hd : s.ProperParams d) (h : s.boundedParams d.name [] d.typeParams = .ok params) :
    WellScoped params := by
  obtain ⟨hfst, -, hback⟩ := boundedParams_eq_ok h
  refine ⟨?_, built_of_boundedParams h hd.built, ?_⟩
  · rw [hfst]
    exact hd.nodup
  · intro before p after heq w hw
    simpa using hback before p after heq w hw

/-- The tuples of candidates that satisfy the bounds of the parameters. -/
def validTuples (s : Store) (u : Universe) (params : List (TypeVarId × Bound)) : List (List Ty) :=
  (u.tuples params.length).filter (s.satisfiesAll params)

def admitsEach (s : Store) (params : List (TypeVarId × Bound)) (tuple : List Ty) : Bool :=
  (params.zip tuple).all fun p => p.1.2.admits s p.2

def admittedTuples (s : Store) (u : Universe) (params : List (TypeVarId × Bound)) :
    List (List Ty) :=
  (u.tuples params.length).filter (s.admitsEach params)

theorem selectCandidates_eq (hbuilt : bound.IsBuilt) (σ : Assignment) :
    s.selectCandidates v bound u σ =
      u.candidates.filter fun t => bound.isSatisfiedBy s (σ.set v t) t := by
  unfold selectCandidates
  split
  · rfl
  · -- the bound does not speak of the parameter itself, so its value makes no difference
    rename_i hv
    apply List.filter_congr
    intro t _
    apply Bound.isSatisfiedBy_congr hbuilt
    intro w hw
    have hne : w ≠ v := by
      rintro rfl
      exact hv hw
    rw [Assignment.set_ne σ t hne]

theorem satisfiesAll_concat (h : WellScoped (front ++ [(v, bound)])) {tuple : List Ty} {t : Ty}
    (hlen : tuple.length = front.length) :
    s.satisfiesAll (front ++ [(v, bound)]) (tuple ++ [t]) =
      (s.satisfiesAll front tuple &&
        bound.isSatisfiedBy s
          ((Assignment.ofPairs ((front.map Prod.fst).zip tuple)).set v t) t) := by
  have hfrontLen : (front.map Prod.fst).length = tuple.length := by simp [hlen]
  have hassign : Assignment.ofPairs (((front ++ [(v, bound)]).map Prod.fst).zip (tuple ++ [t])) =
      (Assignment.ofPairs ((front.map Prod.fst).zip tuple)).set v t := by
    rw [List.map_append, List.zip_append hfrontLen]
    exact Assignment.ofPairs_concat _ v t
  unfold satisfiesAll
  rw [hassign, List.zip_append hlen.symm, List.all_append]
  congr 1
  · -- the bounds in front do not look at the last component
    rw [Bool.eq_iff_iff, List.all_eq_true, List.all_eq_true]
    apply forall₂_congr
    rintro ⟨p, t'⟩ hmem
    have hp : p ∈ front := (List.of_mem_zip hmem).1
    have hsame : ∀ w ∈ p.2.vars,
        (Assignment.ofPairs ((front.map Prod.fst).zip tuple)).set v t w =
          Assignment.ofPairs ((front.map Prod.fst).zip tuple) w := by
      intro w hw
      have hmemFront := h.left.mem_of_mem_vars hp hw
      have hne : w ≠ v := by
        rintro rfl
        exact h.notMem_of_concat hmemFront
      exact Assignment.set_ne _ t hne
    simp only [Bound.isSatisfiedBy_congr (h.left.built p hp) hsame]
  · simp

theorem validTuples_concat (h : WellScoped (front ++ [(v, bound)])) :
    (s.validTuples u front).flatMap
        (fun tuple => (s.selectCandidates v bound u
          (.ofPairs ((front.map Prod.fst).zip tuple))).map (tuple ++ [·])) =
      s.validTuples u (front ++ [(v, bound)]) := by
  have hbuilt : bound.IsBuilt := h.built (v, bound) (by simp)
  simp only [selectCandidates_eq hbuilt]
  rw [validTuples, validTuples, List.length_append]
  apply Universe.flatMap_filter_tuples
  intro tuple htuple t _
  exact satisfiesAll_concat h (Universe.length_of_mem_tuples htuple)

theorem admitsEach_concat {tuple : List Ty} {t : Ty} (hlen : tuple.length = front.length) :
    s.admitsEach (front ++ [(v, bound)]) (tuple ++ [t]) =
      (s.admitsEach front tuple && bound.admits s t) := by
  rw [admitsEach, List.zip_append hlen.symm, List.all_append]
  simp [admitsEach]

theorem admittedTuples_concat (s : Store) (u : Universe) (front : List (TypeVarId × Bound))
    (v : TypeVarId) (bound : Bound) :
    (s.admittedTuples u front).flatMap
        (fun tuple => (s.selectIndependentCandidates bound u).map (tuple ++ [·])) =
      s.admittedTuples u (front ++ [(v, bound)]) := by
  rw [admittedTuples, admittedTuples, List.length_append]
  apply Universe.flatMap_filter_tuples
  intro tuple htuple t _
  exact admitsEach_concat (Universe.length_of_mem_tuples htuple)

theorem filter_admittedTuples {params : List (TypeVarId × Bound)} :
    (s.admittedTuples u params).filter (s.satisfiesAll params) = s.validTuples u params := by
  rw [admittedTuples, List.filter_filter, validTuples]
  apply List.filter_congr
  intro tuple htuple
  have hadmits : s.satisfiesAll params tuple → s.admitsEach params tuple := by
    intro hsat
    simp only [satisfiesAll, List.all_eq_true] at hsat
    simp only [admitsEach, List.all_eq_true]
    intro p hp
    have hcandidate := (Universe.mem_tuples_iff.mp htuple).2 p.2 (List.of_mem_zip hp).2
    exact Bound.admits_of_isSatisfiedBy (Universe.mem_candidates.mp hcandidate).2.1 p.1.2
      (hsat p hp)
  rw [Bool.eq_iff_iff, Bool.and_eq_true]
  exact ⟨fun hboth => hboth.1, fun hsat => ⟨hsat, hadmits hsat⟩⟩

theorem extendByParams_validTuples (front : List (TypeVarId × Bound))
    {params : List (TypeVarId × Bound)} (h : WellScoped (front ++ params)) :
    s.extendByParams u (front.map Prod.fst) params ⟨s.validTuples u front, none⟩ =
      .ok ⟨s.validTuples u (front ++ params), none⟩ := by
  induction params generalizing front with
  | nil => simp [extendByParams]
  | cons p params ih =>
      obtain ⟨v, bound⟩ := p
      have hsplit : front ++ (v, bound) :: params = front ++ [(v, bound)] ++ params := by simp
      rw [hsplit] at h ⊢
      rw [extendByParams, TupleSet.extendWith_eq]
      simp only [validTuples_concat h.left]
      have hrest := ih (front ++ [(v, bound)]) h
      rw [List.map_append] at hrest
      exact hrest

theorem extendIndependently_admittedTuples (front params : List (TypeVarId × Bound)) :
    s.extendIndependently u params ⟨s.admittedTuples u front, none⟩ =
      .ok ⟨s.admittedTuples u (front ++ params), none⟩ := by
  induction params generalizing front with
  | nil => simp [extendIndependently]
  | cons p params ih =>
      obtain ⟨v, bound⟩ := p
      have hsplit : front ++ (v, bound) :: params = front ++ [(v, bound)] ++ params := by simp
      rw [hsplit, extendIndependently, TupleSet.extend, TupleSet.extendWith_eq]
      simp only [admittedTuples_concat s u front v bound]
      exact ih (front ++ [(v, bound)])

section Outcomes

variable {id : ClassId} {d : ClassDef} {params : List (TypeVarId × Bound)} {limit : Option Nat}

theorem substitutions_of_undefined (hd : s.classDef? id = none) :
    s.substitutions id u limit = .error (.unknownClass id) := by
  simp only [substitutions, definedClass, hd, bind, Except.bind]

theorem substitutions_of_refused (hd : s.classDef? id = some d) {e : InstantiationError}
    (hrefused : s.boundedParams d.name [] d.typeParams = .error e) :
    s.substitutions id u limit = .error e := by
  simp only [substitutions, definedClass, hd, hrefused, bind, Except.bind]

theorem substitutions_of_accepted (hd : s.classDef? id = some d)
    (haccepted : s.boundedParams d.name [] d.typeParams = .ok params) :
    s.substitutions id u limit = match s.extendByParams u [] params (.single limit) with
      | .ok set => .ok (set.toSubstitutions d.typeParams)
      | .error ⟨limit⟩ => .error (.tooManyTuples d.name limit) := by
  simp only [substitutions, definedClass, hd, haccepted, bind, Except.bind]
  rfl

end Outcomes

section Closed

variable {id : ClassId} {d : ClassDef} {params : List (TypeVarId × Bound)}
  (hd : s.classDef? id = some d)
  (hparams : s.boundedParams d.name [] d.typeParams = .ok params)

include hd hparams

theorem substitutions_eq (hproper : s.ProperParams d) :
    s.substitutions id u none =
      .ok (TupleSet.toSubstitutions ⟨s.validTuples u params, none⟩ d.typeParams) := by
  have hext : s.extendByParams u [] params (.single none) =
      .ok ⟨s.validTuples u params, none⟩ :=
    extendByParams_validTuples [] (wellScoped_of_boundedParams hproper hparams)
  rw [substitutions_of_accepted hd hparams, hext]

theorem substitutionsByProduct_eq :
    s.substitutionsByProduct id u =
      .ok (TupleSet.toSubstitutions ⟨s.validTuples u params, none⟩ d.typeParams) := by
  have hext : s.extendIndependently u params (.single none) =
      .ok ⟨s.admittedTuples u params, none⟩ :=
    extendIndependently_admittedTuples [] params
  simp only [substitutionsByProduct, definedClass, hd, hparams, bind, Except.bind, hext]
  simp only [TupleSet.retain, filter_admittedTuples]
  rfl

end Closed

def pairDef : ClassDef where
  name := "Pair"
  kind := .plain
  isAbstract := false
  typeParams := [⟨10⟩, ⟨11⟩]

def pairUniverse : Universe where
  toList := [Platform.plain .integer, Platform.plain .number, Platform.stringTy, Platform.intTy]
  nodup := by decide

/-- The platform's store with `Pair<T extends Comparable<T>, U extends T>` added. -/
def pairStore : Store where
  classes := Platform.store.classes ++ [⟨"Pair", some pairDef⟩]
  typeParams := Platform.store.typeParams ++
    [⟨"T", .ofUppers [Platform.comparableOf (.var ⟨10⟩)]⟩, ⟨"U", .ofUppers [.var ⟨10⟩]⟩]

theorem properParams_pair : pairStore.ProperParams pairDef where
  nodup := by decide
  built v hv p hp := by
    simp only [pairDef, List.mem_cons, List.not_mem_nil, or_false] at hv
    rcases hv with rfl | rfl
    · exact ⟨[Platform.comparableOf (.var ⟨10⟩)], by rw [← Option.some.inj hp]⟩
    · exact ⟨[.var ⟨10⟩], by rw [← Option.some.inj hp]⟩

example : (pairStore.substitutions ⟨19⟩ pairUniverse none).map (·.map Substitution.types) =
    .ok [[Platform.plain .integer, Platform.plain .integer],
      [Platform.stringTy, Platform.stringTy]] := by
  cbv

/-- Every parameter's type satisfies the bound that the store has for the parameter, when all
parameters have their types. -/
def SatisfiesBounds (s : Store) (σ : Substitution) : Prop :=
  ∀ v t, (v, t) ∈ σ.toList → ∀ p, s.typeParam? v = some p →
    p.bound.isSatisfiedBy s σ.toAssignment t

theorem satisfiesAll_iff {className : String} {params : List (TypeVarId × Bound)}
    {σ : Substitution} (hparams : s.boundedParams className [] σ.vars = .ok params) :
    s.satisfiesAll params σ.types ↔ s.SatisfiesBounds σ := by
  obtain ⟨hfst, hbounds, -⟩ := boundedParams_eq_ok hparams
  have hassign : Assignment.ofPairs ((params.map Prod.fst).zip σ.types) = σ.toAssignment := by
    rw [hfst]
    rfl
  simp only [satisfiesAll, hassign, List.all_eq_true]
  constructor
  · intro hall v t hmem p hp
    rw [Substitution.toList, ← hfst, List.zip_map_left, List.mem_map] at hmem
    obtain ⟨⟨⟨w, bound⟩, t'⟩, hzip, heq⟩ := hmem
    simp only [Prod.map, id, Prod.mk.injEq] at heq
    obtain ⟨rfl, rfl⟩ := heq
    obtain ⟨q, hq, hbound⟩ := hbounds (w, bound) (List.of_mem_zip hzip).1
    have hpq : p = q := Option.some.inj (hp.symm.trans hq)
    rw [hpq, hbound]
    exact hall _ hzip
  · rintro hsat ⟨⟨v, bound⟩, t⟩ hzip
    obtain ⟨q, hq, hbound⟩ := hbounds (v, bound) (List.of_mem_zip hzip).1
    have hmem : (v, t) ∈ σ.toList := by
      rw [Substitution.toList, ← hfst, List.zip_map_left, List.mem_map]
      exact ⟨((v, bound), t), hzip, rfl⟩
    have hboundSat := hsat v t hmem q hq
    rw [hbound] at hboundSat
    exact hboundSat

theorem mem_toSubstitutions_iff {set : TupleSet} {vars : List TypeVarId} {σ : Substitution} :
    σ ∈ set.toSubstitutions vars ↔ σ.vars = vars ∧ σ.types ∈ set.tuples := by
  simp only [TupleSet.toSubstitutions, List.mem_filterMap, Substitution.ofLists?_eq_some_iff]
  constructor
  · rintro ⟨tuple, htuple, hvars, rfl⟩
    exact ⟨hvars, htuple⟩
  · rintro ⟨hvars, htypes⟩
    exact ⟨σ.types, htypes, hvars, rfl⟩

end Store

namespace Universe

variable {u : Universe}

theorem pairwise_before (u : Universe) : u.toList.Pairwise u.Before := by
  rw [List.pairwise_iff_getElem]
  intro i j hi hj hij
  simpa [Before, u.nodup.idxOf_getElem] using hij

theorem lex_concat {r : Ty → Ty → Prop} {as bs : List Ty} (h : List.Lex r as bs)
    (hlen : as.length = bs.length) (a b : Ty) : List.Lex r (as ++ [a]) (bs ++ [b]) := by
  induction h with
  | nil => simp at hlen
  | cons _ ih => exact List.Lex.cons (ih (by simpa using hlen))
  | rel hab => exact List.Lex.rel hab

theorem pairwise_lex_tuples (u : Universe) (n : Nat) :
    (u.tuples n).Pairwise (List.Lex u.Before) := by
  induction n with
  | zero => simp [tuples]
  | succ n ih =>
      rw [tuples, List.pairwise_flatMap]
      constructor
      · intro front _
        rw [List.pairwise_map]
        have hcandidates : u.candidates.Pairwise u.Before :=
          u.pairwise_before.sublist List.filter_sublist
        apply hcandidates.imp
        intro a b hab
        exact List.Lex.append_left u.Before (List.Lex.rel hab) front
      · apply ih.imp_of_mem
        intro front front' hfront hfront' hlex tuple htuple tuple' htuple'
        obtain ⟨t, -, rfl⟩ := List.mem_map.mp htuple
        obtain ⟨t', -, rfl⟩ := List.mem_map.mp htuple'
        apply lex_concat hlex
        rw [length_of_mem_tuples hfront, length_of_mem_tuples hfront']

end Universe

namespace Store

theorem pairwise_lex_toSubstitutions (s : Store) (u : Universe)
    (params : List (TypeVarId × Bound)) (vars : List TypeVarId) :
    (TupleSet.toSubstitutions ⟨s.validTuples u params, none⟩ vars).Pairwise
      fun σ τ => List.Lex u.Before σ.types τ.types := by
  rw [TupleSet.toSubstitutions, List.pairwise_filterMap]
  have hvalid : (s.validTuples u params).Pairwise (List.Lex u.Before) :=
    (u.pairwise_lex_tuples params.length).sublist List.filter_sublist
  apply hvalid.imp
  intro tuple tuple' hlex σ hσ τ hτ
  rw [(Substitution.ofLists?_eq_some_iff.mp hσ).2, (Substitution.ofLists?_eq_some_iff.mp hτ).2]
  exact hlex

theorem substitutions_spec (s : Store) (id : ClassId) (u : Universe) (d : ClassDef)
    (params : List (TypeVarId × Bound)) (hd : s.classDef? id = some d)
    (hproper : s.ProperParams d)
    (haccepted : s.boundedParams d.name [] d.typeParams = .ok params) :
    ∃ valid, s.substitutions id u none = .ok valid ∧
      (∀ σ : Substitution, σ ∈ valid ↔
        σ.vars = d.typeParams ∧ (∀ t ∈ σ.types, t ∈ u ∧ t.isReference ∧ t.isConcrete) ∧
          s.SatisfiesBounds σ) ∧
      valid.Nodup ∧
      valid.Pairwise fun σ τ => List.Lex u.Before σ.types τ.types := by
  have hlex := pairwise_lex_toSubstitutions s u params d.typeParams
  refine ⟨_, substitutions_eq hd haccepted hproper, ?_, ?_, hlex⟩
  · intro σ
    rw [mem_toSubstitutions_iff]
    apply and_congr_right
    intro hvars
    rw [← hvars] at haccepted
    rw [validTuples, List.mem_filter, satisfiesAll_iff haccepted, Universe.mem_tuples_iff]
    have hlen : σ.types.length = params.length := by
      rw [← σ.length_eq, ← (boundedParams_eq_ok haccepted).1, List.length_map]
    simp only [hlen, true_and, Universe.mem_candidates]
  · apply hlex.imp
    rintro σ τ hστ rfl
    exact List.lex_irrefl (fun t => Nat.lt_irrefl (u.toList.idxOf t)) σ.types hστ

end Store

end CallCatalog
