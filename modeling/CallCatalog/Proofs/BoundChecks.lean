import CallCatalog.Proofs.FirstOccurrences
import CallCatalog.Proofs.Instantiations
import Mathlib.Data.List.Permutation

/-!
The check of the bounds before an enumeration, and what it is good for. A type parameter is at fault
if it is not declared, is its own upper bound or has a bound that speaks of a variable that comes
later or is no parameter at all; the first one at fault is reported. If none is at fault, then every
variable of a bound has a type whenever one of the two enumerations reads the bound.
-/

namespace CallCatalog

namespace Bound

variable {b : Bound} {s : Store} {σ : Assignment} {t : Ty}

theorem IsBuilt.mentionsVars_subst (hb : b.IsBuilt)
    (h : ∀ v ∈ b.vars, ∃ a, σ v = some a ∧ a.mentionsVars = false) :
    ∀ upper ∈ b.uppers, (upper.subst σ).mentionsVars = false := by
  intro upper hupper
  apply Ty.mentionsVars_subst_iff.mpr
  intro v hv
  exact h v (hb.mem_vars_of_mem_uppers hupper hv)

theorem isSatisfiedBy_ofUpper {upper : Ty} (hfree : (upper.subst σ).mentionsVars = false) :
    (ofUpper upper).isSatisfiedBy s σ t ↔ s.isSubtype t (upper.subst σ) := by
  refine ⟨isSubtype_of_isSatisfiedBy_ofUpper, fun hsub => ?_⟩
  unfold ofUpper
  split
  · rename_i hvars
    have hsame : upper.subst σ = upper.subst .empty := by
      apply Ty.subst_congr
      simp [List.isEmpty_iff.mp hvars]
    rwa [hsame, Ty.subst_empty] at hsub
  · simpa [isSatisfiedBy, hfree] using hsub

/-- The answer `holds` to whether `t` satisfies the bound under the values `σ` does not come from a
variable without a value: no upper type is left with a variable, and the answer is whether `t` is a
subtype of all of them. -/
structure Decided (b : Bound) (s : Store) (σ : Assignment) (t : Ty) (holds : Bool) : Prop where
  closed : ∀ upper ∈ b.uppers, (upper.subst σ).mentionsVars = false
  answer : holds ↔ ∀ upper ∈ b.uppers, s.isSubtype t (upper.subst σ)

theorem IsBuilt.decided (hb : b.IsBuilt) (ht : t.isReference)
    (h : ∀ v ∈ b.vars, ∃ a, σ v = some a ∧ a.mentionsVars = false) :
    b.Decided s σ t (b.isSatisfiedBy s σ t) := by
  have hclosed := hb.mentionsVars_subst h
  refine ⟨hclosed, fun hsat upper => isSubtype_of_isSatisfiedBy hb hsat, fun hsub => ?_⟩
  obtain ⟨uppers, rfl⟩ := hb
  rw [uppers_ofUppers] at hclosed hsub
  refine isSatisfiedBy_ofUppers_iff.mpr ⟨fun _ => ht, fun upper hupper => ?_⟩
  exact (isSatisfiedBy_ofUpper (hclosed upper hupper)).mpr (hsub upper hupper)

end Bound

namespace Store

variable {s : Store} {d : ClassDef} {u : Universe} {id : ClassId} {limit : Option Nat}
  {className name param referenced : String} {earlier vs : List TypeVarId} {v : TypeVarId}
  {e : InstantiationError}

/-- The parameter `v`, declared after `earlier`, is not in the store, is its own upper bound or has
a bound that refers to a variable which is neither `v` nor one of `earlier`. -/
def AtFault (s : Store) (earlier : List TypeVarId) (v : TypeVarId) : Prop :=
  s.typeParam? v = none ∨ ∃ p, s.typeParam? v = some p ∧
    (.var v ∈ p.bound.uppers ∨ ∃ w ∈ p.bound.vars, w ∉ earlier ++ [v])

/-- What is said of a parameter at fault: its name and the name of what it refers to. This is the
parameter itself if it is missing or its own upper bound, and else the first variable of its bound
that is neither itself nor declared earlier. -/
inductive Complains (s : Store) (earlier : List TypeVarId) (v : TypeVarId) :
    String → String → Prop
  | missing (undeclared : s.typeParam? v = none) :
      Complains s earlier v (s.varText v) (s.varText v)
  | itself {p : TypeParam} (declared : s.typeParam? v = some p)
      (cyclic : .var v ∈ p.bound.uppers) : Complains s earlier v p.name p.name
  | unknown {p : TypeParam} {before after : List TypeVarId} {w : TypeVarId}
      (declared : s.typeParam? v = some p) (acyclic : .var v ∉ p.bound.uppers)
      (vars : p.bound.vars = before ++ w :: after)
      (known : ∀ x ∈ before, x ∈ earlier ++ [v]) (stranger : w ∉ earlier ++ [v]) :
      Complains s earlier v p.name (s.varText w)

/-- Some type parameter of the class is at fault. -/
def MalformedBounds (s : Store) (d : ClassDef) : Prop :=
  ∃ before v after, d.typeParams = before ++ v :: after ∧ s.AtFault before v

/-- What is said of the first parameter at fault among `vs`, which are declared after `earlier`. -/
def ComplainsOfFirst (s : Store) (earlier vs : List TypeVarId) (param referenced : String) : Prop :=
  ∃ before v after, vs = before ++ v :: after ∧
    (∀ front w back, before = front ++ w :: back → ¬ s.AtFault (earlier ++ front) w) ∧
    s.Complains (earlier ++ before) v param referenced

theorem atFault_iff_exists_complains :
    s.AtFault earlier v ↔ ∃ param referenced, s.Complains earlier v param referenced := by
  constructor
  · rintro (hnone | ⟨p, hp, hfault⟩)
    · exact ⟨_, _, .missing hnone⟩
    by_cases hself : .var v ∈ p.bound.uppers
    · exact ⟨_, _, .itself hp hself⟩
    · obtain ⟨w, hw, hstranger⟩ := hfault.resolve_left hself
      have hsome : (p.bound.vars.find? (· ∉ earlier ++ [v])).isSome :=
        List.find?_isSome.mpr ⟨w, hw, decide_eq_true hstranger⟩
      obtain ⟨first, hfirst⟩ := Option.isSome_iff_exists.mp hsome
      obtain ⟨hstranger, before, after, hvars, hknown⟩ := List.find?_eq_some_iff_append.mp hfirst
      exact ⟨_, _, .unknown hp hself hvars (by simpa using hknown) (by simpa using hstranger)⟩
  · rintro ⟨param, referenced, h⟩
    cases h with
    | missing hnone => exact Or.inl hnone
    | itself hp hself => exact Or.inr ⟨_, hp, Or.inl hself⟩
    | @unknown p before after w hp _ hvars _ hstranger =>
        exact Or.inr ⟨p, hp, Or.inr ⟨w, by simp [hvars], hstranger⟩⟩

theorem complainsOfFirst_cons_iff : s.ComplainsOfFirst earlier (v :: vs) param referenced ↔
    s.Complains earlier v param referenced ∨
      ¬ s.AtFault earlier v ∧ s.ComplainsOfFirst (earlier ++ [v]) vs param referenced := by
  constructor
  · rintro ⟨before, w, after, hvs, hsound, hcomplains⟩
    cases before with
    | nil =>
        obtain ⟨rfl, -⟩ := List.cons.inj hvs
        exact Or.inl (by simpa using hcomplains)
    | cons x before =>
        obtain ⟨rfl, rfl⟩ := List.cons.inj hvs
        refine Or.inr ⟨by simpa using hsound [] v before rfl, before, w, after, rfl, ?_, ?_⟩
        · intro front x back hbefore
          simpa using hsound (v :: front) x back (by rw [hbefore]; rfl)
        · simpa using hcomplains
  · rintro (hcomplains | ⟨hv, before, w, after, rfl, hsound, hcomplains⟩)
    · exact ⟨[], v, vs, rfl, by simp, by simpa using hcomplains⟩
    · refine ⟨v :: before, w, after, rfl, ?_, by simpa using hcomplains⟩
      intro front x back hbefore
      cases front with
      | nil =>
          obtain ⟨rfl, -⟩ := List.cons.inj hbefore
          simpa using hv
      | cons y front =>
          obtain ⟨rfl, hrest⟩ := List.cons.inj hbefore
          simpa using hsound front x back hrest

theorem malformedBounds_iff_exists_complainsOfFirst : s.MalformedBounds d ↔
    ∃ param referenced, s.ComplainsOfFirst [] d.typeParams param referenced := by
  constructor
  · rintro ⟨before, v, after, hsplit, hfault⟩
    induction hn : before.length using Nat.strong_induction_on generalizing before v after with
    | _ n ih =>
        by_cases hearlier : ∃ front w back, before = front ++ w :: back ∧ s.AtFault front w
        · obtain ⟨front, w, back, rfl, hw⟩ := hearlier
          refine ih front.length ?_ front w (back ++ v :: after) (by simp [hsplit]) hw rfl
          rw [← hn, List.length_append, List.length_cons]
          omega
        · obtain ⟨param, referenced, hcomplains⟩ := atFault_iff_exists_complains.mp hfault
          refine ⟨param, referenced, before, v, after, hsplit, ?_, hcomplains⟩
          intro front w back hbefore hw
          exact hearlier ⟨front, w, back, hbefore, hw⟩
  · rintro ⟨param, referenced, before, v, after, hsplit, -, hcomplains⟩
    exact ⟨before, v, after, hsplit, atFault_iff_exists_complains.mpr ⟨_, _, hcomplains⟩⟩

theorem boundedParams_of_complains (h : s.Complains earlier v param referenced) :
    s.boundedParams className earlier (v :: vs) =
      .error (.malformedBounds className param referenced) := by
  rw [boundedParams]
  cases h with
  | missing hnone => simp only [hnone]
  | itself hp hself => simp only [hp, if_pos hself]
  | @unknown p before after w hp hself hvars hknown hstranger =>
      have hfirst : p.bound.vars.find? (· ∉ earlier ++ [v]) = some w := by
        rw [List.find?_eq_some_iff_append]
        exact ⟨by simpa using hstranger, before, after, hvars, by simpa using hknown⟩
      simp only [hp, if_neg hself, hfirst]

theorem boundedParams_of_not_atFault (h : ¬ s.AtFault earlier v) :
    ∃ p, s.typeParam? v = some p ∧ s.boundedParams className earlier (v :: vs) =
      (s.boundedParams className (earlier ++ [v]) vs).map ((v, p.bound) :: ·) := by
  rw [AtFault, not_or] at h
  obtain ⟨p, hp⟩ := Option.ne_none_iff_exists'.mp h.1
  have hsound : ¬ (.var v ∈ p.bound.uppers ∨ ∃ w ∈ p.bound.vars, w ∉ earlier ++ [v]) :=
    fun hfault => h.2 ⟨p, hp, hfault⟩
  rw [not_or] at hsound
  have hknown : p.bound.vars.find? (· ∉ earlier ++ [v]) = none := by
    rw [List.find?_eq_none]
    intro w hw hstranger
    exact hsound.2 ⟨w, hw, of_decide_eq_true hstranger⟩
  refine ⟨p, hp, ?_⟩
  rw [boundedParams]
  simp only [hp, if_neg hsound.1, hknown]

theorem boundedParams_eq_error_iff : s.boundedParams className earlier vs = .error e ↔
    ∃ param referenced, e = .malformedBounds className param referenced ∧
      s.ComplainsOfFirst earlier vs param referenced := by
  induction vs generalizing earlier with
  | nil =>
      rw [boundedParams]
      refine iff_of_false (by simp) ?_
      rintro ⟨param, referenced, -, before, v, after, hnil, -⟩
      simp at hnil
  | cons v vs ih =>
      simp only [complainsOfFirst_cons_iff]
      by_cases hfault : s.AtFault earlier v
      · obtain ⟨param, referenced, hcomplains⟩ := atFault_iff_exists_complains.mp hfault
        constructor
        · intro h
          rw [boundedParams_of_complains hcomplains] at h
          exact ⟨param, referenced, (Except.error.inj h).symm, Or.inl hcomplains⟩
        · rintro ⟨param', referenced', rfl, hcomplains' | ⟨hsound, -⟩⟩
          · exact boundedParams_of_complains hcomplains'
          · exact absurd hfault hsound
      · obtain ⟨p, -, hbound⟩ : ∃ p, s.typeParam? v = some p ∧
            s.boundedParams className earlier (v :: vs) =
              (s.boundedParams className (earlier ++ [v]) vs).map ((v, p.bound) :: ·) :=
          boundedParams_of_not_atFault hfault
        have hnone : ∀ param referenced, ¬ s.Complains earlier v param referenced :=
          fun param referenced h => hfault (atFault_iff_exists_complains.mpr ⟨_, _, h⟩)
        simp only [hnone, hfault, not_false_eq_true, true_and, false_or, ← ih, hbound]
        cases s.boundedParams className (earlier ++ [v]) vs with
        | ok rest => exact iff_of_false (by simp [Except.map]) (by simp)
        | error e' => simp [Except.map]

theorem bind_eq_error_iff {α β : Type} {x : Except InstantiationError α}
    {f : α → Except InstantiationError β} (hf : ∀ a, f a ≠ .error e) :
    (x >>= f) = .error e ↔ x = .error e := by
  cases x with
  | error e' => simp [bind, Except.bind]
  | ok a => exact iff_of_false (hf a) (by simp)

theorem substitutions_eq_malformed_iff (hd : s.classDef? id = some d) :
    s.substitutions id u limit = .error (.malformedBounds name param referenced) ↔
      s.boundedParams d.name [] d.typeParams =
        .error (.malformedBounds name param referenced) := by
  simp only [substitutions, definedClass, hd]
  change (s.boundedParams d.name [] d.typeParams >>= _) = _ ↔ _
  apply bind_eq_error_iff
  intro params h
  split at h <;> cases h

theorem substitutionsByProduct_eq_malformed_iff (hd : s.classDef? id = some d) :
    s.substitutionsByProduct id u = .error (.malformedBounds name param referenced) ↔
      s.boundedParams d.name [] d.typeParams =
        .error (.malformedBounds name param referenced) := by
  simp only [substitutionsByProduct, definedClass, hd]
  change (s.boundedParams d.name [] d.typeParams >>= _) = _ ↔ _
  apply bind_eq_error_iff
  intro params h
  split at h <;> cases h

theorem boundedParams_eq_malformed_iff :
    s.boundedParams className [] vs = .error (.malformedBounds name param referenced) ↔
      name = className ∧ s.ComplainsOfFirst [] vs param referenced := by
  rw [boundedParams_eq_error_iff]
  constructor
  · rintro ⟨param', referenced', heq, hcomplains⟩
    cases heq
    exact ⟨rfl, hcomplains⟩
  · rintro ⟨rfl, hcomplains⟩
    exact ⟨param, referenced, rfl, hcomplains⟩

/-- The values under which a candidate `t` for `v` is looked at after earlier choices: a bound that
speaks of `v` itself is read with `v` standing for `t`. -/
def valuesFor (v : TypeVarId) (bound : Bound) (σ : Assignment) (t : Ty) : Assignment :=
  if v ∈ bound.vars then σ.set v t else σ

theorem selectCandidates_eq_filter (s : Store) (v : TypeVarId) (bound : Bound) (u : Universe)
    (σ : Assignment) : s.selectCandidates v bound u σ =
      u.candidates.filter fun t => bound.isSatisfiedBy s (valuesFor v bound σ t) t := by
  unfold selectCandidates valuesFor
  split <;> rfl

/-- In one of the enumerations for the class it is asked whether a candidate satisfies a bound under
some values, and the answer is the last argument. -/
inductive Checks (s : Store) (d : ClassDef) (u : Universe) :
    Bound → Assignment → Ty → Bool → Prop
  /-- The tuples of the parameters before `v`, as far as they have been kept under the limit, are to
  be extended by candidates for `v`: `t` is selected after `tuple`, or it is not. -/
  | extending {before after : List (TypeVarId × Bound)} {v : TypeVarId} {bound : Bound}
      {limit : Option Nat} {set : TupleSet} {tuple : List Ty} {t : Ty}
      (accepted : s.boundedParams d.name [] d.typeParams = .ok (before ++ (v, bound) :: after))
      (reached : s.extendByParams u [] before (.single limit) = .ok set)
      (held : tuple ∈ set.tuples) (candidate : t ∈ u.candidates) :
      Checks s d u bound (valuesFor v bound (.ofPairs ((before.map Prod.fst).zip tuple)) t) t
        (t ∈ s.selectCandidates v bound u (.ofPairs ((before.map Prod.fst).zip tuple)))
  /-- A tuple out of all combinations is kept if each of its types satisfies the bound of its
  parameter. -/
  | retaining {params : List (TypeVarId × Bound)} {set : TupleSet} {tuple : List Ty}
      {v : TypeVarId} {bound : Bound} {t : Ty}
      (accepted : s.boundedParams d.name [] d.typeParams = .ok params)
      (formed : s.extendIndependently u params (.single none) = .ok set)
      (held : tuple ∈ set.tuples) (paired : ((v, bound), t) ∈ params.zip tuple) :
      Checks s d u bound (.ofPairs ((params.map Prod.fst).zip tuple)) t
        (bound.isSatisfiedBy s (.ofPairs ((params.map Prod.fst).zip tuple)) t)

theorem assigned_of_mem_tuples {tuple : List Ty} (h : tuple ∈ u.tuples vs.length)
    {w : TypeVarId} (hw : w ∈ vs) :
    ∃ a, Assignment.ofPairs (vs.zip tuple) w = some a ∧ a.mentionsVars = false := by
  obtain ⟨hlength, hcandidates⟩ := Universe.mem_tuples_iff.mp h
  have hfst : (vs.zip tuple).map Prod.fst = vs := List.map_fst_zip hlength.ge
  obtain ⟨a, ha⟩ := Assignment.exists_ofPairs_eq_some (by rwa [hfst])
  have hmem := hcandidates a (List.of_mem_zip (Assignment.mem_of_ofPairs_eq_some ha)).2
  exact ⟨a, ha, (Ty.isConcrete_iff.mp (Universe.mem_candidates.mp hmem).2.2).2⟩

theorem assigned_valuesFor {bound : Bound} {tuple : List Ty} {t : Ty}
    (htuple : tuple ∈ u.tuples vs.length) (ht : t ∈ u.candidates)
    (hback : ∀ w ∈ bound.vars, w ∈ vs ++ [v]) : ∀ w ∈ bound.vars,
    ∃ a, valuesFor v bound (.ofPairs (vs.zip tuple)) t w = some a ∧ a.mentionsVars = false := by
  intro w hw
  by_cases hself : w = v
  · subst hself
    have htFree := (Ty.isConcrete_iff.mp (Universe.mem_candidates.mp ht).2.2).2
    exact ⟨t, by rw [valuesFor, if_pos hw, Assignment.set_self], htFree⟩
  · have hmem : w ∈ vs := by simpa [hself] using hback w hw
    obtain ⟨a, ha, hfree⟩ := assigned_of_mem_tuples htuple hmem
    refine ⟨a, ?_, hfree⟩
    unfold valuesFor
    split
    · rw [Assignment.set_ne _ _ hself, ha]
    · exact ha

theorem mem_tuples_of_extendIndependently {params : List (TypeVarId × Bound)} {set : TupleSet}
    (h : s.extendIndependently u params (.single none) = .ok set) :
    ∀ tuple ∈ set.tuples, tuple ∈ u.tuples params.length := by
  have hadmitted : s.extendIndependently u params (.single none) =
      .ok ⟨s.admittedTuples u params, none⟩ :=
    extendIndependently_admittedTuples [] params
  rw [hadmitted, Except.ok.injEq] at h
  intro tuple htuple
  rw [← h] at htuple
  exact (List.mem_filter.mp htuple).1

theorem Checks.decided {bound : Bound} {σ : Assignment} {t : Ty} {holds : Bool}
    (hbuilt : ∀ v ∈ d.typeParams, ∀ p, s.typeParam? v = some p → p.bound.IsBuilt)
    (h : s.Checks d u bound σ t holds) : bound.Decided s σ t holds := by
  cases h with
  | @extending before after v bound limit set tuple t haccepted hreached hheld ht =>
      have hbound : bound.IsBuilt := built_of_boundedParams haccepted hbuilt (v, bound) (by simp)
      have hback : ∀ w ∈ bound.vars, w ∈ before.map Prod.fst ++ [v] :=
        fun w hw => by simpa using (boundedParams_eq_ok haccepted).2.2 before _ after rfl w hw
      have htuple : tuple ∈ u.tuples (before.map Prod.fst).length := by
        rw [List.length_map]
        exact mem_tuples_of_extendByParams_single hreached tuple hheld
      have hselected : decide (t ∈ s.selectCandidates v bound u
          (.ofPairs ((before.map Prod.fst).zip tuple))) =
          bound.isSatisfiedBy s
            (valuesFor v bound (.ofPairs ((before.map Prod.fst).zip tuple)) t) t := by
        rw [selectCandidates_eq_filter]
        simp [ht]
      rw [hselected]
      exact hbound.decided (Universe.mem_candidates.mp ht).2.1
        (assigned_valuesFor htuple ht hback)
  | @retaining params set tuple v bound t haccepted hformed hheld hpaired =>
      obtain ⟨hparam, ht⟩ := List.of_mem_zip hpaired
      have hbound : bound.IsBuilt := built_of_boundedParams haccepted hbuilt (v, bound) hparam
      have htuple := mem_tuples_of_extendIndependently hformed tuple hheld
      have hcandidate := (Universe.mem_tuples_iff.mp htuple).2 t ht
      have hlength : params.length = (params.map Prod.fst).length := (List.length_map _).symm
      rw [hlength] at htuple
      obtain ⟨before, after, rfl⟩ := List.append_of_mem hparam
      refine hbound.decided (Universe.mem_candidates.mp hcandidate).2.1 fun w hw => ?_
      apply assigned_of_mem_tuples htuple
      have hback := (boundedParams_eq_ok haccepted).2.2 before _ after rfl w hw
      simp only [List.nil_append, List.mem_append, List.mem_singleton] at hback
      rcases hback with hback | rfl
      · simp [hback]
      · simp

/-- A defined class is refused for its bounds by both enumerations exactly if one of its type
parameters is at fault, whatever types have been observed and whatever the limit is, and the report
is about the first one. The variables of a bound come in the order in which they first occur in the
upper types. Where bounds were made from upper types, no enumeration ever turns a candidate down for
a variable without a value. -/
theorem malformedBounds_spec (s : Store) (id : ClassId) (d : ClassDef)
    (hd : s.classDef? id = some d) :
    (∀ u limit,
      ((∃ name param referenced,
          s.substitutions id u limit = .error (.malformedBounds name param referenced)) ↔
        s.MalformedBounds d) ∧
      ((∃ name param referenced,
          s.substitutionsByProduct id u = .error (.malformedBounds name param referenced)) ↔
        s.MalformedBounds d)) ∧
    (∀ u limit name param referenced,
      (s.substitutions id u limit = .error (.malformedBounds name param referenced) ↔
        name = d.name ∧ s.ComplainsOfFirst [] d.typeParams param referenced) ∧
      (s.substitutionsByProduct id u = .error (.malformedBounds name param referenced) ↔
        name = d.name ∧ s.ComplainsOfFirst [] d.typeParams param referenced)) ∧
    (∀ v ∈ d.typeParams, ∀ p, s.typeParam? v = some p → ∀ uppers, p.bound = .ofUppers uppers →
      p.bound.vars = (uppers.flatMap Ty.occurrences).eraseDups) ∧
    ((∀ v ∈ d.typeParams, ∀ p, s.typeParam? v = some p → p.bound.IsBuilt) →
      ∀ u bound σ t holds, s.Checks d u bound σ t holds → bound.Decided s σ t holds) := by
  have hexists : (∃ name param referenced,
      name = d.name ∧ s.ComplainsOfFirst [] d.typeParams param referenced) ↔
        s.MalformedBounds d := by
    rw [malformedBounds_iff_exists_complainsOfFirst]
    simp
  simp only [substitutions_eq_malformed_iff hd, substitutionsByProduct_eq_malformed_iff hd,
    boundedParams_eq_malformed_iff, hexists]
  refine ⟨by simp, by simp, ?_, fun hbuilt u bound σ t holds h => h.decided hbuilt⟩
  rintro v - p - uppers hp
  rw [hp, Bound.vars_ofUppers]

def forwardDef : ClassDef where
  name := "Forward"
  kind := .plain
  isAbstract := false
  typeParams := [⟨10⟩, ⟨11⟩]

def forwardParam : TypeParam :=
  ⟨"T", .ofUppers
    [Platform.comparableOf (.var ⟨10⟩), Platform.comparableOf (.arr (.var ⟨11⟩))]⟩

/-- The platform's store with `Forward<T extends Comparable<T> & Comparable<U[]>, U extends U>`
added. -/
def forwardStore : Store where
  classes := Platform.store.classes ++ [⟨"Forward", some forwardDef⟩]
  typeParams := Platform.store.typeParams ++ [forwardParam, ⟨"U", .ofUppers [.var ⟨11⟩]⟩]

/-- `Forward` is refused because the bound of `T` refers to `U`. In `Pair<T extends Comparable<T>, U
extends T>`, the type `String` is turned down for `U` when `T` is `Integer`, and this is because it
is no subtype of `Integer`. -/
theorem malformedBounds_spec_forward :
    forwardStore.classDef? ⟨19⟩ = some forwardDef ∧ forwardStore.MalformedBounds forwardDef ∧
    (∀ u limit, forwardStore.substitutions ⟨19⟩ u limit =
        .error (.malformedBounds "Forward" "T" "U") ∧
      forwardStore.substitutionsByProduct ⟨19⟩ u =
        .error (.malformedBounds "Forward" "T" "U")) ∧
    pairStore.classDef? ⟨19⟩ = some pairDef ∧ pairStore.ProperParams pairDef ∧
    pairStore.Checks pairDef pairUniverse (.ofUppers [.var ⟨10⟩])
      (.ofPairs [(⟨10⟩, Platform.plain .integer)]) Platform.stringTy false ∧
    (Bound.ofUppers [.var ⟨10⟩]).Decided pairStore
      (.ofPairs [(⟨10⟩, Platform.plain .integer)]) Platform.stringTy false := by
  obtain ⟨hrefused, hreport, -, -⟩ := malformedBounds_spec forwardStore ⟨19⟩ forwardDef rfl
  have hcomplains : forwardStore.ComplainsOfFirst [] forwardDef.typeParams "T" "U" := by
    refine ⟨[], ⟨10⟩, [⟨11⟩], rfl, by simp, ?_⟩
    exact @Complains.unknown forwardStore [] ⟨10⟩ forwardParam [⟨10⟩] [] ⟨11⟩ rfl (by decide) rfl
      (by simp) (by simp)
  have herror : ∀ u limit, forwardStore.substitutions ⟨19⟩ u limit =
      .error (.malformedBounds "Forward" "T" "U") :=
    fun u limit => (hreport u limit _ _ _).1.mpr ⟨rfl, hcomplains⟩
  have hchecks : pairStore.Checks pairDef pairUniverse (.ofUppers [.var ⟨10⟩])
      (.ofPairs [(⟨10⟩, Platform.plain .integer)]) Platform.stringTy false := by
    have hreached : pairStore.extendByParams pairUniverse []
        [(⟨10⟩, .ofUppers [Platform.comparableOf (.var ⟨10⟩)])] (.single none) =
          .ok ⟨[[Platform.plain .integer], [Platform.stringTy]], none⟩ := by
      cbv
    have hselected : pairStore.selectCandidates ⟨11⟩ (.ofUppers [.var ⟨10⟩]) pairUniverse
        (.ofPairs [(⟨10⟩, Platform.plain .integer)]) = [Platform.plain .integer] := by
      cbv
    have hanswer : decide (Platform.stringTy ∈ pairStore.selectCandidates ⟨11⟩
        (.ofUppers [.var ⟨10⟩]) pairUniverse (.ofPairs [(⟨10⟩, Platform.plain .integer)])) =
          false := by
      rw [hselected]
      decide
    rw [← hanswer]
    exact @Checks.extending pairStore pairDef pairUniverse _ [] ⟨11⟩ (.ofUppers [.var ⟨10⟩]) none
      _ [Platform.plain .integer] Platform.stringTy rfl hreached (by simp) (by decide)
  obtain ⟨-, -, -, hdecided⟩ := malformedBounds_spec pairStore ⟨19⟩ pairDef rfl
  exact ⟨rfl, (hrefused pairUniverse none).1.mp ⟨_, _, _, herror pairUniverse none⟩,
    fun u limit => ⟨herror u limit, (hreport u limit _ _ _).2.mpr ⟨rfl, hcomplains⟩⟩, rfl,
    properParams_pair, hchecks, hdecided properParams_pair.built _ _ _ _ _ hchecks⟩

end Store

end CallCatalog
