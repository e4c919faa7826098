import CallCatalog.Proofs.ChosenInstantiations
import CallCatalog.Proofs.ReplacedWalks

/-!
What the bounds of a type variable say about the types that it can be given. An open variable counts
as a subtype of whatever one of its upper types is a subtype of. A type given to it under its bounds
is a subtype of the same upper type after replacement, so the supertypes found for the variable are
supertypes of the type as well.
-/

namespace CallCatalog

namespace Store

variable {s : Store} {σ : Assignment} {t u w : ClassType} {id : ClassId}

/-- The reasons for which a type is a subtype of one without type variables and wildcards, if
questions are answered by `ask`. -/
inductive Supported (s : Store) (ask : Question → Option Bool) : Question → Prop where
  | refl {opened : List TypeVarId} {t : Ty} : Supported s ask ⟨opened, t, t⟩
  | root {opened : List TypeVarId} {sub sup : Ty} (isRoot : sup.isRoot) :
      Supported s ask ⟨opened, sub, sup⟩
  | upper {opened : List TypeVarId} {v : TypeVarId} {p : TypeParam} {upper sup : Ty}
      (declared : s.typeParam? v = some p) (listed : upper ∈ p.bound.uppers)
      (holds : ask ⟨v :: opened, upper, sup⟩ = some true) : Supported s ask ⟨opened, .var v, sup⟩
  | element {opened : List TypeVarId} {elem supElem : Ty} (isReference : elem.isReference)
      (isTarget : supElem.isArrayTarget) (holds : ask ⟨opened, elem, supElem⟩ = some true) :
      Supported s ask ⟨opened, .arr elem, .arr supElem⟩
  | array {opened : List TypeVarId} {elem : Ty} {id : ClassId}
      (isArrayClass : id = .cloneable ∨ id = .serializable) :
      Supported s ask ⟨opened, .arr elem, .cls id []⟩
  | found {opened : List TypeVarId} {t found : ClassType} {target : ClassId} {args : List Ty}
      (above : s.findAbove target [t] [] = some (some found))
      (fits : args = [] ∨ found.args = args) : Supported s ask ⟨opened, t.toTy, .cls target args⟩

section Supported

variable {opened : List TypeVarId} {sup : Ty} {r : Reduction} {ask : Question → Option Bool}

theorem supported_var {v : TypeVarId} (hne : Ty.var v ≠ sup)
    (hr : s.reduce? ⟨opened, .var v, sup⟩ = some r) (hyes : r.evaluate ask = some true) :
    s.Supported ask ⟨opened, .var v, sup⟩ := by
  rw [reduce?, if_neg hne] at hr
  simp only at hr
  split at hr
  · cases hr
    cases hyes
  cases hp : s.typeParam? v with
  | none =>
      rw [hp] at hr
      cases hr
      cases hyes
  | some p =>
      simp only [hp] at hr
      split at hr
      · cases hr
        exact .root (Option.some.inj hyes)
      · cases hr
        obtain ⟨q, hq, hholds⟩ := exists_of_anyM_eq_some_true hyes
        obtain ⟨upper, hupper, rfl⟩ := List.mem_map.mp hq
        exact .upper hp hupper hholds

theorem supported_arr {elem : Ty} (hne : Ty.arr elem ≠ sup)
    (hr : s.reduce? ⟨opened, .arr elem, sup⟩ = some r) (hyes : r.evaluate ask = some true) :
    s.Supported ask ⟨opened, .arr elem, sup⟩ := by
  rw [reduce?, if_neg hne] at hr
  simp only at hr
  split at hr
  · rename_i hroot
    exact .root hroot
  split at hr
  · split at hr
    · rename_i hshape
      rw [Bool.and_eq_true] at hshape
      cases hr
      rw [Reduction.evaluate, anyM_singleton] at hyes
      exact .element hshape.1 hshape.2 hyes
    · cases hr
      cases hyes
  · cases hr
    simp only [Reduction.evaluate, Option.some.injEq, Bool.and_eq_true, List.isEmpty_iff,
      Bool.or_eq_true, decide_eq_true_eq] at hyes
    rw [hyes.1]
    exact .array hyes.2
  · cases hr
    cases hyes

theorem supported_cls {t : ClassType} (hne : t.toTy ≠ sup)
    (hr : s.reduce? ⟨opened, t.toTy, sup⟩ = some r) (hyes : r.evaluate ask = some true)
    (hsup : sup.isGround) : s.Supported ask ⟨opened, t.toTy, sup⟩ := by
  rw [reduce?, if_neg hne] at hr
  simp only [ClassType.toTy] at hr
  split at hr
  · rename_i hroot
    exact .root hroot
  split at hr
  · obtain ⟨found?, hfound, rfl⟩ := Option.map_eq_some_iff.mp hr
    cases found? with
    | none => cases hyes
    | some found => exact .found hfound ((evaluate_matchArguments hsup).mp hyes)
  · cases hr
    cases hyes

theorem supported_of_reduce? {q : Question} (hr : s.reduce? q = some r)
    (hyes : r.evaluate ask = some true) (hsup : q.sup.isGround) : s.Supported ask q := by
  obtain ⟨opened, sub, sup⟩ := q
  by_cases heq : sub = sup
  · rw [heq]
    exact .refl
  cases sub with
  | var v => exact supported_var heq hr hyes
  | arr elem => exact supported_arr heq hr hyes
  | cls id args => exact supported_cls (t := ⟨id, args⟩) heq hr hyes hsup
  | _ =>
      rw [reduce?, if_neg heq] at hr
      cases hr
      cases hyes

end Supported

/-- From the innermost element type the search ends and meets each class with one list of
arguments. -/
def WalksFunctionally (s : Store) (a : Ty) : Prop :=
  ∀ c : ClassType, a.innermost = c.toTy → s.FunctionalWalk c

/-- The type has no type variable and no wildcard left after the replacement, and what lies above it
then lies above it as well. -/
structure Settles (s : Store) (σ : Assignment) (t : Ty) : Prop where
  isGround : (t.subst σ).isGround
  above : ∀ c u : ClassType, t.innermost = c.toTy → s.Above c u → s.Above (c.subst σ) (u.subst σ)

theorem isSubtype_of_found {found : ClassType} {args : List Ty} (hrooted : s.WellRooted)
    (ht : s.Settles σ t.toTy) (hfound : s.findAbove id [t] [] = some (some found))
    (hfits : args = [] ∨ found.args = args) (hargs : Ty.allGround args)
    (hwalk : s.FunctionalWalk w) (h : s.isSubtype w.toTy (t.subst σ).toTy) :
    s.isSubtype w.toTy (.cls id args) := by
  by_cases hroot : (Ty.cls id args).isRoot
  · exact isSubtype_of_isRoot rfl hroot
  by_cases hnil : t.args = []
  · -- a raw type is not changed, and may be found without the arguments that were there
    have hground : Ty.allGround t.args := by rw [hnil]; rfl
    rw [ClassType.subst_of_isGround hground] at h
    have hsup : s.isSubtype t.toTy (.cls id args) :=
      (isSubtype_cls_iff hargs hroot).mpr ⟨found, hfound, hfits⟩
    exact isSubtype_trans_of_cls (b := t.toTy) hrooted hwalk hground hargs h hsup
  · have hargsNe : (t.subst σ).args ≠ [] := by simpa [ClassType.subst] using hnil
    have hnotRoot : ¬ (t.subst σ).toTy.isRoot := by
      simp [ClassType.toTy, Ty.isRoot, hargsNe]
    have hground : Ty.allGround (t.subst σ).args := by
      have := ht.isGround
      rwa [← ClassType.toTy_subst] at this
    obtain ⟨below, hbelow, hsame⟩ := (isSubtype_cls_iff hground hnotRoot).mp h
    obtain ⟨hid, habove⟩ := above_of_findAbove hbelow
    have hbelowEq : below = t.subst σ :=
      calc below = ⟨below.id, below.args⟩ := rfl
        _ = ⟨(t.subst σ).id, (t.subst σ).args⟩ := by rw [hid, hsame.resolve_left hargsNe]
    obtain ⟨rfl, hup⟩ := above_of_findAbove hfound
    have hmet : s.Above w (found.subst σ) :=
      (hbelowEq ▸ habove).trans (ht.above t found rfl hup)
    obtain ⟨met, hsearch, hmetId, hmetAbove⟩ := findAbove_of_above hwalk.finite hmet
    refine (isSubtype_cls_iff hargs hroot).mpr ⟨met, hsearch, hfits.imp_right fun heq => ?_⟩
    subst heq
    rw [hwalk.unique met (found.subst σ) hmetAbove hmet hmetId,
      ClassType.subst_of_isGround hargs]

theorem isSubtype_arr_of_found {found : ClassType} {args : List Ty} {b : Ty}
    (hrooted : s.WellRooted) (hfound : s.findAbove id [t] [] = some (some found))
    (hfits : args = [] ∨ found.args = args) (hargs : Ty.allGround args)
    (h : s.isSubtype (.arr b) (t.subst σ).toTy) : s.isSubtype (.arr b) (.cls id args) := by
  by_cases hroot : (Ty.cls id args).isRoot
  · exact isSubtype_of_isRoot rfl hroot
  obtain ⟨hnil, hid⟩ := isSubtype_arr_cls_iff.mp h
  have hraw : (⟨t.id, []⟩ : ClassType) = t := by
    have hargsNil : t.args = [] := by simpa [ClassType.subst] using hnil
    rw [← hargsNil]
  rw [← hraw] at hfound
  have hsup : s.isSubtype (.cls t.id []) (.cls id args) :=
    (isSubtype_cls_iff (t := ⟨t.id, []⟩) hargs hroot).mpr ⟨found, hfound, hfits⟩
  rcases eq_of_isSubtype_raw (c := .cls id args) hrooted hid hargs hsup with heq | heq
  · rw [heq]
    exact isSubtype_arr_cls_iff.mpr ⟨rfl, hid⟩
  · exact absurd (decide_eq_true heq) hroot

/-- Whatever lies below what a type becomes lies below the supertypes of the type, if this holds of
the upper types of each variable that is replaced: what lies below the type given to the variable
has to lie below what they become. -/
theorem isSubtype_of_answer? (hrooted : s.WellRooted)
    (hbounds : ∀ v t p, σ v = some t → s.typeParam? v = some p → ∀ upper ∈ p.bound.uppers,
      s.Settles σ upper ∧ ∀ a : Ty, a.isReference → s.WalksFunctionally a → s.isSubtype a t →
        s.isSubtype a (upper.subst σ))
    {q : Question} (h : s.answer? q = some true) (hsub : s.Settles σ q.sub)
    (hsup : q.sup.isGround) {a : Ty} (ha : a.isReference) (hwalk : s.WalksFunctionally a)
    (hbelow : s.isSubtype a (q.sub.subst σ)) : s.isSubtype a q.sup := by
  refine @answer?_induction s
    (fun q holds => holds = true → s.Settles σ q.sub → q.sup.isGround → ∀ a : Ty, a.isReference →
      s.WalksFunctionally a → s.isSubtype a (q.sub.subst σ) → s.isSubtype a q.sup)
    ?_ q true h rfl hsub hsup a ha hwalk hbelow
  clear h hsub hsup ha hwalk hbelow q a
  rintro q r holds ask hr hask heval rfl hsub hsup a ha hwalk hbelow
  cases supported_of_reduce? hr heval hsup with
  | refl =>
      rwa [Ty.subst_of_isGround hsup] at hbelow
  | root isRoot => exact isSubtype_of_isRoot ha isRoot
  | @upper opened v p upper sup declared listed holds =>
      cases hv : σ v with
      | none =>
          have hground := hsub.isGround
          simp [Ty.subst, hv, Ty.isGround] at hground
      | some t =>
          have hbelowVar : s.isSubtype a t := by simpa [Ty.subst, hv] using hbelow
          obtain ⟨hsettles, hlower⟩ := hbounds v t p hv declared upper listed
          exact (hask _ _ holds).2 rfl hsettles hsup a ha hwalk (hlower a ha hwalk hbelowVar)
  | @element opened elem supElem isReference isTarget holds =>
      cases a with
      | cls _ _ =>
          obtain ⟨_, _, heq⟩ := exists_cls_of_isSubtype hbelow
          cases heq
      | arr b =>
          have hb : b.isReference ∧ s.isSubtype b (elem.subst σ) := by
            rcases isSubtype_arr_arr_iff.mp hbelow with rfl | ⟨hb, -, hle⟩
            · exact ⟨Ty.isReference_subst isReference σ, isSubtype_refl s _⟩
            · exact ⟨hb, hle⟩
          have hle := (hask _ _ holds).2 rfl ⟨hsub.isGround, hsub.above⟩ hsup b hb.1 hwalk hb.2
          exact isSubtype_arr_arr_iff.mpr (Or.inr ⟨hb.1, isTarget, hle⟩)
      | _ => cases ha
  | array isArrayClass =>
      cases a with
      | cls _ _ =>
          obtain ⟨_, _, heq⟩ := exists_cls_of_isSubtype hbelow
          cases heq
      | arr b => exact isSubtype_arr_cls_iff.mpr ⟨rfl, Or.inr isArrayClass⟩
      | _ => cases ha
  | @found opened t found target args above fits =>
      rw [← ClassType.toTy_subst] at hbelow
      cases a with
      | cls id aArgs =>
          exact isSubtype_of_found (w := ⟨id, aArgs⟩) hrooted hsub above fits hsup
            (hwalk ⟨id, aArgs⟩ rfl) hbelow
      | arr b => exact isSubtype_arr_of_found hrooted above fits hsup hbelow
      | _ => cases ha

/-- The upper types of the type parameters have no wildcards, and they leave out all arguments or
have as many as needed. -/
structure ProperBounds (s : Store) (d : ClassDef) : Prop where
  isWildcardFree : ∀ v ∈ d.typeParams, ∀ p, s.typeParam? v = some p → ∀ upper ∈ p.bound.uppers,
    upper.isWildcardFree
  arity : ∀ v ∈ d.typeParams, ∀ p, s.typeParam? v = some p → ∀ upper ∈ p.bound.uppers,
    s.HasArity upper

theorem settles_empty {a : Ty} (h : a.isGround) : s.Settles .empty a where
  isGround := by rwa [Ty.subst_empty]
  above c u _ habove := by
    have hsame : ∀ c : ClassType, c.subst .empty = c := fun c =>
      ClassType.toTy_inj (by rw [ClassType.toTy_subst, Ty.subst_empty])
    rwa [hsame, hsame]

theorem settles_of_isGround_subst {a : Ty} (hs : s.ProperSupertypes) (h : (a.subst σ).isGround)
    (harity : s.HasArity a) : s.Settles σ a where
  isGround := h
  above _ _ hc habove := above_subst hs (hc ▸ hasArity_innermost harity) habove

theorem vars_subset_of_accepted {d : ClassDef} {params : List (TypeVarId × Bound)}
    (hproper : s.ProperParams d) (haccepted : s.boundedParams d.name [] d.typeParams = .ok params)
    {v : TypeVarId} (hv : v ∈ d.typeParams) {p : TypeParam} (hp : s.typeParam? v = some p) :
    ∀ w ∈ p.bound.vars, w ∈ d.typeParams := by
  obtain ⟨hfst, hbounds, -⟩ := boundedParams_eq_ok haccepted
  intro w hw
  rw [← hfst] at hv ⊢
  obtain ⟨q, hq, rfl⟩ := List.mem_map.mp hv
  obtain ⟨p', hp', hbound⟩ := hbounds q hq
  have hsame : p' = p := Option.some.inj (hp'.symm.trans hp)
  rw [hsame] at hbound
  rw [hbound] at hw
  exact (wellScoped_of_boundedParams hproper haccepted).mem_of_mem_vars hq hw

section Given

variable {d : ClassDef} {u : Universe} {limit : Option Nat} {valid : List Substitution}
  {σ : Substitution} {v : TypeVarId} {a : Ty} (hd : s.classDef? id = some d)
  (hvalid : s.substitutions id u limit = .ok valid) (hσ : σ ∈ valid)
  (hfree : ∀ t ∈ u.candidates, t.isWildcardFree)

include hd hvalid hσ hfree

theorem isGround_of_assigned (ha : σ.toAssignment v = some a) : a ∈ u.candidates ∧ a.isGround := by
  have hpair := Assignment.mem_of_ofPairs_eq_some ha
  have hmem := (mem_substitutions hd hvalid hσ).2 a (List.of_mem_zip hpair).2
  have hconcrete := (Universe.mem_candidates.mp hmem).2.2
  exact ⟨hmem, (Ty.isGround_iff a).mpr ⟨hfree a hmem, (Ty.isConcrete_iff.mp hconcrete).2⟩⟩

variable (hproper : s.ProperParams d) (hbounds : s.ProperBounds d) {p : TypeParam} {upper : Ty}
  (hp : s.typeParam? v = some p) (hupper : upper ∈ p.bound.uppers)

include hproper hbounds hp hupper

theorem isGround_upper (hv : v ∈ d.typeParams) : (upper.subst σ.toAssignment).isGround := by
  obtain ⟨params, haccepted⟩ := accepted_of_substitutions hd hvalid
  have hcloses := Resolver.closes_of_mem_substitutions hd hvalid hσ
  have hscoped : ∀ w ∈ upper.vars, w ∈ d.typeParams := fun w hw =>
    vars_subset_of_accepted hproper haccepted hv hp w
      ((hproper.built v hv p hp).mem_vars_of_mem_uppers hupper hw)
  have hwithin : upper.Within (fun _ => True) (· ∈ d.typeParams) :=
    Ty.Within.mono (fun _ h => h) hscoped upper upper.within_vars
  refine (Ty.isGround_iff _).mpr ⟨?_, hcloses.mentionsVars_apply hwithin⟩
  apply Ty.isWildcardFree_subst _ upper (hbounds.isWildcardFree v hv p hp upper hupper)
  intro w t ht
  exact ((Ty.isGround_iff t).mp (isGround_of_assigned hd hvalid hσ hfree ht).2).1

/-- What lies below the type of a parameter lies below what its upper types become. This is
transitivity: the type is a subtype of them, and there is nothing to be replaced in it. -/
theorem upper_of_assigned (hrooted : s.WellRooted) (hsupertypes : s.ProperSupertypes)
    (ha : σ.toAssignment v = some a) : s.Settles σ.toAssignment upper ∧
      ∀ b : Ty, b.isReference → s.WalksFunctionally b → s.isSubtype b a →
        s.isSubtype b (upper.subst σ.toAssignment) := by
  have hpair : (v, a) ∈ σ.toList := Assignment.mem_of_ofPairs_eq_some ha
  have hv : v ∈ d.typeParams := by
    rw [← (mem_substitutions hd hvalid hσ).1, ← σ.map_fst_toList]
    exact List.mem_map_of_mem hpair
  have hground := isGround_upper hd hvalid hσ hfree hproper hbounds hp hupper hv
  refine ⟨settles_of_isGround_subst hsupertypes hground (hbounds.arity v hv p hp upper hupper), ?_⟩
  intro b hb hwalk hle
  obtain ⟨p', hp', hsat⟩ := isSatisfiedBy_of_mem_substitutions hd hproper hvalid hσ hpair
  have hsame : p' = p := Option.some.inj (hp'.symm.trans hp)
  rw [hsame] at hsat
  have hanswer : s.answer? ⟨[], a, upper.subst σ.toAssignment⟩ = some true :=
    isSubtype_iff.mp (Bound.isSubtype_of_isSatisfiedBy (hproper.built v hv p hp) hsat hupper)
  apply isSubtype_of_answer? (σ := .empty) hrooted (fun _ _ _ hnone => nomatch hnone) hanswer
    (settles_empty (isGround_of_assigned hd hvalid hσ hfree ha).2) hground hb hwalk
  rwa [Ty.subst_empty]

end Given

/-- If a type parameter of a class, with nothing known of it but its bounds, is a subtype of a type
without type variables and wildcards, then so is the type that a substitution of the class gives to
the parameter. -/
theorem isSubtype_apply_var (s : Store) (id : ClassId) (d : ClassDef) (u : Universe)
    (limit : Option Nat) (valid : List Substitution) (σ : Substitution) (v : TypeVarId) (b : Ty)
    (hd : s.classDef? id = some d) (hproper : s.ProperParams d) (hbounds : s.ProperBounds d)
    (hvalid : s.substitutions id u limit = .ok valid) (hσ : σ ∈ valid) (hv : v ∈ d.typeParams)
    (hb : b.isGround) (hrooted : s.WellRooted) (hsupertypes : s.ProperSupertypes)
    (hfree : ∀ t ∈ u.candidates, t.isWildcardFree)
    (hwalks : ∀ t ∈ u.candidates, s.WalksFunctionally t) (hsub : s.isSubtype (.var v) b) :
    s.isSubtype (σ.apply (.var v)) b := by
  have hupper : ∀ w t p, σ.toAssignment w = some t → s.typeParam? w = some p →
      ∀ upper ∈ p.bound.uppers, s.Settles σ.toAssignment upper ∧
        ∀ a : Ty, a.isReference → s.WalksFunctionally a → s.isSubtype a t →
          s.isSubtype a (upper.subst σ.toAssignment) :=
    fun _ _ _ ht hp _ hmem =>
      upper_of_assigned hd hvalid hσ hfree hproper hbounds hp hmem hrooted hsupertypes ht
  obtain ⟨t, -, ht⟩ := (Resolver.closes_of_mem_substitutions hd hvalid hσ).toAssignment_isSome hv
  obtain ⟨hmem, hground⟩ := isGround_of_assigned hd hvalid hσ hfree ht
  have hvar : (Ty.var v).subst σ.toAssignment = t := by rw [Ty.subst, ht, Option.getD_some]
  have hsettles : s.Settles σ.toAssignment (.var v) :=
    ⟨by rwa [hvar], fun _ _ hvarCls => nomatch hvarCls⟩
  rw [Substitution.apply, hvar]
  apply isSubtype_of_answer? hrooted hupper (isSubtype_iff.mp hsub) hsettles hb
    (Universe.mem_candidates.mp hmem).2.1 (hwalks t hmem)
  rw [hvar]
  exact isSubtype_refl s t

theorem wellRooted_pair : pairStore.WellRooted where
  object := wellRooted_platform.object
  arrays id hid := by
    have hsame : pairStore.classDef? id = Platform.store.classDef? id := by
      rcases hid with rfl | rfl <;> rfl
    rw [hsame]
    exact wellRooted_platform.arrays id hid

theorem properSupertypes_pair : pairStore.ProperSupertypes :=
  .of_classes (by decide)

theorem properBounds_pair : pairStore.ProperBounds pairDef := by
  have hall : ∀ v ∈ pairDef.typeParams, ∀ p ∈ pairStore.typeParam? v, ∀ upper ∈ p.bound.uppers,
      upper.isWildcardFree ∧ pairStore.HasArity upper := by
    decide
  exact ⟨fun v hv p hp upper hupper => (hall v hv p hp upper hupper).1,
    fun v hv p hp upper hupper => (hall v hv p hp upper hupper).2⟩

theorem walksFunctionally_pair :
    ∀ t ∈ pairUniverse.candidates, pairStore.WalksFunctionally t := by
  have hcandidates : pairUniverse.candidates =
      [Platform.plain .integer, Platform.plain .number, Platform.stringTy] := by
    decide
  rw [hcandidates]
  intro t ht c hc
  have hmem : c ∈ ([⟨.integer, []⟩, ⟨.number, []⟩, ⟨.string, []⟩] : List ClassType) := by
    simp only [List.mem_cons, List.not_mem_nil, or_false] at ht ⊢
    rcases ht with rfl | rfl | rfl
    · exact Or.inl (ClassType.toTy_inj hc.symm)
    · exact Or.inr (Or.inl (ClassType.toTy_inj hc.symm))
    · exact Or.inr (Or.inr (ClassType.toTy_inj hc.symm))
  clear ht hc
  simp only [List.mem_cons, List.not_mem_nil, or_false] at hmem
  rcases hmem with rfl | rfl | rfl
  · apply FunctionalWalk.of_closed [⟨.integer, []⟩, ⟨.number, []⟩, ⟨.object, []⟩,
      ⟨.serializable, []⟩, ⟨Platform.comparable, [Platform.plain .integer]⟩] <;> decide
  · apply FunctionalWalk.of_closed [⟨.number, []⟩, ⟨.object, []⟩, ⟨.serializable, []⟩] <;> decide
  · apply FunctionalWalk.of_closed [⟨.string, []⟩, ⟨.object, []⟩, ⟨.serializable, []⟩,
      ⟨Platform.comparable, [Platform.stringTy]⟩, ⟨Platform.charSequence, []⟩] <;> decide

/-- `U` is a `Comparable` because its bound `T` has the bound `Comparable<T>`, and so is the
`String` that `U` is given. -/
theorem isSubtype_apply_var_pair :
    ∃ valid, pairStore.substitutions ⟨19⟩ pairUniverse none = .ok valid ∧
      ∃ σ ∈ valid, σ.types = [Platform.stringTy, Platform.stringTy] ∧
        pairStore.ProperParams pairDef ∧ pairStore.ProperBounds pairDef ∧
        pairStore.WellRooted ∧ pairStore.ProperSupertypes ∧
        (∀ t ∈ pairUniverse.candidates, t.isWildcardFree ∧ pairStore.WalksFunctionally t) ∧
        pairStore.isSubtype (.var ⟨11⟩) (.cls Platform.comparable []) ∧
        pairStore.isSubtype (σ.apply (.var ⟨11⟩)) (.cls Platform.comparable []) := by
  have hvalid : pairStore.substitutions ⟨19⟩ pairUniverse none =
      .ok [⟨[⟨10⟩, ⟨11⟩], [Platform.plain .integer, Platform.plain .integer], rfl⟩,
        ⟨[⟨10⟩, ⟨11⟩], [Platform.stringTy, Platform.stringTy], rfl⟩] := by
    cbv
  have hfree : ∀ t ∈ pairUniverse.candidates, t.isWildcardFree := by decide
  have hsub : pairStore.isSubtype (.var ⟨11⟩) (.cls Platform.comparable []) := by cbv
  have hmem : (⟨[⟨10⟩, ⟨11⟩], [Platform.stringTy, Platform.stringTy], rfl⟩ : Substitution) ∈
      [(⟨[⟨10⟩, ⟨11⟩], [Platform.plain .integer, Platform.plain .integer], rfl⟩ : Substitution),
        ⟨[⟨10⟩, ⟨11⟩], [Platform.stringTy, Platform.stringTy], rfl⟩] := by
    simp
  refine ⟨_, hvalid, _, hmem, rfl, properParams_pair, properBounds_pair, wellRooted_pair,
    properSupertypes_pair, fun t ht => ⟨hfree t ht, walksFunctionally_pair t ht⟩, hsub, ?_⟩
  exact isSubtype_apply_var pairStore ⟨19⟩ pairDef pairUniverse none _ _ ⟨11⟩ _ rfl
    properParams_pair properBounds_pair hvalid hmem (by decide) rfl wellRooted_pair
    properSupertypes_pair hfree walksFunctionally_pair hsub

end Store

end CallCatalog
