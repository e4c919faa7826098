import CallCatalog.Proofs.BoundReasoning

/-!
How containment of type arguments composes. Every pair of arguments falls under a rule, and two
rules compose to a third, with one exception: `? super L` is contained in `?`, and `?` in
`? extends Object`, but there is no rule by which `? super L` is contained in `? extends Object`.
-/

namespace CallCatalog

namespace Store

variable {s : Store} {a b c formal actual upper lower : Ty} {id : ClassId}
  {as bs cs formals actuals : List Ty}

theorem isSubtype_trans_of_isReference (hrooted : s.WellRooted) (ha : a.isReference)
    (hwalk : s.WalksFunctionally a) (hb : b.isGround) (hc : c.isGround)
    (hab : s.isSubtype a b) (hbc : s.isSubtype b c) : s.isSubtype a c := by
  apply isSubtype_of_answer? (σ := .empty) hrooted (fun _ _ _ hnone => nomatch hnone)
    (isSubtype_iff.mp hbc) (settles_empty hb) hc ha hwalk
  rwa [Ty.subst_empty]

/-- Whether the type argument `formal` is found to contain `actual`. -/
def Contains (s : Store) (formal actual : Ty) : Prop :=
  (containment [] formal actual).evaluate s.answer? = some true

theorem contains_any : s.Contains .any actual := rfl

theorem contains_ext_ext : s.Contains (.ext b) (.ext a) ↔ s.isSubtype a b := isSubtype_iff.symm

theorem contains_ext_any : s.Contains (.ext upper) .any ↔ upper.isRoot := by
  simp [Contains, containment, Containment.evaluate]

theorem not_contains_ext_sup : ¬ s.Contains (.ext upper) (.sup lower) := by
  simp [Contains, containment, Containment.evaluate]

theorem contains_ext_iff (h : actual.isWildcard = false) :
    s.Contains (.ext upper) actual ↔ s.isSubtype actual upper := by
  cases actual with
  | any => cases h
  | ext _ => cases h
  | sup _ => cases h
  | _ => exact isSubtype_iff.symm

theorem contains_sup_sup : s.Contains (.sup a) (.sup b) ↔ s.isSubtype a b := isSubtype_iff.symm

theorem not_contains_sup_any : ¬ s.Contains (.sup lower) .any := by
  simp [Contains, containment, Containment.evaluate]

theorem not_contains_sup_ext : ¬ s.Contains (.sup lower) (.ext upper) := by
  simp [Contains, containment, Containment.evaluate]

theorem contains_sup_iff (h : actual.isWildcard = false) :
    s.Contains (.sup lower) actual ↔ s.isSubtype lower actual := by
  cases actual with
  | any => cases h
  | ext _ => cases h
  | sup _ => cases h
  | _ => exact isSubtype_iff.symm

theorem contains_iff_of_not_isWildcard (h : formal.isWildcard = false) :
    s.Contains formal actual ↔ formal = actual := by
  cases formal with
  | any => cases h
  | ext _ => cases h
  | sup _ => cases h
  | _ => simp [Contains, containment, Containment.evaluate]

theorem contains_refl (s : Store) (a : Ty) : s.Contains a a := by
  cases a with
  | any => exact contains_any
  | ext upper => exact contains_ext_ext.mpr (isSubtype_refl s upper)
  | sup lower => exact contains_sup_sup.mpr (isSubtype_refl s lower)
  | _ => exact (contains_iff_of_not_isWildcard rfl).mpr rfl

theorem evaluate_zipWith_containment_iff :
    (∀ x ∈ List.zipWith (containment []) formals actuals, x.evaluate s.answer? = some true) ↔
      ∀ (i : Nat) formal actual, formals[i]? = some formal → actuals[i]? = some actual →
        s.Contains formal actual := by
  constructor
  · intro h i formal actual hformal hactual
    apply h
    apply List.mem_of_getElem? (i := i)
    rw [List.getElem?_zipWith_eq_some]
    exact ⟨formal, actual, hformal, hactual, rfl⟩
  · intro h x hx
    obtain ⟨i, hi⟩ := List.mem_iff_getElem?.mp hx
    obtain ⟨formal, actual, hformal, hactual, rfl⟩ := List.getElem?_zipWith_eq_some.mp hi
    exact h i formal actual hformal hactual

theorem isSubtype_cls_cls_iff (hlength : as.length = bs.length) :
    s.isSubtype (.cls id as) (.cls id bs) ↔
      ∀ (i : Nat) x y, as[i]? = some x → bs[i]? = some y → s.Contains y x := by
  by_cases heq : as = bs
  · subst heq
    refine iff_of_true (isSubtype_refl s _) fun i x y hx hy => ?_
    rw [Option.some.inj (hx.symm.trans hy)]
    exact contains_refl s y
  · have hne : bs ≠ [] := by
      rintro rfl
      exact heq (List.eq_nil_of_length_eq_zero hlength)
    have hfound : s.findAbove id [⟨id, as⟩] [] = some (some ⟨id, as⟩) := by
      rw [findAbove]
      simp
    have hreduce : s.reduce? ⟨[], .cls id as, .cls id bs⟩ =
        some (.allOf (List.zipWith (containment []) bs as)) := by
      simp [reduce?, Ty.isRoot, heq, hne, hfound, matchArguments, hlength]
    rw [isSubtype_iff, answer?_eq, hreduce, Option.bind_some, Reduction.evaluate,
      allM_eq_some_true_iff, evaluate_zipWith_containment_iff]
    exact ⟨fun h i x y hx hy => h i y x hy hx, fun h i y x hy hx => h i x y hx hy⟩

/-- A class or array type without type variables and wildcards, above whose innermost element type
each class occurs with one list of arguments. -/
structure Regular (s : Store) (t : Ty) : Prop where
  isReference : t.isReference
  isGround : t.isGround
  walk : s.WalksFunctionally t

/-- A regular type, or a wildcard with a regular type as its bound, if it has one. -/
inductive RegularArgument (s : Store) : Ty → Prop
  | type {t : Ty} (regular : s.Regular t) : RegularArgument s t
  | any : RegularArgument s .any
  | ext {upper : Ty} (regular : s.Regular upper) : RegularArgument s (.ext upper)
  | sup {lower : Ty} (regular : s.Regular lower) : RegularArgument s (.sup lower)

namespace Regular

theorem isWildcard (h : s.Regular a) : a.isWildcard = false := by
  have href := h.isReference
  cases a with
  | any => cases href
  | ext _ => cases href
  | sup _ => cases href
  | _ => rfl

theorem trans (hrooted : s.WellRooted) (ha : s.Regular a) (hb : s.Regular b) (hc : s.Regular c)
    (hab : s.isSubtype a b) (hbc : s.isSubtype b c) : s.isSubtype a c :=
  isSubtype_trans_of_isReference hrooted ha.isReference ha.walk hb.isGround hc.isGround hab hbc

theorem isRoot_of_isSubtype (hrooted : s.WellRooted) (hb : s.Regular b) (ha : a.isRoot)
    (h : s.isSubtype a b) : b.isRoot := by
  rw [of_decide_eq_true ha] at h
  exact decide_eq_true (or_self_iff.mp (eq_of_isSubtype_raw hrooted (Or.inl rfl) hb.isGround h))

end Regular

theorem contains_trans_ext (hrooted : s.WellRooted) (ha : s.RegularArgument a)
    (hb : s.RegularArgument b) (hupper : s.Regular upper) (hab : s.Contains b a)
    (hbc : s.Contains (.ext upper) b) :
    s.Contains (.ext upper) a ∨ (∃ lower, a = .sup lower) ∧ b = .any ∧ upper.isRoot := by
  cases hb with
  | type regular =>
      rw [contains_iff_of_not_isWildcard regular.isWildcard] at hab
      exact Or.inl (hab ▸ hbc)
  | any =>
      have hroot := contains_ext_any.mp hbc
      cases ha with
      | type regular =>
          left
          rw [contains_ext_iff regular.isWildcard]
          exact isSubtype_of_isRoot regular.isReference hroot
      | any => exact Or.inl hbc
      | ext regular =>
          have habove := isSubtype_of_isRoot (s := s) regular.isReference hroot
          exact Or.inl (contains_ext_ext.mpr habove)
      | sup regular => exact Or.inr ⟨⟨_, rfl⟩, rfl, hroot⟩
  | ext between =>
      have hle := contains_ext_ext.mp hbc
      left
      cases ha with
      | type regular =>
          rw [contains_ext_iff regular.isWildcard] at hab ⊢
          exact regular.trans hrooted between hupper hab hle
      | any =>
          have hroot := contains_ext_any.mp hab
          exact contains_ext_any.mpr (hupper.isRoot_of_isSubtype hrooted hroot hle)
      | ext regular =>
          have hab := contains_ext_ext.mp hab
          exact contains_ext_ext.mpr (regular.trans hrooted between hupper hab hle)
      | sup _ => exact absurd hab not_contains_ext_sup
  | sup _ => exact absurd hbc not_contains_ext_sup

theorem contains_trans_sup (hrooted : s.WellRooted) (ha : s.RegularArgument a)
    (hb : s.RegularArgument b) (hlower : s.Regular lower) (hab : s.Contains b a)
    (hbc : s.Contains (.sup lower) b) : s.Contains (.sup lower) a := by
  cases hb with
  | type regular =>
      rw [contains_iff_of_not_isWildcard regular.isWildcard] at hab
      exact hab ▸ hbc
  | any => exact absurd hbc not_contains_sup_any
  | ext _ => exact absurd hbc not_contains_sup_ext
  | sup between =>
      have hle := contains_sup_sup.mp hbc
      cases ha with
      | type regular =>
          rw [contains_sup_iff regular.isWildcard] at hab ⊢
          exact hlower.trans hrooted between regular hle hab
      | any => exact absurd hab not_contains_sup_any
      | ext _ => exact absurd hab not_contains_sup_ext
      | sup regular =>
          have hab := contains_sup_sup.mp hab
          exact contains_sup_sup.mpr (hlower.trans hrooted between regular hle hab)

/-- Containment composes but for the one rule that is missing. -/
theorem contains_trans (hrooted : s.WellRooted) (ha : s.RegularArgument a)
    (hb : s.RegularArgument b) (hc : s.RegularArgument c) (hab : s.Contains b a)
    (hbc : s.Contains c b) :
    s.Contains c a ∨ (∃ lower, a = .sup lower) ∧ b = .any ∧ c = .ext (.cls .object []) := by
  cases hc with
  | type regular =>
      rw [contains_iff_of_not_isWildcard regular.isWildcard] at hbc
      exact Or.inl (hbc ▸ hab)
  | any => exact Or.inl contains_any
  | ext regular =>
      refine (contains_trans_ext hrooted ha hb regular hab hbc).imp_right ?_
      rintro ⟨hlower, rfl, hroot⟩
      exact ⟨hlower, rfl, congrArg Ty.ext (of_decide_eq_true hroot)⟩
  | sup regular => exact Or.inl (contains_trans_sup hrooted ha hb regular hab hbc)

/-- From one parameterisation of a class over a second one to a third, subtyping composes exactly if
no argument goes from `? super` over `?` to `? extends Object`. -/
theorem isSubtype_cls_trans_iff (s : Store) (id : ClassId) (as bs cs : List Ty)
    (hrooted : s.WellRooted) (hab : as.length = bs.length) (hbc : bs.length = cs.length)
    (has : ∀ x ∈ as, s.RegularArgument x) (hbs : ∀ y ∈ bs, s.RegularArgument y)
    (hcs : ∀ z ∈ cs, s.RegularArgument z) (hsub : s.isSubtype (.cls id as) (.cls id bs))
    (hsub' : s.isSubtype (.cls id bs) (.cls id cs)) :
    s.isSubtype (.cls id as) (.cls id cs) ↔
      ∀ (i : Nat) lower, as[i]? = some (.sup lower) → bs[i]? = some .any →
        cs[i]? ≠ some (.ext (.cls .object [])) := by
  rw [isSubtype_cls_cls_iff hab] at hsub
  rw [isSubtype_cls_cls_iff hbc] at hsub'
  rw [isSubtype_cls_cls_iff (hab.trans hbc)]
  constructor
  · intro h i lower hx _ hz
    exact not_contains_ext_sup (h i _ _ hx hz)
  · intro h i x z hx hz
    have hi : i < bs.length := by
      rw [← hab]
      exact (List.getElem?_eq_some_iff.mp hx).1
    have hy : bs[i]? = some bs[i] := List.getElem?_eq_getElem hi
    have hxy := hsub i x bs[i] hx hy
    have hyz := hsub' i bs[i] z hy hz
    rcases contains_trans hrooted (has x (List.mem_of_getElem? hx)) (hbs _ (List.getElem_mem hi))
      (hcs z (List.mem_of_getElem? hz)) hxy hyz with hxz | ⟨⟨lower, rfl⟩, hany, rfl⟩
    · exact hxz
    · rw [hany] at hy
      exact absurd hz (h i lower hx hy)

theorem regular_platform : Platform.store.Regular (Platform.plain .integer) ∧
    Platform.store.Regular Platform.objectTy := by
  have hinteger : Platform.store.FunctionalWalk ⟨.integer, []⟩ := by
    apply FunctionalWalk.of_closed [⟨.integer, []⟩, ⟨.number, []⟩, ⟨.object, []⟩,
      ⟨.serializable, []⟩, ⟨Platform.comparable, [Platform.plain .integer]⟩] <;> decide
  have hobject : Platform.store.FunctionalWalk ⟨.object, []⟩ := by
    apply FunctionalWalk.of_closed [⟨.object, []⟩] <;> decide
  refine ⟨⟨rfl, rfl, fun t ht => ?_⟩, ⟨rfl, rfl, fun t ht => ?_⟩⟩
  · rwa [← ClassType.toTy_inj (t := ⟨.integer, []⟩) ht]
  · rwa [← ClassType.toTy_inj (t := ⟨.object, []⟩) ht]

/-- `List<? super Integer>` is a `List<?>`, and this is a `List<? extends Object>`, but the first is
not found to be the last. -/
theorem isSubtype_cls_trans_iff_list :
    Platform.store.WellRooted ∧
    Platform.store.Regular (Platform.plain .integer) ∧ Platform.store.Regular Platform.objectTy ∧
    Platform.store.isSubtype (.cls Platform.list [.sup (Platform.plain .integer)])
      (.cls Platform.list [.any]) ∧
    Platform.store.isSubtype (.cls Platform.list [.any])
      (.cls Platform.list [.ext Platform.objectTy]) ∧
    ¬ Platform.store.isSubtype (.cls Platform.list [.sup (Platform.plain .integer)])
      (.cls Platform.list [.ext Platform.objectTy]) := by
  obtain ⟨hinteger, hobject⟩ := regular_platform
  have hsub : Platform.store.isSubtype (.cls Platform.list [.sup (Platform.plain .integer)])
      (.cls Platform.list [.any]) := by
    cbv
  have hsub' : Platform.store.isSubtype (.cls Platform.list [.any])
      (.cls Platform.list [.ext Platform.objectTy]) := by
    cbv
  refine ⟨wellRooted_platform, hinteger, hobject, hsub, hsub', ?_⟩
  rw [isSubtype_cls_trans_iff Platform.store Platform.list [.sup (Platform.plain .integer)] [.any]
    [.ext Platform.objectTy] wellRooted_platform rfl rfl (by simpa using .sup hinteger)
    (by simpa using .any) (by simpa using .ext hobject) hsub hsub']
  exact fun h => h 0 _ rfl rfl rfl

end Store

end CallCatalog
