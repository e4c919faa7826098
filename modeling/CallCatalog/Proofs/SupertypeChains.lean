import CallCatalog.Proofs.ReplacedWalks
import CallCatalog.Proofs.ChosenInstantiations

/-!
When a chain of supertypes is found. The search ends at the first type of the wanted class, and only
this one is compared with the type at the end of the chain. Where the declared type of each class
reaches at most one parameterisation of every class, the two differ only if the first one has lost
its arguments below a raw type. A longer chain may keep them: the raw type `C` may extend `D`, which
implements `E<String>`, and implement `E<String>` itself, from which it has the raw type `E`.
-/

namespace CallCatalog

theorem ClassDef.declaredType_subst {d : ClassDef} {t : ClassType} (hnodup : d.typeParams.Nodup)
    (hlength : t.args.length = d.typeParams.length) :
    (d.declaredType t.id).subst (.ofPairs (d.typeParams.zip t.args)) = t := by
  let σ : Substitution := ⟨d.typeParams, t.args, hlength.symm⟩
  exact σ.applyClass_declaredType rfl hnodup t.id

namespace Store

variable {s : Store} {t u w : ClassType} {d : ClassDef}

theorem isSubtype_iff_viewAs (hfinite : {w | s.Above t w}.Finite) (hu : Ty.allGround u.args)
    (h : s.Above t u) :
    s.isSubtype t.toTy u.toTy ↔ u.args = [] ∨ s.viewAs t u.id = some u := by
  obtain ⟨w, hw, hid, -⟩ := findAbove_of_above hfinite h
  have hargs : w.args = u.args ↔ w = u := by
    constructor
    · intro hargs
      have hsame : w = ⟨w.id, w.args⟩ := rfl
      rw [hsame, hid, hargs]
    · rintro rfl
      rfl
  by_cases hroot : u.toTy.isRoot
  · have hraw : u.args = [] := (Ty.cls.inj (of_decide_eq_true hroot)).2
    exact iff_of_true (isSubtype_of_isRoot rfl hroot) (Or.inl hraw)
  · have hsub : s.isSubtype t.toTy u.toTy ↔ ∃ found,
        s.findAbove u.id [t] [] = some (some found) ∧ (u.args = [] ∨ found.args = u.args) :=
      isSubtype_cls_iff hu hroot
    rw [hsub, hw, viewAs_of_findAbove hw, Option.some.injEq, ← hargs]
    simp

/-- From the declared type of a class no two parameterisations of one class are reached. -/
def SingleViews (s : Store) : Prop :=
  ∀ id d, s.classDef? id = some d → ∀ u w, s.Above (d.declaredType id) u →
    s.Above (d.declaredType id) w → u.id = w.id → u.args ≠ [] → w.args ≠ [] → u = w

theorem eq_of_above_of_classDef?_eq_none (hd : s.classDef? t.id = none) (h : s.Above t u) :
    u = t := by
  rcases Relation.ReflTransGen.cases_head h with rfl | ⟨w, hw, -⟩
  · rfl
  · obtain ⟨d, hsome, -⟩ := mem_directSupertypes_iff.mp hw
    rw [hd] at hsome
    cases hsome

theorem exists_above_declaredType (hs : s.ProperSupertypes) (hd : s.classDef? t.id = some d)
    (hnodup : d.typeParams.Nodup) (ht : s.HasArity t.toTy) (hraw : isRaw d t = false)
    (h : s.Above t u) :
    ∃ w, s.Above (d.declaredType t.id) w ∧
      u = w.subst (.ofPairs (d.typeParams.zip t.args)) := by
  have hlength := length_of_isRaw_eq_false (ht.imp_right (· d hd)) hraw
  have harity : s.HasArity (d.declaredType t.id).toTy := by
    right
    intro d' hd'
    rw [Option.some.inj (hd'.symm.trans hd)]
    simp [ClassDef.declaredType]
  apply exists_above_of_subst hs harity
  rwa [ClassDef.declaredType_subst hnodup hlength]

theorem SingleViews.eq_of_above (hsingle : s.SingleViews) (hs : s.ProperSupertypes)
    (hnodup : ∀ d ∈ s.classDef? t.id, d.typeParams.Nodup) (ht : s.HasArity t.toTy)
    (hu : s.Above t u) (hw : s.Above t w) (hid : u.id = w.id) (huArgs : u.args ≠ [])
    (hwArgs : w.args ≠ []) : u = w := by
  cases hd : s.classDef? t.id with
  | none =>
      rw [eq_of_above_of_classDef?_eq_none hd hu, eq_of_above_of_classDef?_eq_none hd hw]
  | some d =>
      by_cases hraw : isRaw d t
      · -- what has arguments above a raw type lies above the declared type as it is
        have hkept : ∀ v, s.Above t v → v.args ≠ [] → s.Above (d.declaredType t.id) v := by
          intro v hv hargs
          have herased : t = d.declaredType t.id ∨ t = ⟨(d.declaredType t.id).id, []⟩ := by
            right
            have hnil : t.args = [] := by
              simp only [isRaw, Bool.and_eq_true, List.isEmpty_iff] at hraw
              exact hraw.1
            rw [← hnil]
            rfl
          obtain ⟨v', hv', rfl | rfl⟩ := exists_above_of_erased herased hv
          · exact hv'
          · exact absurd rfl hargs
        exact hsingle t.id d hd u w (hkept u hu huArgs) (hkept w hw hwArgs) hid huArgs hwArgs
      · have hraw : isRaw d t = false := by simpa using hraw
        obtain ⟨u', hu', rfl⟩ := exists_above_declaredType hs hd (hnodup d hd) ht hraw hu
        obtain ⟨w', hw', rfl⟩ := exists_above_declaredType hs hd (hnodup d hd) ht hraw hw
        have huArgs' : u'.args ≠ [] := by simpa [ClassType.subst] using huArgs
        have hwArgs' : w'.args ≠ [] := by simpa [ClassType.subst] using hwArgs
        rw [hsingle t.id d hd u' w' hu' hw' hid huArgs' hwArgs']

/-- A type with arguments loses them only above a raw type or where the declared type of its class
reaches a raw type already. -/
theorem isRaw_or_above_of_above_raw {id : ClassId} (hs : s.ProperSupertypes)
    (hd : s.classDef? t.id = some d) (hnodup : d.typeParams.Nodup) (ht : s.HasArity t.toTy)
    (h : s.Above t ⟨id, []⟩) : isRaw d t ∨ s.Above (d.declaredType t.id) ⟨id, []⟩ := by
  by_cases hraw : isRaw d t
  · exact Or.inl hraw
  · right
    have hraw : isRaw d t = false := by simpa using hraw
    obtain ⟨w, hw, heq⟩ := exists_above_declaredType hs hd hnodup ht hraw h
    have hargs : w.args = [] := by simpa [ClassType.subst] using (congrArg ClassType.args heq).symm
    have hid : id = w.id := congrArg ClassType.id heq
    rw [hid, ← hargs]
    exact hw

/-- A type at the end of a chain of supertypes is found to be a supertype exactly if it is raw or
what the search meets first. Where the declared types reach one parameterisation of each class, it
is not found exactly if it has arguments and the search meets the raw type of its class first. Then
the chain starts from a raw type, or the declared type of the class from which it starts reaches
that raw type, too. -/
theorem isSubtype_iff_of_above (s : Store) (t u : ClassType) (hfinite : {w | s.Above t w}.Finite)
    (hu : Ty.allGround u.args) (habove : s.Above t u) :
    (s.isSubtype t.toTy u.toTy ↔ u.args = [] ∨ s.viewAs t u.id = some u) ∧
    (s.SingleViews → s.ProperSupertypes → s.HasArity t.toTy →
      (∀ d ∈ s.classDef? t.id, d.typeParams.Nodup) →
      (¬ s.isSubtype t.toTy u.toTy ↔ u.args ≠ [] ∧ s.viewAs t u.id = some ⟨u.id, []⟩) ∧
      (¬ s.isSubtype t.toTy u.toTy → ∃ d, s.classDef? t.id = some d ∧
        (isRaw d t ∨ s.Above (d.declaredType t.id) ⟨u.id, []⟩))) := by
  have hview := isSubtype_iff_viewAs hfinite hu habove
  refine ⟨hview, fun hsingle hs ht hnodup => ?_⟩
  obtain ⟨w, hfound, hid, hwAbove⟩ := findAbove_of_above hfinite habove
  have hw := viewAs_of_findAbove hfound
  have hmissed : ¬ s.isSubtype t.toTy u.toTy → u.args ≠ [] ∧ w = ⟨u.id, []⟩ := by
    intro hnot
    rw [hview, not_or, hw, Option.some.injEq] at hnot
    obtain ⟨huArgs, hne⟩ := hnot
    refine ⟨huArgs, ?_⟩
    -- with arguments the first one would be the end of the chain
    by_cases hwArgs : w.args = []
    · rw [← hid, ← hwArgs]
    · exact absurd (hsingle.eq_of_above hs hnodup ht hwAbove habove hid hwArgs huArgs) hne
  constructor
  · rw [hw, Option.some.injEq]
    refine ⟨hmissed, ?_⟩
    rintro ⟨huArgs, rfl⟩ hsub
    rcases hview.mp hsub with hnil | hsame
    · exact huArgs hnil
    · rw [hw, Option.some.injEq] at hsame
      exact huArgs (by rw [← hsame])
  · intro hnot
    obtain ⟨huArgs, rfl⟩ := hmissed hnot
    cases hd : s.classDef? t.id with
    | none =>
        rw [eq_of_above_of_classDef?_eq_none hd habove] at hnot
        exact absurd (isSubtype_refl s t.toTy) hnot
    | some d => exact ⟨d, rfl, isRaw_or_above_of_above_raw hs hd (hnodup d hd) ht hwAbove⟩

def sourceDef : ClassDef := Platform.interface "Source" [⟨0⟩] [] []

def baseDef : ClassDef :=
  Platform.concreteClass "Base" [] none [.cls ⟨6⟩ [Platform.stringTy]] []

def derivedDef : ClassDef :=
  Platform.concreteClass "Derived" [⟨1⟩] (some (Platform.plain ⟨7⟩))
    [.cls ⟨6⟩ [Platform.stringTy]] []

def derivedDeclarations : List (ClassId × ClassDef) :=
  [(⟨6⟩, sourceDef), (⟨7⟩, baseDef), (⟨8⟩, derivedDef)]

def derivedStore : Store where
  classes := empty.classes ++ derivedDeclarations.map fun p => ⟨p.2.name, some p.2⟩
  typeParams := [⟨"P", .unconstrained⟩, ⟨"T", .unconstrained⟩]

theorem mem_of_classDef?_derived {id : ClassId} (h : derivedStore.classDef? id = some d) :
    (id, d) ∈ derivedDeclarations := by
  have hall : ∀ i < 9, ∀ d ∈ derivedStore.classDef? ⟨i⟩, (⟨i⟩, d) ∈ derivedDeclarations := by
    decide
  obtain ⟨entry, hentry, -⟩ := Option.bind_eq_some_iff.mp h
  exact hall id.index (List.getElem?_eq_some_iff.mp hentry).1 d h

theorem properSupertypes_derived : derivedStore.ProperSupertypes :=
  .of_classes (by decide)

theorem singleViews_derived : derivedStore.SingleViews := by
  intro id d hd u w hu hw hid _ _
  have hwalk : derivedStore.FunctionalWalk (d.declaredType id) := by
    have hmem := mem_of_classDef?_derived hd
    simp only [derivedDeclarations, List.mem_cons, Prod.mk.injEq, List.not_mem_nil,
      or_false] at hmem
    clear hd hu hw
    rcases hmem with ⟨rfl, rfl⟩ | ⟨rfl, rfl⟩ | ⟨rfl, rfl⟩
    · apply FunctionalWalk.of_closed [⟨⟨6⟩, [.var ⟨0⟩]⟩, ⟨.object, []⟩] <;> decide
    · apply FunctionalWalk.of_closed
        [⟨⟨7⟩, []⟩, ⟨⟨6⟩, [Platform.stringTy]⟩, ⟨.object, []⟩] <;> decide
    · apply FunctionalWalk.of_closed
        [⟨⟨8⟩, [.var ⟨1⟩]⟩, ⟨⟨7⟩, []⟩, ⟨⟨6⟩, [Platform.stringTy]⟩, ⟨.object, []⟩] <;> decide
  exact hwalk.unique u w hu hw hid

/-- From the raw type `Derived` a chain leads through `Base` to `Source<String>`, but the search
meets the raw type `Source` first. -/
theorem isSubtype_iff_of_above_derived :
    derivedStore.SingleViews ∧ derivedStore.ProperSupertypes ∧
    derivedStore.isSubtype (.cls ⟨8⟩ []) (.cls ⟨7⟩ []) ∧
    derivedStore.isSubtype (.cls ⟨7⟩ []) (.cls ⟨6⟩ [Platform.stringTy]) ∧
    derivedStore.Above ⟨⟨8⟩, []⟩ ⟨⟨6⟩, [Platform.stringTy]⟩ ∧
    ¬ derivedStore.isSubtype (.cls ⟨8⟩ []) (.cls ⟨6⟩ [Platform.stringTy]) := by
  have hfinite : {w | derivedStore.Above ⟨⟨8⟩, []⟩ w}.Finite := by
    have hclosed : ∀ t ∈ ([⟨⟨8⟩, []⟩, ⟨⟨7⟩, []⟩, ⟨⟨6⟩, []⟩, ⟨⟨6⟩, [Platform.stringTy]⟩,
        ⟨.object, []⟩] : List ClassType), ∀ u ∈ derivedStore.directSupertypes t,
        u ∈ ([⟨⟨8⟩, []⟩, ⟨⟨7⟩, []⟩, ⟨⟨6⟩, []⟩, ⟨⟨6⟩, [Platform.stringTy]⟩,
          ⟨.object, []⟩] : List ClassType) := by
      decide
    exact (List.finite_toSet _).subset fun _ hw => mem_of_above hclosed (by simp) hw
  have habove : derivedStore.Above ⟨⟨8⟩, []⟩ ⟨⟨6⟩, [Platform.stringTy]⟩ := by
    have hbase : (⟨⟨7⟩, []⟩ : ClassType) ∈ derivedStore.directSupertypes ⟨⟨8⟩, []⟩ := by decide
    have hsource : (⟨⟨6⟩, [Platform.stringTy]⟩ : ClassType) ∈
        derivedStore.directSupertypes ⟨⟨7⟩, []⟩ := by
      decide
    exact ((Above.refl _).tail hbase).tail hsource
  have hview : derivedStore.viewAs ⟨⟨8⟩, []⟩ ⟨6⟩ = some ⟨⟨6⟩, []⟩ :=
    viewAs_of_findAbove (by cbv)
  obtain ⟨-, hmissed⟩ := isSubtype_iff_of_above derivedStore ⟨⟨8⟩, []⟩
    ⟨⟨6⟩, [Platform.stringTy]⟩ hfinite rfl habove
  obtain ⟨hiff, -⟩ := hmissed singleViews_derived properSupertypes_derived (Or.inl rfl) (by decide)
  refine ⟨singleViews_derived, properSupertypes_derived, by cbv, by cbv, habove, ?_⟩
  exact hiff.mpr ⟨by simp, hview⟩

end Store

end CallCatalog
