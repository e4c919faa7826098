import CallCatalog.Proofs.Questions
import CallCatalog.Types.Platform
import Mathlib.Data.List.Permutation

/-!
Subtyping between types without type variables and wildcards. No type argument gives rise to a
question here, so one search compares two class types. The relation is transitive for a type whose
supertypes have one list of arguments for each class; in between may stand a raw type, above which
lies what lies above a parameterised type with the arguments left out.
-/

namespace CallCatalog

namespace Ty

mutual

def isGround : Ty → Bool
  | void => true
  | primitive _ => true
  | cls _ args => allGround args
  | arr elem => elem.isGround
  | var _ => false
  | any => false
  | ext _ => false
  | sup _ => false

def allGround : List Ty → Bool
  | [] => true
  | t :: ts => t.isGround && allGround ts

end

def innermost : Ty → Ty
  | arr elem => elem.innermost
  | t => t

end Ty

section Arguments

variable {opened : List TypeVarId} {ask : Question → Option Bool} {formal actual : Ty}

theorem containment_of_isGround (h : formal.isGround) :
    containment opened formal actual = .settled (formal = actual) := by
  cases formal with
  | any => cases h
  | ext _ => cases h
  | sup _ => cases h
  | _ => rfl

theorem evaluate_zipWith_containment {formals actuals : List Ty} (h : Ty.allGround formals)
    (hlength : actuals.length = formals.length) :
    (∀ c ∈ List.zipWith (containment opened) formals actuals, c.evaluate ask = some true) ↔
      actuals = formals := by
  induction formals generalizing actuals with
  | nil => simpa using hlength
  | cons formal formals ih =>
      cases actuals with
      | nil => cases hlength
      | cons actual actuals =>
          simp only [Ty.allGround, Bool.and_eq_true] at h
          rw [List.zipWith_cons_cons, List.forall_mem_cons, ih h.2 (Nat.succ.inj hlength),
            containment_of_isGround h.1]
          simp [Containment.evaluate, eq_comm]

theorem evaluate_matchArguments {args : List Ty} {found : ClassType} (h : Ty.allGround args) :
    (matchArguments opened args (some found)).evaluate ask = some true ↔
      args = [] ∨ found.args = args := by
  unfold matchArguments
  dsimp only
  split
  · rename_i hempty
    simp [Reduction.evaluate, List.isEmpty_iff.mp hempty]
  · rename_i hnonempty
    have hne : args ≠ [] := by simpa using hnonempty
    split
    · rename_i hlength
      have hdiffer : found.args ≠ args := fun heq => hlength (congrArg List.length heq)
      simp [Reduction.evaluate, hne, hdiffer]
    · rename_i hlength
      rw [Reduction.evaluate, allM_eq_some_true_iff,
        evaluate_zipWith_containment h (not_not.mp hlength)]
      simp [hne]

end Arguments

namespace Store

variable {s : Store} {a b c : Ty} {t u w w' : ClassType} {id target : ClassId} {args : List Ty}

theorem isSubtype_iff : s.isSubtype a b ↔ s.answer? ⟨[], a, b⟩ = some true := by
  simp [isSubtype, subtype?]

theorem isSubtype_refl (s : Store) (a : Ty) : s.isSubtype a a := by
  rw [isSubtype_iff, answer?_eq]
  simp [reduce?, Reduction.evaluate]

theorem isSubtype_of_isRoot (ha : a.isReference) (hb : b.isRoot) : s.isSubtype a b := by
  rw [isSubtype_iff, answer?_eq]
  cases a with
  | cls _ _ =>
      simp only [reduce?, hb, if_true]
      split <;> rfl
  | arr _ =>
      simp only [reduce?, hb, if_true]
      split <;> rfl
  | _ => cases ha

theorem isSubtype_cls_iff (hground : Ty.allGround args) (hroot : ¬ (Ty.cls target args).isRoot) :
    s.isSubtype t.toTy (.cls target args) ↔
      ∃ found, s.findAbove target [t] [] = some (some found) ∧
        (args = [] ∨ found.args = args) := by
  by_cases heq : t.toTy = .cls target args
  · obtain ⟨rfl, rfl⟩ := Ty.cls.inj heq
    refine iff_of_true (isSubtype_refl s _) ⟨t, ?_, Or.inr rfl⟩
    rw [findAbove]
    simp
  · have hreduce : s.reduce? ⟨[], t.toTy, .cls target args⟩ =
        (s.findAbove target [t] []).map (matchArguments [] args) := by
      unfold reduce?
      rw [if_neg heq]
      simp only [ClassType.toTy]
      rw [if_neg hroot]
    rw [isSubtype_iff, answer?_eq, hreduce]
    cases s.findAbove target [t] [] with
    | none => simp
    | some found? =>
        cases found? with
        | none => simp [matchArguments, Reduction.evaluate]
        | some found => simp [evaluate_matchArguments hground]

theorem exists_cls_of_isSubtype (h : s.isSubtype (.cls id args) b) :
    ∃ target supArgs, b = .cls target supArgs := by
  rw [isSubtype_iff, answer?_eq] at h
  cases b with
  | cls target supArgs => exact ⟨target, supArgs, rfl⟩
  | _ => simp [reduce?, Ty.isRoot, Reduction.evaluate] at h

theorem isSubtype_arr_arr_iff : s.isSubtype (.arr a) (.arr b) ↔
    a = b ∨ (a.isReference ∧ b.isArrayTarget ∧ s.isSubtype a b) := by
  by_cases heq : a = b
  · rw [heq]
    exact iff_of_true (isSubtype_refl s _) (Or.inl rfl)
  · have hreduce : s.reduce? ⟨[], .arr a, .arr b⟩ =
        if a.isReference && b.isArrayTarget then some (.anyOf [⟨[], a, b⟩])
        else some (.settled false) := by
      unfold reduce?
      rw [if_neg (by simpa using heq)]
      rfl
    rw [isSubtype_iff, isSubtype_iff, answer?_eq, hreduce]
    split
    · rename_i hshape
      rw [Bool.and_eq_true] at hshape
      simp only [Option.bind_some, Reduction.evaluate, anyM_singleton, heq, hshape, true_and,
        false_or]
    · rename_i hshape
      rw [Bool.and_eq_true] at hshape
      simp only [Option.bind_some, Reduction.evaluate, heq, false_or, ← and_assoc, hshape,
        false_and]
      simp

theorem isSubtype_arr_cls_iff : s.isSubtype (.arr a) (.cls id args) ↔
    args = [] ∧ (id = .object ∨ id = .cloneable ∨ id = .serializable) := by
  have hreduce : s.reduce? ⟨[], .arr a, .cls id args⟩ =
      if (Ty.cls id args).isRoot then some (.settled true)
      else some (.settled (args.isEmpty && (id = .cloneable || id = .serializable))) := by
    unfold reduce?
    rw [if_neg (by simp)]
  rw [isSubtype_iff, answer?_eq, hreduce]
  by_cases hargs : args = []
  · by_cases hid : id = .object
    · simp [Ty.isRoot, hargs, hid, Reduction.evaluate]
    · simp [Ty.isRoot, hargs, hid, Reduction.evaluate]
  · simp [Ty.isRoot, hargs, Reduction.evaluate]

theorem cases_of_isSubtype_arr (h : s.isSubtype (.arr a) b) :
    (∃ elem, b = .arr elem) ∨ ∃ id args, b = .cls id args := by
  rw [isSubtype_iff, answer?_eq] at h
  cases b with
  | arr elem => exact Or.inl ⟨elem, rfl⟩
  | cls id args => exact Or.inr ⟨id, args, rfl⟩
  | _ => simp [reduce?, Ty.isRoot, Reduction.evaluate] at h

theorem eq_of_isSubtype_of_rigid (href : a.isReference = false) (ha : a.isGround)
    (h : s.isSubtype a b) : a = b := by
  rw [isSubtype_iff, answer?_eq] at h
  by_contra hne
  cases a with
  | void => simp [reduce?, hne, Reduction.evaluate] at h
  | primitive _ => simp [reduce?, hne, Reduction.evaluate] at h
  | cls _ _ => cases href
  | arr _ => cases href
  | _ => cases ha

/-- The root class has no declared supertypes, and the two interfaces of arrays have none but the
root class. -/
structure WellRooted (s : Store) : Prop where
  object : ∀ d, s.classDef? .object = some d → d.supertypes = []
  arrays : ∀ id, id = .cloneable ∨ id = .serializable → ∀ d, s.classDef? id = some d →
    ∀ sup ∈ d.supertypes, sup = .cls .object []

theorem WellRooted.eq_root_of_mem (h : s.WellRooted)
    (hid : id = .object ∨ id = .cloneable ∨ id = .serializable)
    (hu : u ∈ s.directSupertypes ⟨id, []⟩) : u = ⟨.object, []⟩ := by
  obtain ⟨d, hd, ⟨id', args', hmem, hsup⟩ | ⟨-, rfl⟩⟩ := mem_directSupertypes_iff.mp hu
  · have hdeclared : Ty.cls id' args' = .cls .object [] := by
      rcases hid with rfl | hid
      · rw [h.object d hd] at hmem
        cases hmem
      · exact h.arrays id hid d hd _ hmem
    obtain ⟨rfl, rfl⟩ := Ty.cls.inj hdeclared
    have hroot : (⟨.object, []⟩ : ClassType) = u := by
      simpa [supertypeFrom?, ClassType.subst] using hsup
    exact hroot.symm
  · rfl

theorem WellRooted.eq_of_above (h : s.WellRooted)
    (hid : id = .object ∨ id = .cloneable ∨ id = .serializable) (habove : s.Above ⟨id, []⟩ u) :
    u = ⟨id, []⟩ ∨ u = ⟨.object, []⟩ := by
  induction habove with
  | refl => exact Or.inl rfl
  | tail _ hstep ih =>
      rcases ih with rfl | rfl
      · exact Or.inr (h.eq_root_of_mem hid hstep)
      · exact Or.inr (h.eq_root_of_mem (Or.inl rfl) hstep)

/-- Leaving out the arguments of a type leaves out those of its direct supertypes, or nothing
changes. -/
theorem exists_directSupertype_of_erased (h : w = u ∨ w = ⟨u.id, []⟩)
    (hw : w' ∈ s.directSupertypes w) :
    ∃ u' ∈ s.directSupertypes u, w' = u' ∨ w' = ⟨u'.id, []⟩ := by
  rcases h with rfl | rfl
  · exact ⟨w', hw, Or.inl rfl⟩
  · obtain ⟨d, hd, ⟨id, args, hmem, hsup⟩ | ⟨hkind, rfl⟩⟩ := mem_directSupertypes_iff.mp hw
    · by_cases hgeneric : d.isGeneric
      · obtain ⟨u', hu'⟩ := exists_supertypeFrom? d u id args
        have hw' : w' = ⟨id, []⟩ := by
          simpa [supertypeFrom?, isRaw, hgeneric, eq_comm] using hsup
        refine ⟨u', mem_directSupertypes_iff.mpr ⟨d, hd, Or.inl ⟨id, args, hmem, hu'⟩⟩, ?_⟩
        exact Or.inr (by rw [hw', id_of_supertypeFrom? hu'])
      · have hparams : d.typeParams = [] := by simpa [ClassDef.isGeneric] using hgeneric
        have hsame : supertypeFrom? d u (.cls id args) = some w' := by
          simpa [supertypeFrom?, isRaw, hgeneric, hparams] using hsup
        exact ⟨w', mem_directSupertypes_iff.mpr ⟨d, hd, Or.inl ⟨id, args, hmem, hsame⟩⟩,
          Or.inl rfl⟩
    · exact ⟨⟨.object, []⟩, mem_directSupertypes_iff.mpr ⟨d, hd, Or.inr ⟨hkind, rfl⟩⟩,
        Or.inl rfl⟩

theorem exists_above_of_erased (h : w = u ∨ w = ⟨u.id, []⟩) (habove : s.Above w w') :
    ∃ u', s.Above u u' ∧ (w' = u' ∨ w' = ⟨u'.id, []⟩) := by
  induction habove with
  | refl => exact ⟨u, Above.refl u, h⟩
  | tail _ hstep ih =>
      obtain ⟨v, hv, herased⟩ := ih
      obtain ⟨u', hu', herased'⟩ := exists_directSupertype_of_erased herased hstep
      exact ⟨u', hv.tail hu', herased'⟩

/-- Finitely many types lie above `t`, and no two of them belong to the same class. -/
structure FunctionalWalk (s : Store) (t : ClassType) : Prop where
  finite : {u | s.Above t u}.Finite
  unique : ∀ u w, s.Above t u → s.Above t w → u.id = w.id → u = w

theorem FunctionalWalk.of_closed (types : List ClassType) (ht : t ∈ types)
    (hclosed : ∀ t ∈ types, ∀ u ∈ s.directSupertypes t, u ∈ types)
    (hunique : ∀ u ∈ types, ∀ w ∈ types, u.id = w.id → u = w) : s.FunctionalWalk t where
  finite := finite_above_of_closed types ht hclosed
  unique u w hu hw := hunique u (mem_of_above hclosed ht hu) w (mem_of_above hclosed ht hw)

theorem eq_of_isSubtype_raw (h : s.WellRooted)
    (hid : id = .object ∨ id = .cloneable ∨ id = .serializable) (hc : c.isGround)
    (hsub : s.isSubtype (.cls id []) c) : c = .cls id [] ∨ c = .cls .object [] := by
  obtain ⟨target, args, rfl⟩ := exists_cls_of_isSubtype hsub
  by_cases hroot : (Ty.cls target args).isRoot
  · exact Or.inr (of_decide_eq_true hroot)
  · obtain ⟨found, hfound, hargs⟩ := (isSubtype_cls_iff (t := ⟨id, []⟩) hc hroot).mp hsub
    obtain ⟨rfl, habove⟩ := above_of_findAbove hfound
    rcases h.eq_of_above hid habove with rfl | rfl
    · left
      simpa [eq_comm] using hargs
    · right
      simpa [eq_comm] using hargs

theorem isSubtype_trans_of_cls (h : s.WellRooted) (hwalk : s.FunctionalWalk t) (hb : b.isGround)
    (hc : c.isGround) (hab : s.isSubtype t.toTy b) (hbc : s.isSubtype b c) :
    s.isSubtype t.toTy c := by
  obtain ⟨target, bArgs, rfl⟩ := exists_cls_of_isSubtype hab
  obtain ⟨id, cArgs, rfl⟩ := exists_cls_of_isSubtype hbc
  by_cases hcRoot : (Ty.cls id cArgs).isRoot
  · exact isSubtype_of_isRoot rfl hcRoot
  by_cases hbRoot : (Ty.cls target bArgs).isRoot
  · rw [of_decide_eq_true hbRoot] at hbc
    have heq := eq_of_isSubtype_raw h (Or.inl rfl) hc hbc
    exact absurd (decide_eq_true (or_self_iff.mp heq)) hcRoot
  obtain ⟨foundB, hfoundB, hbArgs⟩ := (isSubtype_cls_iff hb hbRoot).mp hab
  obtain ⟨foundC, hfoundC, hcArgs⟩ :=
    (isSubtype_cls_iff (t := ⟨target, bArgs⟩) hc hcRoot).mp hbc
  obtain ⟨rfl, haboveB⟩ := above_of_findAbove hfoundB
  obtain ⟨rfl, haboveC⟩ := above_of_findAbove hfoundC
  have herased : (⟨foundB.id, bArgs⟩ : ClassType) = foundB ∨
      (⟨foundB.id, bArgs⟩ : ClassType) = ⟨foundB.id, []⟩ := by
    rcases hbArgs with rfl | rfl
    · exact Or.inr rfl
    · exact Or.inl rfl
  obtain ⟨u, hu, hfoundC'⟩ := exists_above_of_erased herased haboveC
  have hid : foundC.id = u.id := by
    rcases hfoundC' with heq | heq
    · rw [heq]
    · rw [heq]
  obtain ⟨found, hfound, hfoundId, habove⟩ := findAbove_of_above hwalk.finite (haboveB.trans hu)
  rw [hid] at hcRoot ⊢
  refine (isSubtype_cls_iff hc hcRoot).mpr ⟨found, hfound, ?_⟩
  rcases hfoundC' with rfl | heq
  · rw [hwalk.unique found foundC habove (haboveB.trans hu) hfoundId]
    exact hcArgs
  · -- the third type is raw, whatever arguments are found for the first
    left
    rcases hcArgs with hnil | hnil
    · exact hnil
    · rw [← hnil, heq]

/-- Subtyping of types without type variables and wildcards is transitive from `a` if the search
from the innermost element type of `a` meets each class with one list of arguments. -/
theorem isSubtype_trans {a b c : Ty} (h : s.WellRooted) (ha : a.isGround) (hb : b.isGround)
    (hc : c.isGround) (hwalk : ∀ t : ClassType, a.innermost = t.toTy → s.FunctionalWalk t)
    (hab : s.isSubtype a b) (hbc : s.isSubtype b c) : s.isSubtype a c := by
  cases a with
  | cls id args =>
      exact isSubtype_trans_of_cls (t := ⟨id, args⟩) h (hwalk ⟨id, args⟩ rfl) hb hc hab hbc
  | arr a =>
      have ih : ∀ b c : Ty, b.isGround → c.isGround → s.isSubtype a b → s.isSubtype b c →
          s.isSubtype a c :=
        fun _ _ hb hc hab hbc => isSubtype_trans h ha hb hc hwalk hab hbc
      rcases cases_of_isSubtype_arr hab with ⟨b, rfl⟩ | ⟨id, args, rfl⟩
      · rcases cases_of_isSubtype_arr hbc with ⟨c, rfl⟩ | ⟨id, args, rfl⟩
        · rcases isSubtype_arr_arr_iff.mp hab with rfl | ⟨haRef, -, habElem⟩
          · exact hbc
          rcases isSubtype_arr_arr_iff.mp hbc with rfl | ⟨-, hcTarget, hbcElem⟩
          · exact hab
          have hac := ih b c hb hc habElem hbcElem
          exact isSubtype_arr_arr_iff.mpr (Or.inr ⟨haRef, hcTarget, hac⟩)
        · exact isSubtype_arr_cls_iff.mpr (isSubtype_arr_cls_iff.mp hbc)
      · obtain ⟨rfl, hid⟩ := isSubtype_arr_cls_iff.mp hab
        rcases eq_of_isSubtype_raw h hid hc hbc with rfl | rfl
        · exact hab
        · exact isSubtype_of_isRoot rfl rfl
  | void => exact eq_of_isSubtype_of_rigid rfl ha hab ▸ hbc
  | primitive p => exact eq_of_isSubtype_of_rigid rfl ha hab ▸ hbc
  | _ => cases ha
termination_by a

theorem wellRooted_platform : Platform.store.WellRooted where
  object := by
    intro d hd
    cases hd
    rfl
  arrays := by
    rintro id (rfl | rfl) d hd sup hsup
    · cases hd
      cases hsup
    · cases hd
      cases hsup

theorem functionalWalk_arrayList :
    Platform.store.FunctionalWalk ⟨Platform.arrayList, [Platform.stringTy]⟩ := by
  apply FunctionalWalk.of_closed
    [⟨Platform.arrayList, [Platform.stringTy]⟩, ⟨Platform.list, [Platform.stringTy]⟩,
      ⟨Platform.collection, [Platform.stringTy]⟩, ⟨Platform.iterable, [Platform.stringTy]⟩,
      ⟨.object, []⟩, ⟨.cloneable, []⟩, ⟨.serializable, []⟩]
  · decide
  · decide
  · decide

/-- From `ArrayList<String>[]` through the raw `List[]` to the raw `Iterable[]`. -/
theorem isSubtype_trans_arrayList :
    Platform.store.isSubtype (.arr (.cls Platform.arrayList [Platform.stringTy]))
      (.arr (.cls Platform.iterable [])) := by
  have hab : Platform.store.isSubtype (.arr (.cls Platform.arrayList [Platform.stringTy]))
      (.arr (.cls Platform.list [])) := by
    cbv
  have hbc : Platform.store.isSubtype (.arr (.cls Platform.list []))
      (.arr (.cls Platform.iterable [])) := by
    cbv
  refine isSubtype_trans wellRooted_platform rfl rfl rfl ?_ hab hbc
  intro t ht
  have hstart : (⟨Platform.arrayList, [Platform.stringTy]⟩ : ClassType) = t :=
    ClassType.toTy_inj ht
  rw [← hstart]
  exact functionalWalk_arrayList

end Store

end CallCatalog
