import CallCatalog.Proofs.Occurrences
import CallCatalog.Proofs.Substitutions
import CallCatalog.Proofs.SubtypeTransitivity

namespace CallCatalog

namespace Ty

mutual

def isWildcardFree : Ty → Bool
  | void => true
  | primitive _ => true
  | cls _ args => allWildcardFree args
  | arr elem => elem.isWildcardFree
  | var _ => true
  | any => false
  | ext _ => false
  | sup _ => false

def allWildcardFree : List Ty → Bool
  | [] => true
  | t :: ts => t.isWildcardFree && allWildcardFree ts

end

mutual

theorem isGround_iff :
    ∀ t : Ty, t.isGround ↔ t.isWildcardFree ∧ t.mentionsVars = false
  | void => by simp [isGround, isWildcardFree, mentionsVars]
  | primitive _ => by simp [isGround, isWildcardFree, mentionsVars]
  | cls _ args => by simpa [isGround, isWildcardFree, mentionsVars] using allGround_iff args
  | arr elem => by simpa [isGround, isWildcardFree, mentionsVars] using isGround_iff elem
  | var _ => by simp [isGround, mentionsVars]
  | any => by simp [isGround, isWildcardFree]
  | ext _ => by simp [isGround, isWildcardFree]
  | sup _ => by simp [isGround, isWildcardFree]

theorem allGround_iff :
    ∀ ts : List Ty, allGround ts ↔ allWildcardFree ts ∧ anyMentionsVars ts = false
  | [] => by simp [allGround, allWildcardFree, anyMentionsVars]
  | t :: ts => by
      simp only [allGround, allWildcardFree, anyMentionsVars, Bool.and_eq_true,
        Bool.or_eq_false_iff, isGround_iff t, allGround_iff ts]
      exact and_and_and_comm

end

mutual

theorem isWildcardFree_subst {σ : Assignment} (hσ : ∀ v t, σ v = some t → t.isWildcardFree) :
    ∀ t : Ty, t.isWildcardFree → (t.subst σ).isWildcardFree
  | void, _ => rfl
  | primitive _, _ => rfl
  | cls _ args, h => allWildcardFree_substAll hσ args h
  | arr elem, h => isWildcardFree_subst hσ elem h
  | var v, _ => by
      cases hv : σ v with
      | none => simp [subst, hv, isWildcardFree]
      | some t => simpa [subst, hv] using hσ v t hv

theorem allWildcardFree_substAll {σ : Assignment} (hσ : ∀ v t, σ v = some t → t.isWildcardFree) :
    ∀ ts : List Ty, allWildcardFree ts → allWildcardFree (substAll σ ts)
  | [], _ => rfl
  | t :: ts, h => by
      simp only [allWildcardFree, substAll, Bool.and_eq_true] at h ⊢
      exact ⟨isWildcardFree_subst hσ t h.1, allWildcardFree_substAll hσ ts h.2⟩

end

theorem vars_of_isGround {t : Ty} (h : t.isGround) : ∀ v, v ∉ t.vars :=
  mem_vars_of_within ((mentionsVars_eq_false_iff t).mp ((isGround_iff t).mp h).2)

theorem subst_of_isGround {t : Ty} (h : t.isGround) (σ : Assignment) : t.subst σ = t := by
  have hempty : t.subst σ = t.subst .empty :=
    subst_congr fun v hv => absurd hv (vars_of_isGround h v)
  rw [hempty, subst_empty]

theorem isReference_subst {t : Ty} (h : t.isReference) (σ : Assignment) :
    (t.subst σ).isReference := by
  cases t with
  | cls _ _ => rfl
  | arr _ => rfl
  | _ => cases h

end Ty

theorem ClassType.subst_of_isGround {t : ClassType} (h : Ty.allGround t.args) (σ : Assignment) :
    t.subst σ = t := by
  apply toTy_inj
  rw [toTy_subst]
  exact Ty.subst_of_isGround (t := t.toTy) h σ

namespace Store

variable {s : Store} {σ : Assignment} {t u w : ClassType} {id : ClassId}

/-- A class type leaves out all arguments or has as many as its class has parameters, and so does
the innermost element type of an array type. -/
def HasArity (s : Store) : Ty → Prop
  | .cls id args => args = [] ∨ ∀ d ∈ s.classDef? id, args.length = d.typeParams.length
  | .arr elem => s.HasArity elem
  | _ => True

instance decidableHasArity (s : Store) : (t : Ty) → Decidable (s.HasArity t)
  | .cls id args => inferInstanceAs
      (Decidable (args = [] ∨ ∀ d ∈ s.classDef? id, args.length = d.typeParams.length))
  | .arr elem => decidableHasArity s elem
  | .void => .isTrue trivial
  | .primitive _ => .isTrue trivial
  | .var _ => .isTrue trivial
  | .any => .isTrue trivial
  | .ext _ => .isTrue trivial
  | .sup _ => .isTrue trivial

theorem hasArity_innermost {a : Ty} (h : s.HasArity a) : s.HasArity a.innermost := by
  induction a using Ty.innermost.induct with
  | case1 elem ih => exact ih h
  | case2 a hne =>
      rw [Ty.innermost]
      · exact h
      · exact hne

/-- Declared supertypes leave out all arguments or have as many as needed, and they mention no type
variables but the parameters of the class that declares them. -/
structure ProperSupertypes (s : Store) : Prop where
  arity : ∀ id d, s.classDef? id = some d → ∀ sup ∈ d.supertypes, s.HasArity sup
  closed : ∀ id d, s.classDef? id = some d → ∀ sup ∈ d.supertypes, ∀ v ∈ sup.vars,
    v ∈ d.typeParams

theorem ProperSupertypes.of_classes (h : ∀ entry ∈ s.classes, ∀ d ∈ entry.definition?,
    ∀ sup ∈ d.supertypes, s.HasArity sup ∧ ∀ v ∈ sup.vars, v ∈ d.typeParams) :
    s.ProperSupertypes := by
  have hall : ∀ id d, s.classDef? id = some d → ∀ sup ∈ d.supertypes,
      s.HasArity sup ∧ ∀ v ∈ sup.vars, v ∈ d.typeParams := by
    intro id d hd
    obtain ⟨entry, hentry, hdefinition⟩ := Option.bind_eq_some_iff.mp hd
    exact h entry (List.mem_of_getElem? hentry) d hdefinition
  exact ⟨fun id d hd sup hsup => (hall id d hd sup hsup).1,
    fun id d hd sup hsup => (hall id d hd sup hsup).2⟩

theorem isRaw_subst (d : ClassDef) (t : ClassType) (σ : Assignment) :
    isRaw d (t.subst σ) = isRaw d t := by
  simp [isRaw, ClassType.subst]

theorem length_of_isRaw_eq_false {d : ClassDef}
    (hlength : t.args = [] ∨ t.args.length = d.typeParams.length) (hraw : isRaw d t = false) :
    t.args.length = d.typeParams.length := by
  rcases hlength with hnil | hlength
  · have hparams : d.typeParams = [] := by
      simpa [isRaw, hnil, ClassDef.isGeneric] using hraw
    rw [hnil, hparams]
    rfl
  · exact hlength

theorem supertypeFrom?_subst {d : ClassDef} {args : List Ty}
    (hlength : t.args = [] ∨ t.args.length = d.typeParams.length)
    (hscoped : ∀ v ∈ (Ty.cls id args).vars, v ∈ d.typeParams)
    (h : supertypeFrom? d t (.cls id args) = some u) :
    supertypeFrom? d (t.subst σ) (.cls id args) = some (u.subst σ) := by
  simp only [supertypeFrom?, isRaw_subst] at h ⊢
  split at h
  · rename_i hraw
    rw [if_pos hraw, ← Option.some.inj h]
    rfl
  · rename_i hraw
    rw [if_neg hraw, ← Option.some.inj h, Option.some.injEq]
    have hfull := length_of_isRaw_eq_false hlength (by simpa using hraw)
    apply ClassType.toTy_inj
    rw [ClassType.toTy_subst, ClassType.toTy_subst, ClassType.toTy_subst]
    exact (Ty.subst_ofPairs_subst hfull hscoped σ).symm

theorem directSupertypes_subst (hs : s.ProperSupertypes) (ht : s.HasArity t.toTy) :
    s.directSupertypes (t.subst σ) = (s.directSupertypes t).map (ClassType.subst σ) := by
  have hid : (t.subst σ).id = t.id := rfl
  unfold directSupertypes
  rw [hid]
  cases hd : s.classDef? t.id with
  | none => rfl
  | some d =>
      have hlength : t.args = [] ∨ t.args.length = d.typeParams.length := ht.imp_right (· d hd)
      have hdeclared : d.supertypes.filterMap (supertypeFrom? d (t.subst σ)) =
          (d.supertypes.filterMap (supertypeFrom? d t)).map (ClassType.subst σ) := by
        rw [List.map_filterMap]
        apply List.filterMap_congr
        intro sup hsup
        cases sup with
        | cls id args =>
            obtain ⟨u, hu⟩ := exists_supertypeFrom? d t id args
            rw [supertypeFrom?_subst hlength (hs.closed t.id d hd _ hsup) hu, hu, Option.map_some]
        | _ => rfl
      dsimp only
      rw [hdeclared, List.map_append]
      congr 1
      split <;> rfl

theorem hasArity_of_mem_directSupertypes (hs : s.ProperSupertypes)
    (hu : u ∈ s.directSupertypes t) : s.HasArity u.toTy := by
  obtain ⟨d, hd, ⟨id, args, hmem, hsup⟩ | ⟨-, rfl⟩⟩ := mem_directSupertypes_iff.mp hu
  · simp only [supertypeFrom?] at hsup
    split at hsup
    · rw [← Option.some.inj hsup]
      exact Or.inl rfl
    · rw [← Option.some.inj hsup]
      simpa [HasArity, ClassType.toTy, ClassType.subst] using hs.arity t.id d hd _ hmem
  · exact Or.inl rfl

theorem above_subst (hs : s.ProperSupertypes) (ht : s.HasArity t.toTy) (h : s.Above t u) :
    s.Above (t.subst σ) (u.subst σ) := by
  suffices hboth : s.Above (t.subst σ) (u.subst σ) ∧ s.HasArity u.toTy from hboth.1
  induction h with
  | refl => exact ⟨Above.refl _, ht⟩
  | @tail v w _ hstep ih =>
      refine ⟨ih.1.tail ?_, hasArity_of_mem_directSupertypes hs hstep⟩
      rw [directSupertypes_subst hs ih.2]
      exact List.mem_map_of_mem hstep

theorem exists_above_of_subst (hs : s.ProperSupertypes) (ht : s.HasArity t.toTy)
    (h : s.Above (t.subst σ) w) : ∃ u, s.Above t u ∧ w = u.subst σ := by
  suffices hwith : ∃ u, s.Above t u ∧ s.HasArity u.toTy ∧ w = u.subst σ by
    obtain ⟨u, hu, -, heq⟩ := hwith
    exact ⟨u, hu, heq⟩
  induction h with
  | refl => exact ⟨t, Above.refl t, ht, rfl⟩
  | tail _ hstep ih =>
      obtain ⟨v, hv, harity, rfl⟩ := ih
      rw [directSupertypes_subst hs harity] at hstep
      obtain ⟨u, hu, rfl⟩ := List.mem_map.mp hstep
      exact ⟨u, hv.tail hu, hasArity_of_mem_directSupertypes hs hu, rfl⟩

end Store

end CallCatalog
