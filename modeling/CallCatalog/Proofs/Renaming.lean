import CallCatalog.Catalog.Contribution
import CallCatalog.Instantiation.Resolver
import CallCatalog.Proofs.BoundVariables
import CallCatalog.Proofs.Occurrences
import Mathlib.Data.List.Basic

/-!
Giving classes and type variables other numbers. The numbers are only names: a renaming keeps
different ones apart, so it commutes with substitution and with everything else that is done with
types.
-/

namespace CallCatalog

/-- Other numbers for classes and type variables. Different ones stay different, and the well-known
classes keep theirs. -/
structure Renaming where
  cls : ClassId → ClassId
  var : TypeVarId → TypeVarId
  cls_injective : Function.Injective cls
  var_injective : Function.Injective var
  cls_wellKnown : ∀ id, id.index < Store.wellKnownNames.length → cls id = id

def Renaming.refl : Renaming where
  cls := id
  var := id
  cls_injective := Function.injective_id
  var_injective := Function.injective_id
  cls_wellKnown _ _ := rfl

theorem map_eq_self {α : Type} {g : α → α} {as : List α} (h : ∀ a ∈ as, g a = a) :
    as.map g = as := by
  rw [List.map_congr_left h, List.map_id']

namespace Ty

mutual

def rename (f : Renaming) : Ty → Ty
  | cls id args => cls (f.cls id) (renameAll f args)
  | arr elem => arr (elem.rename f)
  | var v => var (f.var v)
  | ext upper => ext (upper.rename f)
  | sup lower => sup (lower.rename f)
  | void => void
  | primitive p => primitive p
  | any => any

def renameAll (f : Renaming) : List Ty → List Ty
  | [] => []
  | t :: ts => t.rename f :: renameAll f ts

end

variable {f : Renaming} {σ τ : Assignment}

theorem renameAll_eq_map (f : Renaming) (ts : List Ty) : renameAll f ts = ts.map (rename f) := by
  induction ts with
  | nil => rfl
  | cons t ts ih => simp [renameAll, ih]

mutual

theorem rename_injective (f : Renaming) : ∀ t u : Ty, t.rename f = u.rename f → t = u
  | cls id args, u, h => by
      cases u with
      | cls id' args' =>
          simp only [rename, cls.injEq] at h
          rw [f.cls_injective h.1, renameAll_injective f args args' h.2]
      | _ => cases h
  | arr elem, u, h => by
      cases u with
      | arr elem' => rw [rename_injective f elem elem' (arr.inj h)]
      | _ => cases h
  | var v, u, h => by
      cases u with
      | var w => rw [f.var_injective (var.inj h)]
      | _ => cases h
  | ext upper, u, h => by
      cases u with
      | ext upper' => rw [rename_injective f upper upper' (ext.inj h)]
      | _ => cases h
  | sup lower, u, h => by
      cases u with
      | sup lower' => rw [rename_injective f lower lower' (sup.inj h)]
      | _ => cases h
  | void, u, h => by
      cases u with
      | void => rfl
      | _ => cases h
  | primitive p, u, h => by
      cases u with
      | primitive q => exact h
      | _ => cases h
  | any, u, h => by
      cases u with
      | any => rfl
      | _ => cases h

theorem renameAll_injective (f : Renaming) :
    ∀ ts us : List Ty, renameAll f ts = renameAll f us → ts = us
  | [], us, h => by
      cases us with
      | nil => rfl
      | cons _ _ => cases h
  | t :: ts, us, h => by
      cases us with
      | nil => cases h
      | cons u us =>
          simp only [renameAll, List.cons.injEq] at h
          rw [rename_injective f t u h.1, renameAll_injective f ts us h.2]

end

@[simp] theorem rename_inj {t u : Ty} : t.rename f = u.rename f ↔ t = u :=
  ⟨rename_injective f t u, fun h => h ▸ rfl⟩

mutual

theorem rename_eq_self :
    ∀ t : Ty, t.Within (fun id => f.cls id = id) (fun v => f.var v = v) → t.rename f = t
  | cls id args, h => by rw [rename, h.1, renameAll_eq_self args h.2]
  | arr elem, h => by rw [rename, rename_eq_self elem h]
  | var v, h => congrArg var h
  | ext upper, h => by rw [rename, rename_eq_self upper h]
  | sup lower, h => by rw [rename, rename_eq_self lower h]
  | void, _ => rfl
  | primitive _, _ => rfl
  | any, _ => rfl

theorem renameAll_eq_self :
    ∀ ts : List Ty, AllWithin (fun id => f.cls id = id) (fun v => f.var v = v) ts →
      renameAll f ts = ts
  | [], _ => rfl
  | t :: ts, h => by rw [renameAll, rename_eq_self t h.1, renameAll_eq_self ts h.2]

end

@[simp] theorem rename_refl : rename .refl = id :=
  funext fun t => rename_eq_self t (within_of_forall (fun _ => rfl) (fun _ => rfl) t)

@[simp] theorem isReference_rename (t : Ty) : (t.rename f).isReference = t.isReference := by
  cases t <;> rfl

@[simp] theorem isWildcard_rename (t : Ty) : (t.rename f).isWildcard = t.isWildcard := by
  cases t <;> rfl

@[simp] theorem isArrayTarget_rename (t : Ty) : (t.rename f).isArrayTarget = t.isArrayTarget := by
  cases t <;> rfl

mutual

@[simp] theorem mentionsVars_rename : ∀ t : Ty, (t.rename f).mentionsVars = t.mentionsVars
  | cls _ args => by simpa [rename, mentionsVars] using anyMentionsVars_renameAll args
  | arr elem => by simpa [rename, mentionsVars] using mentionsVars_rename elem
  | var _ => rfl
  | ext upper => by simpa [rename, mentionsVars] using mentionsVars_rename upper
  | sup lower => by simpa [rename, mentionsVars] using mentionsVars_rename lower
  | void => rfl
  | primitive _ => rfl
  | any => rfl

theorem anyMentionsVars_renameAll :
    ∀ ts : List Ty, anyMentionsVars (renameAll f ts) = anyMentionsVars ts
  | [] => rfl
  | t :: ts => by
      simp [renameAll, anyMentionsVars, mentionsVars_rename t, anyMentionsVars_renameAll ts]

end

@[simp] theorem isConcrete_rename (t : Ty) : (t.rename f).isConcrete = t.isConcrete := by
  simp [isConcrete]

theorem cls_object (f : Renaming) : f.cls .object = .object := f.cls_wellKnown _ (by decide)

@[simp] theorem isRoot_rename (t : Ty) : (t.rename f).isRoot = t.isRoot := by
  have hroot : (cls .object []).rename f = cls .object [] := by
    simp [rename, renameAll, cls_object]
  unfold isRoot
  conv_lhs => rw [← hroot]
  simp

theorem mem_map_var {v : TypeVarId} {vs : List TypeVarId} : f.var v ∈ vs.map f.var ↔ v ∈ vs :=
  List.mem_map_of_injective f.var_injective

mutual

theorem varsAfter_rename (seen : List TypeVarId) :
    ∀ t : Ty, varsAfter (seen.map f.var) (t.rename f) = (varsAfter seen t).map f.var
  | cls _ args => by simpa [rename, varsAfter] using varsAfterAll_rename seen args
  | arr elem => by simpa [rename, varsAfter] using varsAfter_rename seen elem
  | var v => by
      simp only [rename, varsAfter, mem_map_var]
      split <;> simp
  | ext upper => by simpa [rename, varsAfter] using varsAfter_rename seen upper
  | sup lower => by simpa [rename, varsAfter] using varsAfter_rename seen lower
  | void => rfl
  | primitive _ => rfl
  | any => rfl

theorem varsAfterAll_rename (seen : List TypeVarId) :
    ∀ ts : List Ty,
      varsAfterAll (seen.map f.var) (renameAll f ts) = (varsAfterAll seen ts).map f.var
  | [] => rfl
  | t :: ts => by
      rw [renameAll, varsAfterAll, varsAfter_rename seen t, varsAfterAll_rename _ ts, varsAfterAll]

end

theorem vars_rename (t : Ty) : (t.rename f).vars = t.vars.map f.var := varsAfter_rename [] t

end Ty

namespace Assignment

variable {f : Renaming} {σ τ : Assignment}

/-- Under the new numbers `τ` gives the types that `σ` gives under the old ones. -/
def Renames (f : Renaming) (σ τ : Assignment) : Prop :=
  ∀ v, τ (f.var v) = (σ v).map (Ty.rename f)

theorem Renames.set (h : Renames f σ τ) (v : TypeVarId) (t : Ty) :
    Renames f (σ.set v t) (τ.set (f.var v) (t.rename f)) := by
  intro w
  by_cases hw : w = v
  · subst hw
    simp [Assignment.set]
  · have hw' : f.var w ≠ f.var v := fun heq => hw (f.var_injective heq)
    rw [set_ne _ _ hw, set_ne _ _ hw', h w]

theorem renames_ofPairs (f : Renaming) (pairs : List (TypeVarId × Ty)) :
    Renames f (ofPairs pairs) (ofPairs (pairs.map (Prod.map f.var (Ty.rename f)))) := by
  induction pairs using List.reverseRecOn with
  | nil => exact fun _ => rfl
  | append_singleton pairs last ih =>
      obtain ⟨v, t⟩ := last
      rw [List.map_append, ofPairs_concat]
      simp only [List.map_cons, List.map_nil, Prod.map, ofPairs_concat]
      exact ih.set v t

theorem renames_ofPairs_zip (f : Renaming) (vs : List TypeVarId) (ts : List Ty) :
    Renames f (ofPairs (vs.zip ts)) (ofPairs ((vs.map f.var).zip (ts.map (Ty.rename f)))) := by
  rw [List.zip_map]
  exact renames_ofPairs f _

end Assignment

namespace Ty

variable {f : Renaming} {σ τ : Assignment}

mutual

theorem rename_subst (h : Assignment.Renames f σ τ) :
    ∀ t : Ty, (t.subst σ).rename f = (t.rename f).subst τ
  | cls _ args => by simp [subst, rename, renameAll_substAll h args]
  | arr elem => by simp [subst, rename, rename_subst h elem]
  | var v => by
      simp only [subst, rename, h v]
      cases σ v <;> rfl
  | ext upper => by simp [subst, rename, rename_subst h upper]
  | sup lower => by simp [subst, rename, rename_subst h lower]
  | void => rfl
  | primitive _ => rfl
  | any => rfl

theorem renameAll_substAll (h : Assignment.Renames f σ τ) :
    ∀ ts : List Ty, renameAll f (substAll σ ts) = substAll τ (renameAll f ts)
  | [] => rfl
  | t :: ts => by simp [substAll, renameAll, rename_subst h t, renameAll_substAll h ts]

end

end Ty

namespace Bound

mutual

def rename (f : Renaming) : Bound → Bound
  | unconstrained => unconstrained
  | concrete upper => concrete (upper.rename f)
  | dependent upper on => dependent (upper.rename f) (on.map f.var)
  | all parts => all (renameAll f parts)

def renameAll (f : Renaming) : List Bound → List Bound
  | [] => []
  | b :: bs => b.rename f :: renameAll f bs

end

variable {f : Renaming}

theorem renameAll_eq_map (f : Renaming) (bs : List Bound) :
    renameAll f bs = bs.map (rename f) := by
  induction bs with
  | nil => rfl
  | cons b bs ih => simp [renameAll, ih]

theorem rename_ofUpper (t : Ty) : (ofUpper t).rename f = ofUpper (t.rename f) := by
  unfold ofUpper
  rw [Ty.vars_rename, List.isEmpty_map]
  split <;> rfl

theorem rename_ofUppers (ts : List Ty) :
    (ofUppers ts).rename f = ofUppers (ts.map (Ty.rename f)) := by
  match ts with
  | [] => rfl
  | [t] => exact rename_ofUpper t
  | a :: b :: rest => simp [ofUppers, rename, renameAll_eq_map, rename_ofUpper]

mutual

theorem rename_eq_self :
    ∀ b : Bound, b.Within (fun id => f.cls id = id) (fun v => f.var v = v) → b.rename f = b
  | unconstrained, _ => rfl
  | concrete upper, h => by rw [rename, Ty.rename_eq_self upper h]
  | dependent upper on, h => by
      have hon : on.map f.var = on := map_eq_self h.2
      rw [rename, Ty.rename_eq_self upper h.1, hon]
  | all parts, h => by rw [rename, renameAll_eq_self parts h]

theorem renameAll_eq_self :
    ∀ bs : List Bound, AllWithin (fun id => f.cls id = id) (fun v => f.var v = v) bs →
      renameAll f bs = bs
  | [], _ => rfl
  | b :: bs, h => by rw [renameAll, rename_eq_self b h.1, renameAll_eq_self bs h.2]

end

mutual

theorem varsAfter_rename (seen : List TypeVarId) :
    ∀ b : Bound, varsAfter (seen.map f.var) (b.rename f) = (varsAfter seen b).map f.var
  | unconstrained => rfl
  | concrete _ => rfl
  | dependent _ on => by
      simp only [rename, varsAfter]
      induction on generalizing seen with
      | nil => rfl
      | cons v on ih =>
          rw [List.map_cons, List.foldl_cons, List.foldl_cons, ← ih]
          congr 1
          simp only [Ty.mem_map_var]
          split <;> simp
  | all parts => by simpa [rename, varsAfter] using varsAfterAll_rename seen parts

theorem varsAfterAll_rename (seen : List TypeVarId) :
    ∀ bs : List Bound,
      varsAfterAll (seen.map f.var) (renameAll f bs) = (varsAfterAll seen bs).map f.var
  | [] => rfl
  | b :: bs => by
      rw [renameAll, varsAfterAll, varsAfter_rename seen b, varsAfterAll_rename _ bs, varsAfterAll]

end

theorem vars_rename (b : Bound) : (b.rename f).vars = b.vars.map f.var := varsAfter_rename [] b

mutual

theorem uppers_rename : ∀ b : Bound, (b.rename f).uppers = b.uppers.map (Ty.rename f)
  | unconstrained => rfl
  | concrete _ => rfl
  | dependent _ _ => rfl
  | all parts => by simpa [rename, uppers] using uppersAll_renameAll parts

theorem uppersAll_renameAll :
    ∀ bs : List Bound, uppersAll (renameAll f bs) = (uppersAll bs).map (Ty.rename f)
  | [] => rfl
  | b :: bs => by simp [renameAll, uppersAll, uppers_rename b, uppersAll_renameAll bs]

end

end Bound

section Declarations

variable (f : Renaming)

def ClassType.rename (t : ClassType) : ClassType := ⟨f.cls t.id, t.args.map (Ty.rename f)⟩

def TypeParam.rename (p : TypeParam) : TypeParam := { p with bound := p.bound.rename f }

def ConstructorDef.rename (k : ConstructorDef) : ConstructorDef := ⟨k.params.map (Ty.rename f)⟩

def MethodDef.rename (m : MethodDef) : MethodDef :=
  { m with
    typeParams := m.typeParams.map f.var
    params := m.params.map (Ty.rename f)
    returns := m.returns.rename f }

def ClassDef.rename (d : ClassDef) : ClassDef :=
  { d with
    typeParams := d.typeParams.map f.var
    superClass := d.superClass.map (Ty.rename f)
    interfaces := d.interfaces.map (Ty.rename f)
    constructors := d.constructors.map (ConstructorDef.rename f)
    methods := d.methods.map (MethodDef.rename f) }

end Declarations

variable {f : Renaming}

namespace ClassType

theorem rename_injective (f : Renaming) : Function.Injective (ClassType.rename f) := by
  rintro ⟨id, args⟩ ⟨id', args'⟩ h
  simp only [rename, ClassType.mk.injEq] at h
  obtain ⟨hid, hargs⟩ := h
  have hmap : Function.Injective (Ty.rename f) := fun t u => Ty.rename_injective f t u
  rw [f.cls_injective hid, List.map_injective_iff.mpr hmap hargs]

theorem toTy_rename (t : ClassType) : (t.rename f).toTy = t.toTy.rename f := by
  simp [rename, toTy, Ty.rename, Ty.renameAll_eq_map]

theorem rename_subst {σ τ : Assignment} (h : Assignment.Renames f σ τ) (t : ClassType) :
    (t.subst σ).rename f = (t.rename f).subst τ := by
  simp [ClassType.subst, rename, Ty.rename_subst h]

theorem rename_root (f : Renaming) : rename f ⟨.object, []⟩ = ⟨.object, []⟩ := by
  simp [rename, Ty.cls_object]

@[simp] theorem isConcrete_rename (t : ClassType) : (t.rename f).isConcrete = t.isConcrete := by
  simp [isConcrete, rename, Function.comp_def]

end ClassType

namespace MethodDef

theorem rename_eq_self {m : MethodDef}
    (h : m.Within (fun id => f.cls id = id) (fun v => f.var v = v)) : m.rename f = m := by
  have htypeParams : m.typeParams.map f.var = m.typeParams := map_eq_self h.typeParams
  have hparams : m.params.map (Ty.rename f) = m.params :=
    map_eq_self fun t ht => Ty.rename_eq_self t (h.params t ht)
  rw [rename, htypeParams, hparams, Ty.rename_eq_self _ h.returns]

end MethodDef

namespace ClassDef

theorem supertypes_rename (d : ClassDef) :
    (d.rename f).supertypes = d.supertypes.map (Ty.rename f) := by
  cases hsuper : d.superClass <;> simp [supertypes, rename, hsuper]

theorem rename_eq_self {d : ClassDef}
    (h : d.Within (fun id => f.cls id = id) (fun v => f.var v = v)) : d.rename f = d := by
  have htypeParams : d.typeParams.map f.var = d.typeParams := map_eq_self h.typeParams
  have hsuperClass : d.superClass.map (Ty.rename f) = d.superClass := by
    cases hsuper : d.superClass with
    | none => rfl
    | some t =>
        have ht : t ∈ d.supertypes := by simp [supertypes, hsuper]
        exact congrArg some (Ty.rename_eq_self t (h.supertypes t ht))
  have hinterfaces : d.interfaces.map (Ty.rename f) = d.interfaces :=
    map_eq_self fun t ht =>
      Ty.rename_eq_self t (h.supertypes t (List.mem_append_right _ ht))
  have hconstructors : d.constructors.map (ConstructorDef.rename f) = d.constructors :=
    map_eq_self fun k hk =>
      congrArg ConstructorDef.mk (map_eq_self fun t ht =>
        Ty.rename_eq_self t (h.constructors k hk t ht))
  have hmethods : d.methods.map (MethodDef.rename f) = d.methods :=
    map_eq_self fun m hm => MethodDef.rename_eq_self (h.methods m hm)
  rw [rename, htypeParams, hsuperClass, hinterfaces, hconstructors, hmethods]

@[simp] theorem rename_refl : rename .refl = id := by
  have htypes : ∀ t : Ty, t.Within (fun id => Renaming.refl.cls id = id)
      (fun v => Renaming.refl.var v = v) :=
    Ty.within_of_forall (fun _ => rfl) fun _ => rfl
  funext d
  refine rename_eq_self ⟨fun _ _ => rfl, fun t _ => htypes t, fun _ _ t _ => htypes t, ?_⟩
  exact fun m _ => ⟨fun _ _ => rfl, fun t _ => htypes t, htypes m.returns⟩

end ClassDef

end CallCatalog
