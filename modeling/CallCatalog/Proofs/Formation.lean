import CallCatalog.Declaration.Resolve
import CallCatalog.Proofs.Occurrences

namespace CallCatalog.Ty

/-- The type may stand at the position, where a class may be given as many arguments as `C` allows
and the type variables are those in `V`. -/
inductive Formed (C : ClassId → Nat → Prop) (V : TypeVarId → Prop) : RefPosition → Ty → Prop
  | cls {position : RefPosition} {id : ClassId} {args : List Ty} (hid : C id args.length)
      (hargs : ∀ t ∈ args, Formed C V .argument t) : Formed C V position (.cls id args)
  | arr {position : RefPosition} {elem : Ty} (helem : Formed C V .value elem) :
      Formed C V position (.arr elem)
  | var {position : RefPosition} {v : TypeVarId} (hv : V v) : Formed C V position (.var v)
  | primitive {position : RefPosition} {p : Primitive} (h : position ≠ .argument) :
      Formed C V position (.primitive p)
  | void : Formed C V .result .void
  | any : Formed C V .argument .any
  | ext {upper : Ty} (hupper : Formed C V .value upper) : Formed C V .argument (.ext upper)
  | sup {lower : Ty} (hlower : Formed C V .value lower) : Formed C V .argument (.sup lower)

namespace Formed

variable {C C' : ClassId → Nat → Prop} {V V' : TypeVarId → Prop} {position : RefPosition} {t : Ty}

theorem mono (hC : ∀ id k, C id k → C' id k) (hV : ∀ v, V v → V' v)
    (h : t.Formed C V position) : t.Formed C' V' position := by
  induction h with
  | cls hid _ ih => exact .cls (hC _ _ hid) ih
  | arr _ ih => exact .arr ih
  | var hv => exact .var (hV _ hv)
  | primitive h => exact .primitive h
  | void => exact .void
  | any => exact .any
  | ext _ ih => exact .ext ih
  | sup _ ih => exact .sup ih

theorem within (h : t.Formed C V position) : t.Within (fun id => ∃ k, C id k) V := by
  induction h with
  | cls hid _ ih => exact ⟨⟨_, hid⟩, allWithin_iff.mpr ih⟩
  | arr _ ih => exact ih
  | var hv => exact hv
  | primitive _ => trivial
  | void => trivial
  | any => trivial
  | ext _ ih => exact ih
  | sup _ ih => exact ih

theorem isWildcard (h : t.Formed C V position) (hposition : position ≠ .argument) :
    t.isWildcard = false := by
  cases h with
  | any => exact absurd rfl hposition
  | ext _ => exact absurd rfl hposition
  | sup _ => exact absurd rfl hposition
  | _ => rfl

theorem arrayOf (h : t.Formed C V .value) {layers : Nat} (hlayers : layers ≠ 0) :
    (TypeRef.arrayOf layers t).Formed C V position := by
  obtain ⟨layers, rfl⟩ := Nat.exists_eq_succ_of_ne_zero hlayers
  clear hlayers
  -- The layers are put on from the inside, so the element grows while their number shrinks.
  induction layers generalizing t with
  | zero => exact .arr h
  | succ layers ih => exact ih (.arr h)

end Formed

end CallCatalog.Ty
