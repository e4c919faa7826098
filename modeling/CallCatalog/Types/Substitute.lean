import CallCatalog.Types.Basic

/-!
Replacing type variables. An `Assignment` gives some variables a type; a `Substitution` gives one
to each type parameter of a declaration, in declaration order.
-/

namespace CallCatalog

/-- The types given to some type variables. -/
abbrev Assignment := TypeVarId → Option Ty

namespace Assignment

def empty : Assignment := fun _ => none

/-- The assignment that differs at most at `v`, which now has type `t`. -/
def set (σ : Assignment) (v : TypeVarId) (t : Ty) : Assignment :=
  fun w => if w = v then some t else σ w

/-- The assignment that a list of pairs describes. A later pair for a variable replaces an earlier
one. -/
def ofPairs (pairs : List (TypeVarId × Ty)) : Assignment :=
  pairs.foldl (fun σ p => σ.set p.1 p.2) empty

theorem set_self (σ : Assignment) (v : TypeVarId) (t : Ty) : σ.set v t v = some t := by
  simp [set]

theorem set_ne (σ : Assignment) {v w : TypeVarId} (t : Ty) (h : w ≠ v) : σ.set v t w = σ w := by
  simp [set, h]

end Assignment

namespace Ty

mutual

/-- The type with every assigned variable replaced by its type. Other variables stay. -/
def subst (σ : Assignment) : Ty → Ty
  | var v => (σ v).getD (var v)
  | cls id args => cls id (substAll σ args)
  | arr elem => arr (elem.subst σ)
  | ext upper => ext (upper.subst σ)
  | sup lower => sup (lower.subst σ)
  | void => void
  | primitive p => primitive p
  | any => any

def substAll (σ : Assignment) : List Ty → List Ty
  | [] => []
  | t :: ts => t.subst σ :: substAll σ ts

end

theorem substAll_eq_map (σ : Assignment) (ts : List Ty) : substAll σ ts = ts.map (subst σ) := by
  induction ts with
  | nil => rfl
  | cons t ts ih => simp [substAll, ih]

end Ty

def ClassType.subst (σ : Assignment) (t : ClassType) : ClassType :=
  { t with args := t.args.map (Ty.subst σ) }

theorem ClassType.toTy_subst (σ : Assignment) (t : ClassType) :
    (t.subst σ).toTy = t.toTy.subst σ := by
  simp [subst, toTy, Ty.subst, Ty.substAll_eq_map]

/-- One type for each type parameter of a declaration, in declaration order. -/
structure Substitution where
  vars : List TypeVarId
  types : List Ty
  length_eq : vars.length = types.length := by rfl
  deriving DecidableEq

namespace Substitution

/-- Pairs `vars` with `types` by position, if there are as many of one as of the other. -/
def ofLists? (vars : List TypeVarId) (types : List Ty) : Option Substitution :=
  if h : vars.length = types.length then some ⟨vars, types, h⟩ else none

def empty : Substitution := { vars := [], types := [] }

def size (s : Substitution) : Nat := s.vars.length

def isEmpty (s : Substitution) : Bool := s.vars.isEmpty

def toList (s : Substitution) : List (TypeVarId × Ty) := s.vars.zip s.types

/-- The assignment that the substitution stands for. Of two entries for one parameter the later
one counts. -/
def toAssignment (s : Substitution) : Assignment := .ofPairs s.toList

def get? (s : Substitution) (v : TypeVarId) : Option Ty := s.toAssignment v

def support (s : Substitution) : List TypeVarId := s.vars.eraseDups

def apply (s : Substitution) (t : Ty) : Ty := t.subst s.toAssignment

def applyClass (s : Substitution) (t : ClassType) : ClassType := t.subst s.toAssignment

theorem ofLists?_eq_some_iff {vars : List TypeVarId} {types : List Ty} {s : Substitution} :
    ofLists? vars types = some s ↔ s.vars = vars ∧ s.types = types := by
  unfold ofLists?
  constructor
  · intro h
    split at h
    · cases h; exact ⟨rfl, rfl⟩
    · cases h
  · rintro ⟨rfl, rfl⟩
    rw [dif_pos s.length_eq]

end Substitution

end CallCatalog
