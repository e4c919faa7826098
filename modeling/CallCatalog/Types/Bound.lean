import CallCatalog.Types.Basic

/-!
The upper bounds of a type parameter. A bound that mentions type variables is kept apart from one
that does not, because it can be decided only once these variables have types.
-/

namespace CallCatalog

/-- What a type has to satisfy to be given to a type parameter. -/
inductive Bound where
  /-- Any reference type will do. -/
  | unconstrained
  /-- A subtype of `upper` is wanted, which mentions no type variable. -/
  | concrete (upper : Ty)
  /-- A subtype of `upper` is wanted, once the variables `on` have been replaced in it. -/
  | dependent (upper : Ty) (on : List TypeVarId)
  | all (parts : List Bound)
  deriving Inhabited

namespace Bound

mutual

def beq : Bound → Bound → Bool
  | unconstrained, unconstrained => true
  | concrete a, concrete b => a == b
  | dependent a on, dependent b on' => a == b && on == on'
  | all as, all bs => beqs as bs
  | _, _ => false

def beqs : List Bound → List Bound → Bool
  | [], [] => true
  | a :: as, b :: bs => beq a b && beqs as bs
  | _, _ => false

end

mutual

theorem beq_iff : ∀ a b : Bound, beq a b = true ↔ a = b
  | unconstrained, b => by cases b <;> simp [beq]
  | concrete _, b => by cases b <;> simp [beq]
  | dependent _ _, b => by cases b <;> simp [beq]
  | all as, b => by cases b <;> simp [beq, beqs_iff as]

theorem beqs_iff : ∀ as bs : List Bound, beqs as bs = true ↔ as = bs
  | [], bs => by cases bs <;> simp [beqs]
  | a :: as, bs => by cases bs <;> simp [beqs, beq_iff a, beqs_iff as]

end

instance : DecidableEq Bound := fun a b => decidable_of_iff _ (beq_iff a b)

def ofUpper (t : Ty) : Bound :=
  if t.vars.isEmpty then concrete t else dependent t t.vars

/-- The bound that a declared list of upper types stands for. -/
def ofUppers : List Ty → Bound
  | [] => unconstrained
  | [t] => ofUpper t
  | ts => all (ts.map ofUpper)

mutual

/-- `seen` followed by the variables of a bound that are not in it yet, in the order in which they
first occur. -/
def varsAfter (seen : List TypeVarId) : Bound → List TypeVarId
  | unconstrained => seen
  | concrete _ => seen
  | dependent _ on => on.foldl (fun acc v => if v ∈ acc then acc else acc ++ [v]) seen
  | all parts => varsAfterAll seen parts

def varsAfterAll (seen : List TypeVarId) : List Bound → List TypeVarId
  | [] => seen
  | b :: bs => varsAfterAll (varsAfter seen b) bs

end

/-- The variables that have to be assigned before the bound can be decided, each once, in the order
in which they first occur. -/
def vars (b : Bound) : List TypeVarId := varsAfter [] b

def isDependent (b : Bound) : Bool := !b.vars.isEmpty

mutual

def uppers : Bound → List Ty
  | unconstrained => []
  | concrete upper => [upper]
  | dependent upper _ => [upper]
  | all parts => uppersAll parts

/-- The upper types of a list of bounds, one bound after the other. -/
def uppersAll : List Bound → List Ty
  | [] => []
  | b :: bs => b.uppers ++ uppersAll bs

end

theorem uppersAll_eq_flatMap (bs : List Bound) : uppersAll bs = bs.flatMap uppers := by
  induction bs with
  | nil => rfl
  | cons b bs ih => simp [uppersAll, ih]

theorem uppers_ofUpper (t : Ty) : (ofUpper t).uppers = [t] := by
  unfold ofUpper
  split <;> rfl

theorem uppers_ofUppers (ts : List Ty) : (ofUppers ts).uppers = ts := by
  match ts with
  | [] => rfl
  | [t] => exact uppers_ofUpper t
  | a :: b :: rest =>
    simp [ofUppers, uppers, uppersAll_eq_flatMap, List.flatMap_map, uppers_ofUpper]

end Bound

end CallCatalog
