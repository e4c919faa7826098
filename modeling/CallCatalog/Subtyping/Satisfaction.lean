import CallCatalog.Subtyping.Decide

/-!
Whether a type satisfies the bound of a type parameter: exactly, once the variables that the bound
depends on have types, or as far as the independent parts of the bound tell.
-/

namespace CallCatalog.Bound

mutual

/-- Whether `t` passes the bound, part after part until one fails, where `ask` decides the dependent
parts. It is `none` if this never ends. -/
def check? (s : Store) (t : Ty) (ask : Ty → Option Bool) : Bound → Option Bool
  | unconstrained => some t.isReference
  | concrete upper => s.subtype? t upper
  | dependent upper _ => ask upper
  | all parts => checkAll? s t ask parts

def checkAll? (s : Store) (t : Ty) (ask : Ty → Option Bool) : List Bound → Option Bool
  | [] => some true
  | b :: bs =>
    (b.check? s t ask).bind fun holds => if holds then checkAll? s t ask bs else some false

end

/-- Whether `t` satisfies the bound when the variables have the types that `σ` gives them, or `none`
if asking never ends. A dependent bound in which a variable is left over is not satisfied. -/
def satisfied? (s : Store) (σ : Assignment) (t : Ty) (b : Bound) : Option Bool :=
  b.check? s t fun upper =>
    if (upper.subst σ).mentionsVars then some false else s.subtype? t (upper.subst σ)

/-- Whether nothing but the dependent parts of the bound can rule `t` out, or `none` if asking never
ends. Those parts take every reference type here. -/
def admitted? (s : Store) (t : Ty) (b : Bound) : Option Bool :=
  b.check? s t fun _ => some t.isReference

mutual

/-- `satisfied?` where a question that is never answered counts as no. -/
def isSatisfiedBy (s : Store) (σ : Assignment) (t : Ty) : Bound → Bool
  | unconstrained => t.isReference
  | concrete upper => s.isSubtype t upper
  | dependent upper _ => !(upper.subst σ).mentionsVars && s.isSubtype t (upper.subst σ)
  | all parts => isSatisfiedByAll s σ t parts

def isSatisfiedByAll (s : Store) (σ : Assignment) (t : Ty) : List Bound → Bool
  | [] => true
  | b :: bs => b.isSatisfiedBy s σ t && isSatisfiedByAll s σ t bs

end

mutual

/-- `admitted?` where a question that is never answered counts as no. -/
def admits (s : Store) (t : Ty) : Bound → Bool
  | unconstrained => t.isReference
  | concrete upper => s.isSubtype t upper
  | dependent _ _ => t.isReference
  | all parts => admitsAll s t parts

def admitsAll (s : Store) (t : Ty) : List Bound → Bool
  | [] => true
  | b :: bs => b.admits s t && admitsAll s t bs

end

theorem isSatisfiedByAll_eq_all (s : Store) (σ : Assignment) (t : Ty) (bs : List Bound) :
    isSatisfiedByAll s σ t bs = bs.all (isSatisfiedBy s σ t) := by
  induction bs with
  | nil => rfl
  | cons b bs ih => simp [isSatisfiedByAll, ih]

theorem admitsAll_eq_all (s : Store) (t : Ty) (bs : List Bound) :
    admitsAll s t bs = bs.all (admits s t) := by
  induction bs with
  | nil => rfl
  | cons b bs ih => simp [admitsAll, ih]

/-- A test of bounds that is made on each part, where the independent parts are tested exactly. -/
structure PartByPart (s : Store) (t : Ty) (f : Bound → Bool) : Prop where
  unconstrained : f unconstrained = t.isReference
  concrete : ∀ upper, f (concrete upper) = s.isSubtype t upper
  all : ∀ parts, f (all parts) = parts.all f

section

variable {s : Store} {t : Ty} {ask : Ty → Option Bool} {f : Bound → Bool}

mutual

theorem eq_of_check? (hf : PartByPart s t f)
    (hdependent : ∀ upper on holds, ask upper = some holds → f (dependent upper on) = holds) :
    ∀ (b : Bound) {holds : Bool}, b.check? s t ask = some holds → f b = holds
  | unconstrained, _, h => by rw [hf.unconstrained, Option.some.inj h]
  | concrete upper, _, h => by
      rw [check?] at h
      rw [hf.concrete, Store.isSubtype, h]
      simp
  | dependent upper on, _, h => hdependent upper on _ h
  | all parts, _, h => by
      rw [hf.all]
      exact all_eq_of_checkAll? hf hdependent parts h

theorem all_eq_of_checkAll? (hf : PartByPart s t f)
    (hdependent : ∀ upper on holds, ask upper = some holds → f (dependent upper on) = holds) :
    ∀ (bs : List Bound) {holds : Bool}, checkAll? s t ask bs = some holds → bs.all f = holds
  | [], _, h => Option.some.inj h
  | b :: bs, _, h => by
      rw [checkAll?] at h
      obtain ⟨first, hfirst, hrest⟩ := Option.bind_eq_some_iff.mp h
      rw [List.all_cons, eq_of_check? hf hdependent b hfirst]
      cases first with
      | false => exact Option.some.inj hrest
      | true =>
          rw [Bool.true_and]
          exact all_eq_of_checkAll? hf hdependent bs hrest

end

mutual

theorem check?_of_eq_true (hf : PartByPart s t f)
    (hdependent : ∀ upper on, f (dependent upper on) = true → ask upper = some true) :
    ∀ b : Bound, f b = true → b.check? s t ask = some true
  | unconstrained, h => by rw [check?, ← hf.unconstrained, h]
  | concrete upper, h => by
      rw [hf.concrete, Store.isSubtype, beq_iff_eq] at h
      exact h
  | dependent upper on, h => hdependent upper on h
  | all parts, h => by
      rw [hf.all] at h
      exact checkAll?_of_all_eq_true hf hdependent parts h

theorem checkAll?_of_all_eq_true (hf : PartByPart s t f)
    (hdependent : ∀ upper on, f (dependent upper on) = true → ask upper = some true) :
    ∀ bs : List Bound, bs.all f = true → checkAll? s t ask bs = some true
  | [], _ => rfl
  | b :: bs, h => by
      rw [List.all_cons, Bool.and_eq_true] at h
      rw [checkAll?, check?_of_eq_true hf hdependent b h.1]
      exact checkAll?_of_all_eq_true hf hdependent bs h.2

end

end

theorem partByPart_isSatisfiedBy (s : Store) (σ : Assignment) (t : Ty) :
    PartByPart s t (isSatisfiedBy s σ t) :=
  ⟨rfl, fun _ => rfl, isSatisfiedByAll_eq_all s σ t⟩

theorem partByPart_admits (s : Store) (t : Ty) : PartByPart s t (admits s t) :=
  ⟨rfl, fun _ => rfl, admitsAll_eq_all s t⟩

section

variable {s : Store} {σ : Assignment} {t : Ty} {b : Bound} {holds : Bool}

theorem isSatisfiedBy_eq_of_satisfied? (h : b.satisfied? s σ t = some holds) :
    b.isSatisfiedBy s σ t = holds := by
  refine eq_of_check? (partByPart_isSatisfiedBy s σ t) ?_ b h
  intro upper on holds hask
  rw [isSatisfiedBy]
  split at hask
  · rename_i hvars
    simpa [hvars] using hask
  · rename_i hvars
    simp [hvars, Store.isSubtype, hask]

/-- Only a no can stand for a missing answer. -/
theorem isSatisfiedBy_iff : b.isSatisfiedBy s σ t ↔ b.satisfied? s σ t = some true := by
  refine ⟨fun h => ?_, isSatisfiedBy_eq_of_satisfied?⟩
  refine check?_of_eq_true (partByPart_isSatisfiedBy s σ t) ?_ b h
  intro upper on h
  rw [isSatisfiedBy, Bool.and_eq_true, Bool.not_eq_true', Store.isSubtype, beq_iff_eq] at h
  rw [if_neg (by simp [h.1]), h.2]

theorem admits_eq_of_admitted? (h : b.admitted? s t = some holds) : b.admits s t = holds :=
  eq_of_check? (partByPart_admits s t) (fun _ _ _ => Option.some.inj) b h

end

end CallCatalog.Bound
