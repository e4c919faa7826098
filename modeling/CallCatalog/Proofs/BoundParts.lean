import CallCatalog.Proofs.FirstOccurrences
import CallCatalog.Subtyping.Satisfaction

namespace CallCatalog.Bound

mutual

/-- The bounds that an intersection consists of, from left to right and with nested intersections
taken apart. Any other bound consists of itself. -/
def conjuncts : Bound → List Bound
  | all parts => conjunctsAll parts
  | unconstrained => [unconstrained]
  | concrete upper => [concrete upper]
  | dependent upper on => [dependent upper on]

def conjunctsAll : List Bound → List Bound
  | [] => []
  | b :: bs => b.conjuncts ++ conjunctsAll bs

end

theorem occurrencesAll_eq_flatMap (bs : List Bound) :
    occurrencesAll bs = bs.flatMap occurrences := by
  induction bs with
  | nil => rfl
  | cons b bs ih => simp [occurrencesAll, ih]

mutual

theorem eq_flatMap_conjuncts {α : Type} {f : Bound → List α}
    (h : ∀ parts, f (all parts) = parts.flatMap f) : ∀ b : Bound, f b = b.conjuncts.flatMap f
  | all parts => by rw [h, conjuncts, flatMap_eq_flatMap_conjuncts h parts]
  | unconstrained => (List.flatMap_singleton f _).symm
  | concrete _ => (List.flatMap_singleton f _).symm
  | dependent _ _ => (List.flatMap_singleton f _).symm

theorem flatMap_eq_flatMap_conjuncts {α : Type} {f : Bound → List α}
    (h : ∀ parts, f (all parts) = parts.flatMap f) :
    ∀ bs : List Bound, bs.flatMap f = (conjunctsAll bs).flatMap f
  | [] => rfl
  | b :: bs => by
      rw [List.flatMap_cons, conjunctsAll, List.flatMap_append, ← eq_flatMap_conjuncts h b,
        flatMap_eq_flatMap_conjuncts h bs]

end

mutual

theorem eq_all_conjuncts {f : Bound → Bool} (h : ∀ parts, f (all parts) = parts.all f) :
    ∀ b : Bound, f b = b.conjuncts.all f
  | all parts => by rw [h, conjuncts, all_eq_all_conjuncts h parts]
  | unconstrained => by simp [conjuncts]
  | concrete _ => by simp [conjuncts]
  | dependent _ _ => by simp [conjuncts]

theorem all_eq_all_conjuncts {f : Bound → Bool} (h : ∀ parts, f (all parts) = parts.all f) :
    ∀ bs : List Bound, bs.all f = (conjunctsAll bs).all f
  | [] => rfl
  | b :: bs => by
      rw [List.all_cons, conjunctsAll, List.all_append, ← eq_all_conjuncts h b,
        all_eq_all_conjuncts h bs]

end

variable {s : Store} {σ : Assignment} {t : Ty} {b : Bound}

theorem uppers_eq_flatMap (b : Bound) : b.uppers = b.conjuncts.flatMap uppers :=
  eq_flatMap_conjuncts uppersAll_eq_flatMap b

theorem occurrences_eq_flatMap (b : Bound) : b.occurrences = b.conjuncts.flatMap occurrences :=
  eq_flatMap_conjuncts occurrencesAll_eq_flatMap b

theorem conjuncts_ofUpper (upper : Ty) : (ofUpper upper).conjuncts = [ofUpper upper] := by
  unfold ofUpper
  split <;> rfl

theorem conjuncts_ofUppers {uppers : List Ty} (h : uppers ≠ []) :
    (ofUppers uppers).conjuncts = uppers.map ofUpper := by
  match uppers with
  | [] => exact absurd rfl h
  | [upper] => exact conjuncts_ofUpper upper
  | a :: b :: rest =>
      change conjunctsAll ((a :: b :: rest).map ofUpper) = _
      induction a :: b :: rest with
      | nil => rfl
      | cons upper uppers ih =>
          rw [List.map_cons, conjunctsAll, conjuncts_ofUpper, ih, List.singleton_append]

theorem holds_ofUppers_iff {f : Bound → Bool} (h : ∀ parts, f (all parts) = parts.all f)
    {uppers : List Ty} : f (ofUppers uppers) ↔
      (uppers = [] → f unconstrained) ∧ ∀ upper ∈ uppers, f (ofUpper upper) := by
  by_cases hnil : uppers = []
  · subst hnil
    simp [ofUppers]
  · rw [eq_all_conjuncts h, conjuncts_ofUppers hnil]
    simp [hnil]

theorem isSatisfiedBy_ofUppers_iff {uppers : List Ty} :
    (ofUppers uppers).isSatisfiedBy s σ t ↔
      (uppers = [] → t.isReference) ∧ ∀ upper ∈ uppers, (ofUpper upper).isSatisfiedBy s σ t :=
  holds_ofUppers_iff (isSatisfiedByAll_eq_all s σ t)

theorem admits_ofUppers_iff {uppers : List Ty} : (ofUppers uppers).admits s t ↔
    (uppers = [] → t.isReference) ∧ ∀ upper ∈ uppers, (ofUpper upper).admits s t :=
  holds_ofUppers_iff (admitsAll_eq_all s t)

end CallCatalog.Bound
