import CallCatalog.OrderedSet
import CallCatalog.Types.Bound

namespace CallCatalog

namespace OrderedSet

variable {α : Type} [DecidableEq α]

theorem insertAll_eraseDups (s : OrderedSet α) (as : List α) :
    s.insertAll as.eraseDups = s.insertAll as := by
  have hnodup : as.eraseDups.Nodup := by
    rw [← toList_ofList]
    exact (ofList as).nodup
  apply ext
  rw [toList_insertAll, toList_insertAll, List.eraseDups_append, List.eraseDups_append]
  congr 1
  rw [List.removeAll, List.removeAll, ← filter_eraseDups, ← filter_eraseDups,
    eraseDups_of_nodup hnodup]

theorem insertAll_flatMap_eraseDups {β : Type} (s : OrderedSet α) (f : β → List α) (bs : List β) :
    s.insertAll (bs.flatMap fun b => (f b).eraseDups) = s.insertAll (bs.flatMap f) := by
  induction bs generalizing s with
  | nil => rfl
  | cons b bs ih =>
      rw [List.flatMap_cons, List.flatMap_cons, ← insertAll_insertAll, ih, insertAll_eraseDups,
        insertAll_insertAll]

theorem eraseDups_flatMap_eraseDups {β : Type} (f : β → List α) (bs : List β) :
    (bs.flatMap fun b => (f b).eraseDups).eraseDups = (bs.flatMap f).eraseDups := by
  rw [← toList_ofList, ofList, insertAll_flatMap_eraseDups, ← ofList, toList_ofList]

theorem foldl_insert_toList (s : OrderedSet α) (as : List α) :
    as.foldl (fun acc a => if a ∈ acc then acc else acc ++ [a]) s.toList =
      (s.insertAll as).toList := by
  induction as generalizing s with
  | nil => rfl
  | cons a as ih =>
      rw [List.foldl_cons, ← toList_insert, ih]
      rfl

end OrderedSet

namespace Ty

mutual

def occurrences : Ty → List TypeVarId
  | var v => [v]
  | cls _ args => occurrencesAll args
  | arr elem => elem.occurrences
  | ext upper => upper.occurrences
  | sup lower => lower.occurrences
  | void => []
  | primitive _ => []
  | any => []

/-- The type variables at all places of the types, one type after the other. -/
def occurrencesAll : List Ty → List TypeVarId
  | [] => []
  | t :: ts => t.occurrences ++ occurrencesAll ts

end

mutual

theorem varsAfter_eq (seen : OrderedSet TypeVarId) :
    ∀ t : Ty, varsAfter seen.toList t = (seen.insertAll t.occurrences).toList
  | var v => (seen.toList_insert v).symm
  | cls _ args => varsAfterAll_eq seen args
  | arr elem => varsAfter_eq seen elem
  | ext upper => varsAfter_eq seen upper
  | sup lower => varsAfter_eq seen lower
  | void => rfl
  | primitive _ => rfl
  | any => rfl

theorem varsAfterAll_eq (seen : OrderedSet TypeVarId) :
    ∀ ts : List Ty, varsAfterAll seen.toList ts = (seen.insertAll (occurrencesAll ts)).toList
  | [] => rfl
  | t :: ts => by
      rw [varsAfterAll, varsAfter_eq seen t, varsAfterAll_eq _ ts, OrderedSet.insertAll_insertAll,
        occurrencesAll]

end

theorem vars_eq_eraseDups (t : Ty) : t.vars = t.occurrences.eraseDups := by
  rw [← OrderedSet.toList_ofList]
  exact varsAfter_eq .empty t

theorem mem_vars_iff {t : Ty} {v : TypeVarId} : v ∈ t.vars ↔ v ∈ t.occurrences := by
  rw [vars_eq_eraseDups, List.mem_eraseDups]

end Ty

namespace Bound

mutual

/-- The type variables that a bound is declared to depend on, part after part. -/
def occurrences : Bound → List TypeVarId
  | unconstrained => []
  | concrete _ => []
  | dependent _ on => on
  | all parts => occurrencesAll parts

def occurrencesAll : List Bound → List TypeVarId
  | [] => []
  | b :: bs => b.occurrences ++ occurrencesAll bs

end

mutual

theorem varsAfter_eq (seen : OrderedSet TypeVarId) :
    ∀ b : Bound, varsAfter seen.toList b = (seen.insertAll b.occurrences).toList
  | unconstrained => rfl
  | concrete _ => rfl
  | dependent _ on => seen.foldl_insert_toList on
  | all parts => varsAfterAll_eq seen parts

theorem varsAfterAll_eq (seen : OrderedSet TypeVarId) :
    ∀ bs : List Bound, varsAfterAll seen.toList bs = (seen.insertAll (occurrencesAll bs)).toList
  | [] => rfl
  | b :: bs => by
      rw [varsAfterAll, varsAfter_eq seen b, varsAfterAll_eq _ bs, OrderedSet.insertAll_insertAll,
        occurrencesAll]

end

theorem vars_eq_eraseDups (b : Bound) : b.vars = b.occurrences.eraseDups := by
  rw [← OrderedSet.toList_ofList]
  exact varsAfter_eq .empty b

theorem mem_vars_iff {b : Bound} {v : TypeVarId} : v ∈ b.vars ↔ v ∈ b.occurrences := by
  rw [vars_eq_eraseDups, List.mem_eraseDups]

theorem occurrences_ofUpper (upper : Ty) : (ofUpper upper).occurrences = upper.vars := by
  unfold ofUpper
  split
  · rename_i hvars
    rw [List.isEmpty_iff.mp hvars]
    rfl
  · rfl

theorem occurrences_ofUppers (uppers : List Ty) :
    (ofUppers uppers).occurrences = uppers.flatMap Ty.vars := by
  match uppers with
  | [] => rfl
  | [upper] => rw [List.flatMap_singleton, ofUppers, occurrences_ofUpper]
  | a :: b :: rest =>
      change occurrencesAll ((a :: b :: rest).map ofUpper) = _
      induction a :: b :: rest with
      | nil => rfl
      | cons upper uppers ih =>
          rw [List.map_cons, occurrencesAll, occurrences_ofUpper, ih, List.flatMap_cons]

theorem mem_vars_ofUppers {uppers : List Ty} {v : TypeVarId} :
    v ∈ (ofUppers uppers).vars ↔ ∃ upper ∈ uppers, v ∈ upper.vars := by
  rw [mem_vars_iff, occurrences_ofUppers, List.mem_flatMap]

theorem vars_ofUppers (uppers : List Ty) :
    (ofUppers uppers).vars = (uppers.flatMap Ty.occurrences).eraseDups := by
  have hvars : Ty.vars = fun t => t.occurrences.eraseDups := funext Ty.vars_eq_eraseDups
  rw [vars_eq_eraseDups, occurrences_ofUppers, hvars, OrderedSet.eraseDups_flatMap_eraseDups]

end Bound

end CallCatalog
