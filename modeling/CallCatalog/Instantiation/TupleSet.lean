import CallCatalog.Types.Substitute

/-!
Partial assignments of types to the parameters of a declaration, as tuples that grow at the end.
The number of tuples can be limited.
-/

namespace CallCatalog

/-- The extension of a tuple set would have held more than `limit` tuples. -/
structure TupleLimitExceeded where
  limit : Nat
  deriving DecidableEq

/-- Tuples of types, and the greatest number of them that may be held. -/
structure TupleSet where
  tuples : List (List Ty)
  limit : Option Nat
  deriving DecidableEq

namespace TupleSet

def single (limit : Option Nat) : TupleSet := ⟨[[]], limit⟩

def size (set : TupleSet) : Nat := set.tuples.length

def isEmpty (set : TupleSet) : Bool := set.tuples.isEmpty

def width (set : TupleSet) : Nat := set.tuples.head?.elim 0 List.length

def push (limit : Option Nat) (acc : Array (List Ty)) (tuple : List Ty) :
    Except TupleLimitExceeded (Array (List Ty)) :=
  match limit with
  | none => .ok (acc.push tuple)
  | some n => if n ≤ acc.size then .error ⟨n⟩ else .ok (acc.push tuple)

/-- Replaces every tuple by its extensions with each of its candidates, in order. A tuple without
candidates is dropped. It stops at the first tuple beyond the limit. -/
def extendWith (set : TupleSet) (candidates : List Ty → List Ty) :
    Except TupleLimitExceeded TupleSet := do
  let next ← set.tuples.foldlM
    (fun acc tuple =>
      (candidates tuple).foldlM (fun acc t => push set.limit acc (tuple ++ [t])) acc)
    #[]
  return { set with tuples := next.toList }

/-- Adds the extensions of a tuple with each of its candidates. It may never end to find these, and
all of them are found before the first one is used. -/
def extendOne? (limit : Option Nat) (candidates : List Ty → Option (List Ty))
    (acc : Array (List Ty)) (tuple : List Ty) :
    ExceptT TupleLimitExceeded Option (Array (List Ty)) :=
  ExceptT.mk ((candidates tuple).map (List.foldlM (fun acc t => push limit acc (tuple ++ [t])) acc))

/-- `extendWith` where it may never end to find the candidates of a tuple. -/
def extendWith? (set : TupleSet) (candidates : List Ty → Option (List Ty)) :
    Option (Except TupleLimitExceeded TupleSet) := ExceptT.run do
  let next ← set.tuples.foldlM (extendOne? set.limit candidates) #[]
  return { set with tuples := next.toList }

theorem foldlM_push {limit : Option Nat} (tuples : List (List Ty)) {acc : Array (List Ty)}
    (h : ∀ n, limit = some n → acc.size ≤ n) :
    tuples.foldlM (push limit) acc =
      match limit with
      | none => .ok (acc ++ tuples.toArray)
      | some n =>
        if n < acc.size + tuples.length then .error ⟨n⟩ else .ok (acc ++ tuples.toArray) := by
  induction tuples generalizing acc with
  | nil =>
    cases limit with
    | none => simp [pure, Except.pure]
    | some n =>
      have hn := h n rfl
      simp [pure, Except.pure, Nat.not_lt.2 hn]
  | cons tuple tuples ih =>
    rw [List.foldlM_cons]
    cases limit with
    | none =>
      have ih := @ih (acc.push tuple) (fun n hn => nomatch hn)
      simpa [push, bind, Except.bind] using ih
    | some n =>
      have hn := h n rfl
      simp only [push]
      split
      · simp [bind, Except.bind]
        omega
      · have ih := @ih (acc.push tuple) (fun m hm => by cases hm; simp; omega)
        simp only [bind, Except.bind]
        rw [ih]
        simp [Nat.add_assoc, Nat.add_comm 1]

theorem foldlM_extensions {α : Type} (limit : Option Nat) (front candidates : α → List Ty)
    (as : List α) (acc : Array (List Ty)) :
    as.foldlM (fun acc a =>
        (candidates a).foldlM (fun acc t => push limit acc (front a ++ [t])) acc) acc =
      (as.flatMap fun a => (candidates a).map (front a ++ [·])).foldlM (push limit) acc := by
  induction as generalizing acc with
  | nil => rfl
  | cons a as ih =>
    rw [List.foldlM_cons, List.flatMap_cons, List.foldlM_append, List.foldlM_map]
    congr
    funext acc
    exact ih acc

theorem foldlM_push_bind (set : TupleSet) (next : List (List Ty)) :
    (do
      let next ← next.foldlM (push set.limit) #[]
      return { set with tuples := next.toList }) =
      match set.limit with
      | none => .ok { set with tuples := next }
      | some n => if n < next.length then .error ⟨n⟩ else .ok { set with tuples := next } := by
  rw [foldlM_push _ (by simp)]
  cases set.limit with
  | none => simp [bind, Except.bind, pure, Except.pure]
  | some n =>
    dsimp only
    split <;> simp_all [bind, Except.bind, pure, Except.pure]

theorem extendWith_eq (set : TupleSet) (candidates : List Ty → List Ty) :
    set.extendWith candidates =
      let next := set.tuples.flatMap fun tuple => (candidates tuple).map (tuple ++ [·])
      match set.limit with
      | none => .ok { set with tuples := next }
      | some n => if n < next.length then .error ⟨n⟩ else .ok { set with tuples := next } := by
  rw [extendWith, foldlM_extensions set.limit (fun tuple => tuple)]
  exact foldlM_push_bind set _

/-- `extendWith` with candidates that need not stay the same: they also depend on how many tuples
were extended before. -/
def extendWithIdx (set : TupleSet) (candidates : Nat → List Ty → List Ty) :
    Except TupleLimitExceeded TupleSet := do
  let next ← set.tuples.zipIdx.foldlM
    (fun acc (tuple, i) =>
      (candidates i tuple).foldlM (fun acc t => push set.limit acc (tuple ++ [t])) acc)
    #[]
  return { set with tuples := next.toList }

/-- Every tuple followed by each of its candidates, in order. -/
def extensions (set : TupleSet) (candidates : Nat → List Ty → List Ty) : List (List Ty) :=
  set.tuples.zipIdx.flatMap fun (tuple, i) => (candidates i tuple).map (tuple ++ [·])

theorem extendWithIdx_eq (set : TupleSet) (candidates : Nat → List Ty → List Ty) :
    set.extendWithIdx candidates =
      match set.limit with
      | none => .ok { set with tuples := set.extensions candidates }
      | some n =>
        if n < (set.extensions candidates).length then .error ⟨n⟩
        else .ok { set with tuples := set.extensions candidates } := by
  have hloop := foldlM_extensions set.limit Prod.fst (fun p => candidates p.2 p.1)
    set.tuples.zipIdx #[]
  have hset := congrArg (· >>= fun next => pure { set with tuples := next.toList }) hloop
  exact hset.trans (foldlM_push_bind set _)

theorem extensions_const (set : TupleSet) (candidates : List Ty → List Ty) :
    set.extensions (fun _ => candidates) =
      set.tuples.flatMap fun tuple => (candidates tuple).map (tuple ++ [·]) := by
  have hflatMap := List.flatMap_map Prod.fst
    (fun tuple => (candidates tuple).map (tuple ++ [·])) set.tuples.zipIdx
  rw [List.zipIdx_map_fst] at hflatMap
  exact hflatMap.symm

theorem extendWithIdx_const (set : TupleSet) (candidates : List Ty → List Ty) :
    set.extendWithIdx (fun _ => candidates) = set.extendWith candidates := by
  rw [extendWithIdx_eq, extensions_const, extendWith_eq]

def extend (set : TupleSet) (candidates : List Ty) : Except TupleLimitExceeded TupleSet :=
  set.extendWith fun _ => candidates

def retain (set : TupleSet) (keep : List Ty → Bool) : TupleSet :=
  { set with tuples := set.tuples.filter keep }

/-- `retain` with a test that need not stay the same: it also depends on how many tuples were tested
before. -/
def retainIdx (set : TupleSet) (keep : Nat → List Ty → Bool) : TupleSet :=
  { set with tuples := (set.tuples.zipIdx.filter fun (tuple, i) => keep i tuple).map Prod.fst }

theorem retainIdx_const (set : TupleSet) (keep : List Ty → Bool) :
    set.retainIdx (fun _ => keep) = set.retain keep := by
  have hfilter := List.filter_map (f := Prod.fst) (p := keep) (l := set.tuples.zipIdx)
  rw [List.zipIdx_map_fst] at hfilter
  exact congrArg (TupleSet.mk · set.limit) hfilter.symm

/-- Pairs every tuple with the parameters by position. A tuple of another length is skipped. -/
def toSubstitutions (set : TupleSet) (vars : List TypeVarId) : List Substitution :=
  set.tuples.filterMap (Substitution.ofLists? vars)

end TupleSet

end CallCatalog
