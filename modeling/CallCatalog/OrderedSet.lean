namespace CallCatalog

structure OrderedSet (α : Type) where
  toList : List α
  nodup : toList.Nodup := by exact List.nodup_nil

namespace OrderedSet

variable {α : Type}

def empty : OrderedSet α := { toList := [] }

instance : Inhabited (OrderedSet α) := ⟨empty⟩

instance : Membership α (OrderedSet α) := ⟨fun s a => a ∈ s.toList⟩

def size (s : OrderedSet α) : Nat := s.toList.length

def isEmpty (s : OrderedSet α) : Bool := s.toList.isEmpty

theorem mem_def {a : α} {s : OrderedSet α} : a ∈ s ↔ a ∈ s.toList := Iff.rfl

theorem nodup_concat {a : α} {l : List α} (hl : l.Nodup) (ha : a ∉ l) : (l ++ [a]).Nodup := by
  rw [List.nodup_append]
  refine ⟨hl, by simp, ?_⟩
  rintro x hx y hy rfl
  exact ha (List.mem_singleton.1 hy ▸ hx)

theorem ext {s t : OrderedSet α} (h : s.toList = t.toList) : s = t := by
  cases s
  cases t
  cases h
  rfl

variable [DecidableEq α]

instance (a : α) (s : OrderedSet α) : Decidable (a ∈ s) :=
  decidable_of_iff (a ∈ s.toList) Iff.rfl

def insert (s : OrderedSet α) (a : α) : OrderedSet α :=
  if h : a ∈ s.toList then s else ⟨s.toList ++ [a], nodup_concat s.nodup h⟩

def insertAll (s : OrderedSet α) (as : List α) : OrderedSet α := as.foldl insert s

def ofList (as : List α) : OrderedSet α := empty.insertAll as

theorem toList_insert (s : OrderedSet α) (a : α) :
    (s.insert a).toList = if a ∈ s.toList then s.toList else s.toList ++ [a] := by
  unfold insert
  split <;> rfl

theorem mem_insert {s : OrderedSet α} {a b : α} : b ∈ s.insert a ↔ b ∈ s ∨ b = a := by
  simp only [mem_def, toList_insert]
  split
  · constructor
    · exact Or.inl
    · rintro (h | rfl) <;> assumption
  · simp

theorem mem_insertAll {s : OrderedSet α} {as : List α} {b : α} :
    b ∈ s.insertAll as ↔ b ∈ s ∨ b ∈ as := by
  induction as generalizing s with
  | nil => simp [insertAll]
  | cons a as ih =>
    have : s.insertAll (a :: as) = (s.insert a).insertAll as := rfl
    rw [this, ih, mem_insert, List.mem_cons, or_assoc]

theorem insertAll_insertAll (s : OrderedSet α) (as bs : List α) :
    (s.insertAll as).insertAll bs = s.insertAll (as ++ bs) := by
  simp [insertAll]

theorem insertAll_of_subset {s : OrderedSet α} {as : List α} (h : ∀ a ∈ as, a ∈ s) :
    s.insertAll as = s := by
  induction as with
  | nil => rfl
  | cons a as ih =>
    have hinsert : s.insert a = s := by
      apply ext
      rw [toList_insert]
      exact if_pos (mem_def.1 (h a (by simp)))
    have hcons : s.insertAll (a :: as) = (s.insert a).insertAll as := rfl
    rw [hcons, hinsert, ih fun b hb => h b (by simp [hb])]

theorem insertAll_insertAll_self (s : OrderedSet α) (as : List α) :
    (s.insertAll as).insertAll as = s.insertAll as :=
  insertAll_of_subset fun _ ha => mem_insertAll.mpr (Or.inr ha)

theorem ofList_repeat (front middle back : List α) :
    ofList (front ++ (middle ++ middle) ++ back) = ofList (front ++ middle ++ back) := by
  have hsplit : ∀ as bs : List α, ofList (as ++ bs) = (ofList as).insertAll bs :=
    fun as bs => (insertAll_insertAll empty as bs).symm
  rw [hsplit, hsplit, hsplit _ back, hsplit _ middle, ← insertAll_insertAll,
    insertAll_insertAll_self]

theorem eraseDups_of_nodup {as : List α} (h : as.Nodup) : as.eraseDups = as := by
  induction as with
  | nil => rfl
  | cons a as ih =>
    obtain ⟨ha, has⟩ := List.nodup_cons.1 h
    have hfilter : as.filter (fun b => !b == a) = as := by
      rw [List.filter_eq_self]
      intro b hb
      simp only [Bool.not_eq_true', beq_eq_false_iff_ne]
      rintro rfl
      exact ha hb
    rw [List.eraseDups_cons, hfilter, ih has]

theorem toList_insertAll (s : OrderedSet α) (as : List α) :
    (s.insertAll as).toList = (s.toList ++ as).eraseDups := by
  induction as generalizing s with
  | nil => simp [insertAll, eraseDups_of_nodup s.nodup]
  | cons a as ih =>
    have hcons : s.insertAll (a :: as) = (s.insert a).insertAll as := rfl
    rw [hcons, ih, toList_insert]
    split
    · rename_i ha
      simp [List.eraseDups_append, List.removeAll, ha]
    · simp

theorem toList_ofList (as : List α) : (ofList as).toList = as.eraseDups := by
  rw [ofList, toList_insertAll]
  rfl

theorem prefix_toList_ofList (front back : List α) :
    front.eraseDups <+: (ofList (front ++ back)).toList := by
  rw [toList_ofList, List.eraseDups_append]
  exact List.prefix_append _ _

theorem filter_eraseDups (p : α → Bool) (as : List α) :
    as.eraseDups.filter p = (as.filter p).eraseDups := by
  generalize hn : as.length = n
  induction n using Nat.strongRecOn generalizing as with
  | ind n ih =>
    cases as with
    | nil => rfl
    | cons a as =>
      have hshorter : (as.filter fun b => !b == a).length < n := by
        rw [← hn, List.length_cons]
        exact Nat.lt_succ_of_le (List.length_filter_le _ as)
      rw [List.eraseDups_cons, List.filter_cons, List.filter_cons, ih _ hshorter _ rfl]
      cases hp : p a with
      | true => simp [List.eraseDups_cons, List.filter_filter, Bool.and_comm]
      | false =>
        have hfilter : (as.filter fun b => !b == a).filter p = as.filter p := by
          rw [List.filter_filter]
          apply List.filter_congr
          intro b _
          cases hb : p b with
          | false => rfl
          | true =>
            have hne : b ≠ a := by
              rintro rfl
              rw [hb] at hp
              cases hp
            simp [hne]
        simp [hfilter]

theorem filter_toList_ofList (p : α → Bool) (as : List α) :
    (ofList as).toList.filter p = (ofList (as.filter p)).toList := by
  rw [toList_ofList, toList_ofList, filter_eraseDups]

theorem mem_ofList {as : List α} {a : α} : a ∈ ofList as ↔ a ∈ as := by
  rw [mem_def, toList_ofList, List.mem_eraseDups]

end OrderedSet

end CallCatalog
