import CallCatalog.Proofs.SpacedNames

/-!
Where primitives stand in a type. A primitive may not be a type argument, and no reference makes it
one. But the bound of a wildcard is resolved like the type of a value, so a primitive that is
written as a bound, as in `List<? extends int>`, comes through.
-/

namespace CallCatalog

/-- What a primitive is in the type in which it occurs. -/
inductive PrimitivePlace where
  | whole
  | argument
  | element
  | bound
  deriving DecidableEq

def RefPosition.place : RefPosition → PrimitivePlace
  | argument => .argument
  | value => .whole
  | result => .whole

namespace Ty

mutual

/-- The primitives that occur in a type, each with its place. The type itself is at `place`. -/
def primitives (place : PrimitivePlace) : Ty → List (PrimitivePlace × Primitive)
  | primitive p => [(place, p)]
  | cls _ args => primitivesAll args
  | arr elem => elem.primitives .element
  | ext upper => upper.primitives .bound
  | sup lower => lower.primitives .bound
  | void => []
  | var _ => []
  | any => []

def primitivesAll : List Ty → List (PrimitivePlace × Primitive)
  | [] => []
  | t :: ts => t.primitives .argument ++ primitivesAll ts

end

theorem mem_primitivesAll_iff {ts : List Ty} {x : PrimitivePlace × Primitive} :
    x ∈ primitivesAll ts ↔ ∃ t ∈ ts, x ∈ t.primitives .argument := by
  induction ts with
  | nil => simp [primitivesAll]
  | cons t ts ih => simp [primitivesAll, ih]

/-- Inside angle brackets, primitives are only elements of arrays. -/
def Boxed (place : PrimitivePlace) (t : Ty) : Prop :=
  ∀ p, (.argument, p) ∉ t.primitives place ∧ (.bound, p) ∉ t.primitives place

theorem Formed.argument_notMem {C : ClassId → Nat → Prop} {V : TypeVarId → Prop}
    {position : RefPosition} {t : Ty} (h : t.Formed C V position) (p : Primitive)
    {place : PrimitivePlace} (hplace : place = .argument → position = .argument) :
    (.argument, p) ∉ t.primitives place := by
  induction h generalizing place with
  | cls _ _ ih =>
      rw [primitives, mem_primitivesAll_iff]
      rintro ⟨t, ht, hmem⟩
      exact ih t ht (fun _ => rfl) hmem
  | arr _ ih => exact ih (by simp)
  | @primitive position q hposition =>
      rw [primitives, List.mem_singleton, Prod.mk.injEq]
      exact fun heq => hposition (hplace heq.1.symm)
  | var _ => simp [primitives]
  | void => simp [primitives]
  | any => simp [primitives]
  | ext _ ih => exact ih (by simp)
  | sup _ ih => exact ih (by simp)

end Ty

namespace TypeRef

/-- The primitive that a text names, if there is nothing else but blanks in it. -/
def keyword? (text : String) : Option Primitive :=
  Primitive.ofKeyword? (String.ofList (Blank.trim text.toList))

mutual

/-- The primitives that a reference gives by their names alone, each with its place, where the
reference itself is at `place`. -/
def primitives (place : PrimitivePlace) : TypeRef → List (PrimitivePlace × Primitive)
  | named text => (keyword? text).toList.map fun p => (place, p)
  | applied _ args => primitivesAll args
  | ext upper => upper.primitives .bound
  | sup lower => lower.primitives .bound

def primitivesAll : List TypeRef → List (PrimitivePlace × Primitive)
  | [] => []
  | r :: rs => r.primitives .argument ++ primitivesAll rs

end

end TypeRef

namespace PrimitivePlace

def bare (found : List (PrimitivePlace × Primitive)) : List (PrimitivePlace × Primitive) :=
  found.filter fun x => x.1 ≠ .element

theorem bare_append (found more : List (PrimitivePlace × Primitive)) :
    bare (found ++ more) = bare found ++ bare more :=
  List.filter_append ..

theorem mem_bare_iff {found : List (PrimitivePlace × Primitive)} {place : PrimitivePlace}
    (hplace : place ≠ .element) {p : Primitive} : (place, p) ∈ bare found ↔ (place, p) ∈ found := by
  simp [bare, hplace]

end PrimitivePlace

namespace Names

open PrimitivePlace (bare bare_append mem_bare_iff)

variable {n : Names} {t : Ty} {position : RefPosition}

theorem primitives_of_resolveBase {text name : String}
    (h : n.resolveBase text name position = .ok t) (place : PrimitivePlace) :
    t.primitives place = (Primitive.ofKeyword? name).toList.map fun p => (place, p) := by
  unfold resolveBase at h
  split at h
  · cases h
  split at h
  · rename_i hname
    subst hname
    split at h <;> cases h
    rfl
  split at h
  · rename_i hname
    subst hname
    split at h <;> cases h
    rfl
  split at h
  · rename_i p hp
    split at h <;> cases h
    rw [hp]
    rfl
  rename_i hnone
  rw [hnone]
  split at h
  · cases h
  split at h
  · cases h
    rfl
  · obtain ⟨found, -, h⟩ := bind_eq_ok_iff.mp h
    rw [pure_eq_ok_iff] at h
    subst h
    rfl

theorem primitives_arrayOf_succ (layers : Nat) (elem : Ty) (place : PrimitivePlace) :
    (TypeRef.arrayOf (layers + 1) elem).primitives place = elem.primitives .element := by
  induction layers generalizing place with
  | zero => rfl
  | succ layers ih => rw [Store.arrayOf_succ, Ty.primitives, ih]

theorem level_of_peelArrays (level text : List Char) (h : (TypeRef.peelArrays level text).2 = 0) :
    (TypeRef.peelArrays level text).1 = level := by
  fun_induction TypeRef.peelArrays level text with
  | case1 => rfl
  | case2 level c cs hc ih => exact ih h
  | case3 => simp at h
  | case4 => rfl
  | case5 => rfl

theorem peelArrays_of_keyword? {text : String} {p : Primitive}
    (h : TypeRef.keyword? text = some p) (level : List Char) :
    TypeRef.peelArrays level text.toList.reverse = (level, 0) := by
  obtain ⟨front, back, hfront, hback, htext⟩ := Blank.exists_eq_append_trim text.toList
  have hname : Blank.trim text.toList = p.keyword.toList := by
    rw [← Primitive.eq_keyword_of_ofKeyword? h, String.toList_ofList]
  rw [htext, hname, List.reverse_append, List.reverse_append,
    TypeRef.peelArrays_blanks (by simpa using hback),
    TypeRef.peelArrays_name (isBareName_keyword p) (by simpa using hfront)]

theorem bare_primitives_of_resolveName {text : String}
    (h : n.resolveName text position = .ok t) (place : PrimitivePlace) :
    bare (t.primitives place) = bare ((TypeRef.named text).primitives place) := by
  unfold resolveName at h
  dsimp only at h
  split at h
  · rename_i hlayers
    rw [level_of_peelArrays _ _ hlayers, List.reverse_reverse] at h
    rw [primitives_of_resolveBase h, TypeRef.primitives, TypeRef.keyword?]
  · rename_i hlayers
    obtain ⟨elem, helem, h⟩ := bind_eq_ok_iff.mp h
    rw [pure_eq_ok_iff] at h
    subst h
    have hkeyword : TypeRef.keyword? text = none := by
      rw [Option.eq_none_iff_forall_ne_some]
      intro p hp
      rw [peelArrays_of_keyword? hp] at hlayers
      exact hlayers rfl
    obtain ⟨layers, hsucc⟩ := Nat.exists_eq_succ_of_ne_zero hlayers
    rw [hsucc, primitives_arrayOf_succ, primitives_of_resolveBase helem, TypeRef.primitives,
      hkeyword]
    simp [bare]

mutual

theorem bare_primitives_of_resolve {position : RefPosition} {t : Ty} (place : PrimitivePlace) :
    ∀ ref : TypeRef, n.resolve position ref = .ok t →
      bare (t.primitives place) = bare (ref.primitives place)
  | .named text, h => by
      rw [resolve] at h
      exact bare_primitives_of_resolveName h place
  | .applied name args, h => by
      rw [resolve] at h
      obtain ⟨⟨id, arity⟩, -, h⟩ := bind_eq_ok_iff.mp h
      dsimp only at h
      split at h
      · cases h
      obtain ⟨ts, hts, h⟩ := bind_eq_ok_iff.mp h
      rw [pure_eq_ok_iff] at h
      rw [h, Ty.primitives, TypeRef.primitives, bare_primitives_of_resolveAll args hts]
  | .ext upper, h => by
      rw [resolve] at h
      obtain ⟨_, -, h⟩ := bind_eq_ok_iff.mp h
      obtain ⟨u, hu, h⟩ := bind_eq_ok_iff.mp h
      rw [pure_eq_ok_iff] at h
      rw [h, Ty.primitives, TypeRef.primitives, bare_primitives_of_resolve .bound upper hu]
  | .sup lower, h => by
      rw [resolve] at h
      obtain ⟨_, -, h⟩ := bind_eq_ok_iff.mp h
      obtain ⟨u, hu, h⟩ := bind_eq_ok_iff.mp h
      rw [pure_eq_ok_iff] at h
      rw [h, Ty.primitives, TypeRef.primitives, bare_primitives_of_resolve .bound lower hu]

theorem bare_primitives_of_resolveAll {position : RefPosition} {ts : List Ty} :
    ∀ refs : List TypeRef, n.resolveAll position refs = .ok ts →
      bare (Ty.primitivesAll ts) = bare (TypeRef.primitivesAll refs)
  | [], h => by
      cases h
      rfl
  | ref :: refs, h => by
      rw [resolveAll] at h
      obtain ⟨t, ht, h⟩ := bind_eq_ok_iff.mp h
      obtain ⟨ts', hts, h⟩ := bind_eq_ok_iff.mp h
      rw [pure_eq_ok_iff] at h
      rw [h, Ty.primitivesAll, TypeRef.primitivesAll, bare_append, bare_append,
        bare_primitives_of_resolve .argument ref ht, bare_primitives_of_resolveAll refs hts]

end

/-- No primitive is resolved to a type argument, and those that are bounds of wildcards in the
resolved type are those that the reference gives as bounds. So the type has primitives in angle
brackets only as elements of arrays exactly if the reference gives none as a bound. -/
theorem boxed_iff_of_resolve (n : Names) (position : RefPosition) (ref : TypeRef) (t : Ty)
    (h : n.resolve position ref = .ok t) :
    (∀ p, (.argument, p) ∉ t.primitives position.place) ∧
    (∀ p, (.bound, p) ∈ t.primitives position.place ↔
      (.bound, p) ∈ ref.primitives position.place) ∧
    (t.Boxed position.place ↔ ∀ p, (.bound, p) ∉ ref.primitives position.place) := by
  have hplace : position.place = .argument → position = .argument := by
    cases position <;> decide
  have hargument : ∀ p, (.argument, p) ∉ t.primitives position.place :=
    fun p => (formed_of_resolve ref h).argument_notMem p hplace
  have hbound : ∀ p, (.bound, p) ∈ t.primitives position.place ↔
      (.bound, p) ∈ ref.primitives position.place := by
    intro p
    rw [← mem_bare_iff (by decide), bare_primitives_of_resolve position.place ref h,
      mem_bare_iff (by decide)]
  refine ⟨hargument, hbound, fun hboxed p => ?_, fun hnone p => ⟨hargument p, ?_⟩⟩
  · rw [← hbound]
    exact (hboxed p).2
  · rw [hbound]
    exact hnone p

/-- `List<? extends int>` is accepted and holds a bare primitive; `List<? extends int[]>` holds
none. -/
theorem boxed_iff_of_resolve_list :
    let names : Names := ⟨Platform.store, [], []⟩
    let ref : String → TypeRef := fun upper => .applied "java.util.List" [.ext (.named upper)]
    let type : Ty → Ty := fun upper => .cls Platform.list [.ext upper]
    names.resolve .value (ref " int ") = .ok (type (.primitive .int)) ∧
      ¬ (type (.primitive .int)).Boxed .whole ∧
      names.resolve .value (ref "int[]") = .ok (type (.arr (.primitive .int))) ∧
      (type (.arr (.primitive .int))).Boxed .whole := by
  intro names ref type
  have hint : names.resolve .value (ref " int ") = .ok (type (.primitive .int)) := by rfl
  have harray : names.resolve .value (ref "int[]") = .ok (type (.arr (.primitive .int))) := by rfl
  refine ⟨hint, fun hboxed => ?_, harray, ?_⟩
  · refine ((boxed_iff_of_resolve _ _ _ _ hint).2.2.mp hboxed .int) ?_
    decide
  · refine (boxed_iff_of_resolve _ _ _ _ harray).2.2.mpr fun p => ?_
    cases p <;> decide

end Names

end CallCatalog
