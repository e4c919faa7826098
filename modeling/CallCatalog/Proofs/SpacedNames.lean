import CallCatalog.Proofs.Resolution
import CallCatalog.Proofs.UniqueReadability

/-!
Reading the names of types back. The text of an array type ends in a `[]` for each layer, so a
reader takes the layers off from the outside, and then the name of the innermost element is left,
whatever blanks there are around it and around the `[]`.
-/

namespace CallCatalog

/-- The name can be told from the blanks and the `[]` that are written around it. -/
structure IsBareName (name : String) : Prop where
  ne_empty : name ≠ ""
  trimmed : Blank.trim name.toList = name.toList
  no_layer : ¬ ['[', ']'] <:+ name.toList

/-- The name may stand for a class or a type parameter where a type is expected: besides, it is no
keyword, and nothing in it looks like type arguments. -/
structure IsPlainName (name : String) : Prop extends IsBareName name where
  no_separator : ∀ c ∈ name.toList, c ≠ '<' ∧ c ≠ '>' ∧ c ≠ ','
  ne_wildcard : name ≠ "?"
  ne_void : name ≠ "void"
  ne_keyword : ∀ p : Primitive, name ≠ p.keyword

theorem isBareName_keyword (p : Primitive) : IsBareName p.keyword where
  ne_empty := by cases p <;> decide
  trimmed := by cases p <;> decide
  no_layer := by cases p <;> decide

namespace TypeRef

variable {blanks : List Char}

theorem peelArrays_blanks (h : blanks.all Blank.isBlank) (level rest : List Char) :
    peelArrays level (blanks ++ rest) = peelArrays level rest := by
  induction blanks with
  | nil => rfl
  | cons c blanks ih =>
      rw [List.all_cons, Bool.and_eq_true] at h
      rw [List.cons_append, peelArrays.eq_def]
      dsimp only
      rw [if_pos h.1, ih h.2]

theorem peelArrays_layer (level rest : List Char) :
    peelArrays level (']' :: '[' :: rest) =
      ((peelArrays rest rest).1, (peelArrays rest rest).2 + 1) := by
  rw [peelArrays, if_neg (by decide), if_pos rfl]

theorem peelArrays_name {name : String} (h : IsBareName name) (hblanks : blanks.all Blank.isBlank)
    (level : List Char) : peelArrays level (name.toList.reverse ++ blanks) = (level, 0) := by
  cases hreverse : name.toList.reverse with
  | nil =>
      rw [List.reverse_eq_nil_iff, String.toList_eq_nil_iff] at hreverse
      exact absurd hreverse h.ne_empty
  | cons c cs =>
      have hname : name.toList = cs.reverse ++ [c] := by
        rw [← List.reverse_reverse name.toList, hreverse, List.reverse_cons]
      have hc : Blank.isBlank c = false := by
        have hend := (Blank.trimStart_and_trimEnd h.trimmed).2
        rw [Blank.trimEnd, hreverse, hname, ← List.reverse_cons, List.reverse_inj] at hend
        exact Blank.isBlank_of_trimStart_cons hend
      rw [List.cons_append, peelArrays.eq_def]
      dsimp only
      rw [if_neg (by simp [hc])]
      split
      · rename_i hbracket
        split
        · rename_i rest heq
          -- The character before the bracket belongs to the name or is blank.
          cases cs with
          | nil =>
              rw [List.nil_append] at heq
              rw [heq] at hblanks
              cases hblanks
          | cons d cs =>
              obtain ⟨rfl, -⟩ := List.cons.inj heq
              refine absurd ⟨cs.reverse, ?_⟩ h.no_layer
              simp [hname, hbracket]
        · rfl
      · rfl

end TypeRef

/-- The text of a type with blanks around the name of its innermost element and around each `[]`. -/
inductive Store.Spaced (s : Store) : Ty → String → Prop
  | name {t : Ty} {front back : String} (ht : ∀ elem, t ≠ .arr elem)
      (hfront : front.toList.all Blank.isBlank) (hback : back.toList.all Blank.isBlank) :
      Spaced s t (front ++ s.format t ++ back)
  | layer {t : Ty} {text back : String} (h : Spaced s t text)
      (hback : back.toList.all Blank.isBlank) : Spaced s (.arr t) (text ++ "[]" ++ back)

theorem Store.spaced_format (s : Store) (t : Ty) : s.Spaced t (s.format t) := by
  have hname : (∀ elem, t ≠ .arr elem) → s.Spaced t (s.format t) := by
    intro ht
    have hspaced : s.Spaced t ("" ++ s.format t ++ "") := .name ht rfl rfl
    simpa using hspaced
  cases t with
  | arr elem =>
      have hspaced : s.Spaced (.arr elem) (s.format elem ++ "[]" ++ "") :=
        .layer (s.spaced_format elem) rfl
      simpa [format] using hspaced
  | _ => exact hname (by simp)

namespace Names

variable {n : Names} {t : Ty} {name : String}

/-- No two classes of the store have the same name, and a class that is declared has its number
under the name that it is declared with. -/
structure Consistent (n : Names) : Prop where
  distinct : (n.store.classes.map ClassEntry.name).Nodup
  declared : ∀ name id arity, (name, id, arity) ∈ n.declared → n.store.className? id = some name

/-- The class is defined in the store or declared. -/
def IsDefined (n : Names) (id : ClassId) : Prop :=
  (n.store.classDef? id).isSome ∨ ∃ name arity, (name, id, arity) ∈ n.declared

/-- The type parameter is in scope under the name, and no inner one has the same name. -/
def IsInnermost (n : Names) (name : String) (v : TypeVarId) : Prop :=
  ∃ outer inner, n.scope = outer ++ (name, v) :: inner ∧ ∀ w, (name, w) ∉ inner

/-- The type is an array, or what a single name refers to. -/
inductive Nameable (n : Names) : Ty → Prop
  | primitive (p : Primitive) : Nameable n (.primitive p)
  | cls {id : ClassId} {name : String} (hid : n.store.className? id = some name)
      (hname : IsPlainName name) (hdefined : n.IsDefined id) (hscope : ∀ v, (name, v) ∉ n.scope) :
      Nameable n (.cls id [])
  | var {v : TypeVarId} {p : TypeParam} (hv : n.store.typeParam? v = some p)
      (hname : IsPlainName p.name) (hscope : n.IsInnermost p.name v) : Nameable n (.var v)
  | arr {elem : Ty} (helem : Nameable n elem) : Nameable n (.arr elem)

theorem typeParam?_of_isInnermost {v : TypeVarId} (h : n.IsInnermost name v) :
    n.typeParam? name = some v := by
  obtain ⟨outer, inner, hscope, hinner⟩ := h
  rw [typeParam?, hscope, List.lookup_eq_some_iff]
  refine ⟨inner.reverse, outer.reverse, by simp, fun d hd => ?_⟩
  rw [bne_iff_ne]
  rintro rfl
  exact hinner d.2 (List.mem_reverse.mp hd)

theorem typeParam?_eq_none (h : ∀ v, (name, v) ∉ n.scope) : n.typeParam? name = none := by
  rw [typeParam?, List.lookup_eq_none_iff]
  intro d hd
  rw [bne_iff_ne]
  rintro rfl
  exact h d.2 (List.mem_reverse.mp hd)

theorem class?_of_className? (hn : n.Consistent) {id : ClassId}
    (hid : n.store.className? id = some name) (hdefined : n.IsDefined id) :
    ∃ arity, n.class? name = some (id, arity) := by
  unfold class?
  cases hlookup : n.declared.lookup name with
  | some found =>
      obtain ⟨front, back, hsplit, -⟩ := List.lookup_eq_some_iff.mp hlookup
      have hfound := hn.declared name found.1 found.2 (by simp [hsplit])
      rw [← Store.classId?_eq_some_iff hn.distinct] at hfound hid
      refine ⟨found.2, ?_⟩
      rw [hfound] at hid
      cases hid
      rfl
  | none =>
      rcases hdefined with hdef | ⟨name', arity, hmem⟩
      · obtain ⟨d, hd⟩ := Option.isSome_iff_exists.mp hdef
        refine ⟨d.typeParams.length, ?_⟩
        simp [(Store.classId?_eq_some_iff hn.distinct).mpr hid, hd]
      · have hsame := hn.declared name' id arity hmem
        rw [hid] at hsame
        cases hsame
        have hne := List.lookup_eq_none_iff.mp hlookup _ hmem
        simp at hne

/-- The name is all that is written for the type, and it is resolved to the type. -/
structure NamedBy (n : Names) (t : Ty) (name : String) : Prop where
  isBareName : IsBareName name
  format_eq : n.store.format t = name
  resolveBase_eq : ∀ text, n.resolveBase text name .value = .ok t

theorem resolveBase_of_isPlainName (h : IsPlainName name) (text : String) (position : RefPosition) :
    n.resolveBase text name position = match n.typeParam? name with
      | some v => .ok (.var v)
      | none => (n.findClass name).map fun found => .cls found.1 [] := by
  have hseparator : ¬ (name.toList.any fun c => c = '<' || c = '>' || c = ',') = true := by
    simp only [List.any_eq_true, Bool.or_eq_true, decide_eq_true_eq, not_exists, not_and]
    intro c hc
    obtain ⟨hless, hgreater, hcomma⟩ := h.no_separator c hc
    simp [hless, hgreater, hcomma]
  rw [resolveBase, if_neg h.ne_empty, if_neg h.ne_wildcard, if_neg h.ne_void,
    Primitive.ofKeyword?_eq_none h.ne_keyword]
  dsimp only
  rw [if_neg hseparator]
  cases n.typeParam? name with
  | some v => rfl
  | none => cases n.findClass name <;> rfl

theorem namedBy_primitive (p : Primitive) : n.NamedBy (.primitive p) p.keyword := by
  have hwildcard : p.keyword ≠ "?" ∧ p.keyword ≠ "void" := by
    cases p <;> decide
  refine ⟨isBareName_keyword p, by rw [Store.format], fun text => ?_⟩
  rw [resolveBase, if_neg (isBareName_keyword p).ne_empty, if_neg hwildcard.1, if_neg hwildcard.2,
    Primitive.ofKeyword?_keyword]
  rfl

theorem namedBy_cls (hn : n.Consistent) {id : ClassId} (hid : n.store.className? id = some name)
    (hname : IsPlainName name) (hdefined : n.IsDefined id) (hscope : ∀ v, (name, v) ∉ n.scope) :
    n.NamedBy (.cls id []) name := by
  refine ⟨hname.toIsBareName, ?_, fun text => ?_⟩
  · rw [Store.format, Store.classText, hid, Option.getD_some]
  · obtain ⟨arity, hclass⟩ := class?_of_className? hn hid hdefined
    rw [resolveBase_of_isPlainName hname, typeParam?_eq_none hscope]
    simp [findClass, hclass, Except.map]

theorem namedBy_var {v : TypeVarId} {p : TypeParam} (hv : n.store.typeParam? v = some p)
    (hname : IsPlainName p.name) (hscope : n.IsInnermost p.name v) : n.NamedBy (.var v) p.name := by
  refine ⟨hname.toIsBareName, ?_, fun text => ?_⟩
  · rw [Store.format, Store.varText, hv]
  · rw [resolveBase_of_isPlainName hname, typeParam?_of_isInnermost hscope]

theorem Nameable.exists_namedBy (hn : n.Consistent) (h : n.Nameable t)
    (ht : ∀ elem, t ≠ .arr elem) : ∃ name, n.NamedBy t name := by
  cases h with
  | primitive p => exact ⟨_, namedBy_primitive p⟩
  | cls hid hname hdefined hscope => exact ⟨_, namedBy_cls hn hid hname hdefined hscope⟩
  | var hv hname hscope => exact ⟨_, namedBy_var hv hname hscope⟩
  | arr helem => exact absurd rfl (ht _)

/-- In a text with blanks, a reader finds the name of the innermost element, with blanks around it,
and below all layers of the type. -/
theorem exists_peelArrays (hn : n.Consistent) {text : String} (h : n.store.Spaced t text)
    (ht : n.Nameable t) : ∃ elem name inner layers, t = TypeRef.arrayOf layers elem ∧
      n.NamedBy elem name ∧ Blank.trim inner = name.toList ∧
      TypeRef.peelArrays text.toList.reverse text.toList.reverse = (inner.reverse, layers) := by
  induction h with
  | @name t front back hbase hfront hback =>
      obtain ⟨name, hname⟩ := ht.exists_namedBy hn hbase
      have htrim := Blank.trim_append_append hfront hback hname.isBareName.trimmed
      refine ⟨t, name, _, 0, rfl, hname, htrim, ?_⟩
      rw [hname.format_eq, String.toList_append, String.toList_append, List.reverse_append,
        List.reverse_append, TypeRef.peelArrays_blanks (by simpa using hback),
        TypeRef.peelArrays_name hname.isBareName (by simpa using hfront)]
  | @layer t text back _ hback ih =>
      cases ht with
      | arr helem =>
          obtain ⟨elem, name, inner, layers, rfl, hname, htrim, hpeel⟩ := ih helem
          refine ⟨elem, name, inner, layers + 1, (Store.arrayOf_succ layers elem).symm, hname,
            htrim, ?_⟩
          have htext : (text ++ "[]" ++ back).toList.reverse =
              back.toList.reverse ++ ']' :: '[' :: text.toList.reverse := by simp
          rw [htext, TypeRef.peelArrays_blanks (by simpa using hback), TypeRef.peelArrays_layer,
            hpeel]

/-- The text of a type that is an array or what a single name refers to stands for this type, also
with blanks around the name and around each `[]`. -/
theorem resolveName_format (n : Names) (hn : n.Consistent) (t : Ty) (ht : n.Nameable t) :
    n.resolveName (n.store.format t) .value = .ok t ∧
      ∀ text, n.store.Spaced t text → n.resolveName text .value = .ok t := by
  have hspaced : ∀ text, n.store.Spaced t text → n.resolveName text .value = .ok t := by
    intro text htext
    obtain ⟨elem, name, inner, layers, rfl, hname, htrim, hpeel⟩ := exists_peelArrays hn htext ht
    unfold resolveName
    simp only [hpeel, List.reverse_reverse, htrim, String.ofList_toList, hname.resolveBase_eq]
    split
    · rename_i hlayers
      rw [hlayers]
      rfl
    · rfl
  exact ⟨hspaced _ (n.store.spaced_format t), hspaced⟩

/-- A method declares a type parameter of the same name as its class does. -/
def shadowingNames : Names where
  store :=
    { Platform.store with
      typeParams := Platform.store.typeParams ++ [⟨"T", .unconstrained⟩, ⟨"T", .unconstrained⟩] }
  declared := [("java.util.List", Platform.list, 1)]
  scope := [("T", ⟨10⟩), ("T", ⟨11⟩)]

theorem resolveName_format_shadowing :
    shadowingNames.Consistent ∧ shadowingNames.Nameable (.arr (.arr (.var ⟨11⟩))) ∧
      shadowingNames.resolveName "T[][]" .value = .ok (.arr (.arr (.var ⟨11⟩))) ∧
      shadowingNames.resolveName " T\t[] []" .value = .ok (.arr (.arr (.var ⟨11⟩))) := by
  have hconsistent : shadowingNames.Consistent := by
    refine ⟨by decide, fun name id arity h => ?_⟩
    cases List.mem_singleton.mp h
    rfl
  have hplain : IsPlainName "T" :=
    ⟨⟨by decide, by decide, by decide⟩, by simp, by decide, by decide, fun p => by
      cases p <;> decide⟩
  have hvar : shadowingNames.Nameable (.var ⟨11⟩) :=
    .var (p := ⟨"T", .unconstrained⟩) rfl hplain ⟨[("T", ⟨10⟩)], [], rfl, by simp⟩
  have hname : shadowingNames.store.Spaced (.var ⟨11⟩) (" " ++ "T" ++ "\t") :=
    .name (by simp) (by decide) (by decide)
  have hinner : shadowingNames.store.Spaced (.arr (.var ⟨11⟩)) (" T\t" ++ "[]" ++ " ") :=
    .layer hname (by decide)
  have hspaced : shadowingNames.store.Spaced (.arr (.arr (.var ⟨11⟩))) (" T\t[] " ++ "[]" ++ "") :=
    .layer hinner (by decide)
  obtain ⟨hformat, hblanks⟩ := resolveName_format shadowingNames hconsistent _ (.arr (.arr hvar))
  exact ⟨hconsistent, .arr (.arr hvar), hformat, hblanks _ hspaced⟩

end Names

end CallCatalog
