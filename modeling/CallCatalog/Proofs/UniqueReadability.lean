import CallCatalog.Catalog.Operation
import CallCatalog.Declaration.Resolve
import CallCatalog.Proofs.StoreRuns

/-!
Reading the texts of types back. The text of a type is a word, the arguments in angle
brackets and one `[]` for each array layer, or a `?` with what follows it. Whatever comes after the
text of a type in a longer one is empty or begins with `,`, `>` or `)`, and this is where the type
ends.
-/

namespace CallCatalog

def separators : List Char := [' ', '<', '>', ',', '(', ')', '[', ']', '?']

def isWordChar (c : Char) : Bool := c ∉ separators

theorem append_inj_of_all {p : Char → Bool} {w w' r r' : List Char} (hw : w.all p)
    (hw' : w'.all p) (hr : ∀ c ∈ r.head?, p c = false) (hr' : ∀ c ∈ r'.head?, p c = false)
    (h : w ++ r = w' ++ r') : w = w' ∧ r = r' := by
  have hnone : ∀ r : List Char, (∀ c ∈ r.head?, p c = false) → r.takeWhile p = [] := by
    intro r hr
    cases r with
    | nil => rfl
    | cons c r => simp [hr c rfl]
  have hword : w = w' := by
    have htake := congrArg (List.takeWhile p) h
    rwa [List.takeWhile_append_of_pos (List.all_eq_true.mp hw),
      List.takeWhile_append_of_pos (List.all_eq_true.mp hw'), hnone r hr, hnone r' hr',
      List.append_nil, List.append_nil] at htake
  subst hword
  exact ⟨rfl, List.append_cancel_left h⟩

structure IsWord (name : String) : Prop where
  ne_empty : name ≠ ""
  plain : name.toList.all isWordChar

/-- The word may stand for a class: it is no keyword. -/
structure IsClassName (name : String) : Prop extends IsWord name where
  ne_void : name ≠ "void"
  ne_keyword : ∀ p : Primitive, name ≠ p.keyword

/-- The word may stand for a method: it contains neither a separator nor a dot. -/
def IsMethodName (name : String) : Prop :=
  name.toList.all isWordChar ∧ name.toList.all (· != '.')

instance (name : String) : Decidable (IsMethodName name) := inferInstanceAs (Decidable (_ ∧ _))

namespace Store

variable {s : Store} {t u : Ty} {name : String} {args args' ts us : List Ty} {k l : List Char}
  {m n : Nat} {position : RefPosition}

/-- No type variable occurs in the type, every class has a name that may stand for a class, and a
wildcard stands only as a type argument. -/
inductive Legible (s : Store) : RefPosition → Ty → Prop
  | void {position : RefPosition} : Legible s position .void
  | primitive {position : RefPosition} {p : Primitive} : Legible s position (.primitive p)
  | cls {position : RefPosition} {id : ClassId} {name : String} {args : List Ty}
      (hid : s.className? id = some name) (hname : IsClassName name)
      (hargs : ∀ t ∈ args, Legible s .argument t) : Legible s position (.cls id args)
  | arr {position : RefPosition} {elem : Ty} (helem : Legible s .value elem) :
      Legible s position (.arr elem)
  | any : Legible s .argument .any
  | ext {upper : Ty} (hupper : Legible s .value upper) : Legible s .argument (.ext upper)
  | sup {lower : Ty} (hlower : Legible s .value lower) : Legible s .argument (.sup lower)

theorem Legible.argument (h : s.Legible position t) : s.Legible .argument t := by
  cases h with
  | void => exact .void
  | primitive => exact .primitive
  | cls hid hname hargs => exact .cls hid hname hargs
  | arr helem => exact .arr helem
  | any => exact .any
  | ext hupper => exact .ext hupper
  | sup hlower => exact .sup hlower

theorem Legible.isWildcard (h : s.Legible position t) (hposition : position ≠ .argument) :
    t.isWildcard = false := by
  cases h with
  | any => exact absurd rfl hposition
  | ext _ => exact absurd rfl hposition
  | sup _ => exact absurd rfl hposition
  | _ => rfl

def text (s : Store) (t : Ty) : List Char := (s.format t).toList

def moreText (s : Store) (ts : List Ty) : List Char := (s.formatMore ts).toList

def listText (s : Store) : List Ty → List Char
  | [] => []
  | t :: ts => s.text t ++ s.moreText ts

def argumentsText (s : Store) (args : List Ty) : List Char :=
  if args = [] then [] else '<' :: (s.listText args ++ ['>'])

def brackets (n : Nat) : List Char := (List.replicate n ['[', ']']).flatten

theorem moreText_nil : s.moreText [] = [] := by
  simp [moreText, formatMore]

theorem moreText_cons : s.moreText (t :: ts) = ',' :: ' ' :: s.listText (t :: ts) := by
  simp [moreText, listText, text, formatMore]

theorem text_cls {id : ClassId} (hid : s.className? id = some name) :
    s.text (.cls id args) = name.toList ++ s.argumentsText args := by
  cases args with
  | nil => simp [text, format, classText, hid, argumentsText]
  | cons a args =>
      simp [text, format, classText, hid, argumentsText, listText, moreText]

theorem text_arr : s.text (.arr t) = s.text t ++ ['[', ']'] := by
  simp [text, format]

theorem text_any : s.text .any = ['?'] := by
  simp [text, format]

theorem text_ext : s.text (.ext t) = "? extends ".toList ++ s.text t := by
  simp [text, format]

theorem text_sup : s.text (.sup t) = "? super ".toList ++ s.text t := by
  simp [text, format]

theorem brackets_succ : brackets (n + 1) = '[' :: ']' :: brackets n := rfl

theorem brackets_succ' : brackets (n + 1) = brackets n ++ ['[', ']'] := by
  simp [brackets, List.replicate_succ']

/-- What may come after the text of a type. -/
def Stops (k : List Char) : Prop := ∀ c ∈ k.head?, c = ',' ∨ c = '>' ∨ c = ')'

/-- What may come after the text of the last type of a list. -/
def Closes (k : List Char) : Prop := ∃ c rest, k = c :: rest ∧ (c = '>' ∨ c = ')')

theorem Closes.stops (h : Closes k) : Stops k := by
  obtain ⟨c, rest, rfl, hc⟩ := h
  intro c' hc'
  rw [← Option.some.inj hc']
  exact Or.inr hc

theorem stops_moreText (hk : Closes k) : Stops (s.moreText ts ++ k) := by
  cases ts with
  | nil =>
      rw [moreText_nil]
      exact hk.stops
  | cons t ts =>
      rw [moreText_cons]
      intro c hc
      exact Or.inl (Option.some.inj hc).symm

theorem brackets_append_inj (hk : Stops k) (hl : Stops l) (h : brackets m ++ k = brackets n ++ l) :
    m = n ∧ k = l := by
  have hne : ∀ {k l : List Char} {n : Nat}, Stops k → k ≠ brackets (n + 1) ++ l := by
    rintro k l n hk rfl
    have hhead := hk '[' rfl
    simp at hhead
  induction m generalizing n with
  | zero =>
      cases n with
      | zero => exact ⟨rfl, h⟩
      | succ n => exact absurd h (hne hk)
  | succ m ih =>
      cases n with
      | zero => exact absurd h.symm (hne hl)
      | succ n =>
          simp only [brackets_succ, List.cons_append, List.cons.injEq, true_and] at h
          obtain ⟨rfl, hrest⟩ := ih h
          exact ⟨rfl, hrest⟩

def named (s : Store) (name : String) (args : List Ty) : Ty :=
  if name = "void" then .void
  else match Primitive.ofKeyword? name with
    | some p => .primitive p
    | none => ((s.classId? name).map (Ty.cls · args)).getD .void

theorem named_keyword (p : Primitive) (args : List Ty) :
    s.named p.keyword args = .primitive p := by
  have hne : p.keyword ≠ "void" := by
    cases p <;> decide
  rw [named, if_neg hne, Primitive.ofKeyword?_keyword]

theorem isWord_void : IsWord "void" where
  ne_empty := by decide
  plain := by decide

theorem isWord_keyword (p : Primitive) : IsWord p.keyword where
  ne_empty := by cases p <;> decide
  plain := by cases p <;> decide

/-- The text of the type is made of the word, the arguments and the array layers, and these
determine the type. -/
structure Spelled (s : Store) (t : Ty) (name : String) (args : List Ty) (layers : Nat) : Prop where
  isWord : IsWord name
  legible : ∀ a ∈ args, s.Legible .argument a
  eq_arrayOf : t = TypeRef.arrayOf layers (s.named name args)
  text_eq : s.text t = name.toList ++ s.argumentsText args ++ brackets layers

theorem arrayOf_succ (n : Nat) (t : Ty) :
    TypeRef.arrayOf (n + 1) t = .arr (TypeRef.arrayOf n t) := by
  induction n generalizing t with
  | zero => rfl
  | succ n ih => exact ih (.arr t)

theorem spelled_void : s.Spelled .void "void" [] 0 where
  isWord := isWord_void
  legible := by simp
  eq_arrayOf := rfl
  text_eq := by simp [text, format, argumentsText, brackets]

theorem spelled_primitive (p : Primitive) : s.Spelled (.primitive p) p.keyword [] 0 where
  isWord := isWord_keyword p
  legible := by simp
  eq_arrayOf := (named_keyword p []).symm
  text_eq := by simp [text, format, argumentsText, brackets]

theorem Spelled.arr (h : s.Spelled t name args n) : s.Spelled (.arr t) name args (n + 1) where
  isWord := h.isWord
  legible := h.legible
  eq_arrayOf := by rw [arrayOf_succ, ← h.eq_arrayOf]
  text_eq := by rw [text_arr, h.text_eq, brackets_succ', List.append_assoc _ (brackets n)]

theorem Spelled.exists_cons (h : s.Spelled t name args n) :
    ∃ c rest, s.text t = c :: rest ∧ isWordChar c := by
  cases hchars : name.toList with
  | nil => exact absurd (String.toList_eq_nil_iff.mp hchars) h.isWord.ne_empty
  | cons c rest =>
      refine ⟨c, rest ++ s.argumentsText args ++ brackets n, ?_, ?_⟩
      · simp [h.text_eq, hchars]
      · exact List.all_eq_true.mp h.isWord.plain c (by simp [hchars])

theorem text_of_isWildcard (h : t.isWildcard) : ∃ rest, s.text t = '?' :: rest := by
  cases t with
  | any => exact ⟨_, text_any⟩
  | ext upper => exact ⟨_, text_ext⟩
  | sup lower => exact ⟨_, text_sup⟩
  | _ => cases h

/-- The type is determined by any text that begins with its own. -/
def ReadsBack (s : Store) (t : Ty) : Prop :=
  ∀ u k l, s.Legible .argument u → Stops k → Stops l → s.text t ++ k = s.text u ++ l →
    t = u ∧ k = l

theorem moreText_append_inj (hread : ∀ t ∈ ts, s.ReadsBack t)
    (hus : ∀ u ∈ us, s.Legible .argument u) (hk : Closes k) (hl : Closes l)
    (h : s.moreText ts ++ k = s.moreText us ++ l) : ts = us ∧ k = l := by
  have hne : ∀ {t : Ty} {ts : List Ty} {k l : List Char}, Closes k →
      k ≠ s.moreText (t :: ts) ++ l := by
    rintro t ts k l ⟨c, rest, rfl, hc⟩ heq
    rw [moreText_cons, List.cons_append, List.cons.injEq] at heq
    rw [heq.1] at hc
    simp at hc
  induction ts generalizing us with
  | nil =>
      rw [moreText_nil, List.nil_append] at h
      cases us with
      | nil => exact ⟨rfl, by rwa [moreText_nil] at h⟩
      | cons u us => exact absurd h (hne hk)
  | cons t ts ih =>
      cases us with
      | nil =>
          rw [moreText_nil, List.nil_append] at h
          exact absurd h.symm (hne hl)
      | cons u us =>
          simp only [moreText_cons, listText, List.cons_append, List.append_assoc,
            List.cons.injEq, true_and] at h
          obtain ⟨rfl, hrest⟩ := hread t (by simp) u _ _ (hus u (by simp)) (stops_moreText hk)
            (stops_moreText hl) h
          obtain ⟨rfl, hkl⟩ := ih (fun t ht => hread t (by simp [ht]))
            (fun u hu => hus u (by simp [hu])) hrest
          exact ⟨rfl, hkl⟩

theorem closes_cons_gt (k : List Char) : Closes ('>' :: k) := ⟨'>', k, rfl, Or.inl rfl⟩

theorem head?_brackets_append (hk : Stops k) (n : Nat) :
    ∀ c ∈ (brackets n ++ k).head?, isWordChar c = false ∧ c ≠ '<' := by
  intro c hc
  cases n with
  | zero =>
      rcases hk c hc with rfl | rfl | rfl <;> decide
  | succ n =>
      rw [← Option.some.inj hc]
      decide

theorem head?_argumentsText_append (hk : ∀ c ∈ k.head?, isWordChar c = false) (args : List Ty) :
    ∀ c ∈ (s.argumentsText args ++ k).head?, isWordChar c = false := by
  unfold argumentsText
  split
  · exact hk
  · intro c hc
    rw [← Option.some.inj hc]
    decide

theorem text_any_append_ne (hk : Stops k) (hu : u.isWildcard) (hne : u ≠ .any) :
    s.text .any ++ k ≠ s.text u ++ l := by
  have hblank : ∀ rest, k ≠ ' ' :: rest := by
    rintro rest rfl
    have hhead := hk ' ' rfl
    simp at hhead
  intro heq
  cases u with
  | any => exact hne rfl
  | ext upper => exact hblank _ (by simpa [text_any, text_ext] using heq)
  | sup lower => exact hblank _ (by simpa [text_any, text_sup] using heq)
  | _ => cases hu

theorem text_ext_append_ne : s.text (.ext t) ++ k ≠ s.text (.sup u) ++ l := by
  simp [text_ext, text_sup]

/-- Below further array layers the type is determined by any text that begins with its own, as long
as this goes on like the text of a type that is no wildcard. -/
def ReadsAsType (s : Store) (t : Ty) : Prop :=
  ∀ m name args n k l, IsWord name → (∀ a ∈ args, s.Legible .argument a) → Stops k → Stops l →
    s.text t ++ (brackets m ++ k) = name.toList ++ (s.argumentsText args ++ (brackets n ++ l)) →
    TypeRef.arrayOf m t = TypeRef.arrayOf n (s.named name args) ∧ k = l

section DistinctNames

variable (hs : (s.classes.map ClassEntry.name).Nodup)

include hs

theorem named_className {id : ClassId} (hid : s.className? id = some name)
    (hname : IsClassName name) (args : List Ty) : s.named name args = .cls id args := by
  rw [named, if_neg hname.ne_void, Primitive.ofKeyword?_eq_none hname.ne_keyword]
  simp [(classId?_eq_some_iff hs).mpr hid]

theorem spelled_cls {id : ClassId} (hid : s.className? id = some name) (hname : IsClassName name)
    (hargs : ∀ a ∈ args, s.Legible .argument a) : s.Spelled (.cls id args) name args 0 where
  isWord := hname.toIsWord
  legible := hargs
  eq_arrayOf := (named_className hs hid hname args).symm
  text_eq := by simp [text_cls hid, brackets]

theorem Legible.exists_spelled (h : s.Legible position t) (hwild : t.isWildcard = false) :
    ∃ name args layers, s.Spelled t name args layers := by
  induction h with
  | void => exact ⟨_, _, _, spelled_void⟩
  | primitive => exact ⟨_, _, _, spelled_primitive _⟩
  | cls hid hname hargs => exact ⟨_, _, _, spelled_cls hs hid hname hargs⟩
  | arr helem ih =>
      obtain ⟨name, args, layers, hspelled⟩ := ih (helem.isWildcard (by decide))
      exact ⟨name, args, layers + 1, hspelled.arr⟩
  | any => cases hwild
  | ext _ => cases hwild
  | sup _ => cases hwild

theorem Legible.exists_cons (h : s.Legible position t) :
    ∃ c rest, s.text t = c :: rest ∧ (isWordChar c ∨ c = '?') := by
  by_cases hwild : t.isWildcard
  · obtain ⟨rest, hrest⟩ := text_of_isWildcard (s := s) hwild
    exact ⟨'?', rest, hrest, Or.inr rfl⟩
  · obtain ⟨name, args, n, hspelled⟩ := h.exists_spelled hs (by simpa using hwild)
    obtain ⟨c, rest, hrest, hc⟩ := hspelled.exists_cons
    exact ⟨c, rest, hrest, Or.inl hc⟩

theorem listText_append_inj (hread : ∀ t ∈ ts, s.ReadsBack t)
    (hts : ∀ t ∈ ts, s.Legible .argument t) (hus : ∀ u ∈ us, s.Legible .argument u)
    (hk : Closes k) (hl : Closes l) (h : s.listText ts ++ k = s.listText us ++ l) :
    ts = us ∧ k = l := by
  have hne : ∀ {t : Ty} {ts : List Ty} {k l : List Char}, s.Legible .argument t → Closes k →
      k ≠ s.listText (t :: ts) ++ l := by
    rintro t ts k l ht ⟨c, rest, rfl, hc⟩ heq
    obtain ⟨c', rest', htext, hc'⟩ := ht.exists_cons hs
    rw [listText, htext, List.cons_append, List.cons_append, List.cons.injEq] at heq
    rw [← heq.1] at hc'
    rcases hc with rfl | rfl <;> revert hc' <;> decide
  cases ts with
  | nil =>
      cases us with
      | nil => exact ⟨rfl, h⟩
      | cons u us => exact absurd h (hne (hus u (by simp)) hk)
  | cons t ts =>
      cases us with
      | nil => exact absurd h.symm (hne (hts t (by simp)) hl)
      | cons u us =>
          apply moreText_append_inj hread hus hk hl
          rw [moreText_cons, moreText_cons, List.cons_append, List.cons_append, List.cons_append,
            List.cons_append, h]

theorem argumentsText_append_inj (hread : ∀ a ∈ args, s.ReadsBack a)
    (hargs : ∀ a ∈ args, s.Legible .argument a) (hargs' : ∀ a ∈ args', s.Legible .argument a)
    (hk : ∀ c ∈ k.head?, c ≠ '<') (hl : ∀ c ∈ l.head?, c ≠ '<')
    (h : s.argumentsText args ++ k = s.argumentsText args' ++ l) : args = args' ∧ k = l := by
  unfold argumentsText at h
  by_cases hnil : args = []
  · by_cases hnil' : args' = []
    · rw [if_pos hnil, if_pos hnil'] at h
      exact ⟨hnil.trans hnil'.symm, h⟩
    · rw [if_pos hnil, if_neg hnil', List.nil_append] at h
      exact absurd rfl (hk '<' (by simp [h]))
  · by_cases hnil' : args' = []
    · rw [if_neg hnil, if_pos hnil', List.nil_append] at h
      exact absurd rfl (hl '<' (by simp [← h]))
    · simp only [if_neg hnil, if_neg hnil', List.cons_append, List.append_assoc,
        List.cons.injEq, true_and, List.nil_append] at h
      obtain ⟨heq, hrest⟩ := listText_append_inj hs hread hargs hargs' (closes_cons_gt k)
        (closes_cons_gt l) h
      exact ⟨heq, (List.cons.inj hrest).2⟩

theorem Spelled.readsAsType (h : s.Spelled t name args 0)
    (hread : ∀ a ∈ args, s.ReadsBack a) : s.ReadsAsType t := by
  intro m name' args' n k l hword hargs' hk hl heq
  have hhead := head?_brackets_append hk m
  have hhead' := head?_brackets_append hl n
  have htext : s.text t = name.toList ++ s.argumentsText args := by
    simpa [brackets] using h.text_eq
  rw [htext, List.append_assoc] at heq
  -- the word, the arguments and the layers are read one after the other; none of them can be taken
  -- for the beginning of the next
  obtain ⟨hname, htail⟩ := append_inj_of_all h.isWord.plain hword.plain
    (head?_argumentsText_append (fun c hc => (hhead c hc).1) args)
    (head?_argumentsText_append (fun c hc => (hhead' c hc).1) args') heq
  obtain ⟨rfl, hrest⟩ := argumentsText_append_inj hs hread h.legible hargs'
    (fun c hc => (hhead c hc).2) (fun c hc => (hhead' c hc).2) htail
  obtain ⟨rfl, hkl⟩ := brackets_append_inj hk hl hrest
  rw [h.eq_arrayOf, String.toList_inj.mp hname]
  exact ⟨rfl, hkl⟩

theorem text_append_ne (ht : s.Legible position t) (hwild : t.isWildcard = false)
    (hu : u.isWildcard) : s.text t ++ k ≠ s.text u ++ l := by
  obtain ⟨name, args, n, hspelled⟩ := ht.exists_spelled hs hwild
  obtain ⟨c, rest, htext, hc⟩ := hspelled.exists_cons
  obtain ⟨rest', htext'⟩ := text_of_isWildcard (s := s) hu
  intro heq
  rw [htext, htext', List.cons_append, List.cons_append, List.cons.injEq] at heq
  rw [heq.1] at hc
  cases hc

theorem ReadsAsType.readsBack (ht : s.Legible position t) (hwild : t.isWildcard = false)
    (h : s.ReadsAsType t) : s.ReadsBack t := by
  intro u k l hu hk hl heq
  by_cases hwild' : u.isWildcard
  · exact absurd heq (text_append_ne hs ht hwild hwild')
  · obtain ⟨name, args, n, hspelled⟩ := hu.exists_spelled hs (by simpa using hwild')
    rw [hspelled.text_eq, List.append_assoc, List.append_assoc] at heq
    rw [hspelled.eq_arrayOf]
    exact h 0 name args n k l hspelled.isWord hspelled.legible hk hl heq

theorem readsBack_any : s.ReadsBack .any := by
  intro u k l hu hk hl heq
  by_cases hwild : u.isWildcard
  · by_cases hany : u = .any
    · subst hany
      exact ⟨rfl, List.append_cancel_left heq⟩
    · exact absurd heq (text_any_append_ne hk hwild hany)
  · exact absurd heq.symm (text_append_ne hs hu (by simpa using hwild) rfl)

theorem ReadsBack.ext (h : s.ReadsBack t) : s.ReadsBack (.ext t) := by
  intro u k l hu hk hl heq
  by_cases hwild : u.isWildcard = false
  · exact absurd heq.symm (text_append_ne hs hu hwild rfl)
  cases hu with
  | any => exact absurd heq.symm (text_any_append_ne hl rfl (by simp))
  | @ext upper hupper =>
      have hrest : s.text t ++ k = s.text upper ++ l := by simpa [text_ext] using heq
      obtain ⟨rfl, hkl⟩ := h upper k l hupper.argument hk hl hrest
      exact ⟨rfl, hkl⟩
  | sup _ => exact absurd heq text_ext_append_ne
  | _ => exact absurd rfl hwild

theorem ReadsBack.sup (h : s.ReadsBack t) : s.ReadsBack (.sup t) := by
  intro u k l hu hk hl heq
  by_cases hwild : u.isWildcard = false
  · exact absurd heq.symm (text_append_ne hs hu hwild rfl)
  cases hu with
  | any => exact absurd heq.symm (text_any_append_ne hl rfl (by simp))
  | ext _ => exact absurd heq.symm text_ext_append_ne
  | @sup lower hlower =>
      have hrest : s.text t ++ k = s.text lower ++ l := by simpa [text_sup] using heq
      obtain ⟨rfl, hkl⟩ := h lower k l hlower.argument hk hl hrest
      exact ⟨rfl, hkl⟩
  | _ => exact absurd rfl hwild

/-- The induction over the type, which also takes further array layers around it into account. -/
theorem Legible.readsBack (h : s.Legible position t) : s.ReadsBack t := by
  suffices hboth : (t.isWildcard = false → s.ReadsAsType t) ∧ s.ReadsBack t from hboth.2
  have htype : ∀ {t}, s.Legible .argument t → t.isWildcard = false → s.ReadsAsType t →
      (t.isWildcard = false → s.ReadsAsType t) ∧ s.ReadsBack t :=
    fun hlegible hwild hread => ⟨fun _ => hread, hread.readsBack hs hlegible hwild⟩
  induction h with
  | void =>
      have hread : s.ReadsAsType .void := spelled_void.readsAsType hs (by simp)
      exact htype .void rfl hread
  | @primitive _ p =>
      have hread : s.ReadsAsType (.primitive p) := (spelled_primitive p).readsAsType hs (by simp)
      exact htype .primitive rfl hread
  | @cls _ id name args hid hname hargs ih =>
      have hread : s.ReadsAsType (.cls id args) :=
        (spelled_cls hs hid hname hargs).readsAsType hs fun a ha => (ih a ha).2
      exact htype (.cls hid hname hargs) rfl hread
  | @arr _ elem helem ih =>
      have hread : s.ReadsAsType (.arr elem) := by
        intro m name args n k l hword hargs hk hl heq
        -- The other type need not be an array type as it stands: its layers are counted separately,
        -- so this one goes to the layers around the element type.
        have helemRead := ih.1 (helem.isWildcard (by decide))
        apply helemRead (m + 1) name args n k l hword hargs hk hl
        rw [brackets_succ, ← heq, text_arr]
        simp
      exact htype (.arr helem) rfl hread
  | any => exact ⟨nofun, readsBack_any hs⟩
  | ext _ ih => exact ⟨nofun, ih.2.ext hs⟩
  | sup _ ih => exact ⟨nofun, ih.2.sup hs⟩

theorem eq_of_text_eq {position' : RefPosition} (ht : s.Legible position t)
    (hu : s.Legible position' u) (h : s.text t = s.text u) : t = u := by
  have hnil : Stops [] := fun c hc => nomatch hc
  have hread := ht.readsBack hs u [] [] hu.argument hnil hnil (by rw [h])
  exact hread.1

end DistinctNames

end Store

end CallCatalog
