import CallCatalog.Json.Record
import CallCatalog.Proofs.WrittenDocuments

/-!
Reading written documents back. A reader reads a value back from a document if it finds the value
in every text of the document, in any layout and at any level, as long as no more brackets are open
than the reader may have open.

Lists, optional values and records are read back if their parts are.
-/

namespace CallCatalog.Json

/-- The reader finds the value in the piece, after any blanks and before anything. -/
structure Reads {α : Type} (r : Reader α) (piece : Symbols) (a : α) : Prop where
  begins : Reader.BeginsValue piece
  read : ∀ gap rest, Blanks gap → r (gap ++ piece ++ rest) = .ok (a, rest)

theorem Reads.read_append {α : Type} {r : Reader α} {piece : Symbols} {a : α}
    (h : Reads r piece a) (rest : Symbols) : r (piece ++ rest) = .ok (a, rest) :=
  h.read [] rest (by simp [Blanks])

theorem Reads.map {α β : Type} {r : Reader α} {piece : Symbols} {a : α} (h : Reads r piece a)
    (f : α → β) : Reads (f <$> r) piece (f a) where
  begins := h.begins
  read gap rest hgap := Reader.map_eq (h.read gap rest hgap) f

namespace Reader

variable {α : Type} {gap piece rest : Symbols} {x : Option Char}

theorem firstOfValue_eq (hgap : Blanks gap) (hx : isBlank x = false) :
    firstOfValue (gap ++ x :: rest) = .ok (x, x :: rest) := by
  rw [firstOfValue, bind_eq (next_eq hgap hx)]
  rfl

theorem placed_eq {r : Reader α} {text : Symbols} {a : α} (h : r text = .ok (a, rest))
    (passOver : Symbols → Symbols) : placed passOver r text = .ok (a, rest) := by
  rw [placed, h]

theorem quotedSymbols_append (s : String) : quotedSymbols s ++ rest =
    some '"' :: ((s.toList.flatMap escapeChar).map some ++ some '"' :: rest) := by
  simp [quotedSymbols]

theorem reads_string (s : String) : Reads string (quotedSymbols s) s where
  begins := ⟨'"', _, rfl, by decide, by decide⟩
  read gap rest hgap := by
    rw [List.append_assoc, quotedSymbols_append, string,
      bind_eq (firstOfValue_eq hgap (by decide)), if_pos rfl, bind_eq drop_eq]
    exact quoted_eq s

theorem reads_true : Reads boolean (symbolsOfString "true") true where
  begins := ⟨'t', _, rfl, by decide, by decide⟩
  read gap rest hgap := by
    change boolean (gap ++ some 't' :: (['r', 'u', 'e'].map some) ++ rest) = _
    rw [List.append_assoc, List.cons_append, boolean,
      bind_eq (firstOfValue_eq hgap (by decide)), if_pos rfl, bind_eq drop_eq, bind_eq (word_eq _)]
    rfl

theorem reads_false : Reads boolean (symbolsOfString "false") false where
  begins := ⟨'f', _, rfl, by decide, by decide⟩
  read gap rest hgap := by
    change boolean (gap ++ some 'f' :: (['a', 'l', 's', 'e'].map some) ++ rest) = _
    rw [List.append_assoc, List.cons_append, boolean,
      bind_eq (firstOfValue_eq hgap (by decide)), if_neg (by decide), if_pos rfl, bind_eq drop_eq,
      bind_eq (word_eq _)]
    rfl

theorem reads_optional_none (inner : Reader α) :
    Reads (optional inner) (symbolsOfString "null") none where
  begins := ⟨'n', _, rfl, by decide, by decide⟩
  read gap rest hgap := by
    change optional inner (gap ++ some 'n' :: (['u', 'l', 'l'].map some) ++ rest) = _
    rw [List.append_assoc, List.cons_append, optional, bind_eq (next_eq hgap (by decide))]
    change (drop >>= _) _ = _
    rw [bind_eq drop_eq, bind_eq (word_eq _)]
    rfl

theorem reads_optional_some {inner : Reader α} {a : α} (h : Reads inner piece a)
    (hpiece : piece.head? ≠ some (some 'n')) : Reads (optional inner) piece (some a) where
  begins := h.begins
  read gap rest hgap := by
    obtain ⟨c, after, rfl, hblank, -⟩ := h.begins
    have hc : c ≠ 'n' := by simpa using hpiece
    have hinner : inner (some c :: (after ++ rest)) = .ok (a, rest) := h.read_append rest
    rw [List.append_assoc, List.cons_append, Reader.optional, bind_eq (next_eq hgap hblank)]
    simp only [Option.some.injEq, hc, imp_self]
    exact map_eq hinner some

variable {l : Layout}

theorem length_le_length_separated (level : Nat) (first : Bool) {pieces : List Symbols}
    (h : ∀ piece ∈ pieces, 0 < piece.length) :
    pieces.length ≤ (l.separated level first pieces).length := by
  induction pieces generalizing first with
  | nil => simp
  | cons piece pieces ih =>
      obtain ⟨hpiece, hpieces⟩ := List.forall_mem_cons.mp h
      have hrest := ih false hpieces
      simp only [Layout.separated, List.length_append, List.length_cons]
      omega

theorem length_lt_length_separated (level : Nat) {pieces : List Symbols}
    (h : ∀ piece ∈ pieces, 0 < piece.length) :
    pieces.length < (l.separated level true pieces ++ gap ++ x :: rest).length := by
  have hle := length_le_length_separated (l := l) level true h
  simp only [List.length_append, List.length_cons]
  omega

theorem separated_cons_append (level : Nat) (first : Bool) (pieces : List Symbols) :
    l.separated level first (piece :: pieces) ++ gap ++ rest =
      lead first (l.line level) ++ piece ++ (l.separated level false pieces ++ gap ++ rest) := by
  simp [Layout.separated]

theorem separated_member_append (level : Nat) (first : Bool) (name : String) (value : Symbols)
    (pieces : List Symbols) :
    l.separated level first (l.member name value :: pieces) ++ gap ++ rest =
      lead first (l.line level) ++ quotedSymbols name ++
        some ':' :: (l.gap ++ value ++ (l.separated level false pieces ++ gap ++ rest)) := by
  simp [Layout.separated, Layout.member]

theorem itemsRest_eq {item : Reader α} {write : α → Symbols} {as : List α}
    (h : ∀ a ∈ as, Reads item (write a) a) {clock : Symbols} (hclock : as.length < clock.length)
    (level : Nat) (first : Bool) (acc : List α) (hgap : Blanks gap) :
    itemsRest item clock first acc
        (l.separated level first (as.map write) ++ gap ++ some ']' :: rest) =
      .ok (acc.reverse ++ as, some ']' :: rest) := by
  induction as generalizing clock first acc with
  | nil =>
      obtain ⟨_, clock, rfl⟩ := List.exists_cons_of_length_pos hclock
      rw [List.map_nil, Layout.separated, List.nil_append, itemsRest,
        bind_eq (anotherItem_close hgap first), List.append_nil]
      rfl
  | cons a as ih =>
      obtain ⟨_, clock, rfl⟩ := List.exists_cons_of_length_pos (Nat.zero_lt_of_lt hclock)
      obtain ⟨ha, has⟩ := List.forall_mem_cons.mp h
      rw [List.map_cons, separated_cons_append, itemsRest,
        bind_eq (anotherItem_lead (l.blanks_line level) ha.begins first), if_pos rfl,
        bind_eq (ha.read_append _), ih has (Nat.lt_of_succ_lt_succ hclock)]
      simp

theorem exists_bracketed_eq (level : Nat) (opening closing : Char) (pieces : List Symbols) :
    ∃ gap, Blanks gap ∧ ∀ rest, l.bracketed level opening closing pieces ++ rest =
      some opening :: (l.separated (level + 1) true pieces ++ gap ++ some closing :: rest) := by
  refine ⟨if pieces.isEmpty then [] else l.line level, ?_, fun rest => by simp [Layout.bracketed]⟩
  split
  · simp [Blanks]
  · exact l.blanks_line level

theorem length_pos_of_beginsValue (h : BeginsValue piece) : 0 < piece.length := by
  obtain ⟨c, after, rfl, -⟩ := h
  simp

theorem items_eq {item : Reader α} {write : α → Symbols} {as : List α}
    (h : ∀ a ∈ as, Reads item (write a) a) (level : Nat) (hgap : Blanks gap) :
    items item (l.separated level true (as.map write) ++ gap ++ some ']' :: rest) =
      .ok (as, some ']' :: rest) := by
  have hpieces : ∀ piece ∈ as.map write, 0 < piece.length := by
    rintro piece hpiece
    obtain ⟨a, ha, rfl⟩ := List.mem_map.mp hpiece
    exact length_pos_of_beginsValue (h a ha).begins
  have hclock : as.length <
      (l.separated level true (as.map write) ++ gap ++ some ']' :: rest).length := by
    simpa only [List.length_map] using length_lt_length_separated level hpieces
  rw [items, bind_eq (r := get) rfl, itemsRest_eq h hclock level true [] hgap]
  rfl

theorem reads_list {item : (depth : Nat) → Reader α} {depth : Nat} {write : α → Symbols}
    {as : List α} (h : ∀ a ∈ as, Reads (item depth) (write a) a) (level : Nat) :
    Reads (list item (depth + 1)) (l.bracketed level '[' ']' (as.map write)) as where
  begins := ⟨'[', _, rfl, by decide, by decide⟩
  read gap rest hgap := by
    obtain ⟨closingGap, hclosing, hpiece⟩ :=
      exists_bracketed_eq (l := l) level '[' ']' (as.map write)
    have hitems : items (item depth) _ = .ok (as, some ']' :: rest) :=
      items_eq (l := l) h (level + 1) hclosing
    rw [List.append_assoc, hpiece, list, bind_eq (firstOfValue_eq hgap (by decide)), if_pos rfl,
      openBracket, if_neg (Nat.succ_ne_zero depth), bind_eq drop_eq, Nat.add_sub_cancel,
      bind_eq (placed_eq hitems _), bind_eq closeArray_eq]
    rfl

theorem length_lt_length_memberTexts (level : Nat) (members : List (String × Json)) :
    members.length <
      (l.separated level true (l.memberTexts level members) ++ gap ++ x :: rest).length := by
  have hpieces : ∀ piece ∈ l.memberTexts level members, 0 < piece.length := by
    rw [Layout.memberTexts_eq_map]
    rintro piece hpiece
    obtain ⟨m, -, rfl⟩ := List.mem_map.mp hpiece
    simp [Layout.member, quotedSymbols]
  have hlength : (l.memberTexts level members).length = members.length := by
    rw [Layout.memberTexts_eq_map, List.length_map]
  exact hlength ▸ length_lt_length_separated level hpieces

theorem membersRest_eq {value : Reader Json} {members : List (String × Json)} {level : Nat}
    (h : ∀ m ∈ members, Reads value (l.text level m.2) m.2) {clock : Symbols}
    (hclock : members.length < clock.length) (first : Bool) (acc : List (String × Json))
    (hgap : Blanks gap) :
    membersRest value clock first acc
        (l.separated level first (l.memberTexts level members) ++ gap ++ some '\x7d' :: rest) =
      .ok (acc.reverse ++ members, some '\x7d' :: rest) := by
  induction members generalizing clock first acc with
  | nil =>
      obtain ⟨_, clock, rfl⟩ := List.exists_cons_of_length_pos hclock
      rw [Layout.memberTexts, Layout.separated, List.nil_append, membersRest,
        bind_eq (anotherName_close hgap first), List.append_nil]
      rfl
  | cons m members ih =>
      obtain ⟨_, clock, rfl⟩ := List.exists_cons_of_length_pos (Nat.zero_lt_of_lt hclock)
      obtain ⟨hm, hmembers⟩ := List.forall_mem_cons.mp h
      rw [Layout.memberTexts, separated_member_append, membersRest,
        bind_eq (anotherName_lead (l.blanks_line level) m.1 first)]
      change (colon >>= _) _ = _
      rw [bind_eq colon_eq, bind_eq (hm.read _ _ l.blanks_gap),
        ih hmembers (Nat.lt_of_succ_lt_succ hclock)]
      simp

theorem members_eq {value : Reader Json} {ms : List (String × Json)} {level : Nat}
    (h : ∀ m ∈ ms, Reads value (l.text level m.2) m.2) (hgap : Blanks gap) :
    members value (l.separated level true (l.memberTexts level ms) ++ gap ++
      some '\x7d' :: rest) = .ok (ms, some '\x7d' :: rest) := by
  rw [members, bind_eq (r := get) rfl,
    membersRest_eq h (length_lt_length_memberTexts level ms) true [] hgap]
  rfl

end Reader

mutual

/-- How many brackets of the text of a document are open at one time, at most. -/
def depth : Json → Nat
  | .array items => depths items + 1
  | .object members => memberDepths members + 1
  | _ => 0

def depths : List Json → Nat
  | [] => 0
  | item :: items => max item.depth (depths items)

def memberDepths : List (String × Json) → Nat
  | [] => 0
  | (_, value) :: members => max value.depth (memberDepths members)

end

mutual

def NumberFree : Json → Prop
  | .number _ => False
  | .array items => NumbersFree items
  | .object members => MembersNumberFree members
  | _ => True

def NumbersFree : List Json → Prop
  | [] => True
  | item :: items => item.NumberFree ∧ NumbersFree items

/-- `NumberFree` for each of the values of the members. -/
def MembersNumberFree : List (String × Json) → Prop
  | [] => True
  | (_, value) :: members => value.NumberFree ∧ MembersNumberFree members

end

theorem depths_le_iff {items : List Json} {n : Nat} :
    depths items ≤ n ↔ ∀ j ∈ items, j.depth ≤ n := by
  induction items with
  | nil => simp [depths]
  | cons item items ih => rw [depths, Nat.max_le, ih, List.forall_mem_cons]

namespace Reader

variable {gap piece rest : Symbols} {l : Layout}

theorem valueWith_scalar {inner : Option (Reader Json)} {c : Char} {after : Symbols} {j : Json}
    (hblank : isBlank (some c) = false) (harray : c ≠ '[') (hobject : c ≠ '\x7b') (hclose : c ≠ ']')
    (h : ∀ rest, scalar c (some c :: (after ++ rest)) = .ok (j, rest)) :
    Reads (valueWith inner) (some c :: after) j where
  begins := ⟨c, after, rfl, hblank, hclose⟩
  read gap rest hgap := by
    unfold valueWith
    rw [List.append_assoc, List.cons_append, bind_eq (next_eq hgap hblank)]
    simp only
    exact h rest

theorem valueWith_array {item : Reader Json} {items : List Json} (level : Nat)
    (h : ∀ j ∈ items, Reads item (l.text (level + 1) j) j) :
    Reads (valueWith (some item)) (l.text level (.array items)) (.array items) where
  begins := ⟨'[', _, rfl, by decide, by decide⟩
  read gap rest hgap := by
    obtain ⟨closingGap, hclosing, hpiece⟩ :=
      exists_bracketed_eq (l := l) level '[' ']' (items.map (l.text (level + 1)))
    have hitems : Reader.items item _ = .ok (items, some ']' :: rest) :=
      items_eq (l := l) h (level + 1) hclosing
    rw [Layout.text, Layout.texts_eq_map, List.append_assoc, hpiece, valueWith,
      bind_eq (next_eq hgap (by decide))]
    change (drop >>= _) _ = _
    rw [bind_eq drop_eq, bind_eq hitems, bind_eq closeArray_eq]
    rfl

theorem valueWith_object {member : Reader Json} {ms : List (String × Json)} (level : Nat)
    (h : ∀ m ∈ ms, Reads member (l.text (level + 1) m.2) m.2) :
    Reads (valueWith (some member)) (l.text level (.object ms)) (.object ms) where
  begins := ⟨'\x7b', _, rfl, by decide, by decide⟩
  read gap rest hgap := by
    obtain ⟨closingGap, hclosing, hpiece⟩ := exists_bracketed_eq (l := l) level '\x7b' '\x7d'
      (l.memberTexts (level + 1) ms)
    have hmembers : members member _ = .ok (ms, some '\x7d' :: rest) :=
      members_eq (l := l) h hclosing
    rw [Layout.text, List.append_assoc, hpiece, valueWith,
      bind_eq (next_eq hgap (by decide))]
    change (drop >>= _) _ = _
    rw [bind_eq drop_eq, bind_eq hmembers, bind_eq closeObject_eq]
    rfl

theorem valueWith_word {inner : Option (Reader Json)} {c : Char} {cs : List Char} {j : Json}
    (hblank : isBlank (some c) = false) (harray : c ≠ '[') (hobject : c ≠ '\x7b') (hclose : c ≠ ']')
    (hscalar : scalar c = do drop; word cs; pure j) :
    Reads (valueWith inner) ((c :: cs).map some) j := by
  refine valueWith_scalar hblank harray hobject hclose fun rest => ?_
  rw [hscalar, bind_eq drop_eq, bind_eq (word_eq cs)]
  rfl

theorem valueWith_null (inner : Option (Reader Json)) :
    Reads (valueWith inner) (symbolsOfString "null") .null := by
  change Reads _ (['n', 'u', 'l', 'l'].map some) _
  exact valueWith_word (by decide) (by decide) (by decide) (by decide) rfl

theorem valueWith_true (inner : Option (Reader Json)) :
    Reads (valueWith inner) (symbolsOfString "true") (.bool true) := by
  change Reads _ (['t', 'r', 'u', 'e'].map some) _
  exact valueWith_word (by decide) (by decide) (by decide) (by decide) rfl

theorem valueWith_false (inner : Option (Reader Json)) :
    Reads (valueWith inner) (symbolsOfString "false") (.bool false) := by
  change Reads _ (['f', 'a', 'l', 's', 'e'].map some) _
  exact valueWith_word (by decide) (by decide) (by decide) (by decide) rfl

theorem valueWith_string (inner : Option (Reader Json)) (s : String) :
    Reads (valueWith inner) (quotedSymbols s) (.string s) := by
  refine valueWith_scalar (c := '"') (by decide) (by decide) (by decide) (by decide) fun rest => ?_
  change (drop >>= _) (_ :: _) = _
  rw [bind_eq drop_eq, List.append_assoc, List.singleton_append]
  exact map_eq (quoted_eq s) Json.string

mutual

/-- A document without numbers is read as it stands. -/
theorem reads_value (level : Nat) : ∀ (j : Json) (depth : Nat), j.NumberFree → j.depth ≤ depth →
    Reads (value depth) (l.text level j) j
  | .null, 0, _, _ => valueWith_null none
  | .null, _ + 1, _, _ => valueWith_null _
  | .bool true, 0, _, _ => valueWith_true none
  | .bool true, _ + 1, _, _ => valueWith_true _
  | .bool false, 0, _, _ => valueWith_false none
  | .bool false, _ + 1, _, _ => valueWith_false _
  | .string s, 0, _, _ => valueWith_string none s
  | .string s, _ + 1, _, _ => valueWith_string _ s
  | .array items, depth + 1, hfree, hdepth =>
      valueWith_array level (reads_items _ items depth hfree (Nat.le_of_succ_le_succ hdepth))
  | .object members, depth + 1, hfree, hdepth =>
      valueWith_object level (reads_members _ members depth hfree (Nat.le_of_succ_le_succ hdepth))

theorem reads_items (level : Nat) : ∀ (items : List Json) (depth : Nat), NumbersFree items →
    depths items ≤ depth → ∀ j ∈ items, Reads (value depth) (l.text level j) j
  | [], _, _, _ => by simp
  | item :: items, depth, hfree, hdepth => by
      obtain ⟨hitem, hitems⟩ := Nat.max_le.mp hdepth
      rw [List.forall_mem_cons]
      exact ⟨reads_value level item depth hfree.1 hitem,
        reads_items level items depth hfree.2 hitems⟩

theorem reads_members (level : Nat) : ∀ (members : List (String × Json)) (depth : Nat),
    MembersNumberFree members → memberDepths members ≤ depth →
      ∀ m ∈ members, Reads (value depth) (l.text level m.2) m.2
  | [], _, _, _ => by simp
  | (_, j) :: members, depth, hfree, hdepth => by
      obtain ⟨hvalue, hmembers⟩ := Nat.max_le.mp hdepth
      rw [List.forall_mem_cons]
      exact ⟨reads_value level j depth hfree.1 hvalue,
        reads_members level members depth hfree.2 hmembers⟩

end

end Reader

/-- The reader finds the value in every text of the document. -/
def Layout.ReadsBack {α : Type} (l : Layout) (r : (depth : Nat) → Reader α) (j : Json) (a : α) :
    Prop :=
  ∀ depth level, j.depth ≤ depth → Reads (r depth) (l.text level j) a

/-- The members of an object, each with the field that it is the value of, take one record to
another. -/
inductive Layout.Fills {σ : Type} (l : Layout) :
    List (RecordField σ) → List (String × Json) → σ → σ → Prop
  | nil {record : σ} : l.Fills [] [] record record
  | cons {f : RecordField σ} {fields : List (RecordField σ)} {j : Json}
      {members : List (String × Json)} {store : σ → σ} {record final : σ}
      (hvalue : l.ReadsBack f.read j store) (hrest : l.Fills fields members (store record) final) :
      l.Fills (f :: fields) ((f.name, j) :: members) record final

namespace Layout.ReadsBack

variable {α σ : Type} {l : Layout}

theorem string (s : String) : l.ReadsBack (fun _ => Reader.string) (.string s) s :=
  fun _ _ _ => Reader.reads_string s

theorem bool (b : Bool) : l.ReadsBack (fun _ => Reader.boolean) (.bool b) b := by
  rintro depth level -
  cases b
  · exact Reader.reads_false
  · exact Reader.reads_true

theorem optional_none (r : (depth : Nat) → Reader α) :
    l.ReadsBack (fun depth => Reader.optional (r depth)) .null none :=
  fun depth _ _ => Reader.reads_optional_none (r depth)

theorem optional_some {r : (depth : Nat) → Reader α} {j : Json} {a : α} (h : l.ReadsBack r j a)
    (hj : ∀ level, (l.text level j).head? ≠ some (some 'n')) :
    l.ReadsBack (fun depth => Reader.optional (r depth)) j (some a) :=
  fun depth level hdepth => Reader.reads_optional_some (h depth level hdepth) (hj level)

theorem list {r : (depth : Nat) → Reader α} {toJson : α → Json} {as : List α}
    (h : ∀ a ∈ as, l.ReadsBack r (toJson a) a) :
    l.ReadsBack (Reader.list r) (.array (as.map toJson)) as := by
  rintro (_ | depth) level hdepth
  · exact absurd hdepth (Nat.not_succ_le_zero _)
  · have hitems := depths_le_iff.mp (Nat.le_of_succ_le_succ hdepth)
    rw [Layout.text, texts_eq_map, List.map_map]
    refine Reader.reads_list (fun a ha => h a ha depth (level + 1) ?_) level
    exact hitems (toJson a) (List.mem_map_of_mem ha)

theorem field {r : (depth : Nat) → Reader α} {j : Json} {a : α} (h : l.ReadsBack r j a)
    (name : String) (store : α → σ → σ) (isRequired : Bool) :
    l.ReadsBack (RecordField.of name r store isRequired).read j (store a) :=
  fun depth level hdepth => (h depth level hdepth).map store

end Layout.ReadsBack

section Records

variable {σ : Type} {shape : RecordShape σ} {l : Layout} {gap rest : Symbols}

theorem RecordShape.next_field {done fields : List (RecordField σ)} {f : RecordField σ}
    (hfields : shape.fields = done ++ f :: fields)
    (hnames : (shape.fields.map RecordField.name).Nodup) :
    (shape.fields.find? fun g => g.name == f.name) = some f ∧
      (done.map RecordField.name).reverse.contains f.name = false := by
  have hnew : f.name ∉ done.map RecordField.name := by
    rw [hfields, List.map_append, List.map_cons, List.nodup_append] at hnames
    exact fun hmem => hnames.2.2 _ hmem _ (List.mem_cons_self ..) rfl
  have hdone : (done.find? fun g => g.name == f.name) = none := by
    rw [List.find?_eq_none]
    intro g hg hname
    exact hnew (List.mem_map.mpr ⟨g, hg, by simpa using hname⟩)
  constructor
  · rw [hfields, List.find?_append, hdone]
    simp
  · simpa using hnew

theorem RecordShape.no_field_missing :
    (shape.fields.find? fun f => f.isRequired &&
      !((shape.fields.map RecordField.name).reverse).contains f.name) = none := by
  rw [List.find?_eq_none]
  intro f hf
  have hmem : f.name ∈ shape.fields.map RecordField.name := List.mem_map_of_mem hf
  simp [hmem]

theorem RecordShape.members_eq {depth : Nat} {done fields : List (RecordField σ)}
    {members : List (String × Json)} {record final : σ} (h : l.Fills fields members record final)
    (hfields : shape.fields = done ++ fields) (hnames : (shape.fields.map RecordField.name).Nodup)
    (hdepth : memberDepths members ≤ depth) {clock : Symbols}
    (hclock : members.length < clock.length) (level : Nat) (first : Bool) (hgap : Blanks gap) :
    shape.members depth clock first (done.map RecordField.name).reverse record
        (l.separated level first (l.memberTexts level members) ++ gap ++ some '\x7d' :: rest) =
      .ok (final, some '\x7d' :: rest) := by
  induction h generalizing done clock first with
  | nil =>
      obtain ⟨_, clock, rfl⟩ := List.exists_cons_of_length_pos hclock
      rw [List.append_nil] at hfields
      have hmissing := @RecordShape.no_field_missing σ shape
      rw [Layout.memberTexts, Layout.separated, List.nil_append, RecordShape.members,
        Reader.bind_eq (Reader.anotherName_close hgap first)]
      simp only [← hfields, hmissing]
      rfl
  | cons hvalue hrest ih =>
      rename_i f fields j members store record final
      obtain ⟨_, clock, rfl⟩ := List.exists_cons_of_length_pos (Nat.zero_lt_of_lt hclock)
      obtain ⟨hj, hmembers⟩ := Nat.max_le.mp hdepth
      obtain ⟨hfind, hseen⟩ := RecordShape.next_field hfields hnames
      have hsplit : shape.fields = (done ++ [f]) ++ fields := by simpa using hfields
      have hnext := ih hsplit hmembers (Nat.lt_of_succ_lt_succ hclock) false
      rw [List.map_append, List.reverse_append] at hnext
      rw [Layout.memberTexts, Reader.separated_member_append, RecordShape.members,
        Reader.bind_eq (Reader.anotherName_lead (l.blanks_line level) f.name first)]
      simp only [hfind, hseen, Bool.false_eq_true, ↓reduceIte]
      rw [Reader.bind_eq Reader.colon_eq,
        Reader.bind_eq ((hvalue depth level hj).read _ _ l.blanks_gap)]
      exact hnext

theorem RecordShape.members_start_eq {depth : Nat} {members : List (String × Json)} {record : σ}
    (h : l.Fills shape.fields members shape.start record)
    (hnames : (shape.fields.map RecordField.name).Nodup) (hdepth : memberDepths members ≤ depth)
    (level : Nat) (hgap : Blanks gap) :
    (do shape.members depth (← get) true [] shape.start : Reader σ)
        (l.separated level true (l.memberTexts level members) ++ gap ++ some '\x7d' :: rest) =
      .ok (record, some '\x7d' :: rest) := by
  have hfields : shape.fields = [] ++ shape.fields := rfl
  rw [Reader.bind_eq (r := get) rfl]
  exact RecordShape.members_eq h hfields hnames hdepth
    (Reader.length_lt_length_memberTexts level members) level true hgap

/-- A record is read back if its members are those of its fields and bring it about. -/
theorem Layout.ReadsBack.record {members : List (String × Json)} {record : σ}
    (h : l.Fills shape.fields members shape.start record)
    (hnames : (shape.fields.map RecordField.name).Nodup) :
    l.ReadsBack shape.read (.object members) record := by
  rintro (_ | depth) level hdepth
  · exact absurd hdepth (Nat.not_succ_le_zero _)
  · refine ⟨⟨'\x7b', _, rfl, by decide, by decide⟩, fun gap rest hgap => ?_⟩
    obtain ⟨closingGap, hclosing, hpiece⟩ := Reader.exists_bracketed_eq (l := l) level
      '\x7b' '\x7d' (l.memberTexts (level + 1) members)
    rw [Layout.text, List.append_assoc, hpiece, RecordShape.read,
      Reader.bind_eq (Reader.firstOfValue_eq hgap (by decide))]
    simp only [Reader.openBracket, if_neg (Nat.succ_ne_zero depth), Nat.add_sub_cancel]
    rw [Reader.bind_eq Reader.drop_eq, Reader.bind_eq (Reader.placed_eq ?_ _)]
    · rw [Reader.bind_eq Reader.closeObject_eq]
      rfl
    · exact RecordShape.members_start_eq h hnames (Nat.le_of_succ_le_succ hdepth) (level + 1)
        hclosing

end Records

end CallCatalog.Json
