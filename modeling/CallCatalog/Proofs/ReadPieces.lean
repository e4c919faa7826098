import CallCatalog.Json.Read
import CallCatalog.Json.Write
import Mathlib.Tactic.SplitIfs

namespace CallCatalog.Json

/-- The symbols are blanks, and may stand between any two pieces of a document. -/
def Blanks (gap : Symbols) : Prop := ∀ x ∈ gap, Reader.isBlank x = true

def quotedSymbols (s : String) : Symbols :=
  some '"' :: ((s.toList.flatMap escapeChar).map some ++ [some '"'])

namespace Reader

variable {α β : Type} {gap text rest : Symbols} {x : Option Char}

theorem bind_eq {r : Reader α} {a : α} (h : r text = .ok (a, rest)) (f : α → Reader β) :
    (r >>= f) text = f a rest := by
  change (r text >>= fun p => f p.1 p.2) = f a rest
  rw [h]
  rfl

theorem map_eq {r : Reader α} {a : α} (h : r text = .ok (a, rest)) (f : α → β) :
    (f <$> r) text = .ok (f a, rest) := by
  change (r text >>= fun p => pure (f p.1, p.2)) = _
  rw [h]
  rfl

theorem peek_eq : peek (x :: rest) = .ok (some x, x :: rest) := rfl

theorem drop_eq : drop (x :: rest) = .ok ((), rest) := rfl

theorem next_eq (hgap : Blanks gap) (hx : isBlank x = false) :
    next (gap ++ x :: rest) = .ok (some x, x :: rest) := by
  have hdrop : (gap ++ x :: rest).dropWhile isBlank = x :: rest := by
    rw [List.dropWhile_append_of_pos hgap]
    simp [hx]
  have hblanks : blanks (gap ++ x :: rest) = .ok ((), x :: rest) :=
    congrArg (fun t => Except.ok ((), t)) hdrop
  rw [next, bind_eq hblanks]
  rfl

theorem word_eq (cs : List Char) : word cs (cs.map some ++ rest) = .ok ((), rest) := by
  induction cs with
  | nil => rfl
  | cons c cs ih =>
      rw [word, List.map_cons, List.cons_append, bind_eq peek_eq]
      simp only [↓reduceIte]
      exact ih

theorem hexValue?_hexDigit : ∀ n < 16, hexValue? (hexDigit n) = some n := by decide

theorem utf8Size_hexDigit : ∀ n < 16, (hexDigit n).utf8Size = 1 := by decide

theorem codeUnit_hexDigits {m n : Nat} (hm : m < 16) (hn : n < 16) :
    codeUnit (['0', '0', hexDigit m, hexDigit n].map some ++ rest) = .ok (m * 16 + n, rest) := by
  have hzero : hexValue? '0' = some 0 := by decide
  have hsize : '0'.utf8Size = 1 := by decide
  have hbytes : byteCount (['0', '0', hexDigit m, hexDigit n].map some) = 4 := by
    simp [byteCount, symbolBytes, hsize, utf8Size_hexDigit m hm, utf8Size_hexDigit n hn]
  simp only [List.map_cons, List.map_nil, List.cons_append, List.nil_append] at hbytes ⊢
  simp [codeUnit, hbytes, hzero, hexValue?_hexDigit m hm, hexValue?_hexDigit n hn]

theorem unicodeEscape_hexDigits {n : Nat} (hn : n < 32) :
    unicodeEscape (['0', '0', hexDigit (n / 16), hexDigit (n % 16)].map some ++ rest) =
      .ok (Char.ofNat n, rest) := by
  have hvalue : n / 16 * 16 + n % 16 = n := by omega
  have hunit : codeUnit (['0', '0', hexDigit (n / 16), hexDigit (n % 16)].map some ++ rest) =
      .ok (n, rest) := by
    rw [codeUnit_hexDigits (by omega) (by omega), hvalue]
  rw [unicodeEscape, bind_eq hunit]
  have htrailing : isTrailing n = false := by
    simp only [isTrailing, Bool.and_eq_false_iff, decide_eq_false_iff_not]
    omega
  have hleading : isLeading n = false := by
    simp only [isLeading, Bool.and_eq_false_iff, decide_eq_false_iff_not]
    omega
  simp only [htrailing, hleading, Bool.false_eq_true, ↓reduceIte]
  rfl

theorem quotedRest_backslash {c : Char} {piece : Symbols}
    (h : escape (piece ++ rest) = .ok (c, rest)) (clock : Symbols) (acc : List Char) :
    quotedRest (x :: clock) acc false (some '\\' :: piece ++ rest) =
      quotedRest clock (c :: acc) false rest := by
  rw [quotedRest, List.cons_append, bind_eq peek_eq]
  have hcontrol : isControl (some '\\') = false := by decide
  simp only [hcontrol, Bool.false_eq_true, ↓reduceIte]
  rw [bind_eq drop_eq]
  exact bind_eq h _

theorem quotedRest_plain {c : Char} (hcontrol : ¬ c.toNat < 32) (hquote : c ≠ '"')
    (hbackslash : c ≠ '\\') (clock : Symbols) (acc : List Char) :
    quotedRest (x :: clock) acc false (some c :: rest) =
      quotedRest clock (c :: acc) false rest := by
  have hplain : isControl (some c) = false := by simpa [isControl] using hcontrol
  rw [quotedRest, bind_eq peek_eq]
  simp only [hplain, Bool.false_eq_true, ↓reduceIte, Option.some.injEq, hquote, hbackslash]
  rfl

theorem escape_hexDigits {c : Char} (hc : c.toNat < 32) :
    escape (['u', '0', '0', hexDigit (c.toNat / 16), hexDigit (c.toNat % 16)].map some ++ rest) =
      .ok (c, rest) := by
  have h : unicodeEscape _ = .ok (_, rest) := unicodeEscape_hexDigits hc
  rwa [Char.ofNat_toNat] at h

theorem quotedRest_escapeChar (c : Char) (clock : Symbols) (acc : List Char) :
    quotedRest (x :: clock) acc false ((escapeChar c).map some ++ rest) =
      quotedRest clock (c :: acc) false rest := by
  have hsimple (d : Char) (h : escape ([some d] ++ rest) = .ok (c, rest)) :
      quotedRest (x :: clock) acc false ([some '\\', some d] ++ rest) =
        quotedRest clock (c :: acc) false rest :=
    quotedRest_backslash h clock acc
  unfold escapeChar
  split_ifs with hquote hbackslash hline hreturn htab hback hfeed hcontrol
  · exact hsimple '"' (by rw [hquote]; rfl)
  · exact hsimple '\\' (by rw [hbackslash]; rfl)
  · exact hsimple 'n' (by rw [hline]; rfl)
  · exact hsimple 'r' (by rw [hreturn]; rfl)
  · exact hsimple 't' (by rw [htab]; rfl)
  · have hc : c = '\x08' := by rw [← Char.ofNat_toNat c, hback]
    exact hsimple 'b' (by rw [hc]; rfl)
  · have hc : c = '\x0c' := by rw [← Char.ofNat_toNat c, hfeed]
    exact hsimple 'f' (by rw [hc]; rfl)
  · exact quotedRest_backslash (escape_hexDigits hcontrol) clock acc
  · exact quotedRest_plain hcontrol hquote hbackslash clock acc

theorem quotedRest_eq (cs : List Char) {clock : Symbols} (hclock : cs.length < clock.length)
    (acc : List Char) :
    quotedRest clock acc false ((cs.flatMap escapeChar).map some ++ some '"' :: rest) =
      .ok (String.ofList (acc.reverse ++ cs), rest) := by
  induction cs generalizing clock acc with
  | nil =>
      obtain ⟨_, clock, rfl⟩ := List.exists_cons_of_length_pos hclock
      rw [List.append_nil]
      rfl
  | cons c cs ih =>
      obtain ⟨x, clock, rfl⟩ := List.exists_cons_of_length_pos (Nat.zero_lt_of_lt hclock)
      rw [List.flatMap_cons, List.map_append, List.append_assoc, quotedRest_escapeChar,
        ih (Nat.lt_of_succ_lt_succ hclock)]
      simp

theorem length_le_length_flatMap_escapeChar (cs : List Char) :
    cs.length ≤ (cs.flatMap escapeChar).length := by
  induction cs with
  | nil => simp
  | cons c cs ih =>
      have hpos : 0 < (escapeChar c).length := by
        unfold escapeChar
        split_ifs <;> simp
      simp only [List.flatMap_cons, List.length_append, List.length_cons]
      omega

theorem quoted_eq (s : String) :
    quoted ((s.toList.flatMap escapeChar).map some ++ some '"' :: rest) = .ok (s, rest) := by
  have hclock := length_le_length_flatMap_escapeChar s.toList
  rw [quoted, bind_eq (r := get) rfl, quotedRest_eq _ _ []]
  · simp
  · simp only [List.length_append, List.length_map, List.length_cons]
    omega

variable {piece : Symbols}

/-- What stands before an item or a member: a comma unless it is the first one, and blanks. -/
def lead (first : Bool) (gap : Symbols) : Symbols := if first then gap else some ',' :: gap

/-- The symbols begin as a value does, with neither a blank nor the closing bracket of an array. -/
def BeginsValue (piece : Symbols) : Prop :=
  ∃ c after, piece = some c :: after ∧ isBlank (some c) = false ∧ c ≠ ']'

theorem anotherItem_close (hgap : Blanks gap) (first : Bool) :
    anotherItem first (gap ++ some ']' :: rest) = .ok (false, some ']' :: rest) := by
  rw [anotherItem, bind_eq (next_eq hgap (by decide))]
  rfl

theorem anotherItem_lead (hgap : Blanks gap) (hpiece : BeginsValue piece) (first : Bool) :
    anotherItem first (lead first gap ++ piece ++ rest) = .ok (true, piece ++ rest) := by
  obtain ⟨c, after, rfl, hblank, hclose⟩ := hpiece
  have hnext : next _ = .ok (_, some c :: (after ++ rest)) := next_eq hgap hblank
  rw [List.append_assoc, List.cons_append]
  cases first with
  | true =>
      change anotherItem true (gap ++ some c :: (after ++ rest)) = _
      rw [anotherItem, bind_eq hnext]
      simp only [Option.some.injEq, hclose, imp_self, ↓reduceIte]
      rfl
  | false =>
      change anotherItem false ([] ++ some ',' :: (gap ++ some c :: (after ++ rest))) = _
      rw [anotherItem, bind_eq (next_eq (by simp [Blanks]) (by decide))]
      simp only [Option.some.injEq, Char.reduceEq, imp_self, Bool.false_eq_true, ↓reduceIte]
      rw [bind_eq drop_eq, bind_eq hnext]
      simp only [Option.some.injEq, hclose, imp_self]
      rfl

theorem anotherName_close (hgap : Blanks gap) (first : Bool) :
    anotherName first (gap ++ some '\x7d' :: rest) = .ok (none, some '\x7d' :: rest) := by
  rw [anotherName, bind_eq (next_eq hgap (by decide))]
  rfl

theorem anotherName_lead (hgap : Blanks gap) (name : String) (first : Bool) :
    anotherName first (lead first gap ++ quotedSymbols name ++ rest) = .ok (some name, rest) := by
  have hquoted : (some <$> quoted) ((name.toList.flatMap escapeChar).map some ++ some '"' :: rest) =
      .ok (some name, rest) := map_eq (quoted_eq name) some
  rw [List.append_assoc, quotedSymbols, List.cons_append, List.append_assoc, List.singleton_append]
  cases first with
  | true =>
      rw [lead, if_pos rfl, anotherName, bind_eq (next_eq hgap (by decide))]
      exact hquoted
  | false =>
      change anotherName false ([] ++ some ',' :: (gap ++ some '"' :: _)) = _
      rw [anotherName, bind_eq (next_eq (by simp [Blanks]) (by decide))]
      simp only [Option.some.injEq, Char.reduceEq, imp_self, Bool.false_eq_true, ↓reduceIte]
      rw [bind_eq drop_eq, bind_eq (next_eq (x := some '"') hgap (by decide))]
      exact hquoted

theorem colon_eq : colon (some ':' :: rest) = .ok ((), rest) := rfl

theorem closeArray_eq : closeArray (some ']' :: rest) = .ok ((), rest) := rfl

theorem closeObject_eq : closeObject (some '\x7d' :: rest) = .ok ((), rest) := rfl

end Reader

end CallCatalog.Json
