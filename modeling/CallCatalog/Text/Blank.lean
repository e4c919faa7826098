namespace CallCatalog.Blank

/-- The characters with the Unicode property `White_Space`: first and last of each range. -/
def ranges : List (Nat × Nat) := [
  (0x0009, 0x000D), (0x0020, 0x0020), (0x0085, 0x0085), (0x00A0, 0x00A0), (0x1680, 0x1680),
  (0x2000, 0x200A), (0x2028, 0x2029), (0x202F, 0x202F), (0x205F, 0x205F), (0x3000, 0x3000)]

def isBlank (c : Char) : Bool := ranges.any fun r => r.1 ≤ c.toNat && c.toNat ≤ r.2

def trimStart (text : List Char) : List Char := text.dropWhile isBlank

def trimEnd (text : List Char) : List Char := (text.reverse.dropWhile isBlank).reverse

def trim (text : List Char) : List Char := trimEnd (trimStart text)

theorem trimStart_append {blanks : List Char} (h : blanks.all isBlank) (text : List Char) :
    trimStart (blanks ++ text) = trimStart text :=
  List.dropWhile_append_of_pos (List.all_eq_true.1 h)

theorem trimEnd_append {blanks : List Char} (h : blanks.all isBlank) (text : List Char) :
    trimEnd (text ++ blanks) = trimEnd text := by
  rw [trimEnd, List.reverse_append, List.dropWhile_append_of_pos, trimEnd]
  simpa using h

theorem trimStart_and_trimEnd {text : List Char} (h : trim text = text) :
    trimStart text = text ∧ trimEnd text = text := by
  have hsuffix : trimStart text <:+ text := List.dropWhile_suffix _
  have hlength : (trim text).length ≤ (trimStart text).length := by
    rw [trim, trimEnd, List.length_reverse]
    exact Nat.le_trans (List.dropWhile_suffix isBlank).length_le (Nat.le_of_eq List.length_reverse)
  rw [h] at hlength
  have hstart := hsuffix.eq_of_length_le hlength
  rw [trim, hstart] at h
  exact ⟨hstart, h⟩

theorem isBlank_of_trimStart_cons {c : Char} {cs : List Char} (h : trimStart (c :: cs) = c :: cs) :
    isBlank c = false := by
  cases hc : isBlank c with
  | false => rfl
  | true =>
    have hshort := (List.dropWhile_suffix isBlank (l := cs)).length_le
    rw [trimStart, List.dropWhile_cons_of_pos hc] at h
    rw [h, List.length_cons] at hshort
    exact absurd hshort (Nat.not_succ_le_self _)

theorem trim_append_append {front back text : List Char} (hfront : front.all isBlank)
    (hback : back.all isBlank) (h : trim text = text) : trim (front ++ text ++ back) = text := by
  obtain ⟨hstart, hend⟩ := trimStart_and_trimEnd h
  have hrest : trimStart (text ++ back) = text ++ trimStart back ∨
      trimStart (text ++ back) = text ++ back := by
    cases text with
    | nil => exact Or.inl rfl
    | cons c cs =>
      have hc := isBlank_of_trimStart_cons hstart
      exact Or.inr (List.dropWhile_cons_of_neg (by simp [hc]))
  have hnil : trimStart back = [] := by
    have happend := trimStart_append hback []
    rwa [List.append_nil] at happend
  rw [trim, List.append_assoc, trimStart_append hfront]
  rcases hrest with hrest | hrest
  · rw [hrest, hnil, List.append_nil, hend]
  · rw [hrest, trimEnd_append hback, hend]

theorem exists_eq_append_trim (text : List Char) : ∃ front back : List Char,
    front.all isBlank ∧ back.all isBlank ∧ text = front ++ trim text ++ back := by
  refine ⟨text.takeWhile isBlank, ((trimStart text).reverse.takeWhile isBlank).reverse,
    List.all_takeWhile, ?_, ?_⟩
  · rw [List.all_reverse]
    exact List.all_takeWhile
  · rw [List.append_assoc, trim, trimEnd, ← List.reverse_append, List.takeWhile_append_dropWhile,
      List.reverse_reverse, trimStart, List.takeWhile_append_dropWhile]

end CallCatalog.Blank
