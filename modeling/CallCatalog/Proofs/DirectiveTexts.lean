import CallCatalog.Settings.LogFilter
import Mathlib.Data.List.Forall2
import Mathlib.Data.String.Basic

/-!
The directives of a text. A comma ends a directive wherever it stands, so two texts with a comma
between them hold the directives of the one and then those of the other, and if one of the texts is
malformed, so is the whole (`LogFilter.directives?_append`). Of a text that is written as directives
with commas between them, every one is read as what it is (`LogFilter.directives?_of_written`).
-/

namespace CallCatalog

section Splitting

open String

/-- Splitting at a character works through the text from left to right: `front` is done, and
`piece` is what has been read of the next piece. -/
theorem splitOnAux_singleton (c : Char) (front piece rest : List Char) (pieces : List String) :
    splitOnAux (ofList (front ++ piece ++ rest)) (singleton c) ⟨utf8Len front⟩
        ⟨utf8Len front + utf8Len piece⟩ 0 pieces =
      pieces.reverse ++ (List.splitOnPPrepend (· == c) rest piece.reverse).map ofList := by
  induction rest generalizing front piece pieces with
  | nil =>
      have hend : Pos.Raw.atEnd (ofList (front ++ piece ++ []))
          ⟨utf8Len front + utf8Len piece⟩ := by
        simpa using atEnd_of_valid (front ++ piece) []
      have hextract := extract_of_valid front piece []
      rw [splitOnAux, if_pos hend]
      dsimp only
      rw [hextract, List.splitOnPPrepend_nil, List.reverse_reverse]
      simp
  | cons d rest ih =>
      have hend : ¬ Pos.Raw.atEnd (ofList (front ++ piece ++ d :: rest))
          ⟨utf8Len front + utf8Len piece⟩ := by
        simpa using atEnd_of_valid (front ++ piece) (d :: rest)
      have hget : Pos.Raw.get (ofList (front ++ piece ++ d :: rest))
          ⟨utf8Len front + utf8Len piece⟩ = d := by
        simpa using get_of_valid (front ++ piece) (d :: rest)
      have hnext : Pos.Raw.next (ofList (front ++ piece ++ d :: rest))
          ⟨utf8Len front + utf8Len piece⟩ = ⟨utf8Len front + utf8Len piece + d.utf8Size⟩ := by
        simpa using next_of_valid (front ++ piece) d rest
      have hextract := extract_of_valid front piece (d :: rest)
      have hsepGet : Pos.Raw.get (singleton c) 0 = c := get_of_valid [] [c]
      have hsepNext : Pos.Raw.next (singleton c) 0 = ⟨c.utf8Size⟩ := by
        simpa using next_of_valid [] c []
      have hsepEnd : Pos.Raw.atEnd (singleton c) ⟨c.utf8Size⟩ := by
        simpa using atEnd_of_valid [c] []
      rw [splitOnAux, if_neg hend, hget, hsepGet]
      dsimp only
      rw [hnext, hsepNext, if_pos hsepEnd]
      split
      · rename_i hsep
        obtain rfl : d = c := by simpa using hsep
        have hback : (Pos.Raw.mk (utf8Len front + utf8Len piece + d.utf8Size)).unoffsetBy
            ⟨d.utf8Size⟩ = ⟨utf8Len front + utf8Len piece⟩ := by simp [Pos.Raw.unoffsetBy]
        rw [hback, hextract, List.splitOnPPrepend_cons_pos (p := (· == d)) (by simp)]
        simpa [Nat.add_assoc] using ih (front ++ piece ++ [d]) [] (ofList piece :: pieces)
      · rename_i hsep
        have hback : (Pos.Raw.mk (utf8Len front + utf8Len piece)).unoffsetBy 0 =
            ⟨utf8Len front + utf8Len piece⟩ := by simp [Pos.Raw.unoffsetBy]
        rw [hback, hnext, List.splitOnPPrepend_cons_neg (p := (· == c)) (by simpa using hsep)]
        simpa [Nat.add_assoc] using ih front (piece ++ [d]) pieces

theorem splitOn_singleton (text : String) (c : Char) :
    text.splitOn (singleton c) = (text.toList.splitOn c).map ofList := by
  have haux := splitOnAux_singleton c [] [] text.toList []
  rw [splitOn, if_neg]
  · simpa [List.splitOn_eq_splitOnP] using haux
  · simp

theorem length_splitOn (text : List Char) (c : Char) :
    (text.splitOn c).length = text.count c + 1 := by
  induction text with
  | nil => rfl
  | cons d text ih =>
      rw [List.splitOn_cons_eq_if_modifyHead, List.count_cons]
      split
      · rw [List.length_cons, ih]
      · rw [List.length_modifyHead, ih]

end Splitting

theorem isDigit_eq_false_of_isAlpha {c : Char} (h : c.isAlpha) : c.isDigit = false := by
  change (decide (c.val ≥ 'A'.val ∧ c.val ≤ 'Z'.val) ||
    decide (c.val ≥ 'a'.val) && decide (c.val ≤ 'z'.val)) = true at h
  change (decide (c.val ≥ '0'.val) && decide (c.val ≤ '9'.val)) = false
  simp only [Bool.or_eq_true, Bool.and_eq_true, decide_eq_true_eq, UInt32.le_iff_toNat_le] at h
  simp only [Bool.and_eq_false_iff, decide_eq_false_iff_not, UInt32.le_iff_toNat_le]
  have hdigits : ('9' : Char).val.toNat = 57 := rfl
  have hupper : ('A' : Char).val.toNat = 65 := rfl
  have hlower : ('a' : Char).val.toNat = 97 := rfl
  omega

theorem isAlpha_of_isAlpha_toLower {c : Char} (h : c.toLower.isAlpha) : c.isAlpha := by
  by_cases hc : c.isUpper
  · exact Bool.or_eq_true_iff.2 (Or.inl hc)
  · have hsame : c.toLower = c := dif_neg fun hupper => hc (decide_eq_true hupper)
    rwa [hsame] at h

theorem toList_toLower (text : String) : text.toLower.toList = text.toList.map Char.toLower :=
  String.toList_map

namespace LogLevel

variable {word : String} {level : LogLevel}

theorem toLower_eq_word (h : word.toList.map Char.toLower = level.word.toList) :
    word.toLower = level.word := by
  rw [← String.toList_inj, toList_toLower, h]

theorem isAlpha_of_mem (h : word.toLower = level.word) {c : Char} (hc : c ∈ word.toList) :
    c.isAlpha := by
  have hletters : level.word.toList.all Char.isAlpha := by cases level <;> decide
  have hlower : c.toLower ∈ level.word.toList := by
    rw [← h, toList_toLower]
    exact List.mem_map_of_mem hc
  exact isAlpha_of_isAlpha_toLower (List.all_eq_true.1 hletters _ hlower)

theorem not_mem_of_not_isAlpha (h : word.toLower = level.word) {c : Char} (hc : c.isAlpha = false) :
    c ∉ word.toList :=
  fun hmem => Bool.false_ne_true (hc.symm.trans (isAlpha_of_mem h hmem))

theorem toList_ne_nil (h : word.toLower = level.word) : word.toList ≠ [] := by
  intro hnil
  have hlower : word.toLower.toList = [] := by rw [toList_toLower, hnil]; rfl
  rw [h] at hlower
  cases level <;> exact absurd hlower (by decide)

theorem ofText?_eq_some (h : word.toLower = level.word) : ofText? word = some level := by
  obtain ⟨c, cs, hword⟩ := List.exists_cons_of_ne_nil (toList_ne_nil h)
  have hc : c.isAlpha := isAlpha_of_mem h (hword ▸ List.mem_cons_self)
  have hnumber : Numeral.read? word = none := by
    have hplus : c ≠ '+' := by rintro rfl; exact absurd hc (by decide)
    rw [Numeral.read?, hword]
    simp [hplus, isDigit_eq_false_of_isAlpha hc]
  rw [ofText?, hnumber, h]
  cases level <;> rfl

end LogLevel

namespace LogDirective

theorem ranges_disjoint : Alphanumeric.ranges.all fun r =>
    Blank.ranges.all fun b => r.2 < b.1 || b.2 < r.1 := by
  decide +kernel

theorem isBlank_of_isInitial {c : Char} (h : isInitial c) : Blank.isBlank c = false := by
  simp only [isInitial, Bool.or_eq_true, decide_eq_true_eq] at h
  rcases h with ((rfl | rfl) | rfl) | h
  · decide
  · decide
  · decide
  · obtain ⟨r, hr, hc⟩ := List.any_eq_true.1 h
    refine List.any_eq_false.2 fun b hb hblank => ?_
    have hapart := List.all_eq_true.1 (List.all_eq_true.1 ranges_disjoint r hr) b hb
    simp only [Bool.and_eq_true, Bool.or_eq_true, decide_eq_true_eq] at hc hblank hapart
    omega

theorem isInitial_of_isAlpha {c : Char} (h : c.isAlpha) : isInitial c := by
  have hascii : Alphanumeric.isAlphanumeric c :=
    Alphanumeric.isAlphanumeric_of_isAlphanum (Bool.or_eq_true_iff.2 (Or.inl h))
  simp [isInitial, hascii]

theorem splitOn_equals (text : String) :
    text.splitOn "=" = (text.toList.splitOn '=').map String.ofList :=
  splitOn_singleton text '='

theorem parse?_of_head {text : String} {c : Char} {cs : List Char} (h : text.toList = c :: cs)
    (hc : isInitial c) (hspan : '[' ∉ text.toList) :
    parse? text = match (text.toList.splitOn '=').map String.ofList with
      | [word] => some (ofWord word)
      | [target, level] => ofTarget? target level
      | _ => none := by
  have hstart : Blank.trimStart text.toList = text.toList := by
    rw [h, Blank.trimStart, List.dropWhile_cons_of_neg (by simp [isBlank_of_isInitial hc])]
  have hbegins : ¬ (!text.toList.head?.any isInitial || text.toList.contains '[') = true := by
    simpa [h, hc] using hspan
  rw [parse?, hstart, splitOn_equals]
  exact if_neg hbegins

/-- Whether a text can be the target of a directive. -/
structure IsTarget (text : String) : Prop where
  initial : text.toList.head?.any isInitial
  comma : ',' ∉ text.toList
  equals : '=' ∉ text.toList
  span : '[' ∉ text.toList

/-- The texts of directives, with the directives that they are: a level in upper or lower case, a
target and a level with `=` between them. Malformed are those with more than one `=`. -/
inductive Written : String → Option LogDirective → Prop
  | level {word : String} {level : LogLevel} (h : word.toLower = level.word) :
      Written word (some ⟨none, level⟩)
  | target {target word : String} {level : LogLevel} (htarget : IsTarget target)
      (h : word.toLower = level.word) : Written (target ++ "=" ++ word) (some ⟨some target, level⟩)
  | malformed {text : String} (hcomma : ',' ∉ text.toList) (hequals : 2 ≤ text.toList.count '=') :
      Written text none

variable {text : String} {d : Option LogDirective}

theorem Written.comma_not_mem (h : Written text d) : ',' ∉ text.toList := by
  cases h with
  | level h => exact LogLevel.not_mem_of_not_isAlpha h rfl
  | target htarget h =>
      have hword := LogLevel.not_mem_of_not_isAlpha (c := ',') h rfl
      simp [htarget.comma, hword]
  | malformed hcomma => exact hcomma

theorem Written.toList_ne_nil (h : Written text d) : text.toList ≠ [] := by
  cases h with
  | level h => exact LogLevel.toList_ne_nil h
  | target htarget h => simp
  | malformed hcomma hequals =>
      intro hnil
      rw [hnil] at hequals
      exact absurd hequals (by decide)

theorem parse?_of_written (h : Written text d) : parse? text = d := by
  cases h with
  | level h =>
      obtain ⟨c, cs, hcons⟩ := List.exists_cons_of_ne_nil (LogLevel.toList_ne_nil h)
      have hc : isInitial c :=
        isInitial_of_isAlpha (LogLevel.isAlpha_of_mem h (hcons ▸ List.mem_cons_self))
      rw [parse?_of_head hcons hc (LogLevel.not_mem_of_not_isAlpha h rfl),
        List.splitOn_eq_singleton (LogLevel.not_mem_of_not_isAlpha h rfl)]
      simp [ofWord, LogLevel.ofText?_eq_some h]
  | @target target word level htarget h =>
      have hlist : (target ++ "=" ++ word).toList = target.toList ++ '=' :: word.toList := by simp
      have hspan : '[' ∉ word.toList := LogLevel.not_mem_of_not_isAlpha h rfl
      have hequals : '=' ∉ word.toList := LogLevel.not_mem_of_not_isAlpha h rfl
      obtain ⟨c, hc, hinitial⟩ := (Option.any_eq_true _ _).1 htarget.initial
      obtain ⟨cs, hcons⟩ : ∃ cs, target.toList = c :: cs := List.head?_eq_some_iff.1 hc
      have hhead : (target ++ "=" ++ word).toList = c :: (cs ++ '=' :: word.toList) := by
        rw [hlist, hcons, List.cons_append]
      rw [parse?_of_head hhead hinitial (by simp [hlist, htarget.span, hspan]), hlist,
        List.splitOn_append_cons_self_of_not_mem htarget.equals,
        List.splitOn_eq_singleton hequals]
      have hblank : target.toList.head?.any Blank.isBlank = false := by
        rw [hc, Option.any_some, isBlank_of_isInitial hinitial]
      have hword : word.isEmpty = false := by
        have hnil := LogLevel.toList_ne_nil h
        simpa using hnil
      simp [ofTarget?, hblank, hword, LogLevel.ofText?_eq_some h]
  | malformed hcomma hequals =>
      have hlength : 3 ≤ (text.splitOn "=").length := by
        rw [splitOn_equals, List.length_map, length_splitOn]
        exact Nat.succ_le_succ hequals
      rw [parse?]
      split
      · rfl
      split
      case h_1 hpieces => exact absurd hlength (by simp [hpieces])
      case h_2 hpieces => exact absurd hlength (by simp [hpieces])
      case h_3 => rfl

end LogDirective

namespace LogFilter

def directives? (text : String) : Option (List LogDirective) :=
  ((text.splitOn ",").filter fun s => !s.isEmpty).mapM LogDirective.parse?

theorem parse?_eq_map (text : String) : parse? text = (directives? text).map ofList := rfl

theorem splitOn_comma (text : String) :
    text.splitOn "," = (text.toList.splitOn ',').map String.ofList :=
  splitOn_singleton text ','

theorem directives?_append (a b : String) : directives? (a ++ "," ++ b) =
    do return (← directives? a) ++ (← directives? b) := by
  have hsplit : (a ++ "," ++ b).splitOn "," = a.splitOn "," ++ b.splitOn "," := by
    have hlist : (a ++ "," ++ b).toList = a.toList ++ ',' :: b.toList := by simp
    rw [splitOn_comma, splitOn_comma, splitOn_comma, hlist, List.splitOn_append_cons_self,
      List.map_append]
  rw [directives?, hsplit, List.filter_append, List.mapM_append]
  rfl

/-- Whether a text consists of directives with commas between them, blanks around the whole apart.
The directives are given as they are to be read. -/
def Written (text : String) (directives : List (Option LogDirective)) : Prop :=
  ∃ texts, List.Forall₂ LogDirective.Written texts directives ∧
    Blank.trim text.toList = (",".intercalate texts).toList

theorem directives?_intercalate {texts : List String}
    (h : ∀ text ∈ texts, ',' ∉ text.toList ∧ text.toList ≠ []) :
    directives? (",".intercalate texts) = texts.mapM LogDirective.parse? := by
  by_cases hnil : texts = []
  · simp [hnil, directives?, splitOn_comma]
  have hsplit : (",".intercalate texts).splitOn "," = texts := by
    have hcommas : ∀ text ∈ texts.map String.toList, ',' ∉ text := by
      simpa using fun text hmem => (h text hmem).1
    have hlist : (",".intercalate texts).toList = [','].intercalate (texts.map String.toList) := by
      rw [String.toList_intercalate]
      rfl
    rw [splitOn_comma, hlist, List.splitOn_intercalate ',' hcommas (by simpa using hnil)]
    simp
  have hfilter : texts.filter (fun s => !s.isEmpty) = texts :=
    List.filter_eq_self.2 fun text hmem => by simpa using (h text hmem).2
  rw [directives?, hsplit, hfilter]

theorem directives?_of_written {text : String} {directives : List (Option LogDirective)}
    (h : Written text directives) :
    directives? (String.ofList (Blank.trim text.toList)) = directives.mapM id := by
  obtain ⟨texts, hwritten, htext⟩ := h
  have hpieces : ∀ text ∈ texts, ',' ∉ text.toList ∧ text.toList ≠ [] :=
    ((List.forall₂_and_left texts directives).1
      (hwritten.imp fun _ _ h => ⟨⟨h.comma_not_mem, h.toList_ne_nil⟩, h⟩)).1
  rw [htext, String.ofList_toList, directives?_intercalate hpieces]
  clear htext hpieces
  induction hwritten with
  | nil => rfl
  | cons hfirst hrest ih =>
      rw [List.mapM_cons, List.mapM_cons, LogDirective.parse?_of_written hfirst, ih]
      rfl

end LogFilter

end CallCatalog
