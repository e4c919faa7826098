import CallCatalog.Json.Symbols
import CallCatalog.Proofs.ReadPieces

namespace CallCatalog.Json

/-- The blanks before an item or a closing bracket at a level, and those after a colon. -/
structure Layout where
  line : (level : Nat) → Symbols
  gap : Symbols
  blanks_line : ∀ level, Blanks (line level)
  blanks_gap : Blanks gap

namespace Layout

def oneLine : Layout where
  line _ := []
  gap := []
  blanks_line _ := by simp [Blanks]
  blanks_gap := by simp [Blanks]

def itemPerLine : Layout where
  line level := symbolsOfString (newline level)
  gap := [some ' ']
  blanks_line level := by simp [Blanks, symbolsOfString, newline, Reader.isBlank]
  blanks_gap := by simp [Blanks, Reader.isBlank]

@[simp]
theorem line_oneLine (level : Nat) : oneLine.line level = [] := rfl

@[simp]
theorem gap_oneLine : oneLine.gap = [] := rfl

@[simp]
theorem line_itemPerLine (level : Nat) :
    itemPerLine.line level = symbolsOfString (newline level) := rfl

@[simp]
theorem gap_itemPerLine : itemPerLine.gap = [some ' '] := rfl

variable (l : Layout)

def separated (level : Nat) : (first : Bool) → List Symbols → Symbols
  | _, [] => []
  | first, piece :: pieces =>
    Reader.lead first (l.line level) ++ piece ++ separated level false pieces

/-- Pieces in brackets. The closing bracket follows at once if there is nothing inside. -/
def bracketed (level : Nat) (opening closing : Char) (pieces : List Symbols) : Symbols :=
  let closingGap := if pieces.isEmpty then [] else l.line level
  some opening :: (l.separated (level + 1) true pieces ++ closingGap ++ [some closing])

def member (name : String) (value : Symbols) : Symbols :=
  quotedSymbols name ++ some ':' :: (l.gap ++ value)

mutual

def text (level : Nat) : Json → Symbols
  | .null => symbolsOfString "null"
  | .bool true => symbolsOfString "true"
  | .bool false => symbolsOfString "false"
  | .number n => symbolsOfString (numberText n)
  | .string s => quotedSymbols s
  | .array items => l.bracketed level '[' ']' (texts (level + 1) items)
  | .object members => l.bracketed level '\x7b' '\x7d' (memberTexts (level + 1) members)

def texts (level : Nat) : List Json → List Symbols
  | [] => []
  | item :: items => text level item :: texts level items

def memberTexts (level : Nat) : List (String × Json) → List Symbols
  | [] => []
  | (name, value) :: members => l.member name (text level value) :: memberTexts level members

end

theorem texts_eq_map (level : Nat) (items : List Json) :
    l.texts level items = items.map (l.text level) := by
  induction items with
  | nil => rfl
  | cons item items ih => rw [texts, ih, List.map_cons]

theorem memberTexts_eq_map (level : Nat) (members : List (String × Json)) :
    l.memberTexts level members = members.map fun m => l.member m.1 (l.text level m.2) := by
  induction members with
  | nil => rfl
  | cons m members ih => rw [memberTexts, ih, List.map_cons]

@[simp]
theorem symbolsOfString_append (s t : String) :
    symbolsOfString (s ++ t) = symbolsOfString s ++ symbolsOfString t := by
  simp [symbolsOfString]

theorem symbolsOfString_quote (s : String) : symbolsOfString (quote s) = quotedSymbols s := by
  simp [symbolsOfString, quote, quotedSymbols]

theorem symbolsOfString_marks :
    symbolsOfString "[" = [some '['] ∧ symbolsOfString "]" = [some ']'] ∧
      symbolsOfString "\x7b" = [some '\x7b'] ∧ symbolsOfString "\x7d" = [some '\x7d'] ∧
      symbolsOfString "," = [some ','] ∧ symbolsOfString ":" = [some ':'] ∧
      symbolsOfString ": " = [some ':', some ' '] := by
  decide

mutual

theorem symbolsOfString_compact (level : Nat) :
    ∀ j : Json, symbolsOfString j.compact = oneLine.text level j
  | .null => rfl
  | .bool true => rfl
  | .bool false => rfl
  | .number _ => rfl
  | .string s => symbolsOfString_quote s
  | .array [] => rfl
  | .array (item :: items) => by
      have hitem := symbolsOfString_compact (level + 1) item
      have hitems := symbolsOfString_compactItems (level + 1) items
      simp [compact, text, texts, bracketed, separated, Reader.lead, hitem, hitems,
        symbolsOfString_marks]
  | .object [] => rfl
  | .object ((name, value) :: members) => by
      have hvalue := symbolsOfString_compact (level + 1) value
      have hmembers := symbolsOfString_compactMembers (level + 1) members
      simp [compact, text, memberTexts, bracketed, separated, member, Reader.lead, hvalue,
        hmembers, symbolsOfString_quote, symbolsOfString_marks]

theorem symbolsOfString_compactItems (level : Nat) :
    ∀ items : List Json, symbolsOfString (compactItems items) =
      oneLine.separated level false (oneLine.texts level items)
  | [] => rfl
  | item :: items => by
      have hitem := symbolsOfString_compact level item
      have hitems := symbolsOfString_compactItems level items
      simp [compactItems, texts, separated, Reader.lead, hitem, hitems,
        symbolsOfString_marks]

theorem symbolsOfString_compactMembers (level : Nat) :
    ∀ members : List (String × Json), symbolsOfString (compactMembers members) =
      oneLine.separated level false (oneLine.memberTexts level members)
  | [] => rfl
  | (name, value) :: members => by
      have hvalue := symbolsOfString_compact level value
      have hmembers := symbolsOfString_compactMembers level members
      simp [compactMembers, memberTexts, separated, member, Reader.lead, hvalue,
        hmembers, symbolsOfString_quote, symbolsOfString_marks]

end

mutual

theorem symbolsOfString_prettyAt (level : Nat) :
    ∀ j : Json, symbolsOfString (j.prettyAt level) = itemPerLine.text level j
  | .null => rfl
  | .bool true => rfl
  | .bool false => rfl
  | .number _ => rfl
  | .string s => symbolsOfString_quote s
  | .array [] => by
      rw [prettyAt, text, texts]
      rfl
  | .array (item :: items) => by
      have hitem := symbolsOfString_prettyAt (level + 1) item
      have hitems := symbolsOfString_prettyItems (level + 1) items
      simp [prettyAt, text, texts, bracketed, separated, Reader.lead, hitem, hitems,
        symbolsOfString_marks]
  | .object [] => by
      rw [prettyAt, text, memberTexts]
      rfl
  | .object ((name, value) :: members) => by
      have hvalue := symbolsOfString_prettyAt (level + 1) value
      have hmembers := symbolsOfString_prettyMembers (level + 1) members
      simp [prettyAt, text, memberTexts, bracketed, separated, member, Reader.lead, hvalue,
        hmembers, symbolsOfString_quote, symbolsOfString_marks]

theorem symbolsOfString_prettyItems (level : Nat) :
    ∀ items : List Json, symbolsOfString (prettyItems level items) =
      itemPerLine.separated level false (itemPerLine.texts level items)
  | [] => rfl
  | item :: items => by
      have hitem := symbolsOfString_prettyAt level item
      have hitems := symbolsOfString_prettyItems level items
      simp [prettyItems, texts, separated, Reader.lead, hitem, hitems,
        symbolsOfString_marks]

theorem symbolsOfString_prettyMembers (level : Nat) :
    ∀ members : List (String × Json), symbolsOfString (prettyMembers level members) =
      itemPerLine.separated level false (itemPerLine.memberTexts level members)
  | [] => rfl
  | (name, value) :: members => by
      have hvalue := symbolsOfString_prettyAt level value
      have hmembers := symbolsOfString_prettyMembers level members
      simp [prettyMembers, memberTexts, separated, member, Reader.lead, hvalue,
        hmembers, symbolsOfString_quote, symbolsOfString_marks]

end

end Layout

end CallCatalog.Json
