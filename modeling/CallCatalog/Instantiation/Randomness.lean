import CallCatalog.Instantiation.Keystream

/-!
Uniform choice of an index by multiplication and rejection: of the possible words, as many lead to
one index as to any other, and the few that are left over are drawn again.
-/

namespace CallCatalog

/-- A source of random choices: its seed, and how many words of the stream have been used. -/
structure Randomness where
  seed : UInt64
  drawn : Nat := 0
  deriving DecidableEq

namespace Randomness

def wordCount : Nat := UInt64.size

/-- The greatest lower half of a product for which the word is accepted: `len`, shifted to the left
until its uppermost bit is set, less one. -/
def zone (len : Nat) : Nat := len <<< (63 - len.log2) - 1

/-- The index below `len` that a word stands for: the upper half of its product with `len`. A word
whose product has a lower half beyond the zone stands for none. -/
def indexOf? (len : Nat) (word : UInt64) : Option Nat :=
  let product := word.toNat * len
  if product % wordCount ≤ zone len then some (product / wordCount) else none

theorem lt_of_indexOf?_eq_some {len i : Nat} {word : UInt64} (hpos : 0 < len)
    (h : indexOf? len word = some i) : i < len := by
  simp only [indexOf?] at h
  split at h
  · rw [← Option.some.inj h]
    exact Nat.div_lt_of_lt_mul (Nat.mul_lt_mul_of_pos_right word.toNat_lt_size hpos)
  · cases h

instance (len : { n : Nat // 0 < n }) : Nonempty (Fin len.val × Randomness) :=
  ⟨⟨0, len.property⟩, { seed := 0 }⟩

/-- An index below `len`: words are drawn until one is accepted. If none ever is, nothing is known
of the index. -/
def drawIndex (len : { n : Nat // 0 < n }) (r : Randomness) : Fin len.val × Randomness :=
  let next := { r with drawn := r.drawn + 1 }
  match h : indexOf? len.val (Keystream.word r.seed r.drawn) with
  | some i => (⟨i, lt_of_indexOf?_eq_some len.property h⟩, next)
  | none => next |>.drawIndex len
partial_fixpoint

/-- A uniformly chosen index below `len`. There is none if `len` is zero, and then nothing is
drawn. -/
def nextIndex (r : Randomness) (len : Nat) : Option Nat × Randomness :=
  if h : 0 < len then
    let (i, r) := drawIndex ⟨len, h⟩ r
    (some i.val, r)
  else (none, r)

theorem nextIndex_of_pos (r : Randomness) {len : Nat} (h : 0 < len) :
    r.nextIndex len = (some (drawIndex ⟨len, h⟩ r).1.val, (drawIndex ⟨len, h⟩ r).2) :=
  dif_pos h

def nextMember {α : Type} (r : Randomness) (items : List α) : Option α × Randomness :=
  let (i?, r) := r.nextIndex items.length
  (i?.bind fun i => items[i]?, r)

end Randomness

end CallCatalog
