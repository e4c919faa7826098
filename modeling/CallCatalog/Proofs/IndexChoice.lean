import CallCatalog.Instantiation.Randomness
import Mathlib.Algebra.Order.Floor.Div
import Mathlib.Data.FinEnum
import Mathlib.Data.Set.Card
import Mathlib.Order.Interval.Finset.Nat

/-!
How even the choice of an index is. The products of `len` with all words are the multiples of `len`
below `len * 2 ^ 64`. Those that stand for the index `i` begin at `i * 2 ^ 64` and take up as much
room as the zone has, which is a multiple of `len`; so there are equally many of them for each
index.
-/

namespace CallCatalog

namespace Randomness

variable {len i : Nat} {word : UInt64}

def leadingZeros (len : Nat) : Nat := (BitVec.ofNat 64 len).clz.toNat

theorem leadingZeros_eq (hpos : 1 ≤ len) (hlen : len < 2 ^ 64) :
    leadingZeros len = 63 - len.log2 := by
  have hvalue : (BitVec.ofNat 64 len).toNat = len := by
    rw [BitVec.toNat_ofNat, Nat.mod_eq_of_lt hlen]
  have hne : BitVec.ofNat 64 len ≠ 0#64 := by
    intro hzero
    rw [hzero] at hvalue
    simp at hvalue
    omega
  have hlower := BitVec.two_pow_sub_clz_le_toNat_of_ne_zero (by decide) hne
  have hupper := @BitVec.toNat_lt_two_pow_sub_clz 64 (BitVec.ofNat 64 len)
  have hclz : leadingZeros len < 64 := by
    have hlt := BitVec.clz_lt_iff_ne_zero.mpr hne
    simpa [leadingZeros, BitVec.lt_def] using hlt
  rw [hvalue] at hlower hupper
  change 2 ^ (64 - 1 - leadingZeros len) ≤ len at hlower
  change len < 2 ^ (64 - leadingZeros len) at hupper
  have hlog : len.log2 = 63 - leadingZeros len := by
    rw [Nat.log2_eq_iff (by omega)]
    refine ⟨hlower, ?_⟩
    rwa [show 63 - leadingZeros len + 1 = 64 - leadingZeros len by omega]
  omega

theorem mul_two_pow_leadingZeros_bounds (hpos : 1 ≤ len) (hlen : len < 2 ^ 64) :
    2 ^ 63 ≤ len * 2 ^ leadingZeros len ∧ len * 2 ^ leadingZeros len < 2 ^ 64 := by
  have hlog : len.log2 ≤ 63 := Nat.le_of_lt_succ ((Nat.log2_lt (by omega)).mpr hlen)
  rw [leadingZeros_eq hpos hlen]
  constructor
  · calc 2 ^ 63 = 2 ^ len.log2 * 2 ^ (63 - len.log2) := by rw [← pow_add]; congr 1; omega
      _ ≤ len * 2 ^ (63 - len.log2) := Nat.mul_le_mul_right _ (Nat.log2_self_le (by omega))
  · calc len * 2 ^ (63 - len.log2)
        < 2 ^ (len.log2 + 1) * 2 ^ (63 - len.log2) :=
          Nat.mul_lt_mul_of_pos_right Nat.lt_log2_self (Nat.two_pow_pos _)
      _ = 2 ^ 64 := by rw [← pow_add]; congr 1; omega

theorem zone_add_one (hpos : 1 ≤ len) (hlen : len < 2 ^ 64) :
    zone len + 1 = len * 2 ^ leadingZeros len := by
  have hlower := (mul_two_pow_leadingZeros_bounds hpos hlen).1
  rw [zone, ← leadingZeros_eq hpos hlen, Nat.shiftLeft_eq]
  omega

theorem toNat_zone (hpos : 1 ≤ len) (hlen : len < 2 ^ 64) :
    (UInt64.ofNat len <<< UInt64.ofNat (leadingZeros len) - 1).toNat = zone len := by
  obtain ⟨hlower, hupper⟩ := mul_two_pow_leadingZeros_bounds hpos hlen
  have hzeros : leadingZeros len < 64 := by
    rw [leadingZeros_eq hpos hlen]
    omega
  have hshift : (UInt64.ofNat len <<< UInt64.ofNat (leadingZeros len)).toNat =
      len * 2 ^ leadingZeros len := by
    rw [UInt64.toNat_shiftLeft, UInt64.toNat_ofNat', UInt64.toNat_ofNat', Nat.mod_eq_of_lt hlen,
      Nat.mod_eq_of_lt (by omega : leadingZeros len < 2 ^ 64), Nat.mod_eq_of_lt hzeros,
      Nat.shiftLeft_eq, Nat.mod_eq_of_lt hupper]
  have hone : (1 : UInt64) ≤ UInt64.ofNat len <<< UInt64.ofNat (leadingZeros len) := by
    rw [UInt64.le_iff_toNat_le, hshift]
    exact le_trans (by decide) hlower
  have hzone := zone_add_one hpos hlen
  rw [UInt64.toNat_sub_of_le _ _ hone, hshift, ← hzone]
  rfl

/-- The products that stand for `i` begin at `i * 2 ^ 64` and take up the room of the zone. -/
theorem indexOf?_eq_some_iff (hpos : 1 ≤ len) (hlen : len < 2 ^ 64) :
    indexOf? len word = some i ↔ i * 2 ^ 64 ≤ word.toNat * len ∧
      word.toNat * len < i * 2 ^ 64 + len * 2 ^ leadingZeros len := by
  have hzone := zone_add_one hpos hlen
  have hupper := (mul_two_pow_leadingZeros_bounds hpos hlen).2
  have hcount : wordCount = 2 ^ 64 := rfl
  rw [indexOf?, hcount]
  generalize word.toNat * len = product at *
  have hsplit := Nat.div_add_mod product (2 ^ 64)
  have hmod := Nat.mod_lt product (show 0 < 2 ^ 64 by decide)
  split
  · rw [Option.some.injEq]
    constructor
    · rintro rfl
      omega
    · rintro ⟨hfrom, hbefore⟩
      omega
  · refine iff_of_false (by simp) ?_
    rintro ⟨hfrom, hbefore⟩
    have hdiv : product / 2 ^ 64 = i := by omega
    omega

theorem image_toNat_indexOf? (hpos : 1 ≤ len) (hlen : len < 2 ^ 64) (hi : i < len) :
    UInt64.toNat '' {word | indexOf? len word = some i} =
      Finset.Ico (i * 2 ^ 64 ⌈/⌉ len) (i * 2 ^ 64 ⌈/⌉ len + 2 ^ leadingZeros len) := by
  obtain ⟨-, hupper⟩ := mul_two_pow_leadingZeros_bounds hpos hlen
  have hfrom : ∀ n, i * 2 ^ 64 ⌈/⌉ len ≤ n ↔ i * 2 ^ 64 ≤ n * len := by
    intro n
    rw [ceilDiv_le_iff_le_mul hpos, Nat.mul_comm len n]
  have hbefore : ∀ n, n < i * 2 ^ 64 ⌈/⌉ len + 2 ^ leadingZeros len ↔
      n * len < i * 2 ^ 64 + len * 2 ^ leadingZeros len := by
    intro n
    rcases Nat.lt_or_ge n (2 ^ leadingZeros len) with hsmall | hlarge
    · have hproduct : n * len < len * 2 ^ leadingZeros len := by
        rw [Nat.mul_comm]
        exact Nat.mul_lt_mul_of_pos_left hsmall hpos
      exact iff_of_true (by omega) (by omega)
    · obtain ⟨m, rfl⟩ := Nat.exists_eq_add_of_le' hlarge
      have hm := not_congr (hfrom m)
      rw [Nat.add_mul, Nat.mul_comm (2 ^ leadingZeros len) len]
      omega
  ext n
  simp only [Set.mem_image, Set.mem_ofPred_eq, Finset.coe_Ico, Set.mem_Ico, hfrom, hbefore]
  constructor
  · rintro ⟨word, hword, rfl⟩
    exact (indexOf?_eq_some_iff hpos hlen).mp hword
  · rintro ⟨hlower, hproduct⟩
    have hn : n < 2 ^ 64 := by
      have hbelow : n * len < 2 ^ 64 * len := by
        calc n * len < i * 2 ^ 64 + len * 2 ^ leadingZeros len := hproduct
          _ ≤ i * 2 ^ 64 + 2 ^ 64 := Nat.add_le_add_left hupper.le _
          _ = (i + 1) * 2 ^ 64 := (Nat.succ_mul i _).symm
          _ ≤ len * 2 ^ 64 := Nat.mul_le_mul_right _ hi
          _ = 2 ^ 64 * len := Nat.mul_comm _ _
      exact Nat.lt_of_mul_lt_mul_right hbelow
    have hvalue : (UInt64.ofNat n).toNat = n := UInt64.toNat_ofNat_of_lt' hn
    refine ⟨UInt64.ofNat n, (indexOf?_eq_some_iff hpos hlen).mpr ?_, hvalue⟩
    rw [hvalue]
    exact ⟨hlower, hproduct⟩

theorem ncard_indexOf?_eq_some (hpos : 1 ≤ len) (hlen : len < 2 ^ 64) (hi : i < len) :
    {word | indexOf? len word = some i}.ncard = 2 ^ leadingZeros len := by
  have hinjective : Function.Injective UInt64.toNat := fun _ _ => UInt64.toNat_inj.mp
  rw [← Set.ncard_image_of_injective _ hinjective, image_toNat_indexOf? hpos hlen hi,
    Set.ncard_coe_finset, Nat.card_Ico, Nat.add_sub_cancel_left]

theorem ncard_indexOf?_lt (hpos : 1 ≤ len) (hlen : len < 2 ^ 64) {n : Nat} (hn : n ≤ len) :
    {word | ∃ i < n, indexOf? len word = some i}.ncard = n * 2 ^ leadingZeros len := by
  induction n with
  | zero => simp
  | succ n ih =>
      have hsplit : {word | ∃ i < n + 1, indexOf? len word = some i} =
          {word | ∃ i < n, indexOf? len word = some i} ∪ {word | indexOf? len word = some n} := by
        ext word
        simp only [Set.mem_ofPred_eq, Set.mem_union, Nat.lt_succ_iff_lt_or_eq, or_and_right,
          exists_or, exists_eq_left]
      have hdisjoint : Disjoint {word | ∃ i < n, indexOf? len word = some i}
          {word | indexOf? len word = some n} := by
        rw [Set.disjoint_left]
        rintro word ⟨i, hi, hsome⟩ hlast
        have heq : i = n := Option.some.inj (hsome.symm.trans hlast)
        omega
      rw [hsplit, Set.ncard_union_eq hdisjoint, ih (by omega),
        ncard_indexOf?_eq_some hpos hlen (by omega), Nat.succ_mul]

theorem isSome_indexOf?_iff (hpos : 1 ≤ len) :
    (indexOf? len word).isSome ↔ ∃ i < len, indexOf? len word = some i := by
  rw [Option.isSome_iff_exists]
  constructor
  · rintro ⟨i, hi⟩
    exact ⟨i, lt_of_indexOf?_eq_some hpos hi, hi⟩
  · rintro ⟨i, -, hi⟩
    exact ⟨i, hi⟩

theorem drawIndex_of_accepted {hpos : 0 < len} {r : Randomness}
    (h : indexOf? len (Keystream.word r.seed r.drawn) = some i) :
    drawIndex ⟨len, hpos⟩ r =
      (⟨i, lt_of_indexOf?_eq_some hpos h⟩, { r with drawn := r.drawn + 1 }) := by
  rw [drawIndex]
  split
  · rename_i first hfirst
    cases hfirst.symm.trans h
    rfl
  · rename_i hnone
    cases hnone.symm.trans h

theorem drawIndex_of_rejected {hpos : 0 < len} {r : Randomness}
    (h : indexOf? len (Keystream.word r.seed r.drawn) = none) :
    drawIndex ⟨len, hpos⟩ r = drawIndex ⟨len, hpos⟩ { r with drawn := r.drawn + 1 } := by
  rw [drawIndex]
  split
  · rename_i first hfirst
    cases hfirst.symm.trans h
  · rfl

theorem nextIndex_of_rejected (r : Randomness) {k : Nat} (hpos : 1 ≤ len)
    (hrejected : ∀ j < k, indexOf? len (Keystream.word r.seed (r.drawn + j)) = none)
    (haccepted : indexOf? len (Keystream.word r.seed (r.drawn + k)) = some i) :
    r.nextIndex len = (some i, { r with drawn := r.drawn + (k + 1) }) := by
  induction k generalizing r with
  | zero => rw [r.nextIndex_of_pos hpos, drawIndex_of_accepted haccepted]
  | succ k ih =>
      have hshift : ∀ j, r.drawn + (j + 1) = r.drawn + 1 + j := fun j => by omega
      have hrest := ih { r with drawn := r.drawn + 1 }
        (fun j hj => hshift j ▸ hrejected (j + 1) (by omega)) (hshift k ▸ haccepted)
      rw [hshift (k + 1), ← hrest, nextIndex_of_pos _ hpos, nextIndex_of_pos _ hpos,
        drawIndex_of_rejected (hrejected 0 k.succ_pos)]

/-- The choice of an index below `len`, which has `z` leading zeros as a word, is exactly uniform.
Each index comes from `2 ^ z` words, and every word that does not give an index below `len` is
rejected. The shift in the zone loses no bit and its result is not zero, so the zone comes out the
same in words, and no more than half of all words are rejected. What is chosen is the index of the
first word that is accepted. -/
theorem indexOf?_uniform (len : Nat) (hpos : 1 ≤ len) (hlen : len < 2 ^ 64) :
    (∀ i < len, {word | indexOf? len word = some i}.ncard = 2 ^ leadingZeros len) ∧
      (∀ word i, indexOf? len word = some i → i < len) ∧
      {word | indexOf? len word = none}.ncard = 2 ^ 64 - len * 2 ^ leadingZeros len ∧
      (1 ≤ len <<< leadingZeros len ∧ len <<< leadingZeros len < 2 ^ 64 ∧
        zone len = len <<< leadingZeros len - 1 ∧
        (UInt64.ofNat len <<< UInt64.ofNat (leadingZeros len) - 1).toNat = zone len) ∧
      2 ^ 64 ≤ 2 * {word | (indexOf? len word).isSome}.ncard ∧
      ∀ (r : Randomness) (k i : Nat),
        (∀ j < k, indexOf? len (Keystream.word r.seed (r.drawn + j)) = none) →
        indexOf? len (Keystream.word r.seed (r.drawn + k)) = some i →
        r.nextIndex len = (some i, { r with drawn := r.drawn + (k + 1) }) := by
  obtain ⟨hlower, hupper⟩ := mul_two_pow_leadingZeros_bounds hpos hlen
  have haccepted : {word | (indexOf? len word).isSome}.ncard = len * 2 ^ leadingZeros len := by
    simp only [isSome_indexOf?_iff hpos]
    exact ncard_indexOf?_lt hpos hlen (Nat.le_refl len)
  have hrejected : {word | indexOf? len word = none} =
      {word | (indexOf? len word).isSome}ᶜ := by
    ext word
    simp
  refine ⟨fun i hi => ncard_indexOf?_eq_some hpos hlen hi,
    fun word i h => lt_of_indexOf?_eq_some hpos h, ?_, ?_, ?_, ?_⟩
  · have hwords : Nat.card UInt64 = 2 ^ 64 := by
      rw [Nat.card_eq_fintype_card, ← FinEnum.card_eq_fintypeCard, FinEnum.card_UInt64]
    rw [hrejected, Set.ncard_compl, hwords, haccepted]
  · have hzone := zone_add_one hpos hlen
    rw [Nat.shiftLeft_eq]
    exact ⟨by omega, hupper, by omega, toNat_zone hpos hlen⟩
  · omega
  · exact fun r k i => r.nextIndex_of_rejected hpos

/-- One more than half of all words are accepted if `len` is just above a power of two, one for each
index. -/
theorem indexOf?_uniform_half : 1 ≤ 2 ^ 63 + 1 ∧ 2 ^ 63 + 1 < 2 ^ 64 ∧
    leadingZeros (2 ^ 63 + 1) = 0 ∧
    (∀ i < 2 ^ 63 + 1, {word | indexOf? (2 ^ 63 + 1) word = some i}.ncard = 1) ∧
    {word | indexOf? (2 ^ 63 + 1) word = none}.ncard = 2 ^ 63 - 1 := by
  have hzeros : leadingZeros (2 ^ 63 + 1) = 0 := by decide
  obtain ⟨heach, -, hrejected, -⟩ := indexOf?_uniform (2 ^ 63 + 1) (by decide) (by decide)
  rw [hzeros] at heach hrejected
  exact ⟨by decide, by decide, hzeros, heach, hrejected⟩

end Randomness

end CallCatalog
