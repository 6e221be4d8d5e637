/-
Fields of machine words.

A word `x : BitVec w` is read in three ways by code that packs several values
into it: its low `n` bits (`x &&& (2ⁿ - 1)`), the rest of it
(`x &&& ~~~(2ⁿ - 1)`), and a shifted window.  The lemmas here turn each of them
into quotients and remainders of `x.toNat`, where `omega` can work:

* `toNat_and_lowMask` — masking the low bits is a remainder;
* `toNat_and_highMask` — masking them away rounds down to a multiple of `2ⁿ`;
* `toNat_or_of_low` — or-ing a small word into an aligned one is an addition;
* `ctz` — the index of the lowest set bit, with its specification.
-/
import Mathlib.Data.Nat.Bitwise
import Mathlib.Data.List.GetD
import Mathlib.Tactic.Ring

namespace BitFields

variable {w : ℕ}

/-- The word with exactly its low `n` bits set. -/
def lowMask (w n : ℕ) : BitVec w := BitVec.ofNat w (2 ^ n - 1)

theorem toNat_lowMask {n : ℕ} (hn : n ≤ w) : (lowMask w n).toNat = 2 ^ n - 1 := by
  have hpow : 2 ^ n ≤ 2 ^ w := Nat.pow_le_pow_right (by omega) hn
  have hpos : 0 < 2 ^ n := Nat.two_pow_pos n
  rw [lowMask, BitVec.toNat_ofNat]
  exact Nat.mod_eq_of_lt (by omega)

theorem toNat_and_lowMask (x : BitVec w) {n : ℕ} (hn : n ≤ w) :
    (x &&& lowMask w n).toNat = x.toNat % 2 ^ n := by
  rw [BitVec.toNat_and, toNat_lowMask hn, Nat.and_two_pow_sub_one_eq_mod]

theorem toNat_ushiftRight_and_lowMask (x : BitVec w) (s : ℕ) {n : ℕ} (hn : n ≤ w) :
    ((x >>> s) &&& lowMask w n).toNat = x.toNat / 2 ^ s % 2 ^ n := by
  rw [toNat_and_lowMask _ hn, BitVec.toNat_ushiftRight, Nat.shiftRight_eq_div_pow]

theorem getLsbD_lowMask {n : ℕ} (hn : n ≤ w) (i : ℕ) :
    (lowMask w n).getLsbD i = decide (i < n) := by
  rw [← BitVec.testBit_toNat, toNat_lowMask hn, Nat.testBit_two_pow_sub_one]

theorem toNat_and_highMask (x : BitVec w) {n : ℕ} (hn : n ≤ w) :
    (x &&& ~~~lowMask w n).toNat = x.toNat / 2 ^ n * 2 ^ n := by
  rw [← Nat.shiftRight_eq_div_pow, ← Nat.shiftLeft_eq]
  refine Nat.eq_of_testBit_eq fun i => ?_
  rw [BitVec.testBit_toNat, BitVec.getLsbD_and, BitVec.getLsbD_not, getLsbD_lowMask hn,
    Nat.testBit_shiftLeft, Nat.testBit_shiftRight]
  by_cases hi : n ≤ i
  · rw [show n + (i - n) = i by omega, BitVec.testBit_toNat]
    by_cases hw : i < w
    · simp [hi, hw, Nat.not_lt.mpr hi]
    · simp [hi, BitVec.getLsbD_of_ge x i (by omega)]
  · simp [hi, Nat.lt_of_not_le hi]

/-- Or-ing a word below `2ⁿ` into a multiple of `2ⁿ` adds it. -/
theorem toNat_or_of_low {x y : BitVec w} {n : ℕ} (hx : x.toNat % 2 ^ n = 0)
    (hy : y.toNat < 2 ^ n) : (x ||| y).toNat = x.toNat + y.toNat := by
  rw [BitVec.toNat_or]
  obtain ⟨q, hq⟩ := Nat.dvd_of_mod_eq_zero hx
  rw [hq, ← Nat.two_pow_add_eq_or_of_lt hy]

/-! ### The lowest set bit -/

/-- The index of the lowest set bit of `x`, and the width when `x = 0`. -/
def ctz (x : BitVec w) : ℕ := ((List.range w).find? fun i => x.getLsbD i).getD w

theorem ctz_lt_of_ne_zero {x : BitVec w} (hx : x ≠ 0) : ctz x < w := by
  rw [ctz]
  rcases hf : (List.range w).find? fun i => x.getLsbD i with _ | i
  · refine absurd (BitVec.eq_of_getLsbD_eq fun i hi => ?_) hx
    have := List.find?_eq_none.mp hf i (List.mem_range.mpr hi)
    simpa using this
  · exact List.mem_range.mp (List.mem_of_find?_eq_some hf)

theorem getLsbD_ctz {x : BitVec w} (hx : x ≠ 0) : x.getLsbD (ctz x) = true := by
  have hlt := ctz_lt_of_ne_zero hx
  rw [ctz] at hlt ⊢
  rcases hf : (List.range w).find? fun i => x.getLsbD i with _ | i
  · rw [hf] at hlt
    exact absurd hlt (Nat.lt_irrefl w)
  · exact List.find?_some hf

theorem getLsbD_of_lt_ctz {x : BitVec w} {i : ℕ} (hi : i < ctz x) : x.getLsbD i = false := by
  rw [ctz] at hi
  rcases hf : (List.range w).find? fun i => x.getLsbD i with _ | j
  · rw [hf] at hi
    have := List.find?_eq_none.mp hf i (List.mem_range.mpr hi)
    simpa using this
  · rw [hf, Option.getD_some] at hi
    obtain ⟨hj, as, bs, happ, hlow⟩ := List.find?_eq_some_iff_append.mp hf
    have hlen : as.length = j := by
      have h1 : (List.range w)[as.length]? = some j := by rw [happ]; simp
      obtain ⟨h2, h3⟩ := List.getElem?_eq_some_iff.mp h1
      simpa using h3
    have hmem : i ∈ as := by
      have h1 : (List.range w)[i]? = as[i]? := by
        rw [happ, List.getElem?_append_left (by omega)]
      have h2 : i < w := by
        have := List.mem_range.mp (List.mem_of_find?_eq_some hf)
        omega
      rw [List.getElem?_range h2] at h1
      exact List.mem_of_getElem? h1.symm
    simpa using hlow i hmem

end BitFields
