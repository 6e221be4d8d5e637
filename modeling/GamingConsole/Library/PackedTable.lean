/-
Tables of numbers packed into bytes.

A table is a memory of bytes.  Its numbers are little-endian words of some bytes each, or
take three half-bytes each, so that two neighbours share a byte.

* `word`, `putWord` — a word, and the memory after one was stored;
* `nibble` — the memory by halves of bytes;
* `triple`, `putLow`, `putHigh` — a number of three halves, stored with one byte at a time.

A store is known by what it does to the words or the halves, and what else there is in the
memory is not looked at.
-/
import Mathlib.Data.Nat.Basic
import Mathlib.Logic.Function.Basic
import Mathlib.Tactic.Ring

namespace PackedTable

/-- A memory of bytes. -/
abbrev Bytes : Type := ℕ → BitVec 8

variable {b b' : Bytes} {p q n v i c d : ℕ}

/-! ### Words -/

/-- The little-endian word of `n` bytes at `p`. -/
def word (b : Bytes) (p : ℕ) : ℕ → ℕ
  | 0 => 0
  | n + 1 => (b p).toNat + 256 * word b (p + 1) n

/-- The memory with the low `n` bytes of `v` at `p`. -/
def putWord (b : Bytes) (p v : ℕ) : ℕ → Bytes
  | 0 => b
  | n + 1 => putWord (Function.update b p (BitVec.ofNat 8 v)) (p + 1) (v / 256) n

theorem word_congr (h : ∀ k, p ≤ k → k < p + n → b' k = b k) : word b' p n = word b p n := by
  induction n generalizing p with
  | zero => rfl
  | succ n ih =>
    rw [word, word, h p (le_refl p) (by omega), ih fun k h1 h2 => h k (by omega) (by omega)]

theorem word_lt (b : Bytes) (p n : ℕ) : word b p n < 256 ^ n := by
  induction n generalizing p with
  | zero => exact Nat.one_pos
  | succ n ih =>
    have hb := (b p).isLt
    have hw := ih (p + 1)
    rw [word, pow_succ]
    omega

/-- A store of a word changes its own bytes only. -/
theorem putWord_of_off (h : i < p ∨ p + n ≤ i) : putWord b p v n i = b i := by
  induction n generalizing b p v with
  | zero => rfl
  | succ n ih =>
    rw [putWord, ih (by omega), Function.update_of_ne (by omega)]

theorem word_putWord (b : Bytes) (p v n : ℕ) : word (putWord b p v n) p n = v % 256 ^ n := by
  induction n generalizing b p v with
  | zero => rw [pow_zero, Nat.mod_one]; rfl
  | succ n ih =>
    have hlow : (BitVec.ofNat 8 v).toNat = v % 256 := BitVec.toNat_ofNat ..
    rw [word, putWord, ih, putWord_of_off (Or.inl (Nat.lt_succ_self p)), Function.update_self,
      hlow, pow_succ', Nat.mod_mul]

theorem word_putWord_of_off {m : ℕ} (h : q + m ≤ p ∨ p + n ≤ q) :
    word (putWord b p v n) q m = word b q m :=
  word_congr fun _ _ _ => putWord_of_off (by omega)

/-! ### Halves of bytes -/

/-- The half of a byte that the parity of `i` says. -/
def half (x : BitVec 8) (i : ℕ) : ℕ := if i % 2 = 0 then x.toNat % 16 else x.toNat / 16

/-- The memory, half a byte at a time, the low half first. -/
def nibble (b : Bytes) (i : ℕ) : ℕ := half (b (i / 2)) i

theorem nibble_update (b : Bytes) (p : ℕ) (x : BitVec 8) (i : ℕ) :
    nibble (Function.update b p x) i = if i / 2 = p then half x i else nibble b i := by
  by_cases h : i / 2 = p
  · rw [if_pos h, nibble, h, Function.update_self]
  · rw [if_neg h, nibble, Function.update_of_ne h]
    rfl

/-! ### Numbers of three halves -/

/-- Where the first byte of number `c` is. -/
def tripleAt (c : ℕ) : ℕ := c + c / 2

/-- Number `c`: an odd one begins with the upper half of its first byte. -/
def triple (b : Bytes) (c : ℕ) : ℕ :=
  if c % 2 = 1 then word b (tripleAt c) 2 / 16 else word b (tripleAt c) 2 % 4096

/-- The first byte of number `c` after `v` was stored. -/
def lowByte (x : BitVec 8) (c v : ℕ) : BitVec 8 :=
  BitVec.ofNat 8 (if c % 2 = 1 then x.toNat % 16 + 16 * (v % 16) else v)

/-- The second byte of number `c` after `v` was stored. -/
def highByte (x : BitVec 8) (c v : ℕ) : BitVec 8 :=
  BitVec.ofNat 8 (if c % 2 = 1 then v / 16 else x.toNat / 16 * 16 + v / 256 % 16)

/-- The first byte of `v` is stored. -/
def putLow (b : Bytes) (c v : ℕ) : Bytes :=
  Function.update b (tripleAt c) (lowByte (b (tripleAt c)) c v)

/-- The second byte of `v` is stored. -/
def putHigh (b : Bytes) (c v : ℕ) : Bytes :=
  Function.update b (tripleAt c + 1) (highByte (b (tripleAt c + 1)) c v)

theorem triple_eq_nibbles (b : Bytes) (c : ℕ) :
    triple b c = nibble b (3 * c) + 16 * nibble b (3 * c + 1) + 256 * nibble b (3 * c + 2) := by
  rcases Nat.even_or_odd' c with ⟨k, rfl | rfl⟩
  · have h0 := (b (3 * k)).isLt
    have h1 := (b (3 * k + 1)).isLt
    rw [triple, if_neg (by omega), tripleAt, show 2 * k + 2 * k / 2 = 3 * k by omega]
    simp only [word, nibble, half, show 3 * (2 * k) / 2 = 3 * k by omega,
      show (3 * (2 * k) + 1) / 2 = 3 * k by omega,
      show (3 * (2 * k) + 2) / 2 = 3 * k + 1 by omega,
      show 3 * (2 * k) % 2 = 0 by omega, show ¬ (3 * (2 * k) + 1) % 2 = 0 by omega,
      show (3 * (2 * k) + 2) % 2 = 0 by omega, if_true, if_false]
    omega
  · have h0 := (b (3 * k + 1)).isLt
    have h1 := (b (3 * k + 2)).isLt
    rw [triple, if_pos (by omega), tripleAt, show 2 * k + 1 + (2 * k + 1) / 2 = 3 * k + 1 by omega]
    simp only [word, show 3 * k + 1 + 1 = 3 * k + 2 from rfl, nibble, half,
      show 3 * (2 * k + 1) / 2 = 3 * k + 1 by omega,
      show (3 * (2 * k + 1) + 1) / 2 = 3 * k + 2 by omega,
      show (3 * (2 * k + 1) + 2) / 2 = 3 * k + 2 by omega,
      show ¬ 3 * (2 * k + 1) % 2 = 0 by omega, show (3 * (2 * k + 1) + 1) % 2 = 0 by omega,
      show ¬ (3 * (2 * k + 1) + 2) % 2 = 0 by omega, if_true, if_false]
    omega

/-- The halves that belong to number `c`. -/
def Own (c i : ℕ) : Prop := i / 3 = c

/-- The first store changes halves of number `c` only. -/
theorem nibble_putLow_of_off (h : ¬ Own c i) : nibble (putLow b c v) i = nibble b i := by
  unfold Own at h
  have hx := (b (tripleAt c)).isLt
  rw [putLow, nibble_update]
  by_cases hi : i / 2 = tripleAt c
  · -- the other half of an odd number's first byte, which stays
    have hodd : c % 2 = 1 ∧ i % 2 = 0 := by
      unfold tripleAt at hi
      omega
    rw [if_pos hi, nibble, hi, half, half, if_pos hodd.2, if_pos hodd.2, lowByte, if_pos hodd.1,
      BitVec.toNat_ofNat]
    omega
  · rw [if_neg hi]

theorem nibble_putHigh_of_off (h : ¬ Own c i) : nibble (putHigh b c v) i = nibble b i := by
  unfold Own at h
  have hx := (b (tripleAt c + 1)).isLt
  rw [putHigh, nibble_update]
  by_cases hi : i / 2 = tripleAt c + 1
  · -- the other half of an even number's second byte, which stays
    have heven : c % 2 = 0 ∧ i % 2 = 1 := by
      unfold tripleAt at hi
      omega
    rw [if_pos hi, nibble, hi, half, half, if_neg (by omega), if_neg (by omega), highByte,
      if_neg (by omega), BitVec.toNat_ofNat]
    omega
  · rw [if_neg hi]

theorem triple_putLow_of_ne (h : d ≠ c) : triple (putLow b c v) d = triple b d := by
  rw [triple_eq_nibbles, triple_eq_nibbles]
  have hoff : ∀ k < 3, ¬ Own c (3 * d + k) := fun k hk => by unfold Own; omega
  rw [show 3 * d = 3 * d + 0 by omega, nibble_putLow_of_off (hoff 0 (by omega)),
    nibble_putLow_of_off (hoff 1 (by omega)), nibble_putLow_of_off (hoff 2 (by omega))]

theorem triple_putHigh_of_ne (h : d ≠ c) : triple (putHigh b c v) d = triple b d := by
  rw [triple_eq_nibbles, triple_eq_nibbles]
  have hoff : ∀ k < 3, ¬ Own c (3 * d + k) := fun k hk => by unfold Own; omega
  rw [show 3 * d = 3 * d + 0 by omega, nibble_putHigh_of_off (hoff 0 (by omega)),
    nibble_putHigh_of_off (hoff 1 (by omega)), nibble_putHigh_of_off (hoff 2 (by omega))]

/-- Both bytes stored, number `c` is `v`. -/
theorem triple_put (b : Bytes) (c v : ℕ) : triple (putHigh (putLow b c v) c v) c = v % 4096 := by
  have hx := (b (tripleAt c)).isLt
  have hy := (b (tripleAt c + 1)).isLt
  have hne : tripleAt c + 1 ≠ tripleAt c := by omega
  have h0 : putHigh (putLow b c v) c v (tripleAt c) = lowByte (b (tripleAt c)) c v := by
    rw [putHigh, Function.update_of_ne hne.symm, putLow, Function.update_self]
  have h1 : putHigh (putLow b c v) c v (tripleAt c + 1) = highByte (b (tripleAt c + 1)) c v := by
    rw [putHigh, Function.update_self, putLow, Function.update_of_ne hne]
  rw [triple]
  simp only [word, h0, h1, lowByte, highByte, BitVec.toNat_ofNat]
  split <;> omega

theorem triple_congr (h0 : b' (tripleAt c) = b (tripleAt c))
    (h1 : b' (tripleAt c + 1) = b (tripleAt c + 1)) : triple b' c = triple b c := by
  simp only [triple, word, h0, h1]

theorem triple_lt (b : Bytes) (c : ℕ) : triple b c < 4096 := by
  have h := word_lt b (tripleAt c) 2
  rw [triple]
  split <;> omega

end PackedTable
