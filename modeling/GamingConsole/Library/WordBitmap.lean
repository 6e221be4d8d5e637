/-
Bitmaps stored in machine words.

`ws : List (BitVec w)` is read as one long row of bits, bit `i` being bit
`i % w` of word `i / w`.  Setting and clearing a bit touch one word; the lemmas
say what that does to the row:

* `bit_setBit`, `bit_clearBit` — exactly one bit of the row changes;
* `ext_bit` — a bitmap of known length is determined by its row;
* `getLsbD_ctz_not` — where a word is not full, counting trailing ones finds its
  first clear bit;
* `count_bit_succ` — counting the set bits of the row a word at a time.
-/
import GamingConsole.Library.BitFields
import Mathlib.Data.Nat.Count

namespace WordBitmap

open BitFields

variable {w : ℕ}

/-- Word `k` of the bitmap, `0` past its end. -/
def word (ws : List (BitVec w)) (k : ℕ) : BitVec w := ws.getD k 0

/-- Bit `i` of the row. -/
def bit (ws : List (BitVec w)) (i : ℕ) : Bool := (word ws (i / w)).getLsbD (i % w)

/-- Set bit `i` of the row. -/
def setBit (ws : List (BitVec w)) (i : ℕ) : List (BitVec w) :=
  ws.set (i / w) (word ws (i / w) ||| 1#w <<< (i % w))

/-- Clear bit `i` of the row. -/
def clearBit (ws : List (BitVec w)) (i : ℕ) : List (BitVec w) :=
  ws.set (i / w) (word ws (i / w) &&& ~~~(1#w <<< (i % w)))

@[simp] theorem length_setBit (ws : List (BitVec w)) (i : ℕ) :
    (setBit ws i).length = ws.length := by simp [setBit]

@[simp] theorem length_clearBit (ws : List (BitVec w)) (i : ℕ) :
    (clearBit ws i).length = ws.length := by simp [clearBit]

theorem word_set (ws : List (BitVec w)) {k : ℕ} (hk : k < ws.length) (v : BitVec w) (j : ℕ) :
    word (ws.set k v) j = if j = k then v else word ws j := by
  rw [word, word, List.getD_eq_getElem?_getD, List.getD_eq_getElem?_getD, List.getElem?_set]
  by_cases hj : j = k
  · subst hj
    simp [hk]
  · rw [if_neg (fun h => hj h.symm), if_neg hj]

theorem getLsbD_one_shiftLeft (s i : ℕ) (hs : s < w) :
    (1#w <<< s).getLsbD i = decide (i = s) := by
  rw [BitVec.getLsbD_shiftLeft]
  by_cases hi : i = s
  · subst hi
    simp [hs, show 0 < w by omega]
  · by_cases hlt : i < s
    · simp [hi, hlt]
    · have h1 : i - s ≠ 0 := by omega
      simp [hlt, hi, h1]

/-- Testing one bit of a word the way C does. -/
theorem and_one_shiftLeft_ne_zero (x : BitVec w) {s : ℕ} (hs : s < w) :
    x &&& 1#w <<< s ≠ 0 ↔ x.getLsbD s = true := by
  constructor
  · intro h
    by_contra hx
    refine h (BitVec.eq_of_getLsbD_eq fun i _ => ?_)
    rw [BitVec.getLsbD_and, getLsbD_one_shiftLeft s i hs]
    by_cases hi : i = s
    · subst hi
      simp [hx]
    · simp [hi]
  · intro hx h
    have := congrArg (fun y => y.getLsbD s) h
    simp only [BitVec.getLsbD_and, getLsbD_one_shiftLeft s s hs, hx] at this
    simp at this

variable {ws : List (BitVec w)} {i : ℕ}

theorem div_lt_length (hi : i < w * ws.length) : i / w < ws.length := by
  rw [Nat.div_lt_iff_lt_mul]
  · rwa [Nat.mul_comm]
  · rcases w with _ | w
    · omega
    · exact Nat.succ_pos w

theorem bit_set_word (hi : i < w * ws.length) (v : BitVec w) (j : ℕ) :
    bit (ws.set (i / w) v) j = if j / w = i / w then v.getLsbD (j % w) else bit ws j := by
  rw [bit, word_set ws (div_lt_length hi)]
  by_cases hj : j / w = i / w
  · rw [if_pos hj, if_pos hj]
  · rw [if_neg hj, if_neg hj, bit]

/-- Two bit positions in one word are told apart by their remainders. -/
theorem eq_iff_of_div_eq {i j : ℕ} (h : j / w = i / w) : j % w = i % w ↔ j = i := by
  constructor
  · intro hm
    rw [← Nat.div_add_mod j w, ← Nat.div_add_mod i w, h, hm]
  · rintro rfl
    rfl

/-- A word that differs from the old one in one bit at most. -/
theorem bit_set_word_of_bit (hw : 0 < w) (hi : i < w * ws.length) {v : BitVec w} {b : Bool}
    (hv : ∀ k < w, v.getLsbD k = if k = i % w then b else (word ws (i / w)).getLsbD k) (j : ℕ) :
    bit (ws.set (i / w) v) j = if j = i then b else bit ws j := by
  rw [bit_set_word hi]
  by_cases hj : j / w = i / w
  · rw [if_pos hj, hv _ (Nat.mod_lt j hw), bit, hj]
    exact if_congr (eq_iff_of_div_eq hj) rfl rfl
  · rw [if_neg hj, if_neg (fun h => hj (by rw [h]))]

theorem bit_setBit (hw : 0 < w) (hi : i < w * ws.length) (j : ℕ) :
    bit (setBit ws i) j = if j = i then true else bit ws j := by
  refine bit_set_word_of_bit hw hi (fun k _ => ?_) j
  rw [BitVec.getLsbD_or, getLsbD_one_shiftLeft _ _ (Nat.mod_lt i hw)]
  by_cases hk : k = i % w
  · simp [hk]
  · simp [hk]

theorem bit_clearBit (hw : 0 < w) (hi : i < w * ws.length) (j : ℕ) :
    bit (clearBit ws i) j = if j = i then false else bit ws j := by
  refine bit_set_word_of_bit hw hi (fun k hkw => ?_) j
  rw [BitVec.getLsbD_and, BitVec.getLsbD_not, getLsbD_one_shiftLeft _ _ (Nat.mod_lt i hw)]
  by_cases hk : k = i % w
  · simp [hk]
  · simp [hk, hkw]

/-- A bitmap is determined by its length and its row of bits. -/
theorem ext_bit (hw : 0 < w) {ws ws' : List (BitVec w)} (hlen : ws.length = ws'.length)
    (h : ∀ i, bit ws i = bit ws' i) : ws = ws' := by
  refine List.ext_getElem hlen fun k hk hk' => BitVec.eq_of_getLsbD_eq fun b hb => ?_
  have hdiv : (w * k + b) / w = k := by
    rw [Nat.mul_add_div hw, Nat.div_eq_of_lt hb, Nat.add_zero]
  have hmod : (w * k + b) % w = b := by
    rw [Nat.mul_add_mod, Nat.mod_eq_of_lt hb]
  have hbit := h (w * k + b)
  rw [bit, bit, hdiv, hmod, word, word, List.getD_eq_getElem _ _ hk,
    List.getD_eq_getElem _ _ hk'] at hbit
  exact hbit

/-! ### Scanning for a clear bit -/

theorem not_ne_zero_of_ne_allOnes {x : BitVec w} (hx : x ≠ BitVec.allOnes w) : ~~~x ≠ 0 := by
  intro h
  refine hx ?_
  rw [← BitVec.not_not (b := x), h]
  exact BitVec.not_zero

/-- In a word that is not full, the lowest set bit of the complement is the
lowest clear bit. -/
theorem getLsbD_ctz_not {x : BitVec w} (hx : x ≠ BitVec.allOnes w) :
    ctz (~~~x) < w ∧ x.getLsbD (ctz (~~~x)) = false ∧
      ∀ b < ctz (~~~x), x.getLsbD b = true := by
  have hne := not_ne_zero_of_ne_allOnes hx
  have hlt := ctz_lt_of_ne_zero hne
  refine ⟨hlt, ?_, fun b hb => ?_⟩
  · have := getLsbD_ctz hne
    rw [BitVec.getLsbD_not] at this
    simpa [hlt] using this
  · have := getLsbD_of_lt_ctz hb
    rw [BitVec.getLsbD_not] at this
    simpa [show b < w by omega] using this

theorem bit_full_word (hw : 0 < w) {k j : ℕ} (hk : word ws k = BitVec.allOnes w)
    (hj : j / w = k) : bit ws j = true := by
  rw [bit, hj, hk]
  simp [Nat.mod_lt j hw]

/-! ### Counting set bits -/

theorem toNat_cpop_eq_count (x : BitVec w) :
    x.cpop.toNat = Nat.count (fun i => x.getLsbD i = true) w := by
  have hcount : ∀ k, x.cpopNatRec k 0 = Nat.count (fun i => x.getLsbD i = true) k := by
    intro k
    induction k with
    | zero => rfl
    | succ k ih =>
      rw [BitVec.cpopNatRec_succ, BitVec.cpopNatRec_add, ih, Nat.count_succ]
      cases x.getLsbD k <;> rfl
  rw [BitVec.toNat_cpop, hcount]

/-- One more word of the row. -/
theorem count_bit_succ (n : ℕ) : Nat.count (fun i => bit ws i = true) (w * (n + 1))
    = Nat.count (fun i => bit ws i = true) (w * n) + (word ws n).cpop.toNat := by
  rw [Nat.mul_succ, Nat.count_add, toNat_cpop_eq_count, Nat.count, Nat.count]
  congr 1
  refine List.countP_congr fun j hj => ?_
  rw [List.mem_range] at hj
  have hw : 0 < w := by omega
  rw [bit, Nat.mul_add_div hw, Nat.div_eq_of_lt hj, Nat.mul_add_mod, Nat.mod_eq_of_lt hj,
    Nat.add_zero]

end WordBitmap
