/-
`uart_put_uint` and `uart_put_hex`: numbers on the serial line.

Both take a number apart into `value_buffer`, the least significant digit first, and send the
digits in the other order.  The largest number has 20 decimal digits, which is all that the
buffer holds.

* `decompose_digits` — the first loop stores the digits, and stays in the buffer;
* `replay_digits` — the second loop sends them;
* `uart_put_canonical` — what is sent is the canonical numeral, and tells the number.
-/
import GamingConsole.Sd
import GamingConsole.Library.Numerals

namespace GamingConsole

open Numerals

/-! ### The code -/

/-- `value_buffer`. -/
abbrev ValueBuffer : Type := Vector U64 20

/-- The loop that takes `val` apart, at `i = counter`: the buffer and `counter` behind it, or
`none` where it would write past the end. -/
def decompose (base : U64) (valueBuffer : ValueBuffer) (counter : ℕ) (val : U64) :
    Option (ValueBuffer × ℕ) :=
  if val = 0 then some (valueBuffer, counter)
  else if h : counter < 20 then
    decompose base (valueBuffer.set counter (val % base) h) (counter + 1) (val / base)
  else none
termination_by 20 - counter

/-- `print_helper`: the byte that it sends. -/
def printHelper (val : U64) : U8 :=
  (if val < 10 then 0x30 + val else 0x41 + val - 10).setWidth 8

/-- The loop that sends the digits, with `left = counter - i` of them to go. -/
def replay (valueBuffer : ValueBuffer) : ℕ → Option (List U8)
  | 0 => some []
  | left + 1 => do
    let digit ← valueBuffer[left]?
    let sent ← replay valueBuffer left
    some (printHelper digit :: sent)

/-- `uart_put_hex`: the bytes that it sends, with `value_buffer` as the call finds it. -/
def uartPutHex (valueBuffer : ValueBuffer) (val : U64) : Option (List U8) :=
  if val = 0 then some [0x30]
  else do
    let (valueBuffer, counter) ← decompose 16 valueBuffer 0 val
    let sent ← replay valueBuffer counter
    some (0x30 :: 0x78 :: sent)

/-- `uart_put_uint`. -/
def uartPutUint (valueBuffer : ValueBuffer) (val : U64) : Option (List U8) :=
  if val = 0 then some [0x30]
  else do
    let (valueBuffer, counter) ← decompose 10 valueBuffer 0 val
    replay valueBuffer counter

/-! ### The two loops -/

/-- The buffer holds these digits, from index `i` on. -/
def HoldsDigits (valueBuffer : ValueBuffer) (i : ℕ) (ds : List ℕ) : Prop :=
  ∀ k d, ds[k]? = some d → valueBuffer[i + k]? = some (BitVec.ofNat 64 d)

variable {base val : U64} {valueBuffer : ValueBuffer} {counter : ℕ} {ds : List ℕ}

/-- **The digits are stored in order, and what is before them stays.** -/
theorem decompose_digits (hbase : 1 < base.toNat) (valueBuffer : ValueBuffer) (counter : ℕ)
    (val : U64) (hroom : counter + (Nat.digits base.toNat val.toNat).length ≤ 20) :
    ∃ after, decompose base valueBuffer counter val =
        some (after, counter + (Nat.digits base.toNat val.toNat).length) ∧
      HoldsDigits after counter (Nat.digits base.toNat val.toNat) ∧
      ∀ k < counter, after[k]? = valueBuffer[k]? := by
  -- the digits of the quotient are those behind the first one, and go one cell further
  induction hds : Nat.digits base.toNat val.toNat generalizing counter val valueBuffer with
  | nil =>
    have hzero : val = 0 := by
      have h := Nat.digits_eq_nil_iff_eq_zero.mp hds
      exact BitVec.eq_of_toNat_eq h
    refine ⟨valueBuffer, ?_, fun k d hk => ?_, fun k _ => rfl⟩
    · rw [decompose, if_pos hzero]
      rfl
    · cases hk
  | cons d ds ih =>
    have hne : val.toNat ≠ 0 := by
      intro h
      rw [h, Nat.digits_zero] at hds
      cases hds
    have hval : ¬ val = 0 := fun h => hne (by rw [h]; rfl)
    rw [hds, List.length_cons] at hroom
    rw [Nat.digits_def' hbase (Nat.pos_of_ne_zero hne)] at hds
    obtain ⟨rfl, hrest⟩ := List.cons.inj hds
    have hquot : (val / base).toNat = val.toNat / base.toNat := BitVec.toNat_udiv
    rw [← hquot] at hrest
    obtain ⟨after, hloop, hholds, hsame⟩ := ih
      (valueBuffer.set counter (val % base) (by omega)) (counter + 1) (val / base)
      (by rw [hrest]; omega) hrest
    refine ⟨after, ?_, fun k d hk => ?_, fun k hk => ?_⟩
    · rw [decompose, if_neg hval, dif_pos (by omega), hloop, List.length_cons]
      congr 2
      omega
    · cases k with
      | zero =>
        -- the turns behind this one leave its cell alone
        have hdigit : BitVec.ofNat 64 d = val % base := by
          rw [← Option.some.inj hk, ← BitVec.toNat_umod, BitVec.ofNat_toNat, BitVec.setWidth_eq]
        rw [Nat.add_zero, hsame counter (by omega), Vector.getElem?_set_self (by omega), hdigit]
      | succ k =>
        have h := hholds k d hk
        rwa [Nat.add_assoc, Nat.add_comm 1 k] at h
    · rw [hsame k (by omega), Vector.getElem?_set_ne (by omega) hk.ne']

/-- **The digits are sent in the other order.** -/
theorem replay_digits (hholds : HoldsDigits valueBuffer 0 ds) :
    replay valueBuffer ds.length =
      some (ds.reverse.map fun d => printHelper (BitVec.ofNat 64 d)) := by
  induction ds using List.reverseRecOn with
  | nil => rfl
  | append_singleton ds d ih =>
    have hlast : valueBuffer[ds.length]? = some (BitVec.ofNat 64 d) := by
      have h := hholds ds.length d (by simp)
      rwa [Nat.zero_add] at h
    have hrest := ih fun k e hk => hholds k e (by
      rw [List.getElem?_append_left (List.getElem?_eq_some_iff.mp hk).1]
      exact hk)
    rw [List.length_append, List.length_singleton, replay, hlast, Option.bind_eq_bind,
      Option.bind_some, hrest, Option.bind_eq_bind, Option.bind_some, List.reverse_append,
      List.reverse_singleton, List.singleton_append, List.map_cons]

/-! ### What is sent -/

/-- The number that a character stands for. -/
def digitValue (c : U8) : Option ℕ :=
  if 0x30 ≤ c ∧ c ≤ 0x39 then some (c.toNat - 0x30)
  else if 0x41 ≤ c ∧ c ≤ 0x46 then some (c.toNat - 0x41 + 10)
  else none

theorem digitValue_printHelper :
    ∀ d < 16, digitValue (printHelper (BitVec.ofNat 64 d)) = some d := by decide

/-- A decimal numeral of `n`. -/
def IsDecimal (n : ℕ) (text : List U8) : Prop := Canonical 10 digitValue n text

/-- `0`, or `0x` and a hexadecimal numeral of `n`. -/
def IsHex (n : ℕ) (text : List U8) : Prop :=
  if n = 0 then text = [0x30]
  else ∃ digits, text = 0x30 :: 0x78 :: digits ∧ Canonical 16 digitValue n digits

/-- The two loops, one after the other. -/
theorem decompose_replay (base : U64) (hbase : 1 < base.toNat) (hchars : base.toNat ≤ 16)
    (hroom : (Nat.digits base.toNat val.toNat).length ≤ 20) (hval : val ≠ 0)
    (valueBuffer : ValueBuffer) :
    ∃ after counter sent, decompose base valueBuffer 0 val = some (after, counter) ∧
      replay after counter = some sent ∧ Canonical base.toNat digitValue val.toNat sent := by
  obtain ⟨after, hloop, hholds, -⟩ := decompose_digits hbase valueBuffer 0 val (by omega)
  rw [Nat.zero_add] at hloop
  refine ⟨after, _, _, hloop, replay_digits hholds, ?_⟩
  refine canonical_digits hbase (fun d hd => digitValue_printHelper d (by omega)) ?_
  exact fun h => hval (BitVec.eq_of_toNat_eq h)

/-- A 64-bit value has at most 20 digits. -/
theorem length_digits_le {b : ℕ} (hb : 10 ≤ b) (val : U64) :
    (Nat.digits b val.toNat).length ≤ 20 := by
  rw [Nat.digits_length_le_iff (by omega)]
  calc val.toNat < 2 ^ 64 := val.isLt
    _ < 10 ^ 20 := by decide
    _ ≤ b ^ 20 := Nat.pow_le_pow_left hb 20

theorem uartPutUint_decimal (valueBuffer : ValueBuffer) (val : U64) :
    ∃ text, uartPutUint valueBuffer val = some text ∧ IsDecimal val.toNat text := by
  by_cases hval : val = 0
  · refine ⟨[0x30], if_pos hval, ?_⟩
    rw [hval]
    exact canonical_zero rfl (by decide)
  · obtain ⟨after, counter, sent, hloop, hsent, hcanonical⟩ :=
      decompose_replay 10 (by decide) (by decide)
      (length_digits_le (by decide) val) hval valueBuffer
    refine ⟨sent, ?_, hcanonical⟩
    rw [uartPutUint, if_neg hval, hloop]
    exact hsent

theorem uartPutHex_hex (valueBuffer : ValueBuffer) (val : U64) :
    ∃ text, uartPutHex valueBuffer val = some text ∧ IsHex val.toNat text := by
  by_cases hval : val = 0
  · refine ⟨[0x30], if_pos hval, ?_⟩
    rw [hval]
    rfl
  · have hne : val.toNat ≠ 0 := fun h => hval (BitVec.eq_of_toNat_eq h)
    obtain ⟨after, counter, sent, hloop, hsent, hcanonical⟩ :=
      decompose_replay 16 (by decide) (by decide)
      (length_digits_le (by decide) val) hval valueBuffer
    refine ⟨0x30 :: 0x78 :: sent, ?_, ?_⟩
    · rw [uartPutHex, if_neg hval, hloop]
      show (replay after counter).bind _ = _
      rw [hsent]
      rfl
    · rw [IsHex, if_neg hne]
      exact ⟨sent, rfl, hcanonical⟩

theorem IsHex.unique {m n : ℕ} {text : List U8} (hm : IsHex m text) (hn : IsHex n text) :
    m = n := by
  rw [IsHex] at hm hn
  -- the text of `0` is one character, and any other has the two of `0x` in front
  split at hm
  · split at hn
    · omega
    · obtain ⟨digits, htext, -⟩ := hn
      rw [hm] at htext
      cases htext
  · obtain ⟨digits, rfl, hdigits⟩ := hm
    split at hn
    · cases hn
    · obtain ⟨digits', htext, hdigits'⟩ := hn
      cases htext
      exact hdigits.unique hdigits'

/-- **Numbers are sent as their canonical numerals, within the buffer, and can be told apart.** -/
theorem uart_put_canonical (before before' : ValueBuffer) (val val' : U64) :
    (∃ text, uartPutUint before val = some text ∧ IsDecimal val.toNat text) ∧
      (∃ text, uartPutHex before val = some text ∧ IsHex val.toNat text) ∧
      (uartPutUint before val = uartPutUint before' val' → val = val') ∧
      (uartPutHex before val = uartPutHex before' val' → val = val') := by
  obtain ⟨dec, hdec, hdecimal⟩ := uartPutUint_decimal before val
  obtain ⟨dec', hdec', hdecimal'⟩ := uartPutUint_decimal before' val'
  obtain ⟨hex, hhex, hishex⟩ := uartPutHex_hex before val
  obtain ⟨hex', hhex', hishex'⟩ := uartPutHex_hex before' val'
  refine ⟨⟨dec, hdec, hdecimal⟩, ⟨hex, hhex, hishex⟩, fun heq => ?_, fun heq => ?_⟩
  · rw [hdec, hdec', Option.some_inj] at heq
    subst heq
    exact BitVec.eq_of_toNat_eq (hdecimal.unique hdecimal')
  · rw [hhex, hhex', Option.some_inj] at heq
    subst heq
    exact BitVec.eq_of_toNat_eq (hishex.unique hishex')

end GamingConsole
