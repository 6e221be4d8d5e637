/-
Numerals in a positional system.

`value` says which number a character stands for, and `read` is Horner's rule, with the most
significant digit in front.

* `Canonical base value n text` — `text` is a numeral of `n`, and has no leading zero;
* `canonical_digits` — the digits of a number, the last one first, are its canonical numeral;
* `Canonical.unique` — a numeral has one value.
-/
import Mathlib.Data.Nat.Digits.Lemmas

namespace Numerals

variable {α : Type}

/-- One more digit. -/
def readDigit (base : ℕ) (value : α → Option ℕ) (n : ℕ) (c : α) : Option ℕ :=
  (value c).bind fun d => if d < base then some (base * n + d) else none

/-- The number that a text stands for. -/
def read (base : ℕ) (value : α → Option ℕ) (text : List α) : Option ℕ :=
  text.foldlM (readDigit base value) 0

/-- A numeral of `n` without leading zeros. -/
structure Canonical (base : ℕ) (value : α → Option ℕ) (n : ℕ) (text : List α) : Prop where
  ne_nil : text ≠ []
  read_eq : read base value text = some n
  head : ∀ c rest, text = c :: rest → value c = some 0 → rest = []

variable {base d m n : ℕ} {value : α → Option ℕ} {char : ℕ → α} {text : List α} {c : α}
  {ds : List ℕ}

theorem Canonical.unique (hm : Canonical base value m text) (hn : Canonical base value n text) :
    m = n := Option.some.inj (hm.read_eq.symm.trans hn.read_eq)

theorem readDigit_of_value (hc : value c = some d) (hd : d < base) :
    readDigit base value n c = some (base * n + d) := by
  rw [readDigit, hc, Option.bind_some, if_pos hd]

/-- Digits, the least significant one first, that are written the other way round. -/
theorem read_reverse (hchar : ∀ d < base, value (char d) = some d) (hds : ∀ d ∈ ds, d < base) :
    read base value (ds.reverse.map char) = some (Nat.ofDigits base ds) := by
  induction ds with
  | nil => rfl
  | cons d ds ih =>
    have hd := hds d List.mem_cons_self
    have hrest := ih fun e he => hds e (List.mem_cons_of_mem d he)
    rw [read] at hrest ⊢
    rw [List.reverse_cons, List.map_append, List.map_singleton, List.foldlM_append, hrest]
    show ([char d]).foldlM (readDigit base value) (Nat.ofDigits base ds) = _
    rw [List.foldlM_cons, readDigit_of_value (hchar d hd) hd, Nat.ofDigits_cons, Nat.add_comm]
    rfl

theorem canonical_zero (hc : value c = some 0) (hbase : 0 < base) : Canonical base value 0 [c] := by
  refine ⟨List.cons_ne_nil c [], ?_, fun d rest htext _ => (List.cons.inj htext).2.symm⟩
  rw [read, List.foldlM_cons, readDigit_of_value hc hbase]
  rfl

/-- **The digits of a number are its canonical numeral.** -/
theorem canonical_digits (hbase : 1 < base) (hchar : ∀ d < base, value (char d) = some d)
    (hn : n ≠ 0) : Canonical base value n ((Nat.digits base n).reverse.map char) := by
  have hne : Nat.digits base n ≠ [] := Nat.digits_ne_nil_iff_ne_zero.mpr hn
  have hlt : ∀ d ∈ Nat.digits base n, d < base := fun d hd => Nat.digits_lt_base hbase hd
  refine ⟨?_, ?_, fun c rest htext hc => ?_⟩
  · rw [Ne, List.map_eq_nil_iff, List.reverse_eq_nil_iff]
    exact hne
  · rw [read_reverse hchar hlt, Nat.ofDigits_digits]
  · -- the digit in front is the last one, and so not zero
    have hfront : c = char ((Nat.digits base n).getLast hne) := by
      have hhead := congrArg List.head? htext
      rw [List.head?_map, List.head?_reverse, List.getLast?_eq_some_getLast hne] at hhead
      exact (Option.some.inj hhead).symm
    rw [hfront, hchar _ (hlt _ (List.getLast_mem hne))] at hc
    exact absurd (Option.some.inj hc) (Nat.getLast_digit_ne_zero base hn)

end Numerals
