/-
A queue in a ring of cells with cycle bits.

One side writes the cells one after the other, around and around, and the other side reads
them.  Neither can see where the other is: every entry carries a bit that changes from lap
to lap, and a cell is new to the reader if its bit is the one of the reader's lap.

* `cycleAt` — the bit of an entry;
* `Holds` — the cells after the entries of a list were written;
* `Holds.write`, `Holds.read`, `Holds.overrun` — what the two sides do and see.

The reader is at most one lap behind, or it does not see what it should.
-/
import Mathlib.Data.List.Induction
import Mathlib.Tactic.Ring
import Mathlib.Logic.Function.Basic
import Mathlib.Data.Nat.Notation

namespace CycleRing

variable {A : Type} {n p q c : ℕ}

/-- The bit of entry `p`: the first lap has ones. -/
def cycleAt (n p : ℕ) : Bool := decide (p / n % 2 = 0)

theorem cycleAt_of_lt (hp : p < n) : cycleAt n p = true := by
  rw [cycleAt, Nat.div_eq_of_lt hp]
  rfl

theorem cycleAt_add (hn : 0 < n) (p : ℕ) : cycleAt n (p + n) = !cycleAt n p := by
  rw [cycleAt, cycleAt, Nat.add_div_right p hn]
  rcases Nat.mod_two_eq_zero_or_one (p / n) with h | h
  · rw [Nat.succ_mod_two_eq_one_iff.mpr h, h]
    rfl
  · rw [Nat.succ_mod_two_eq_zero_iff.mpr h, h]
    rfl

theorem succ_mod (hn : 0 < n) (p : ℕ) : (p + 1) % n = if p % n = n - 1 then 0 else p % n + 1 := by
  have hlt := Nat.mod_lt p hn
  have hsplit := Nat.mod_add_div p n
  rw [show p + 1 = p % n + 1 + n * (p / n) by omega, Nat.add_mul_mod_self_left]
  split_ifs with hlast
  · rw [hlast, Nat.sub_add_cancel hn, Nat.mod_self]
  · exact Nat.mod_eq_of_lt (by omega)

theorem succ_div (hn : 0 < n) (p : ℕ) :
    (p + 1) / n = if p % n = n - 1 then p / n + 1 else p / n := by
  have hlt := Nat.mod_lt p hn
  have hsplit := Nat.mod_add_div p n
  rw [show p + 1 = p % n + 1 + n * (p / n) by omega, Nat.add_mul_div_left _ _ hn]
  split_ifs with hlast
  · rw [hlast, Nat.sub_add_cancel hn, Nat.div_self hn, Nat.add_comm]
  · rw [Nat.div_eq_of_lt (by omega), Nat.zero_add]

/-- The bit changes behind the last cell. -/
theorem cycleAt_succ (hn : 0 < n) (p : ℕ) :
    cycleAt n (p + 1) = if p % n = n - 1 then !cycleAt n p else cycleAt n p := by
  have hlt := Nat.mod_lt p hn
  split_ifs with hlast
  · have hnext : (p + 1) / n = (p + n) / n := by
      rw [succ_div hn, if_pos hlast, Nat.add_div_right p hn]
    rw [← cycleAt_add hn, cycleAt, hnext]
    rfl
  · rw [cycleAt, succ_div hn, if_neg hlast]
    rfl

/-- Entries less than a lap apart are in different cells. -/
theorem mod_ne (hlt : p < q) (hq : q < p + n) : q % n ≠ p % n := by
  intro heq
  have hdvd : n ∣ q - p := Nat.dvd_of_mod_eq_zero (Nat.sub_mod_eq_zero_of_mod_eq heq)
  have hle := Nat.le_of_dvd (by omega) hdvd
  omega

/-- The cells, with their bits, after the entries `sent` were written. -/
structure Holds (n : ℕ) (cells : ℕ → A × Bool) (sent : List A) : Prop where
  pos : 0 < n
  /-- The last lap is there. -/
  entry : ∀ p a, sent[p]? = some a → sent.length ≤ p + n → cells (p % n) = (a, cycleAt n p)
  /-- The bit of a cell is not the one that it gets next. -/
  bit : ∀ p, sent.length ≤ p → p < sent.length + n → (cells (p % n)).2 = !cycleAt n p

variable {cells : ℕ → A × Bool} {sent : List A}

/-- At first all bits are zero. -/
theorem Holds.nil (hn : 0 < n) (hcells : ∀ i < n, (cells i).2 = false) : Holds n cells [] where
  pos := hn
  entry := by simp
  bit := by
    intro p _ hp
    rw [List.length_nil, Nat.zero_add] at hp
    rw [Nat.mod_eq_of_lt hp, hcells p hp, cycleAt_of_lt hp]
    rfl

theorem getElem?_concat_cases {a b : A} (h : (sent ++ [a])[p]? = some b) :
    sent[p]? = some b ∨ p = sent.length ∧ b = a := by
  by_cases hp : p = sent.length
  · rw [hp, List.getElem?_concat_length] at h
    exact Or.inr ⟨hp, (Option.some.inj h).symm⟩
  · have hlen := (List.getElem?_eq_some_iff.mp h).1
    rw [List.length_append, List.length_singleton] at hlen
    rw [List.getElem?_append_left (by omega)] at h
    exact Or.inl h

/-- An entry is written to the next cell. -/
theorem Holds.write (h : Holds n cells sent) (a : A) :
    Holds n (Function.update cells (sent.length % n) (a, cycleAt n sent.length)) (sent ++ [a]) where
  pos := h.pos
  entry := by
    intro p b hb hp
    rw [List.length_append, List.length_singleton] at hp
    rcases getElem?_concat_cases hb with hb | ⟨rfl, rfl⟩
    · have hlt := (List.getElem?_eq_some_iff.mp hb).1
      rw [Function.update_of_ne (mod_ne hlt (by omega)).symm]
      exact h.entry p b hb (by omega)
    · rw [Function.update_self]
  bit := by
    intro p hp hlt
    rw [List.length_append, List.length_singleton] at hp hlt
    by_cases hlap : p = sent.length + n
    · subst hlap
      rw [Nat.add_mod_right, Function.update_self, cycleAt_add h.pos, Bool.not_not]
    · rw [Function.update_of_ne (mod_ne hp (by omega))]
      exact h.bit p (by omega) (by omega)

/-- The next cell is never taken for one that was written already. -/
theorem Holds.room (h : Holds n cells sent) :
    (cells (sent.length % n)).2 ≠ cycleAt n sent.length := by
  rw [h.bit _ le_rfl (Nat.lt_add_of_pos_right h.pos)]
  exact Bool.not_ne_self _

/-- **Less than a lap behind, the reader sees what was written, and where it ends.** -/
theorem Holds.read (h : Holds n cells sent) (hc : c ≤ sent.length) (hlap : sent.length ≤ c + n) :
    ((cells (c % n)).2 = cycleAt n c ↔ c < sent.length) ∧
      (c < sent.length → sent[c]? = some (cells (c % n)).1) := by
  by_cases hlt : c < sent.length
  · have hcell := h.entry c _ (List.getElem?_eq_getElem hlt) hlap
    rw [hcell]
    exact ⟨iff_of_true rfl hlt, fun _ => List.getElem?_eq_getElem hlt⟩
  · obtain rfl : c = sent.length := by omega
    exact ⟨iff_of_false h.room hlt, fun h => absurd h hlt⟩

/-- **More than a lap behind, the reader finds nothing.** -/
theorem Holds.overrun (h : Holds n cells sent) (hover : c + n < sent.length)
    (hlap : sent.length ≤ c + n + n) : (cells (c % n)).2 ≠ cycleAt n c := by
  have hcell := h.entry (c + n) _ (List.getElem?_eq_getElem hover) hlap
  rw [Nat.add_mod_right] at hcell
  rw [hcell, cycleAt_add h.pos]
  exact Bool.not_ne_self _

/-! ### Laps with one entry that does not count -/

/-- Where the last cell of each lap has a mark, the other entries are counted. -/
theorem length_unmarked (hn : 0 < n) {mark : A → Bool}
    (hmark : ∀ p a, sent[p]? = some a → (mark a = true ↔ p % n = n - 1)) :
    (sent.filter fun a => !mark a).length + sent.length / n = sent.length := by
  induction sent using List.reverseRecOn with
  | nil => rw [List.filter_nil, List.length_nil, Nat.zero_div]
  | append_singleton sent a ih =>
    have ih := ih fun p b hb => hmark p b (by
      rw [List.getElem?_append_left (List.getElem?_eq_some_iff.mp hb).1]
      exact hb)
    have hlast := hmark sent.length a List.getElem?_concat_length
    rw [List.filter_append, List.length_append, List.length_append, List.length_singleton,
      succ_div hn]
    by_cases ha : mark a = true
    · rw [if_pos (hlast.mp ha), List.filter_cons_of_neg (by simp [ha]), List.filter_nil,
        List.length_nil]
      omega
    · rw [if_neg (mt hlast.mpr ha), List.filter_cons_of_pos (by simp [ha]), List.filter_nil,
        List.length_singleton]
      omega

theorem add_div_le (hn : 0 < n) (a k : ℕ) : (a + k) / n ≤ a / n + k := by
  have hlt := Nat.lt_mul_div_succ a hn
  refine Nat.lt_succ_iff.mp ((Nat.div_lt_iff_lt_mul hn).mpr ?_)
  have hk : k ≤ k * n := Nat.le_mul_of_pos_right k hn
  calc a + k < n * (a / n + 1) + k * n := by omega
    _ = (a / n + k + 1) * n := by ring

/-- With no more than `n - 2` that count, the whole is not more than a lap. -/
theorem lap_of_count {d e : ℕ} (hn : 2 ≤ n) (hp : d + p / n = p) (hc : e + c / n = c)
    (hlag : d ≤ e + (n - 2)) : p ≤ c + n := by
  by_contra hlt
  have h1 := add_div_le (show 0 < n by omega) (c + n + 1) (p - (c + n + 1))
  have h2 := add_div_le (show 0 < n by omega) c 1
  have h3 : (c + n + 1) / n = (c + 1) / n + 1 := by
    rw [show c + n + 1 = c + 1 + n by omega, Nat.add_div_right _ (by omega)]
  rw [Nat.add_sub_cancel' (by omega)] at h1
  omega

end CycleRing
