/-
Images in byte memory.

A `Raster` is a rectangle of 32-bit pixels whose lines start `pitch` bytes apart; that
a line's pixels fit between two starts is a field.  The pixels are then independent
variables: `get_set` is the law of a store, `get_move` that of a scroll by whole lines,
and the lines need not be aligned for either.

`foldl_range` is the rule for the loops that draw: what every round keeps, the loop keeps.
-/
import Mathlib.Data.List.Basic
import Mathlib.Tactic.Ring

namespace Raster

/-- Bytes by address. -/
abbrev Bytes : Type := ℕ → BitVec 8

/-! ### Words in memory -/

/-- The four bytes of a word, the low one first. -/
def store32 (m : Bytes) (a : ℕ) (w : BitVec 32) : Bytes := fun b =>
  if a ≤ b ∧ b < a + 4 then w.extractLsb' (8 * (b - a)) 8 else m b

/-- The word at an address. -/
def load32 (m : Bytes) (a : ℕ) : BitVec 32 := m (a + 3) ++ m (a + 2) ++ m (a + 1) ++ m a

/-- `memmove`: `len` bytes from `src` on, copied as if at once. -/
def move (m : Bytes) (dst src len : ℕ) : Bytes := fun b =>
  if dst ≤ b ∧ b < dst + len then m (b - dst + src) else m b

variable {m m' : Bytes} {a b : ℕ} {w : BitVec 32}

theorem load32_congr (h : ∀ k < 4, m (a + k) = m' (b + k)) : load32 m a = load32 m' b := by
  rw [load32, load32, h 3 (by omega), h 2 (by omega), h 1 (by omega)]
  rw [show m a = m' b from h 0 (by omega)]

theorem load32_store32_self : load32 (store32 m a w) a = w := by
  have hbyte : ∀ k < 4, store32 m a w (a + k) = w.extractLsb' (8 * k) 8 := by
    intro k hk
    rw [store32, if_pos (by omega), Nat.add_sub_cancel_left]
  rw [load32, hbyte 3 (by omega), hbyte 2 (by omega), hbyte 1 (by omega)]
  rw [show store32 m a w a = w.extractLsb' 0 8 from hbyte 0 (by omega)]
  apply BitVec.eq_of_getLsbD_eq
  intro i hi
  simp only [BitVec.getLsbD_append, BitVec.getLsbD_extractLsb']
  by_cases h0 : i < 8
  · simp [h0]
  · by_cases h1 : i < 16
    · simp [h0, show i - 8 < 8 by omega, show 8 + (i - 8) = i by omega]
    · by_cases h2 : i < 24
      · simp [h0, show ¬ i - 8 < 8 by omega, show i - 8 - 8 < 8 by omega,
          show 16 + (i - 8 - 8) = i by omega]
      · simp [h0, show ¬ i - 8 < 8 by omega, show ¬ i - 8 - 8 < 8 by omega,
          show i - 8 - 8 - 8 < 8 by omega, show 24 + (i - 8 - 8 - 8) = i by omega]

theorem load32_store32_of_disjoint (h : a + 4 ≤ b ∨ b + 4 ≤ a) :
    load32 (store32 m a w) b = load32 m b :=
  load32_congr fun k hk => if_neg (by omega)

theorem load32_move {dst src len : ℕ} (hle : dst ≤ a) (hlt : a + 4 ≤ dst + len) :
    load32 (move m dst src len) a = load32 m (a - dst + src) := by
  refine load32_congr fun k hk => ?_
  rw [move, if_pos (by omega)]
  congr 1
  omega

end Raster

/-! ### Pixels -/

/-- Lines of `width` pixels, `pitch` bytes apart. -/
structure Raster where
  base : ℕ
  pitch : ℕ
  width : ℕ
  fits : 4 * width ≤ pitch

namespace Raster

variable (L : Raster)

/-- The address of a pixel. -/
def addr (x y : ℕ) : ℕ := L.base + y * L.pitch + 4 * x

/-- The colour of a pixel. -/
def get (m : Bytes) (x y : ℕ) : BitVec 32 := load32 m (L.addr x y)

/-- Colour one pixel. -/
def set (m : Bytes) (x y : ℕ) (w : BitVec 32) : Bytes := store32 m (L.addr x y) w

variable {L} {m : Bytes} {w : BitVec 32} {x x' y y' : ℕ}

/-- The lines are apart. -/
theorem line_lt (hx : x < L.width) (hy : y < y') : L.addr x y + 4 ≤ L.base + y' * L.pitch := by
  have hfits := L.fits
  have hmul : (y + 1) * L.pitch ≤ y' * L.pitch := Nat.mul_le_mul_right _ hy
  rw [Nat.add_mul] at hmul
  rw [addr]
  omega

theorem addr_disjoint (hx : x < L.width) (hx' : x' < L.width) (hne : ¬ (x' = x ∧ y' = y)) :
    L.addr x y + 4 ≤ L.addr x' y' ∨ L.addr x' y' + 4 ≤ L.addr x y := by
  rcases lt_trichotomy y y' with hy | rfl | hy
  · have hline := line_lt hx hy
    rw [addr, addr] at *
    omega
  · rw [addr, addr]
    omega
  · have hline := line_lt hx' hy
    rw [addr, addr] at *
    omega

/-- **The pixels of a raster are independent of each other.** -/
theorem get_set (hx : x < L.width) (hx' : x' < L.width) :
    L.get (L.set m x y w) x' y' = if x' = x ∧ y' = y then w else L.get m x' y' := by
  by_cases h : x' = x ∧ y' = y
  · rw [if_pos h, h.1, h.2]
    exact load32_store32_self
  · rw [if_neg h]
    exact load32_store32_of_disjoint (addr_disjoint hx hx' h)

/-- Scrolling: the first `count` lines become those `n` lines below. -/
theorem get_move {n count : ℕ} (hx : x < L.width) (hy : y < count) :
    L.get (move m L.base (L.base + n * L.pitch) (count * L.pitch)) x y = L.get m x (y + n) := by
  have hline := line_lt hx hy
  rw [get, load32_move (by rw [addr]; omega) hline, get]
  congr 1
  rw [addr, addr, Nat.add_mul]
  omega

/-! ### Loops -/

/-- What holds before the loop and is carried from round to round holds after it. -/
theorem foldl_range {σ : Type} {f : σ → ℕ → σ} (P : ℕ → σ → Prop) {n : ℕ} {s : σ} (h0 : P 0 s)
    (hstep : ∀ i < n, ∀ s, P i s → P (i + 1) (f s i)) : P n ((List.range n).foldl f s) := by
  induction n with
  | zero => exact h0
  | succ n ih =>
    rw [List.range_succ, List.foldl_append, List.foldl_cons, List.foldl_nil]
    exact hstep n (by omega) _ (ih fun i hi s => hstep i (by omega) s)

end Raster
