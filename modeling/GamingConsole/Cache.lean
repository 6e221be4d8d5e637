/-
Cache maintenance on a buffer.

`cache_clean` and `cache_invalidate` round the buffer's start down and its end up, and issue an
operation for every cache line in between.  The line size is a power of two that the
processor's cache type register tells.

* `Meets` — a line has a byte of the buffer;
* `mem_lines_iff` — the lines between the rounded ends are those that meet the buffer, and for
  an empty buffer that starts inside of a line, that line;
* `maintain_lines` — the loop ends, with one operation for each of them;
* `cache_lines_exact` — so for `cache_clean` and `cache_invalidate`.
-/
import GamingConsole.Board
import GamingConsole.Library.BitFields

namespace GamingConsole

open BitFields

/-! ### The code -/

/-- The instructions that are issued. -/
inductive CacheOp where
  | cvac (va : U64)
  | ivac (va : U64)
  | dsb
  deriving DecidableEq

/-- `cache_line_size`, with `CTR_EL0`. -/
def cacheLineSize (ctr : U64) : U64 := (4 : U64) <<< ((ctr >>> 16) &&& 0xF)

/-- `for (va = start; va < end; va += line)`; `none` where it is still running. -/
def maintain (op : U64 → CacheOp) (line stop : U64) : ℕ → U64 → Option (List CacheOp)
  | 0, _ => none
  | fuel + 1, va =>
    if va < stop then (maintain op line stop fuel (va + line)).map (op va :: ·) else some []

/-- What `cache_clean` and `cache_invalidate` do, each with its own operation. -/
def maintainRange (op : U64 → CacheOp) (ctr addr size : U64) (fuel : ℕ) : Option (List CacheOp) :=
  let line := cacheLineSize ctr
  let start := addr &&& ~~~(line - 1)
  let stop := (addr + size + line - 1) &&& ~~~(line - 1)
  (maintain op line stop fuel start).map (· ++ [.dsb])

/-- `cache_clean`. -/
def cacheClean : U64 → U64 → U64 → ℕ → Option (List CacheOp) := maintainRange .cvac

/-- `cache_invalidate`. -/
def cacheInvalidate : U64 → U64 → U64 → ℕ → Option (List CacheOp) := maintainRange .ivac

/-- `CleanAndInvalidateDataCacheRange`. -/
def cleanAndInvalidateDataCacheRange (ctr nAddress nLength : U64) (fuel : ℕ) :
    Option (List CacheOp) := do
  let cleaned ← cacheClean ctr nAddress nLength fuel
  let invalidated ← cacheInvalidate ctr nAddress nLength fuel
  some (cleaned ++ invalidated)

/-! ### Lines -/

/-- The line with this number has a byte of the range. -/
def Meets (line addr size k : ℕ) : Prop := ∃ b, addr ≤ b ∧ b < addr + size ∧ b / line = k

/-- The line meets the range, or the range is empty and starts inside of the line. -/
def Covered (line addr size k : ℕ) : Prop :=
  Meets line addr size k ∨ (size = 0 ∧ ¬ line ∣ addr ∧ k = addr / line)

/-- The numbers of the lines between the rounded ends of a range. -/
def lines (line addr size : ℕ) : List ℕ :=
  List.range' (addr / line) ((addr + size + line - 1) / line - addr / line)

variable {line addr size k : ℕ}

theorem nodup_lines : (lines line addr size).Nodup := List.nodup_range'

theorem lt_roundUp_iff (hline : 0 < line) :
    k < (addr + size + line - 1) / line ↔ k * line < addr + size := by
  rw [Nat.lt_iff_add_one_le, Nat.le_div_iff_mul_le hline, Nat.add_mul]
  omega

theorem meets_iff (hline : 0 < line) :
    Meets line addr size k ↔ 0 < size ∧ addr / line ≤ k ∧ k * line < addr + size := by
  constructor
  · rintro ⟨b, hlow, hhigh, rfl⟩
    have hbelow := Nat.div_mul_le_self b line
    exact ⟨by omega, Nat.div_le_div_right hlow, by omega⟩
  · rintro ⟨hsize, hlow, hhigh⟩
    by_cases hstart : addr ≤ k * line
    · -- the line starts in the range
      exact ⟨k * line, hstart, hhigh, Nat.mul_div_cancel k hline⟩
    · -- the range starts in the line
      have habove : addr / line ≤ k := hlow
      have hbelow : k ≤ addr / line := (Nat.le_div_iff_mul_le hline).mpr (by omega)
      exact ⟨addr, Nat.le_refl _, by omega, by omega⟩

/-- **The lines between the rounded ends of a range are those that it meets; an empty range that
starts inside of a line has that line.** -/
theorem mem_lines_iff (hline : 0 < line) :
    k ∈ lines line addr size ↔ Covered line addr size k := by
  have hrange : k ∈ lines line addr size ↔ addr / line ≤ k ∧ k * line < addr + size := by
    rw [lines, List.mem_range'_1, ← lt_roundUp_iff hline]
    omega
  rw [hrange, Covered, meets_iff hline]
  by_cases hsize : size = 0
  · -- the rounded ends are equal, or one line apart around the address
    subst hsize
    have hbelow := Nat.div_mul_le_self addr line
    constructor
    · rintro ⟨hlow, hhigh⟩
      have hk : k = addr / line := by
        have h : k ≤ addr / line := (Nat.le_div_iff_mul_le hline).mpr (by omega)
        omega
      refine Or.inr ⟨rfl, fun hdvd => ?_, hk⟩
      rw [hk, Nat.div_mul_cancel hdvd] at hhigh
      omega
    · rintro (⟨hpos, -, -⟩ | ⟨-, hdvd, rfl⟩)
      · exact absurd hpos (Nat.lt_irrefl 0)
      · have hne : addr / line * line ≠ addr := fun h => hdvd ⟨addr / line, by rw [Nat.mul_comm, h]⟩
        exact ⟨Nat.le_refl _, by omega⟩
  · constructor
    · rintro ⟨hlow, hhigh⟩
      exact Or.inl ⟨Nat.pos_of_ne_zero hsize, hlow, hhigh⟩
    · rintro (⟨-, hlow, hhigh⟩ | ⟨hzero, -⟩)
      · exact ⟨hlow, hhigh⟩
      · exact absurd hzero hsize

/-! ### Words -/

variable {ctr : U64} {op : U64 → CacheOp}

/-- `DminLine`, the logarithm of the number of words in a line. -/
def dminLine (ctr : U64) : ℕ := ctr.toNat / 2 ^ 16 % 2 ^ 4

theorem dminLine_le (ctr : U64) : dminLine ctr ≤ 15 :=
  Nat.le_of_lt_succ (Nat.mod_lt _ (Nat.two_pow_pos 4))

theorem cacheLineSize_toNat (ctr : U64) : (cacheLineSize ctr).toNat = 4 * 2 ^ dminLine ctr := by
  have hmask : ((ctr >>> 16) &&& lowMask 64 4).toNat = dminLine ctr :=
    toNat_ushiftRight_and_lowMask ctr 16 (by decide)
  have hfour : (0xF : U64) = lowMask 64 4 := rfl
  have hpow : 2 ^ dminLine ctr ≤ 2 ^ 15 := Nat.pow_le_pow_right (by decide) (dminLine_le ctr)
  rw [cacheLineSize, hfour, BitVec.shiftLeft_eq', hmask, BitVec.toNat_shiftLeft, Nat.shiftLeft_eq]
  exact Nat.mod_eq_of_lt (by show 4 * _ < 2 ^ 64; omega)

theorem cacheLineSize_pos (ctr : U64) : 0 < (cacheLineSize ctr).toNat := by
  rw [cacheLineSize_toNat]
  exact Nat.mul_pos (by decide) (Nat.two_pow_pos _)

/-- The line size less one masks the bytes of a line. -/
theorem cacheLineSize_sub_one (ctr : U64) :
    cacheLineSize ctr - 1 = lowMask 64 (dminLine ctr + 2) := by
  have hd := dminLine_le ctr
  have hpow : 2 ^ dminLine ctr ≤ 2 ^ 15 := Nat.pow_le_pow_right (by decide) hd
  have hpos := Nat.two_pow_pos (dminLine ctr)
  apply BitVec.eq_of_toNat_eq
  rw [toNat_lowMask (by omega), BitVec.toNat_sub, cacheLineSize_toNat, Nat.pow_add]
  show (2 ^ 64 - 1 + _) % 2 ^ 64 = _
  omega

/-- An address that is rounded down. -/
theorem toNat_and_line (x : U64) :
    (x &&& ~~~(cacheLineSize ctr - 1)).toNat =
      x.toNat / (cacheLineSize ctr).toNat * (cacheLineSize ctr).toNat := by
  have hd := dminLine_le ctr
  rw [cacheLineSize_sub_one, toNat_and_highMask x (by omega), cacheLineSize_toNat, Nat.pow_add,
    Nat.mul_comm (2 ^ _)]

/-! ### The loop -/

/-- The operations on these lines. -/
def opsOn (op : U64 → CacheOp) (line : ℕ) (ks : List ℕ) : List CacheOp :=
  ks.map fun k => op (BitVec.ofNat 64 (k * line))

/-- **The loop ends, with one operation for each line from its start to its end.** -/
theorem maintain_lines (line stop : U64) (hpos : 0 < line.toNat) {n s : ℕ} (va : U64)
    (hva : va.toNat = s * line.toNat) (hstop : stop.toNat = (s + n) * line.toNat)
    {fuel : ℕ} (hfuel : n < fuel) :
    maintain op line stop fuel va = some (opsOn op line.toNat (List.range' s n)) := by
  induction n generalizing s va fuel with
  | zero =>
    obtain ⟨fuel, rfl⟩ := Nat.exists_eq_add_one_of_ne_zero (Nat.ne_of_gt hfuel)
    have hend : ¬ va < stop := by
      show ¬ va.toNat < stop.toNat
      rw [hva, hstop]
      exact Nat.lt_irrefl _
    rw [maintain, if_neg hend]
    rfl
  | succ n ih =>
    obtain ⟨fuel, rfl⟩ := Nat.exists_eq_add_one_of_ne_zero (Nat.ne_of_gt (Nat.zero_lt_of_lt hfuel))
    have hend : (s + (n + 1)) * line.toNat = s * line.toNat + line.toNat + n * line.toNat := by
      ring
    have hmore : va < stop := by
      show va.toNat < stop.toNat
      omega
    -- the next line is not beyond the end, and so is no overflow
    have hnext : (va + line).toNat = (s + 1) * line.toNat := by
      have hlt := stop.isLt
      rw [BitVec.toNat_add, Nat.mod_eq_of_lt (by omega), hva, Nat.add_mul, Nat.one_mul]
    have hcell : BitVec.ofNat 64 (s * line.toNat) = va := by
      rw [← hva, BitVec.ofNat_toNat, BitVec.setWidth_eq]
    rw [maintain, if_pos hmore, ih (va + line) hnext (by rw [hstop]; ring) (by omega), opsOn, opsOn,
      List.range'_succ, List.map_cons, hcell]
    rfl

/-- The two roundings, and the loop between them. -/
theorem maintainRange_lines (op : U64 → CacheOp) (ctr addr size : U64)
    (hfits : addr.toNat + size.toNat + (cacheLineSize ctr).toNat < 2 ^ 64) (fuel : ℕ)
    (hfuel : (lines (cacheLineSize ctr).toNat addr.toNat size.toNat).length < fuel) :
    maintainRange op ctr addr size fuel = some (opsOn op (cacheLineSize ctr).toNat
      (lines (cacheLineSize ctr).toNat addr.toNat size.toNat) ++ [.dsb]) := by
  have hline := cacheLineSize_pos ctr
  have hsum : (addr + size + cacheLineSize ctr - 1).toNat =
      addr.toNat + size.toNat + (cacheLineSize ctr).toNat - 1 := by
    rw [BitVec.toNat_sub, BitVec.toNat_add, BitVec.toNat_add]
    show (2 ^ 64 - 1 + _) % 2 ^ 64 = _
    omega
  have hle : addr.toNat / (cacheLineSize ctr).toNat ≤
      (addr.toNat + size.toNat + (cacheLineSize ctr).toNat - 1) / (cacheLineSize ctr).toNat :=
    Nat.div_le_div_right (by omega)
  have hstop : ((addr + size + cacheLineSize ctr - 1) &&& ~~~(cacheLineSize ctr - 1)).toNat =
      (addr.toNat / (cacheLineSize ctr).toNat +
        ((addr.toNat + size.toNat + (cacheLineSize ctr).toNat - 1) / (cacheLineSize ctr).toNat -
          addr.toNat / (cacheLineSize ctr).toNat)) * (cacheLineSize ctr).toNat := by
    rw [toNat_and_line, hsum, Nat.add_sub_cancel' hle]
  rw [lines, List.length_range'] at hfuel
  rw [maintainRange]
  show (maintain op (cacheLineSize ctr) _ fuel _).map _ = _
  rw [maintain_lines (cacheLineSize ctr) _ hline _ (toNat_and_line addr) hstop hfuel]
  rfl

/-! ### The two functions -/

/-- The loop ends, for all the fuel from some amount on, with one operation for each line that
has `P`, and a barrier behind them. -/
def Maintains (run : ℕ → Option (List CacheOp)) (op : U64 → CacheOp) (line : ℕ)
    (P : ℕ → Prop) : Prop :=
  ∃ n ks, (∀ fuel ≥ n, run fuel = some (opsOn op line ks ++ [.dsb])) ∧ ks.Nodup ∧
    ∀ k, k ∈ ks ↔ P k

theorem maintains_lines (op : U64 → CacheOp) (ctr addr size : U64)
    (hfits : addr.toNat + size.toNat + 4 * 2 ^ dminLine ctr < 2 ^ 64) :
    Maintains (maintainRange op ctr addr size) op (4 * 2 ^ dminLine ctr)
      (Covered (4 * 2 ^ dminLine ctr) addr.toNat size.toNat) := by
  have hline := cacheLineSize_pos ctr
  rw [← cacheLineSize_toNat ctr] at hfits ⊢
  exact ⟨_, _, fun fuel hfuel => maintainRange_lines op ctr addr size hfits fuel hfuel, nodup_lines,
    fun k => mem_lines_iff hline⟩

/-- **Every line of a buffer is cleaned and invalidated once, and no other line is, but for the
line that an empty buffer starts inside of.** -/
theorem cache_lines_exact (ctr addr size : U64)
    (hfits : addr.toNat + size.toNat + 4 * 2 ^ dminLine ctr < 2 ^ 64) :
    Maintains (cacheClean ctr addr size) .cvac (4 * 2 ^ dminLine ctr)
        (Covered (4 * 2 ^ dminLine ctr) addr.toNat size.toNat) ∧
      Maintains (cacheInvalidate ctr addr size) .ivac (4 * 2 ^ dminLine ctr)
        (Covered (4 * 2 ^ dminLine ctr) addr.toNat size.toNat) :=
  ⟨maintains_lines .cvac ctr addr size hfits, maintains_lines .ivac ctr addr size hfits⟩

/-- A page, in lines of 64 bytes. -/
theorem cache_lines_exact_page :
    Maintains (cacheInvalidate 0x40000 0x80000 0x1000) .ivac 64 (Covered 64 0x80000 0x1000) :=
  (cache_lines_exact 0x40000 0x80000 0x1000 (by decide)).2

/-- An empty buffer at the fifth byte of a line: the line is discarded. -/
theorem cache_invalidate_empty :
    dminLine 0x40000 = 4 ∧ 0x80004 + 0 + 4 * 2 ^ 4 < 2 ^ 64 ∧
      ¬ Maintains (cacheInvalidate 0x40000 0x80004 0) .ivac (4 * 2 ^ 4)
        (Meets (4 * 2 ^ 4) 0x80004 0) := by
  refine ⟨by decide, by decide, ?_⟩
  rintro ⟨n, ks, hrun, -, hmem⟩
  -- an empty range meets no line, so that the run would have to be the barrier alone
  have hnone : ks = [] := by
    rw [List.eq_nil_iff_forall_not_mem]
    intro k hk
    exact absurd ((meets_iff (by decide)).mp ((hmem k).mp hk)).1 (Nat.lt_irrefl 0)
  have hline :
      lines (cacheLineSize 0x40000).toNat (0x80004 : U64).toNat (0 : U64).toNat = [0x2000] := by
    decide
  have h := maintainRange_lines .ivac 0x40000 0x80004 0 (by decide) (max n 2)
    (by rw [hline]; exact lt_of_lt_of_le Nat.one_lt_two (le_max_right _ _))
  have hlost := h.symm.trans (hrun _ (le_max_left _ _))
  rw [hline, hnone] at hlost
  exact absurd hlost (by decide)

/-- A buffer that is not empty: its lines, and no others, are written back, and then the same
lines are discarded. -/
theorem cleanAndInvalidate_lines (ctr nAddress nLength : U64)
    (hfits : nAddress.toNat + nLength.toNat + 4 * 2 ^ dminLine ctr < 2 ^ 64)
    (hlength : 0 < nLength.toNat) :
    ∃ n ks, (∀ fuel ≥ n, cleanAndInvalidateDataCacheRange ctr nAddress nLength fuel =
        some ((opsOn .cvac (4 * 2 ^ dminLine ctr) ks ++ [.dsb]) ++
          (opsOn .ivac (4 * 2 ^ dminLine ctr) ks ++ [.dsb]))) ∧ ks.Nodup ∧
      ∀ k, k ∈ ks ↔ Meets (4 * 2 ^ dminLine ctr) nAddress.toNat nLength.toNat k := by
  have hline := cacheLineSize_pos ctr
  rw [← cacheLineSize_toNat ctr] at hfits ⊢
  refine ⟨(lines (cacheLineSize ctr).toNat nAddress.toNat nLength.toNat).length + 1,
    lines (cacheLineSize ctr).toNat nAddress.toNat nLength.toNat, fun fuel hfuel => ?_, nodup_lines,
    fun k => (mem_lines_iff hline).trans ?_⟩
  · rw [cleanAndInvalidateDataCacheRange, cacheClean, cacheInvalidate,
      maintainRange_lines _ ctr nAddress nLength hfits fuel hfuel,
      maintainRange_lines _ ctr nAddress nLength hfits fuel hfuel]
    rfl
  · exact or_iff_left fun h => absurd h.1 hlength.ne'

end GamingConsole
