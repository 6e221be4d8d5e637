/-
The generic timer: `get_ticks`, `ticks_elapsed_ms` and `delay_ms` of timer.cpp.

A timer is its frequency and the values that reads of the counter return, one after
another.  Both waits are built on the same counter, and differ in where they count from:
`ticks_elapsed_ms` from a reading its caller took, `delay_ms` from the frequency.

* `ticksElapsedMs_eq_true_iff` — the first tells how long it has been;
* `delay_ms_waits_iff` — the second waits at two values of the counter, and where it
  never ends.
-/
import GamingConsole.Board
import Mathlib.Order.Monotone.Basic

namespace GamingConsole

/-- CNTFRQ_EL0, and the values of CNTPCT_EL0, of which `reads` have been read. -/
structure Timer where
  cntfrq : U64
  cntpct : ℕ → U64
  reads : ℕ

namespace Timer

variable {t t' : Timer} {f t0 n : U64}

/-- `mrs`, from CNTPCT_EL0. -/
def readCntpct (t : Timer) : U64 × Timer :=
  (t.cntpct t.reads, { t with reads := t.reads + 1 })

/-- The value read last. -/
def lastRead (t : Timer) : U64 := t.cntpct (t.reads - 1)

/-- `get_ticks`. -/
def getTicks (t : Timer) : U64 × Timer := t.readCntpct

/-- `ticks_elapsed_ms`. -/
def ticksElapsedMs (startTicks ms : U64) (t : Timer) : Bool × Timer :=
  let freq := t.cntfrq
  let targetTicks := freq / 1000#64 * ms
  let (ticks, t) := t.getTicks
  (decide (ticks - startTicks ≥ targetTicks), t)

/-- The loop of `delay_ms`, of at most `polls` reads. -/
def delayLoop (initCount targetTicks : U64) : ℕ → Timer → Option Timer
  | 0, _ => none
  | polls + 1, t =>
    let (dTime, t) := t.readCntpct
    if dTime - initCount ≤ targetTicks then delayLoop initCount targetTicks polls t
    else some t

/-- `delay_ms`; `none` where `polls` reads are not enough for it to return. -/
def delayMs (n : U64) (polls : ℕ) (t : Timer) : Option Timer :=
  let initCount := t.cntfrq
  let targetTicks := initCount / 1000#64 * n
  delayLoop initCount targetTicks polls t

/-- The ticks in `n` milliseconds of a timer of frequency `f`. -/
def ticksIn (f n : U64) : ℕ := f.toNat / 1000 * n.toNat

theorem toNat_targetTicks (h : ticksIn f n < 2 ^ 63) : (f / 1000#64 * n).toNat = ticksIn f n := by
  rw [BitVec.toNat_mul, BitVec.toNat_udiv]
  show f.toNat / 1000 * n.toNat % 2 ^ 64 = _
  exact Nat.mod_eq_of_lt (by rw [ticksIn] at h; omega)

/-- `ticks_elapsed_ms` on the next reading, of a counter that has not gone back. -/
theorem ticksElapsedMs_eq_true_iff (h : ticksIn t.cntfrq n < 2 ^ 63)
    (hle : t0 ≤ t.cntpct t.reads) :
    (t.ticksElapsedMs t0 n).1 = true ↔
      ticksIn t.cntfrq n ≤ (t.cntpct t.reads).toNat - t0.toNat := by
  show decide (t.cntfrq / 1000#64 * n ≤ t.cntpct t.reads - t0) = true ↔ _
  rw [decide_eq_true_iff, BitVec.le_def, toNat_targetTicks h, BitVec.toNat_sub_of_le hle]

/-- The loop ends on a reading further than `targetTicks` past `initCount`. -/
theorem exists_of_delayLoop {initCount targetTicks : U64} {polls : ℕ}
    (h : delayLoop initCount targetTicks polls t = some t') :
    ∃ k, targetTicks.toNat < (t'.lastRead - initCount).toNat ∧
      t'.lastRead = t.cntpct (t.reads + k) := by
  induction polls generalizing t with
  | zero => cases h
  | succ polls ih =>
    change (if t.cntpct t.reads - initCount ≤ targetTicks then
      delayLoop initCount targetTicks polls t.readCntpct.2 else some t.readCntpct.2) = some t' at h
    by_cases hin : t.cntpct t.reads - initCount ≤ targetTicks
    · -- the loop goes on, from the next reading
      rw [if_pos hin] at h
      obtain ⟨k, hk, hlast⟩ := ih h
      exact ⟨k + 1, hk, by rw [hlast, readCntpct, Nat.add_right_comm, Nat.add_assoc]⟩
    · rw [if_neg hin] at h
      cases h
      rw [BitVec.le_def, not_le] at hin
      exact ⟨0, hin, rfl⟩

/-- `delay_ms(n)` waits: on a counter at `t0` that never goes back, the value read last
before it returns is `n` milliseconds past `t0`. -/
def Waits (f t0 n : U64) : Prop :=
  ∀ (cntpct : ℕ → U64) (polls : ℕ) (t' : Timer), Monotone (fun i => (cntpct i).toNat) →
    cntpct 0 = t0 →
    delayMs n polls ⟨f, cntpct, 0⟩ = some t' → ticksIn f n ≤ t'.lastRead.toNat - t0.toNat

/-- A first reading outside of the window that starts at the frequency ends the wait. -/
theorem delayMs_of_lt {cntpct : ℕ → U64} (h : ticksIn f n < 2 ^ 63)
    (hout : ticksIn f n < (cntpct 0 - f).toNat) :
    delayMs n 1 ⟨f, cntpct, 0⟩ = some ⟨f, cntpct, 1⟩ := by
  refine if_neg ?_
  rw [BitVec.le_def, toNat_targetTicks h, not_le]
  exact hout

/-- A second reading outside of the window ends it, after a first reading inside. -/
theorem delayMs_of_le {cntpct : ℕ → U64} (h : ticksIn f n < 2 ^ 63)
    (hin : (cntpct 0 - f).toNat ≤ ticksIn f n) (hout : ticksIn f n < (cntpct 1 - f).toNat) :
    delayMs n 2 ⟨f, cntpct, 0⟩ = some ⟨f, cntpct, 2⟩ := by
  refine (if_pos ?_).trans (if_neg ?_)
  · rw [BitVec.le_def, toNat_targetTicks h]
    exact hin
  · rw [BitVec.le_def, toNat_targetTicks h, not_le]
    exact hout

/-- The counter that reads `t0` once, and then `t1`. -/
def jump (t0 t1 : U64) (i : ℕ) : U64 := if i = 0 then t0 else t1

theorem monotone_jump {t0 t1 : U64} (h : t0 ≤ t1) :
    Monotone fun i => (jump t0 t1 i).toNat := by
  rw [BitVec.le_def] at h
  intro i j hij
  show (if i = 0 then t0 else t1).toNat ≤ (if j = 0 then t0 else t1).toNat
  by_cases hi : i = 0
  · rw [if_pos hi]
    split_ifs <;> omega
  · rw [if_neg hi, if_neg (by omega)]

/-- **`delay_ms` counts from the frequency.**  It waits where there is nothing to wait
for, at the two values of the counter at which the frequency is the right place to count
from, and where no later value of the counter ends the loop. -/
theorem delay_ms_waits_iff (h : ticksIn f n < 2 ^ 63) :
    Waits f t0 n ↔
      ticksIn f n = 0 ∨ t0 = f ∨ t0 = f + 1#64 ∨
        (f ≤ t0 ∧ 2 ^ 64 ≤ f.toNat + ticksIn f n + 1) := by
  have hf := f.isLt
  have ht0 := t0.isLt
  rw [BitVec.le_def]
  constructor
  · intro hwaits
    by_cases hin : (t0 - f).toNat ≤ ticksIn f n
    · -- the first value that ends the loop, read second
      have hend : ∀ t1 : U64, t1 = f + BitVec.ofNat 64 (ticksIn f n + 1) → t0 ≤ t1 →
          ticksIn f n ≤ t1.toNat - t0.toNat := by
        intro t1 ht1 hle
        refine hwaits (jump t0 t1) 2 _ (monotone_jump hle) rfl (delayMs_of_le h hin ?_)
        show _ < (t1 - f).toNat
        rw [ht1, BitVec.add_comm, BitVec.add_sub_cancel, BitVec.toNat_ofNat]
        omega
      have hend := hend _ rfl
      rw [BitVec.le_def, BitVec.toNat_add, BitVec.toNat_ofNat] at hend
      rw [BitVec.toNat_sub] at hin
      rw [← BitVec.toNat_inj, ← BitVec.toNat_inj, BitVec.toNat_add]
      show _ ∨ _ ∨ _ = (f.toNat + 1) % 2 ^ 64 ∨ _
      omega
    · -- the loop ends at once
      have hwait := hwaits (fun _ => t0) 1 _ monotone_const rfl (delayMs_of_lt h (by omega))
      refine Or.inl (Nat.le_zero.mp (hwait.trans ?_))
      show t0.toNat - t0.toNat ≤ 0
      omega
  · intro hcond cntpct polls t' hmono hstart hret
    obtain ⟨k, hk, hlast⟩ := exists_of_delayLoop hret
    have hle : t0.toNat ≤ t'.lastRead.toNat := by
      rw [hlast, ← hstart]
      exact hmono (Nat.zero_le _)
    have hlt := t'.lastRead.isLt
    rw [toNat_targetTicks h, BitVec.toNat_sub] at hk
    change ticksIn f n < (2 ^ 64 - f.toNat + _) % 2 ^ 64 at hk
    rw [← BitVec.toNat_inj, ← BitVec.toNat_inj, BitVec.toNat_add] at hcond
    change _ ∨ _ ∨ _ = (f.toNat + 1) % 2 ^ 64 ∨ _ at hcond
    omega

/-- At 54 MHz, twenty seconds of uptime: a wait of 100 ms ends at the first reading. -/
theorem delay_ms_returns_at_once :
    ticksIn 54000000#64 100#64 < 2 ^ 63 ∧ ¬ Waits 54000000#64 1080000000#64 100#64 := by
  have hbound : ticksIn 54000000#64 100#64 < 2 ^ 63 := by decide
  refine ⟨hbound, fun hwaits => ?_⟩
  have hwait := hwaits (fun _ => 1080000000#64) 1 _ monotone_const rfl
    (delayMs_of_lt hbound (by decide))
  exact absurd hwait (by decide)

/-- At the counter's value 54 000 001 the same wait is a wait. -/
theorem delay_ms_waits_at_frequency : Waits 54000000#64 54000001#64 100#64 :=
  (delay_ms_waits_iff (by decide)).mpr (Or.inr (Or.inr (Or.inl rfl)))

end Timer

end GamingConsole
