/-
What one call of the frame allocator can do.

Each of the three functions is inverted once:

* `allocFrame_cases` — the first free frame is marked and returned, or every
  frame is used and `0` is returned;
* `allocFrames_cases` — the first free run of the asked length, or `0`;
* `freeFrame_of_frame`, `freeFrame_of_not_frame` — a managed frame is unmarked,
  any other address changes nothing.

`WF` is kept by all of them, and `Used`, the set of used frames, changes as the
names say.
-/
import GamingConsole.Pmm

namespace GamingConsole

open BitFields WordBitmap

namespace Pmm

variable {p : Pmm}

/-! ### `alloc_frame` -/

theorem numWords_eq (h : p.WF) : p.numWords = (p.totalFrames.toNat + 63) / 64 := by
  have hend := h.managed_end
  exact toNat_numWords (by omega)

/-- The update the word scan makes is `mark`. -/
theorem mark_eq {i b : ℕ} (hb : b < 64) :
    p.mark (i * 64 + b)
      = { p with bitmap := p.bitmap.set i (word p.bitmap i ||| 1#64 <<< b) } := by
  rw [mark, setBit, show (i * 64 + b) / 64 = i by omega, show (i * 64 + b) % 64 = b by omega]

theorem allocFrameLoop_cases (h : p.WF) : ∀ (n i : ℕ), i + n = p.numWords →
    (∀ j < i * 64, p.bit j = true) →
    ((∀ j < p.totalFrames.toNat, p.bit j = true) ∧ allocFrameLoop p n i = (0, p)) ∨
      ∃ f < p.totalFrames.toNat, p.bit f = false ∧ (∀ j < f, p.bit j = true) ∧
        allocFrameLoop p n i = (p.frame f, p.mark f) := by
  intro n
  induction n with
  | zero =>
    intro i hi hlow
    left
    refine ⟨fun j hj => hlow j ?_, rfl⟩
    rw [numWords_eq h] at hi
    omega
  | succ n ih =>
    intro i hi hlow
    by_cases hfull : word p.bitmap i = BitVec.allOnes 64
    · rw [allocFrameLoop, if_neg (by simpa using hfull)]
      refine ih (i + 1) (by omega) fun j hj => ?_
      by_cases hji : j < i * 64
      · exact hlow j hji
      · exact bit_full_word (by omega) hfull (by omega)
    · right
      obtain ⟨hlt, hclear, hbelow⟩ := getLsbD_ctz_not hfull
      set b := ctz (~~~word p.bitmap i) with hb
      have hbit : ∀ c < 64, p.bit (i * 64 + c) = (word p.bitmap i).getLsbD c := by
        intro c hc
        rw [bit, WordBitmap.bit, show (i * 64 + c) / 64 = i by omega,
          show (i * 64 + c) % 64 = c by omega]
      have hfree : p.bit (i * 64 + b) = false := by rw [hbit b hlt, hclear]
      -- a clear bit of a word the scan looks at is not padding
      have hmanaged : i * 64 + b < p.totalFrames.toNat := by
        by_contra hge
        have := h.padding (i * 64 + b) (by omega) (by omega)
        rw [hfree] at this
        exact Bool.false_ne_true this
      refine ⟨i * 64 + b, hmanaged, hfree, fun j hj => ?_, ?_⟩
      · by_cases hji : j < i * 64
        · exact hlow j hji
        · rw [show j = i * 64 + (j - i * 64) by omega, hbit _ (by omega)]
          exact hbelow _ (by omega)
      · rw [allocFrameLoop, if_pos hfull, mark_eq hlt]
        rfl

/-- `alloc_frame` marks the first free frame, or finds none. -/
theorem allocFrame_cases (h : p.WF) :
    ((∀ j < p.totalFrames.toNat, p.bit j = true) ∧ allocFrame p = (0, p)) ∨
      ∃ f < p.totalFrames.toNat, p.bit f = false ∧ (∀ j < f, p.bit j = true) ∧
        allocFrame p = (p.frame f, p.mark f) :=
  allocFrameLoop_cases h p.numWords 0 (Nat.zero_add _) fun j hj => absurd hj (by omega)

/-! ### `alloc_frames` -/

theorem length_markRun : ∀ (n i : ℕ) (ws : List U64), (markRun ws n i).length = ws.length := by
  intro n
  induction n with
  | zero => intro i ws; rfl
  | succ n ih =>
    intro i ws
    rw [markRun, ih, length_setBit]

theorem bit_markRun : ∀ (n i : ℕ) (ws : List U64), i + n ≤ 64 * ws.length → ∀ j,
    WordBitmap.bit (markRun ws n i) j
      = if i ≤ j ∧ j < i + n then true else WordBitmap.bit ws j := by
  intro n
  induction n with
  | zero =>
    intro i ws _ j
    rw [markRun, if_neg (by omega)]
  | succ n ih =>
    intro i ws hlen j
    rw [markRun, ih (i + 1) _ (by rw [length_setBit]; omega), bit_setBit (by omega) (by omega)]
    by_cases hj : i + 1 ≤ j ∧ j < i + 1 + n
    · rw [if_pos hj, if_pos (by omega)]
    · rw [if_neg hj]
      by_cases hji : j = i
      · rw [if_pos hji, if_pos (by omega)]
      · rw [if_neg hji, if_neg (by omega)]

/-- The allocator with the frames `s, …, s + n - 1` marked used. -/
def markFrames (p : Pmm) (s n : ℕ) : Pmm := { p with bitmap := markRun p.bitmap n s }

theorem bit_markFrames (h : p.WF) {s n : ℕ} (hs : s + n ≤ p.totalFrames.toNat) (j : ℕ) :
    (p.markFrames s n).bit j = if s ≤ j ∧ j < s + n then true else p.bit j :=
  bit_markRun n s p.bitmap (le_trans hs h.covers) j

theorem WF.markFrames (h : p.WF) {s n : ℕ} (hs : s + n ≤ p.totalFrames.toNat) :
    (p.markFrames s n).WF :=
  h.of_bits rfl rfl (length_markRun _ _ _) fun j hj => by
    rw [bit_markFrames h hs, if_neg (by omega)]

/-- The state of the bit scan at `idx`: the last `runLen` bits before it are
clear and start at `runStart`, the bit before them is set, and no run of
`count` clear bits ends at or before `idx`. -/
structure ScanInv (p : Pmm) (count idx runStart runLen : ℕ) : Prop where
  len_lt : runLen < count
  len_le : runLen ≤ idx
  clear : ∀ j, idx - runLen ≤ j → j < idx → p.bit j = false
  start : 0 < runLen → runStart = idx - runLen
  maximal : idx = runLen ∨ p.bit (idx - runLen - 1) = true
  none_before : ∀ s, s + count ≤ idx → ¬ p.FreeRun s count

variable {count idx runStart runLen : ℕ}

theorem ScanInv.used (hinv : ScanInv p count idx runStart runLen) (hbit : p.bit idx = true) :
    ScanInv p count (idx + 1) runStart 0 where
  len_lt := by have := hinv.len_lt; omega
  len_le := Nat.zero_le _
  clear := by intro j h1 h2; omega
  start := by omega
  maximal := Or.inr hbit
  none_before := by
    intro s hs hrun
    by_cases hlast : s + count = idx + 1
    · have hcount := hinv.len_lt
      have := hrun.2 (count - 1) (by omega)
      rw [show s + (count - 1) = idx by omega, hbit] at this
      exact Bool.false_ne_true this.symm
    · exact hinv.none_before s (by omega) hrun

theorem ScanInv.free (hinv : ScanInv p count idx runStart runLen) (hbit : p.bit idx = false)
    (hlt : runLen + 1 < count) :
    ScanInv p count (idx + 1) (if runLen = 0 then idx else runStart) (runLen + 1) where
  len_lt := hlt
  len_le := by have := hinv.len_le; omega
  clear := by
    intro j h1 h2
    by_cases hj : j = idx
    · rw [hj, hbit]
    · exact hinv.clear j (by omega) (by omega)
  start := by
    intro _
    by_cases h0 : runLen = 0
    · rw [if_pos h0]
      omega
    · rw [if_neg h0, hinv.start (by omega)]
      omega
  maximal := by
    rcases hinv.maximal with h | h
    · left
      omega
    · right
      rwa [show idx + 1 - (runLen + 1) - 1 = idx - runLen - 1 by omega]
  none_before := by
    intro s hs hrun
    by_cases hlast : s + count = idx + 1
    · -- such a run would reach past the set bit before the current one
      have hset : p.bit (idx - runLen - 1) = true := by
        rcases hinv.maximal with h | h
        · omega
        · exact h
      have hrl := hinv.len_le
      have := hrun.2 (idx - runLen - 1 - s) (by omega)
      rw [show s + (idx - runLen - 1 - s) = idx - runLen - 1 by omega, hset] at this
      exact Bool.false_ne_true this.symm
    · exact hinv.none_before s (by omega) hrun

theorem used_iff_bit (i : ℕ) :
    word p.bitmap (i / 64) &&& 1#64 <<< (i % 64) ≠ 0 ↔ p.bit i = true :=
  and_one_shiftLeft_ne_zero _ (Nat.mod_lt i (by omega))

theorem allocFramesLoop_cases : ∀ (n idx runStart runLen : ℕ),
    idx + n = p.totalFrames.toNat → ScanInv p count idx runStart runLen →
    ((∀ s, ¬ p.FreeRun s count) ∧
        allocFramesLoop p count n idx runStart runLen = (0, p)) ∨
      ∃ s, p.FreeRun s count ∧ (∀ s' < s, ¬ p.FreeRun s' count) ∧
        allocFramesLoop p count n idx runStart runLen
          = (p.frame s, p.markFrames s count) := by
  intro n
  induction n with
  | zero =>
    intro idx runStart runLen hidx hinv
    left
    refine ⟨fun s hrun => hinv.none_before s ?_ hrun, rfl⟩
    have := hrun.1
    omega
  | succ n ih =>
    intro idx runStart runLen hidx hinv
    rw [allocFramesLoop]
    by_cases hbit : p.bit idx = true
    · rw [if_pos ((used_iff_bit idx).mpr hbit)]
      exact ih (idx + 1) _ _ (by omega) (hinv.used hbit)
    · rw [if_neg (fun h => hbit ((used_iff_bit idx).mp h))]
      have hclear : p.bit idx = false := by simpa using hbit
      by_cases hcount : runLen + 1 = count
      · right
        have hlen := hinv.len_le
        -- the run that is now long enough starts where its first clear bit was
        have hstart : (if runLen = 0 then idx else runStart) = idx - runLen := by
          by_cases h0 : runLen = 0
          · rw [if_pos h0]
            omega
          · rw [if_neg h0, hinv.start (by omega)]
        refine ⟨idx - runLen, ⟨by omega, fun j hj => ?_⟩, fun s hs => ?_, ?_⟩
        · by_cases hj' : idx - runLen + j = idx
          · rw [hj', hclear]
          · exact hinv.clear _ (by omega) (by omega)
        · exact hinv.none_before s (by omega)
        · rw [if_pos hcount, hstart]
          rfl
      · rw [if_neg hcount]
        have := hinv.len_lt
        exact ih (idx + 1) _ _ (by omega) (hinv.free hclear (by omega))

/-- `alloc_frames` marks the first free run of the asked length, or finds none;
a count of `0` finds none. -/
theorem allocFrames_cases (p : Pmm) (count : U64) :
    ((count ≠ 0 → ∀ s, ¬ p.FreeRun s count.toNat) ∧ allocFrames p count = (0, p)) ∨
      ∃ s, count ≠ 0 ∧ p.FreeRun s count.toNat ∧ (∀ s' < s, ¬ p.FreeRun s' count.toNat) ∧
        allocFrames p count = (p.frame s, p.markFrames s count.toNat) := by
  rw [allocFrames]
  by_cases h0 : count = 0
  · left
    exact ⟨fun h => absurd h0 h, if_pos h0⟩
  · rw [if_neg h0]
    have hpos : 0 < count.toNat := by
      rcases Nat.eq_zero_or_pos count.toNat with h | h
      · exact absurd (BitVec.eq_of_toNat_eq h) h0
      · exact h
    have hinit : ScanInv p count.toNat 0 0 0 :=
      ⟨hpos, le_refl 0, fun j _ hj => absurd hj (by omega), fun h => absurd h (by omega),
        Or.inl rfl, fun s hs _ => by omega⟩
    rcases allocFramesLoop_cases p.totalFrames.toNat 0 0 0 (by omega) hinit with
      ⟨hnone, heq⟩ | ⟨s, hrun, hmin, heq⟩
    · exact Or.inl ⟨fun _ => hnone, heq⟩
    · exact Or.inr ⟨s, h0, hrun, hmin, heq⟩

/-! ### `free_frame` -/

/-- The guards of `free_frame` accept exactly the bases of managed frames. -/
theorem inRange_iff (h : p.WF) (a : U64) :
    p.inRange a = true ↔ ∃ i < p.totalFrames.toNat, a = p.frame i := by
  have hend := h.managed_end
  have hal := h.start_aligned
  rw [toNat_physMemEnd] at hend
  have hiff : p.inRange a = true ↔
      p.physMemStart.toNat ≤ a.toNat ∧ a.toNat < 0x3F800000 ∧ a.toNat % 4096 = 0 ∧
        (a.toNat - p.physMemStart.toNat) / 4096 < p.totalFrames.toNat := by
    rw [inRange]
    simp only [Bool.and_eq_true, Bool.not_eq_true', Bool.or_eq_false_iff, decide_eq_false_iff_not,
      BitVec.lt_def, BitVec.le_def, toNat_physMemEnd, decide_eq_true_eq, beq_iff_eq,
      not_lt, not_le, BitVec.toNat_eq, BitVec.toNat_umod, toNat_pageSize, BitVec.toNat_udiv]
    constructor
    · rintro ⟨⟨⟨h1, h2⟩, h3⟩, h4⟩
      rw [BitVec.toNat_sub_of_le (by rw [BitVec.le_def]; exact h1)] at h4
      exact ⟨h1, h2, h3, h4⟩
    · rintro ⟨h1, h2, h3, h4⟩
      rw [BitVec.toNat_sub_of_le (by rw [BitVec.le_def]; exact h1)]
      exact ⟨⟨⟨h1, h2⟩, h3⟩, h4⟩
  rw [hiff]
  constructor
  · rintro ⟨h1, h2, h3, h4⟩
    refine ⟨(a.toNat - p.physMemStart.toNat) / 4096, h4, BitVec.eq_of_toNat_eq ?_⟩
    rw [toNat_frame h h4]
    omega
  · rintro ⟨i, hi, rfl⟩
    rw [toNat_frame h hi]
    omega

/-- `free_frame` on the base of a managed frame clears its bit. -/
theorem freeFrame_of_frame (h : p.WF) {i : ℕ} (hi : i < p.totalFrames.toNat) :
    freeFrame p (p.frame i) = if p.bit i = true then p.unmark i else p := by
  rw [freeFrame, if_pos ((inRange_iff h _).mpr ⟨i, hi, rfl⟩)]
  have hidx : ((p.frame i - p.physMemStart) / pageSize).toNat = i := by
    have hb := frame_bounds h hi
    rw [BitVec.toNat_udiv, BitVec.toNat_sub_of_le (by rw [BitVec.le_def]; exact hb.2.1),
      toNat_frame h hi, toNat_pageSize]
    omega
  simp only [hidx]
  by_cases hb : p.bit i = true
  · rw [if_pos ((used_iff_bit i).mpr hb), if_pos hb]
    rfl
  · rw [if_neg (fun h => hb ((used_iff_bit i).mp h)), if_neg hb]

theorem freeFrame_of_not_frame (h : p.WF) {a : U64}
    (ha : ∀ i < p.totalFrames.toNat, a ≠ p.frame i) : freeFrame p a = p := by
  rw [freeFrame, if_neg]
  intro hr
  obtain ⟨i, hi, rfl⟩ := (inRange_iff h a).mp hr
  exact ha i hi rfl

theorem freeFrame_used (h : p.WF) {a : U64} (ha : p.Used a) :
    ∃ i < p.totalFrames.toNat, a = p.frame i ∧ p.bit i = true ∧ freeFrame p a = p.unmark i := by
  obtain ⟨i, hi, rfl, hb⟩ := ha
  exact ⟨i, hi, rfl, hb, by rw [freeFrame_of_frame h hi, if_pos hb]⟩

theorem freeFrame_not_used (h : p.WF) {a : U64} (ha : ¬ p.Used a) : freeFrame p a = p := by
  by_cases hf : ∃ i < p.totalFrames.toNat, a = p.frame i
  · obtain ⟨i, hi, rfl⟩ := hf
    rw [freeFrame_of_frame h hi, if_neg]
    exact fun hb => ha ⟨i, hi, rfl, hb⟩
  · exact freeFrame_of_not_frame h fun i hi hai => hf ⟨i, hi, hai⟩

/-! ### Used frames -/

theorem used_mark_iff (h : p.WF) {i : ℕ} (hi : i < p.totalFrames.toNat) (a : U64) :
    (p.mark i).Used a ↔ p.Used a ∨ a = p.frame i := by
  constructor
  · rintro ⟨j, hj, ha, hb⟩
    rw [bit_mark h hi] at hb
    by_cases hji : j = i
    · right
      rw [ha, hji]
      rfl
    · rw [if_neg hji] at hb
      exact Or.inl ⟨j, hj, ha, hb⟩
  · rintro (⟨j, hj, ha, hb⟩ | ha)
    · refine ⟨j, hj, ha, ?_⟩
      rw [bit_mark h hi, hb]
      exact ite_self true
    · exact ⟨i, hi, ha, by rw [bit_mark h hi, if_pos rfl]⟩

theorem used_unmark_iff (h : p.WF) {i : ℕ} (hi : i < p.totalFrames.toNat) (a : U64) :
    (p.unmark i).Used a ↔ p.Used a ∧ a ≠ p.frame i := by
  constructor
  · rintro ⟨j, hj, ha, hb⟩
    rw [bit_unmark h hi] at hb
    by_cases hji : j = i
    · rw [if_pos hji] at hb
      exact absurd hb Bool.false_ne_true
    · rw [if_neg hji] at hb
      refine ⟨⟨j, hj, ha, hb⟩, fun hai => hji (frame_inj h hj hi ?_)⟩
      rw [← hai, ha]
      rfl
  · rintro ⟨⟨j, hj, ha, hb⟩, hne⟩
    refine ⟨j, hj, ha, ?_⟩
    rw [bit_unmark h hi, if_neg, hb]
    rintro rfl
    exact hne ha

theorem used_markFrames_iff (h : p.WF) {s n : ℕ} (hs : s + n ≤ p.totalFrames.toNat) (a : U64) :
    (p.markFrames s n).Used a ↔ p.Used a ∨ ∃ k < n, a = p.frame (s + k) := by
  constructor
  · rintro ⟨j, hj, ha, hb⟩
    rw [bit_markFrames h hs] at hb
    by_cases hj' : s ≤ j ∧ j < s + n
    · exact Or.inr ⟨j - s, by omega, by rw [ha, show s + (j - s) = j by omega]; rfl⟩
    · rw [if_neg hj'] at hb
      exact Or.inl ⟨j, hj, ha, hb⟩
  · rintro (⟨j, hj, ha, hb⟩ | ⟨k, hk, ha⟩)
    · refine ⟨j, hj, ha, ?_⟩
      rw [bit_markFrames h hs, hb]
      exact ite_self true
    · refine ⟨s + k, lt_of_lt_of_le (by omega) hs, ha, ?_⟩
      rw [bit_markFrames h hs, if_pos (by omega)]

theorem WF.allocFrame (h : p.WF) : (allocFrame p).2.WF := by
  rcases allocFrame_cases h with ⟨-, heq⟩ | ⟨f, hf, -, -, heq⟩
  · rwa [heq]
  · rw [heq]
    exact h.mark hf

theorem WF.allocFrames (h : p.WF) (count : U64) : (allocFrames p count).2.WF := by
  rcases allocFrames_cases p count with ⟨-, heq⟩ | ⟨s, -, hrun, -, heq⟩
  · rwa [heq]
  · rw [heq]
    exact h.markFrames hrun.1

theorem WF.freeFrame (h : p.WF) (a : U64) : (freeFrame p a).WF := by
  by_cases ha : p.Used a
  · obtain ⟨i, hi, -, -, heq⟩ := freeFrame_used h ha
    rw [heq]
    exact h.unmark hi
  · rwa [freeFrame_not_used h ha]

theorem used_freeFrame_iff (h : p.WF) (a b : U64) :
    (freeFrame p a).Used b ↔ p.Used b ∧ b ≠ a := by
  by_cases ha : p.Used a
  · obtain ⟨i, hi, rfl, -, heq⟩ := freeFrame_used h ha
    rw [heq, used_unmark_iff h hi]
  · rw [freeFrame_not_used h ha]
    constructor
    · exact fun hb => ⟨hb, fun hba => ha (hba ▸ hb)⟩
    · exact fun hb => hb.1

/-! ### What no call changes -/

theorem totalFrames_allocFrame (p : Pmm) : (allocFrame p).2.totalFrames = p.totalFrames := by
  have hloop : ∀ n i, (allocFrameLoop p n i).2.totalFrames = p.totalFrames := by
    intro n
    induction n with
    | zero => exact fun i => rfl
    | succ n ih =>
      intro i
      rw [allocFrameLoop]
      split
      · rfl
      · exact ih (i + 1)
  exact hloop _ _

theorem totalFrames_allocFrames (p : Pmm) (count : U64) :
    (allocFrames p count).2.totalFrames = p.totalFrames := by
  rcases allocFrames_cases p count with ⟨-, heq⟩ | ⟨f, -, -, -, heq⟩
  · rw [heq]
  · rw [heq]
    rfl

theorem totalFrames_freeFrame (p : Pmm) (a : U64) :
    (freeFrame p a).totalFrames = p.totalFrames := by
  rw [freeFrame]
  split
  · dsimp only
    split
    · rfl
    · rfl
  · rfl

end Pmm

end GamingConsole
