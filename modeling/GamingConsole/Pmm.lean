/-
The physical memory manager (`pmm.cpp`).

The state is the flat bitmap with its geometry; the four functions follow the
source statement by statement, without the `pmm_lock` brackets, which
`Kernel.lean` puts around them.

* `pmmInit_wf` — the boot geometry is sound for every kernel image;
* `WF` — the invariant that the calls keep; what one call can do is said in
  `PmmSpec`.
-/
import GamingConsole.Board
import GamingConsole.Library.WordBitmap

namespace GamingConsole

open BitFields WordBitmap

/-- The allocator's globals.  Bit `i` of `bitmap` stands for the frame at
`physMemStart + 4096 * i`; a set bit is a used frame. -/
structure Pmm where
  bitmapAddr : U64
  bitmap : List U64
  physMemStart : U64
  totalFrames : U64
  deriving DecidableEq

namespace Pmm

/-- The end of `pmm_init`: the bits of the final word past `totalFrames` are
marked used, so that the word scan of `alloc_frame` cannot return them. -/
def maskLastWord (ws : List U64) (totalFrames : U64) : List U64 :=
  let lastWord := (totalFrames / 64).toNat
  let validBits := (totalFrames % 64).toNat
  if validBits ≠ 0 then
    ws.set lastWord (word ws lastWord ||| ~~~((1#64 <<< validBits) - 1))
  else ws

/-- `pmm_init`, for a kernel image ending at `kernelEnd`. -/
def pmmInit (kernelEnd : U64) : Pmm :=
  let bitmapAddr := roundUp kernelEnd pageSize
  let managedBytes := physMemEnd - bitmapAddr
  let maxFrames := managedBytes / pageSize
  let bitmapBytes := (maxFrames + 63) / 64 * 8
  let physMemStart := roundUp (bitmapAddr + bitmapBytes) pageSize
  let totalFrames := (physMemEnd - physMemStart) / pageSize
  let bitmap := maskLastWord (List.replicate (bitmapBytes / 8).toNat 0) totalFrames
  { bitmapAddr, bitmap, physMemStart, totalFrames }

/-- Number of bitmap words that cover a managed frame. -/
def numWords (p : Pmm) : ℕ := ((p.totalFrames + 63) / 64).toNat

/-- The word loop of `alloc_frame`, `n` words before its end. -/
def allocFrameLoop (p : Pmm) : (n i : ℕ) → U64 × Pmm
  | 0, _ => (0, p)
  | n + 1, i =>
    if word p.bitmap i ≠ BitVec.allOnes 64 then
      let bitIndex := ctz (~~~word p.bitmap i)
      let idx := BitVec.ofNat 64 (i * 64 + bitIndex)
      (p.physMemStart + idx * pageSize,
        { p with bitmap := p.bitmap.set i (word p.bitmap i ||| 1#64 <<< bitIndex) })
    else allocFrameLoop p n (i + 1)

/-- `alloc_frame`. -/
def allocFrame (p : Pmm) : U64 × Pmm := allocFrameLoop p p.numWords 0

/-- The inner loop of `alloc_frames`: set the bits `i, …, i + n - 1`. -/
def markRun (ws : List U64) : (n i : ℕ) → List U64
  | 0, _ => ws
  | n + 1, i => markRun (setBit ws i) n (i + 1)

/-- The bit loop of `alloc_frames`, `n` bits before its end. -/
def allocFramesLoop (p : Pmm) (count : ℕ) : (n idx runStart runLen : ℕ) → U64 × Pmm
  | 0, _, _, _ => (0, p)
  | n + 1, idx, runStart, runLen =>
    let used := word p.bitmap (idx / 64) &&& 1#64 <<< (idx % 64) ≠ 0
    if used then allocFramesLoop p count n (idx + 1) runStart 0
    else
      let runStart := if runLen = 0 then idx else runStart
      let runLen := runLen + 1
      if runLen = count then
        (p.physMemStart + BitVec.ofNat 64 runStart * pageSize,
          { p with bitmap := markRun p.bitmap count runStart })
      else allocFramesLoop p count n (idx + 1) runStart runLen

/-- `alloc_frames`. -/
def allocFrames (p : Pmm) (count : U64) : U64 × Pmm :=
  if count = 0 then (0, p) else allocFramesLoop p count.toNat p.totalFrames.toNat 0 0 0

/-- The guards of `free_frame` that run before the lock is taken. -/
def inRange (p : Pmm) (addr : U64) : Bool :=
  !(addr < p.physMemStart || addr ≥ physMemEnd) && addr % pageSize == 0 &&
    (addr - p.physMemStart) / pageSize < p.totalFrames

/-- `free_frame`. -/
def freeFrame (p : Pmm) (addr : U64) : Pmm :=
  if p.inRange addr then
    let frameIndex := ((addr - p.physMemStart) / pageSize).toNat
    if word p.bitmap (frameIndex / 64) &&& 1#64 <<< (frameIndex % 64) ≠ 0 then
      { p with bitmap := clearBit p.bitmap frameIndex }
    else p
  else p

/-! ### Frames and bits -/

/-- Bit `i` of the bitmap. -/
def bit (p : Pmm) (i : ℕ) : Bool := WordBitmap.bit p.bitmap i

/-- The base address of frame `i`. -/
def frame (p : Pmm) (i : ℕ) : U64 := p.physMemStart + BitVec.ofNat 64 i * pageSize

/-- Frame `i` marked used. -/
def mark (p : Pmm) (i : ℕ) : Pmm := { p with bitmap := setBit p.bitmap i }

/-- Frame `i` marked free. -/
def unmark (p : Pmm) (i : ℕ) : Pmm := { p with bitmap := clearBit p.bitmap i }

/-- The address `a` is the base of a frame that the bitmap marks used. -/
def Used (p : Pmm) (a : U64) : Prop :=
  ∃ i < p.totalFrames.toNat, a = p.frame i ∧ p.bit i = true

/-- `count` consecutive free frames from frame `s` on. -/
def FreeRun (p : Pmm) (s count : ℕ) : Prop :=
  s + count ≤ p.totalFrames.toNat ∧ ∀ j < count, p.bit (s + j) = false

/-- The invariant of the allocator: a page-aligned managed range that ends at
`PHYS_MEM_END`, a bitmap that covers it, and the padding bits of the last word
set. -/
structure WF (p : Pmm) : Prop where
  start_pos : 0 < p.physMemStart.toNat
  start_aligned : p.physMemStart.toNat % 4096 = 0
  managed_end : p.physMemStart.toNat + p.totalFrames.toNat * 4096 = physMemEnd.toNat
  covers : p.totalFrames.toNat ≤ 64 * p.bitmap.length
  padding : ∀ i, p.totalFrames.toNat ≤ i → i < 64 * p.numWords → p.bit i = true

variable {p : Pmm}

theorem toNat_frame (h : p.WF) {i : ℕ} (hi : i < p.totalFrames.toNat) :
    (p.frame i).toNat = p.physMemStart.toNat + i * 4096 := by
  have hend := h.managed_end
  rw [toNat_physMemEnd] at hend
  exact toNat_add_mul_pageSize (by omega)

theorem frame_inj (h : p.WF) {i j : ℕ} (hi : i < p.totalFrames.toNat)
    (hj : j < p.totalFrames.toNat) (hij : p.frame i = p.frame j) : i = j := by
  have := congrArg BitVec.toNat hij
  rw [toNat_frame h hi, toNat_frame h hj] at this
  omega

theorem frame_ne_zero (h : p.WF) {i : ℕ} (hi : i < p.totalFrames.toNat) : p.frame i ≠ 0 := by
  intro h0
  have := congrArg BitVec.toNat h0
  rw [toNat_frame h hi] at this
  have hpos := h.start_pos
  simp at this
  omega

/-- A frame's base is page-aligned and inside the managed range. -/
theorem frame_bounds (h : p.WF) {i : ℕ} (hi : i < p.totalFrames.toNat) :
    (p.frame i).toNat % 4096 = 0 ∧ p.physMemStart.toNat ≤ (p.frame i).toNat ∧
      (p.frame i).toNat < p.physMemStart.toNat + p.totalFrames.toNat * 4096 := by
  have haligned := h.start_aligned
  rw [toNat_frame h hi]
  omega

theorem Used.ne_zero (h : p.WF) {a : U64} (ha : p.Used a) : a ≠ 0 := by
  obtain ⟨i, hi, rfl, -⟩ := ha
  exact frame_ne_zero h hi

theorem Used.aligned (h : p.WF) {a : U64} (ha : p.Used a) : a.toNat % 4096 = 0 := by
  obtain ⟨i, hi, rfl, -⟩ := ha
  exact (frame_bounds h hi).1

theorem Used.lt (h : p.WF) {a : U64} (ha : p.Used a) : a.toNat < 0x3F800000 := by
  obtain ⟨i, hi, rfl, -⟩ := ha
  have := (frame_bounds h hi).2.2
  rwa [h.managed_end, toNat_physMemEnd] at this

theorem used_frame_iff (h : p.WF) {i : ℕ} (hi : i < p.totalFrames.toNat) :
    p.Used (p.frame i) ↔ p.bit i = true := by
  constructor
  · rintro ⟨j, hj, hij, hb⟩
    rwa [frame_inj h hi hj hij]
  · exact fun hb => ⟨i, hi, rfl, hb⟩

theorem lt_length_of_lt (h : p.WF) {i : ℕ} (hi : i < p.totalFrames.toNat) :
    i < 64 * p.bitmap.length := lt_of_lt_of_le hi h.covers

theorem bit_mark (h : p.WF) {i : ℕ} (hi : i < p.totalFrames.toNat) (j : ℕ) :
    (p.mark i).bit j = if j = i then true else p.bit j :=
  bit_setBit (by omega) (lt_length_of_lt h hi) j

theorem bit_unmark (h : p.WF) {i : ℕ} (hi : i < p.totalFrames.toNat) (j : ℕ) :
    (p.unmark i).bit j = if j = i then false else p.bit j :=
  bit_clearBit (by omega) (lt_length_of_lt h hi) j

/-- Changing bits of managed frames only keeps the invariant. -/
theorem WF.of_bits {q : Pmm} (h : p.WF) (hstart : q.physMemStart = p.physMemStart)
    (htotal : q.totalFrames = p.totalFrames) (hlen : q.bitmap.length = p.bitmap.length)
    (hbits : ∀ i, p.totalFrames.toNat ≤ i → q.bit i = p.bit i) : q.WF where
  start_pos := by rw [hstart]; exact h.start_pos
  start_aligned := by rw [hstart]; exact h.start_aligned
  managed_end := by rw [hstart, htotal]; exact h.managed_end
  covers := by rw [htotal, hlen]; exact h.covers
  padding := by
    intro i hi hlt
    rw [htotal] at hi
    rw [numWords, htotal] at hlt
    rw [hbits i hi]
    exact h.padding i hi hlt

theorem WF.mark (h : p.WF) {i : ℕ} (hi : i < p.totalFrames.toNat) : (p.mark i).WF :=
  h.of_bits rfl rfl (length_setBit _ _) fun j hj => by
    rw [bit_mark h hi, if_neg (by omega)]

theorem WF.unmark (h : p.WF) {i : ℕ} (hi : i < p.totalFrames.toNat) : (p.unmark i).WF :=
  h.of_bits rfl rfl (length_clearBit _ _) fun j hj => by
    rw [bit_unmark h hi, if_neg (by omega)]

/-- Two allocators with the same geometry and the same bits are equal. -/
theorem ext_bit {q : Pmm} (haddr : p.bitmapAddr = q.bitmapAddr)
    (hstart : p.physMemStart = q.physMemStart) (htotal : p.totalFrames = q.totalFrames)
    (hlen : p.bitmap.length = q.bitmap.length) (hbits : ∀ i, p.bit i = q.bit i) : p = q := by
  have hmap : p.bitmap = q.bitmap := WordBitmap.ext_bit (by omega) hlen hbits
  cases p
  cases q
  simp_all

/-! ### The boot geometry -/

/-- A kernel image: the linker symbol `__kernel_end`, inside the RAM the kernel
manages. -/
structure KernelImage where
  kernelEnd : U64
  fits : (roundUp kernelEnd pageSize).toNat ≤ physMemEnd.toNat

theorem getLsbD_not_lowBits {v i : ℕ} (hv : v < 64) (hi : i < 64) :
    (~~~((1#64 <<< v) - 1)).getLsbD i = decide (v ≤ i) := by
  have hmask : (1#64 <<< v) - 1 = lowMask 64 v := by
    apply BitVec.eq_of_toNat_eq
    have hpow : 2 ^ v < 2 ^ 64 := Nat.pow_lt_pow_right (by omega) hv
    have hpos : 0 < 2 ^ v := Nat.two_pow_pos v
    have hone : (1#64 <<< v).toNat = 2 ^ v := by
      rw [BitVec.toNat_shiftLeft, Nat.shiftLeft_eq]
      simpa using hpow
    rw [toNat_lowMask (by omega), BitVec.toNat_sub_of_le (by rw [BitVec.le_def, hone]; exact hpos),
      hone]
    simp
  rw [hmask, BitVec.getLsbD_not, getLsbD_lowMask (by omega)]
  by_cases hvi : v ≤ i
  · simp [hi, hvi]
  · simp [hvi, Nat.lt_of_not_le hvi]

theorem length_maskLastWord (ws : List U64) (totalFrames : U64) :
    (maskLastWord ws totalFrames).length = ws.length := by
  rw [maskLastWord]
  split
  · exact List.length_set
  · rfl

/-- In a cleared bitmap only the padding bits of the last word get set. -/
theorem bit_maskLastWord {n : ℕ} {totalFrames : U64} (hn : totalFrames.toNat ≤ 64 * n) (i : ℕ) :
    WordBitmap.bit (maskLastWord (List.replicate n 0) totalFrames) i
      = (decide (totalFrames.toNat ≤ i) && decide (i < 64 * ((totalFrames.toNat + 63) / 64))) := by
  have hzero : ∀ k, word (List.replicate n (0 : U64)) k = 0 := by
    intro k
    rw [word, List.getD_eq_getElem?_getD, List.getElem?_replicate]
    split <;> rfl
  have getLsbD_zero : ∀ k, (0 : U64).getLsbD k = false := fun k => BitVec.getLsbD_zero
  have hlast : (totalFrames / 64).toNat = totalFrames.toNat / 64 := by bv_omega
  have hvalid : (totalFrames % 64).toNat = totalFrames.toNat % 64 := by bv_omega
  rw [maskLastWord, hlast, hvalid]
  generalize totalFrames.toNat = T at hn
  by_cases hT : T % 64 = 0
  · rw [if_neg (by omega), WordBitmap.bit, hzero, getLsbD_zero]
    have : ¬ (T ≤ i ∧ i < 64 * ((T + 63) / 64)) := by omega
    simpa using this
  · rw [if_pos hT, WordBitmap.bit,
      word_set _ (by rw [List.length_replicate]; omega), hzero, hzero]
    by_cases hi : i / 64 = T / 64
    · rw [if_pos hi, BitVec.getLsbD_or, getLsbD_zero, Bool.false_or,
        getLsbD_not_lowBits (by omega) (by omega), ← Bool.decide_and, decide_eq_decide]
      omega
    · rw [if_neg hi, getLsbD_zero]
      have : ¬ (T ≤ i ∧ i < 64 * ((T + 63) / 64)) := by omega
      simpa using this

/-- Words that hold `n` bits. -/
theorem toNat_words {n : U64} (hn : n.toNat < 2 ^ 60) :
    ((n + 63) / 64).toNat = (n.toNat + 63) / 64 := by
  simp only [BitVec.toNat_udiv, BitVec.toNat_add, BitVec.ofNat_eq_ofNat, BitVec.toNat_ofNat,
    Nat.reducePow, Nat.reduceMod]
  omega

theorem toNat_wordBytes {n : U64} (hn : n.toNat < 2 ^ 60) :
    ((n + 63) / 64 * 8).toNat = (n.toNat + 63) / 64 * 8 := by
  rw [BitVec.toNat_mul, toNat_words hn, show (8 : U64).toNat = 8 from rfl]
  omega

/-- What `pmm_init` computes, in exact arithmetic: `a` is the bitmap's address,
`s` the first managed frame, `m` the provisional frame count. -/
theorem pmmInit_geometry (img : KernelImage) :
    ∃ a m s t : ℕ, a = (roundUp img.kernelEnd pageSize).toNat ∧
      m = (physMemEnd.toNat - a) / 4096 ∧
      s = (a + (m + 63) / 64 * 8 + 4095) / 4096 * 4096 ∧ t = (physMemEnd.toNat - s) / 4096 ∧
      (pmmInit img.kernelEnd).physMemStart.toNat = s ∧
      (pmmInit img.kernelEnd).totalFrames.toNat = t ∧
      (pmmInit img.kernelEnd).bitmap.length = (m + 63) / 64 ∧
      a % 4096 = 0 ∧ s ≤ physMemEnd.toNat ∧ 0 < s ∧ t ≤ m := by
  have hfits := img.fits
  rw [toNat_physMemEnd] at hfits
  have haligned : (roundUp img.kernelEnd pageSize).toNat % 4096 = 0 := by
    rw [toNat_roundUp_pageSize]
    exact Nat.mul_mod_left _ _
  have hstart : (pmmInit img.kernelEnd).physMemStart
      = roundUp (roundUp img.kernelEnd pageSize
          + ((physMemEnd - roundUp img.kernelEnd pageSize) / pageSize + 63) / 64 * 8)
        pageSize := rfl
  have htotal : (pmmInit img.kernelEnd).totalFrames
      = (physMemEnd - (pmmInit img.kernelEnd).physMemStart) / pageSize := rfl
  have hlen : (pmmInit img.kernelEnd).bitmap.length
      = (((physMemEnd - roundUp img.kernelEnd pageSize) / pageSize + 63) / 64 * 8 / 8).toNat := by
    rw [pmmInit, length_maskLastWord, List.length_replicate]
  -- only what has been said of the bitmap's address and of the word count is needed
  generalize roundUp img.kernelEnd pageSize = a at hfits haligned hstart hlen
  have hm : ((physMemEnd - a) / pageSize).toNat = (0x3F800000 - a.toNat) / 4096 := by
    rw [BitVec.toNat_udiv, BitVec.toNat_sub_of_le (by rw [BitVec.le_def]; exact hfits),
      toNat_physMemEnd, toNat_pageSize]
  generalize (physMemEnd - a) / pageSize = m at hm hstart hlen
  have hb : ((m + 63) / 64 * 8).toNat = (m.toNat + 63) / 64 * 8 :=
    toNat_wordBytes (by omega)
  have hs : (pmmInit img.kernelEnd).physMemStart.toNat
      = (a.toNat + (m.toNat + 63) / 64 * 8 + 4095) / 4096 * 4096 := by
    rw [hstart, toNat_roundUp_pageSize, BitVec.toNat_add, hb]
    omega
  -- the bitmap takes far less than the frames that it is for
  have hle : (a.toNat + (m.toNat + 63) / 64 * 8 + 4095) / 4096 * 4096 ≤ 0x3F800000 := by
    omega
  refine ⟨a.toNat, m.toNat, _, _, rfl, hm, rfl, rfl, hs, ?_, ?_, haligned, hle, ?_, ?_⟩
  · rw [htotal, BitVec.toNat_udiv,
      BitVec.toNat_sub_of_le (by rw [BitVec.le_def, hs]; exact hle), hs, toNat_pageSize]
  · rw [hlen, BitVec.toNat_udiv, hb]
    exact Nat.mul_div_cancel _ (by omega)
  · omega
  · rw [toNat_physMemEnd]
    omega

theorem toNat_numWords (h : p.totalFrames.toNat ≤ physMemEnd.toNat) :
    p.numWords = (p.totalFrames.toNat + 63) / 64 := by
  rw [toNat_physMemEnd] at h
  exact toNat_words (by omega)

/-- After `pmm_init` the bits of managed frames are clear and the padding bits
of the last word are set. -/
theorem bit_pmmInit (img : KernelImage) (i : ℕ) :
    (pmmInit img.kernelEnd).bit i
      = (decide ((pmmInit img.kernelEnd).totalFrames.toNat ≤ i)
          && decide (i < 64 * (pmmInit img.kernelEnd).numWords)) := by
  obtain ⟨a, m, s, t, -, hm, -, ht, -, htotal, hlen, -, -, -, htm⟩ := pmmInit_geometry img
  rw [toNat_numWords (by rw [htotal, ht]; exact (Nat.div_le_self _ _).trans (Nat.sub_le _ _))]
  rw [pmmInit, length_maskLastWord, List.length_replicate] at hlen
  refine bit_maskLastWord ?_ i
  rw [hlen]
  change (pmmInit img.kernelEnd).totalFrames.toNat ≤ _
  rw [htotal]
  omega

theorem pmmInit_wf (img : KernelImage) : (pmmInit img.kernelEnd).WF := by
  obtain ⟨a, m, s, t, ha, hm, hs, ht, hstart, htotal, hlen, hal, hle, hpos, htm⟩ :=
    pmmInit_geometry img
  rw [toNat_physMemEnd] at hm ht hle
  refine ⟨?_, ?_, ?_, ?_, ?_⟩
  · rw [hstart]
    exact hpos
  · rw [hstart, hs]
    exact Nat.mul_mod_left _ _
  · rw [hstart, htotal, toNat_physMemEnd]
    omega
  · rw [htotal, hlen]
    omega
  · intro i hi hlt
    rw [bit_pmmInit]
    simp [hi, hlt]

end Pmm

end GamingConsole
