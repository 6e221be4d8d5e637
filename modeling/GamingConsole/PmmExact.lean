/-
The frame allocator, exactly.

* **`pmm_init_sound`** — the geometry that `pmm_init` sets up, for every kernel image;
* **`alloc_frames_first_fit`** — the run that `alloc_frames` takes, for every bitmap;
* **`alloc_frame_eq_alloc_frames`** — the two allocators agree on single frames;
* **`meminfo_exact`** — `cmd_meminfo` reports the frames that are held.

The first and the last hold after any sequence of calls, since the calls change bits of
managed frames only.
-/
import GamingConsole.PmmHeld

namespace GamingConsole

open WordBitmap

namespace Pmm

variable {p : Pmm}

/-! ### The boot geometry -/

/-- **`pmm_init` produces a sound geometry.**  No difference that it forms underflows, the
bitmap lies below the managed range and reaches to every frame, and exactly the bits of the
frames are clear; the words that any later call reads or writes are in the bitmap. -/
theorem pmm_init_sound (img : KernelImage) :
    let p := pmmInit img.kernelEnd
    let a := roundUp img.kernelEnd pageSize
    (a.toNat ≤ physMemEnd.toNat ∧ p.physMemStart.toNat ≤ physMemEnd.toNat) ∧
      (p.bitmapAddr = a ∧ (((physMemEnd - a) / pageSize + 63) / 64 * 8).toNat
          = 8 * p.bitmap.length ∧
        p.bitmapAddr.toNat + 8 * p.bitmap.length ≤ p.physMemStart.toNat) ∧
      (p.physMemStart.toNat % 4096 = 0 ∧
        p.physMemStart.toNat + 4096 * p.totalFrames.toNat = physMemEnd.toNat) ∧
      (p.numWords = (p.totalFrames.toNat + 63) / 64 ∧ p.numWords ≤ p.bitmap.length ∧
        (p.totalFrames.toNat % 64 ≠ 0 → p.totalFrames.toNat / 64 < p.bitmap.length)) ∧
      (∀ i < 64 * p.numWords, p.bit i = false ↔ i < p.totalFrames.toNat) ∧
      ∀ calls, let q := ((Holding.boot img).run calls).pmm
        q.numWords ≤ q.bitmap.length ∧ ∀ i < q.totalFrames.toNat, i / 64 < q.bitmap.length := by
  intro p a
  have hwf : p.WF := pmmInit_wf img
  obtain ⟨b, m, s, t, ha, hm, hs, ht, hstart, htotal, hlen, -, hle, -, htm⟩ := pmmInit_geometry img
  have haddr : a.toNat = b := ha.symm
  rw [toNat_physMemEnd] at hm hle
  have hwords := numWords_eq hwf
  have hcovers := hwf.covers
  -- the bitmap is cut from what is above the image, a word for 64 frames
  have hbytes : (((physMemEnd - a) / pageSize + 63) / 64 * 8).toNat = 8 * ((m + 63) / 64) := by
    have hframes : ((physMemEnd - a) / pageSize).toNat = m := by
      rw [BitVec.toNat_udiv,
        BitVec.toNat_sub_of_le (by rw [BitVec.le_def]; exact img.fits), hm, haddr]
      rfl
    rw [toNat_wordBytes (by omega), hframes]
    omega
  refine ⟨⟨img.fits, by rw [hstart]; exact hle⟩, ⟨rfl, by rw [hbytes, hlen], ?_⟩,
    ⟨hwf.start_aligned, ?_⟩, ⟨hwords, ?_, ?_⟩, fun i hi => ?_, fun calls => ?_⟩
  · show a.toNat + 8 * p.bitmap.length ≤ _
    rw [hstart, hlen, hs, haddr]
    omega
  · have hend := hwf.managed_end
    omega
  · omega
  · omega
  · have hbit : p.bit i = (decide (p.totalFrames.toNat ≤ i) && decide (i < 64 * p.numWords)) :=
      bit_pmmInit img i
    rw [hbit, decide_eq_true hi, Bool.and_true, decide_eq_false_iff_not, not_le]
  · intro q
    have hq : q.WF := (Holding.tracks_run img calls).wf
    have hcovers' := hq.covers
    rw [numWords_eq hq]
    refine ⟨by omega, fun i hi => ?_⟩
    omega

/-! ### First fit -/

/-- **`alloc_frames` is an exact first fit.**  The bitmap is any that has a bit for every
frame. -/
theorem alloc_frames_first_fit (p : Pmm) (count : U64)
    (hcovers : p.totalFrames.toNat ≤ 64 * p.bitmap.length) :
    (∀ s, count ≠ 0 → p.FreeRun s count.toNat → (∀ s' < s, ¬ p.FreeRun s' count.toNat) →
        (allocFrames p count).1 = p.physMemStart + BitVec.ofNat 64 s * pageSize ∧
          (∃ bitmap, bitmap.length = p.bitmap.length ∧
            (allocFrames p count).2 = { p with bitmap := bitmap }) ∧
          ∀ j, (allocFrames p count).2.bit j =
            if s ≤ j ∧ j < s + count.toNat then true else p.bit j) ∧
      (count = 0 ∨ (∀ s, ¬ p.FreeRun s count.toNat) → allocFrames p count = (0, p)) := by
  rcases allocFrames_cases p count with ⟨hnone, heq⟩ | ⟨s, h0, hrun, hmin, heq⟩
  · exact ⟨fun s h0 hrun _ => absurd hrun (hnone h0 s), fun _ => heq⟩
  · refine ⟨fun s' _ hrun' hmin' => ?_, fun hno => ?_⟩
    · -- two smallest starts are one
      have hs : s' = s := by
        rcases lt_trichotomy s' s with hlt | rfl | hlt
        · exact absurd hrun' (hmin s' hlt)
        · rfl
        · exact absurd hrun (hmin' s hlt)
      rw [heq, hs]
      exact ⟨rfl, ⟨_, length_markRun _ _ _, rfl⟩,
        fun j => bit_markRun _ _ _ (hrun.1.trans hcovers) j⟩
    · rcases hno with hz | hno
      · exact absurd hz h0
      · exact absurd hrun (hno s)

/-- Frames 1 and 2 of four, where frame 0 is used. -/
theorem alloc_frames_first_fit_second :
    let p : Pmm :=
      { bitmapAddr := 0, bitmap := [0xFFFFFFFFFFFFFFF1#64], physMemStart := 0x3F7FC000#64,
        totalFrames := 4 }
    (allocFrames p 2).1 = 0x3F7FD000#64 ∧ (allocFrames p 4) = (0, p) := by
  intro p
  have hused : ¬ p.FreeRun 0 2 := fun h => absurd (h.2 0 (by decide)) (by decide)
  have hfirst := (alloc_frames_first_fit p 2 (by decide)).1 1 (by decide)
    ⟨by decide, by decide⟩ fun s hs => by
      rw [Nat.lt_one_iff.mp hs]
      exact hused
  have hnone := (alloc_frames_first_fit p 4 (by decide)).2 (Or.inr fun s hs => ?_)
  · exact ⟨hfirst.1, hnone⟩
  · have hle : s + 4 ≤ 4 := hs.1
    have hclear := hs.2 0 (by decide)
    rw [show s + 0 = 0 by omega] at hclear
    exact absurd hclear (by decide)

/-- **`alloc_frame` and `alloc_frames(1)` agree**, in every state after `pmm_init`. -/
theorem alloc_frame_eq_alloc_frames (img : KernelImage) (calls : List Call) :
    let p := ((Holding.boot img).run calls).pmm
    allocFrame p = allocFrames p 1 ∧
      ((∀ i < p.totalFrames.toNat, p.bit i = true) → allocFrame p = (0, p)) := by
  intro p
  have hwf : p.WF := (Holding.tracks_run img calls).wf
  have hone : ∀ s, p.FreeRun s (1 : U64).toNat ↔ s < p.totalFrames.toNat ∧ p.bit s = false := by
    intro s
    constructor
    · intro hrun
      have hle : s + 1 ≤ p.totalFrames.toNat := hrun.1
      exact ⟨hle, hrun.2 0 (by decide)⟩
    · rintro ⟨hlt, hclear⟩
      refine ⟨hlt, fun j hj => ?_⟩
      have hj0 : j = 0 := Nat.lt_one_iff.mp hj
      rw [hj0, Nat.add_zero, hclear]
  rcases allocFrame_cases hwf with ⟨hall, heq⟩ | ⟨f, hf, hclear, hmin, heq⟩
  · rcases allocFrames_cases p 1 with ⟨-, heq'⟩ | ⟨s, -, hrun, -, -⟩
    · exact ⟨heq.trans heq'.symm, fun _ => heq⟩
    · obtain ⟨hlt, hclear⟩ := (hone s).mp hrun
      rw [hall s hlt] at hclear
      exact absurd hclear (by decide)
  · refine ⟨?_, fun hall => ?_⟩
    · rcases allocFrames_cases p 1 with ⟨hnone, -⟩ | ⟨s, -, hrun, hmin', heq'⟩
      · exact absurd ((hone f).mpr ⟨hf, hclear⟩) (hnone (by decide) f)
      · -- the scan of words and the scan of bits stop at the same frame
        obtain ⟨hlt, hclear'⟩ := (hone s).mp hrun
        have hs : s = f := by
          rcases lt_trichotomy s f with hsf | rfl | hsf
          · rw [hmin s hsf] at hclear'
            exact absurd hclear' (by decide)
          · rfl
          · exact absurd ((hone f).mpr ⟨hf, hclear⟩) (hmin' f hsf)
        rw [heq, heq', hs]
        rfl
    · rw [hall f hf] at hclear
      exact absurd hclear (by decide)

/-! ### Accounting -/

/-- The figures of `cmd_meminfo`. -/
structure MemInfo where
  rawSetBits : U64
  paddingBits : U64
  usedFrames : U64
  freeFrames : U64

/-- `cmd_meminfo`, up to what it prints. -/
def cmdMeminfo (p : Pmm) : MemInfo :=
  let words := (p.totalFrames + 63) / 64
  let paddingBits := words * 64 - p.totalFrames
  let rawSetBits := (List.range words.toNat).foldl (fun n i => n + (word p.bitmap i).cpop) 0
  let usedFrames := rawSetBits - paddingBits
  let freeFrames := p.totalFrames - usedFrames
  { rawSetBits, paddingBits, usedFrames, freeFrames }

theorem toNat_foldl_cpop (ws : List U64) : ∀ n, n < 2 ^ 50 →
    ((List.range n).foldl (fun m i => m + (word ws i).cpop) (0 : U64)).toNat
      = Nat.count (fun i => WordBitmap.bit ws i = true) (64 * n) := by
  intro n
  induction n with
  | zero => exact fun _ => rfl
  | succ n ih =>
    intro hn
    have hle : Nat.count (fun i => WordBitmap.bit ws i = true) (64 * (n + 1)) ≤ 64 * (n + 1) :=
      Nat.count_le _
    rw [List.range_succ, List.foldl_append, List.foldl_cons, List.foldl_nil, BitVec.toNat_add,
      ih (by omega), ← count_bit_succ]
    exact Nat.mod_eq_of_lt (by omega)

/-- The padding bits are set, so the others are what the padding leaves. -/
theorem count_bit_numWords (h : p.WF) :
    Nat.count (fun i => p.bit i = true) (64 * p.numWords)
      = Nat.count (fun i => p.bit i = true) p.totalFrames.toNat
        + (64 * p.numWords - p.totalFrames.toNat) := by
  have hwords := numWords_eq h
  have hsplit : 64 * p.numWords
      = p.totalFrames.toNat + (64 * p.numWords - p.totalFrames.toNat) := by omega
  rw [hsplit, Nat.count_add, Nat.add_sub_cancel_left]
  congr 1
  refine Nat.count_of_forall fun i hi => ?_
  exact h.padding _ (by omega) (by omega)

/-- A held frame is a set bit. -/
theorem Holding.Tracks.card_held {s : Holding} (h : s.Tracks) :
    s.held.card = Nat.count (fun i => s.pmm.bit i = true) s.pmm.totalFrames.toNat := by
  have himage : s.held = ((Finset.range s.pmm.totalFrames.toNat).filter
      fun i => s.pmm.bit i = true).image s.pmm.frame := by
    ext a
    rw [h.mem_iff, Finset.mem_image]
    constructor
    · rintro ⟨i, hi, ha, hb⟩
      exact ⟨i, Finset.mem_filter.mpr ⟨Finset.mem_range.mpr hi, hb⟩, ha.symm⟩
    · rintro ⟨i, hi, ha⟩
      obtain ⟨hi, hb⟩ := Finset.mem_filter.mp hi
      exact ⟨i, Finset.mem_range.mp hi, ha.symm, hb⟩
  rw [himage, Nat.count_eq_card_filter_range, Finset.card_image_of_injOn]
  intro i hi j hj hij
  have hi := Finset.mem_range.mp (Finset.mem_filter.mp hi).1
  have hj := Finset.mem_range.mp (Finset.mem_filter.mp hj).1
  exact frame_inj h.wf hi hj hij

/-- **The figures of `cmd_meminfo` are exact**, and neither difference underflows. -/
theorem meminfo_exact (img : KernelImage) (calls : List Call) :
    let s := (Holding.boot img).run calls
    let m := cmdMeminfo s.pmm
    m.paddingBits.toNat ≤ m.rawSetBits.toNat ∧ m.usedFrames.toNat = s.held.card ∧
      m.usedFrames.toNat ≤ s.pmm.totalFrames.toNat ∧
      m.freeFrames.toNat = s.pmm.totalFrames.toNat - s.held.card := by
  intro s m
  have h : s.Tracks := Holding.tracks_run img calls
  have hcard := h.card_held
  have hend := h.wf.managed_end
  rw [toNat_physMemEnd] at hend
  have hwords : ((s.pmm.totalFrames + 63) / 64).toNat = (s.pmm.totalFrames.toNat + 63) / 64 :=
    toNat_words (by omega)
  -- the words hold the used frames and the padding behind the last frame
  have hraw : m.rawSetBits.toNat =
      s.held.card + (64 * s.pmm.numWords - s.pmm.totalFrames.toNat) := by
    have hfold := toNat_foldl_cpop s.pmm.bitmap s.pmm.numWords
      (by rw [numWords_eq h.wf]; omega)
    rw [hcard, ← count_bit_numWords h.wf]
    exact hfold
  have hpadding : m.paddingBits.toNat = 64 * s.pmm.numWords - s.pmm.totalFrames.toNat := by
    have hmul : ((s.pmm.totalFrames + 63) / 64 * 64).toNat = 64 * s.pmm.numWords := by
      rw [BitVec.toNat_mul, hwords, numWords_eq h.wf]
      show _ * 64 % _ = _
      omega
    show ((s.pmm.totalFrames + 63) / 64 * 64 - s.pmm.totalFrames).toNat = _
    rw [BitVec.toNat_sub_of_le, hmul]
    rw [BitVec.le_def, hmul, numWords_eq h.wf]
    omega
  have hle : s.held.card ≤ s.pmm.totalFrames.toNat := by
    rw [hcard]
    exact Nat.count_le _
  have hused : m.usedFrames.toNat = s.held.card := by
    show (m.rawSetBits - m.paddingBits).toNat = _
    rw [BitVec.toNat_sub_of_le (by rw [BitVec.le_def]; omega)]
    omega
  refine ⟨by omega, hused, by omega, ?_⟩
  show (s.pmm.totalFrames - m.usedFrames).toNat = _
  rw [BitVec.toNat_sub_of_le (by rw [BitVec.le_def]; omega), hused]

end Pmm

end GamingConsole
