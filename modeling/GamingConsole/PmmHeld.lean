/-
The frame allocator refines a set of held frames.

A run of the allocator is recorded together with the set of frames its callers
hold: what `alloc_frame` and `alloc_frames` returned, less what `free_frame` was
given.  `Tracks` says that the bitmap is exactly that set, `tracks_run` that no
sequence of calls breaks it, and `step_refines` that each call is a step of the
abstract allocator of `Library/Ownership.lean`.

* **`pmm_tracks_held`** — the bitmap and the answers, after any sequence of calls;
* **`freed_between`** — a frame handed out twice was freed in between, from the abstract
  allocator.
-/
import GamingConsole.PmmSpec
import GamingConsole.Library.Ownership
import Mathlib.Data.Finset.Image
import Mathlib.Data.Finset.Range

namespace GamingConsole

open WordBitmap

namespace Pmm

/-- A call of the allocator, with its argument. -/
inductive Call where
  | allocFrame
  | allocFrames (count : U64)
  | freeFrame (addr : U64)

/-- The allocator and the frames returned and not yet freed. -/
structure Holding where
  pmm : Pmm
  held : Finset U64

/-- The bases of the `n` frames from address `a` on. -/
def basesFrom (a : U64) (n : ℕ) : Finset U64 :=
  (Finset.range n).image fun k => a + BitVec.ofNat 64 k * pageSize

namespace Holding

/-- One call: the allocator runs, and what it returned or was given moves. -/
def apply (s : Holding) : Call → Holding
  | .allocFrame =>
    let r := Pmm.allocFrame s.pmm
    { pmm := r.2, held := if r.1 = 0 then s.held else insert r.1 s.held }
  | .allocFrames count =>
    let r := Pmm.allocFrames s.pmm count
    { pmm := r.2, held := if r.1 = 0 then s.held else s.held ∪ basesFrom r.1 count.toNat }
  | .freeFrame addr => { pmm := Pmm.freeFrame s.pmm addr, held := s.held.erase addr }

/-- A sequence of calls, first call first. -/
def run (s : Holding) (calls : List Call) : Holding := calls.foldl apply s

/-- The allocator as `pmm_init` leaves it. -/
def boot (img : KernelImage) : Holding := { pmm := pmmInit img.kernelEnd, held := ∅ }

/-- The bitmap marks used exactly the held frames. -/
structure Tracks (s : Holding) : Prop where
  wf : s.pmm.WF
  mem_iff : ∀ a, a ∈ s.held ↔ s.pmm.Used a

variable {s : Holding}

theorem tracks_boot (img : KernelImage) : Tracks (boot img) where
  wf := pmmInit_wf img
  mem_iff := by
    intro a
    constructor
    · intro ha
      exact absurd ha (Finset.notMem_empty a)
    · rintro ⟨i, hi, -, hb⟩
      change (pmmInit img.kernelEnd).bit i = true at hb
      change i < (pmmInit img.kernelEnd).totalFrames.toNat at hi
      rw [bit_pmmInit] at hb
      simp at hb
      omega

theorem frame_add {p : Pmm} (s k : ℕ) :
    p.frame (s + k) = p.frame s + BitVec.ofNat 64 k * pageSize := by
  rw [frame, frame, BitVec.ofNat_add, BitVec.add_mul, BitVec.add_assoc]

theorem mem_basesFrom {p : Pmm} {a : U64} {f n : ℕ} :
    a ∈ basesFrom (p.frame f) n ↔ ∃ k < n, a = p.frame (f + k) := by
  simp only [basesFrom, Finset.mem_image, Finset.mem_range, frame_add]
  constructor
  · rintro ⟨k, hk, rfl⟩
    exact ⟨k, hk, rfl⟩
  · rintro ⟨k, hk, rfl⟩
    exact ⟨k, hk, rfl⟩

theorem Tracks.apply (h : Tracks s) (call : Call) : Tracks (s.apply call) := by
  cases call with
  | allocFrame =>
    rcases allocFrame_cases h.wf with ⟨-, heq⟩ | ⟨f, hf, -, -, heq⟩
    · simp only [Holding.apply, heq, if_true]
      exact h
    · simp only [Holding.apply, heq, if_neg (frame_ne_zero h.wf hf)]
      refine ⟨h.wf.mark hf, fun a => ?_⟩
      rw [used_mark_iff h.wf hf, ← h.mem_iff, Finset.mem_insert, or_comm]
  | allocFrames count =>
    rcases allocFrames_cases s.pmm count with ⟨-, heq⟩ | ⟨f, h0, hrun, -, heq⟩
    · simp only [Holding.apply, heq, if_true]
      exact h
    · have hf : f < s.pmm.totalFrames.toNat := by
        have := hrun.1
        have hpos : count.toNat ≠ 0 := fun hz => h0 (BitVec.eq_of_toNat_eq hz)
        omega
      simp only [Holding.apply, heq, if_neg (frame_ne_zero h.wf hf)]
      refine ⟨h.wf.markFrames hrun.1, fun a => ?_⟩
      rw [used_markFrames_iff h.wf hrun.1, ← h.mem_iff, Finset.mem_union, mem_basesFrom]
  | freeFrame addr =>
    refine ⟨h.wf.freeFrame addr, fun a => ?_⟩
    change a ∈ s.held.erase addr ↔ (Pmm.freeFrame s.pmm addr).Used a
    rw [used_freeFrame_iff h.wf, ← h.mem_iff, Finset.mem_erase, and_comm]

theorem Tracks.run (h : Tracks s) (calls : List Call) : Tracks (s.run calls) := by
  induction calls generalizing s with
  | nil => exact h
  | cons call calls ih => exact ih (h.apply call)

theorem tracks_run (img : KernelImage) (calls : List Call) : Tracks ((boot img).run calls) :=
  (tracks_boot img).run calls

/-- No call moves the managed range. -/
theorem geometry_apply (h : Tracks s) (call : Call) :
    (s.apply call).pmm.physMemStart = s.pmm.physMemStart ∧
      (s.apply call).pmm.totalFrames = s.pmm.totalFrames := by
  cases call with
  | allocFrame =>
    rcases allocFrame_cases h.wf with ⟨-, heq⟩ | ⟨f, -, -, -, heq⟩
    · simp [Holding.apply, heq]
    · simp [Holding.apply, heq, mark]
  | allocFrames count =>
    rcases allocFrames_cases s.pmm count with ⟨-, heq⟩ | ⟨f, -, -, -, heq⟩
    · simp [Holding.apply, heq]
    · simp [Holding.apply, heq, markFrames]
  | freeFrame addr =>
    by_cases ha : s.pmm.Used addr
    · obtain ⟨i, -, -, -, heq⟩ := freeFrame_used h.wf ha
      simp [Holding.apply, heq, unmark]
    · simp [Holding.apply, freeFrame_not_used h.wf ha]

theorem geometry_run (h : Tracks s) (calls : List Call) :
    (s.run calls).pmm.physMemStart = s.pmm.physMemStart ∧
      (s.run calls).pmm.totalFrames = s.pmm.totalFrames := by
  induction calls generalizing s with
  | nil => exact ⟨rfl, rfl⟩
  | cons call calls ih =>
    obtain ⟨h1, h2⟩ := ih (h.apply call)
    obtain ⟨h3, h4⟩ := geometry_apply h call
    exact ⟨h1.trans h3, h2.trans h4⟩

/-- `a` may be handed out in `s`: nobody holds it, and it is the base of a page
inside the managed range. -/
structure Fresh (s : Holding) (a : U64) : Prop where
  not_held : a ∉ s.held
  aligned : a.toNat % 4096 = 0
  ge_start : s.pmm.physMemStart.toNat ≤ a.toNat
  lt_end : a.toNat < s.pmm.physMemStart.toNat + s.pmm.totalFrames.toNat * 4096

theorem Tracks.fresh_frame (h : Tracks s) {i : ℕ} (hi : i < s.pmm.totalFrames.toNat)
    (hb : s.pmm.bit i = false) : Fresh s (s.pmm.frame i) := by
  obtain ⟨h1, h2, h3⟩ := frame_bounds h.wf hi
  refine ⟨?_, h1, h2, h3⟩
  rw [h.mem_iff, used_frame_iff h.wf hi, hb]
  exact Bool.false_ne_true

theorem Tracks.fresh_allocFrame (h : Tracks s) (h0 : (Pmm.allocFrame s.pmm).1 ≠ 0) :
    Fresh s (Pmm.allocFrame s.pmm).1 := by
  rcases allocFrame_cases h.wf with ⟨-, heq⟩ | ⟨f, hf, hb, -, heq⟩
  · rw [heq] at h0
    exact absurd rfl h0
  · rw [heq]
    exact h.fresh_frame hf hb

theorem Tracks.allocFrame_eq_zero_iff (h : Tracks s) :
    (Pmm.allocFrame s.pmm).1 = 0 ↔ ∀ i < s.pmm.totalFrames.toNat, s.pmm.bit i = true := by
  rcases allocFrame_cases h.wf with ⟨hall, heq⟩ | ⟨f, hf, hb, -, heq⟩
  · rw [heq]
    exact ⟨fun _ => hall, fun _ => rfl⟩
  · rw [heq]
    refine ⟨fun h0 => absurd h0 (frame_ne_zero h.wf hf), fun hall => ?_⟩
    rw [hall f hf] at hb
    exact absurd hb.symm Bool.false_ne_true

theorem Tracks.fresh_allocFrames (h : Tracks s) {count : U64}
    (h0 : (Pmm.allocFrames s.pmm count).1 ≠ 0) {k : ℕ} (hk : k < count.toNat) :
    Fresh s ((Pmm.allocFrames s.pmm count).1 + BitVec.ofNat 64 k * pageSize) := by
  rcases allocFrames_cases s.pmm count with ⟨-, heq⟩ | ⟨f, -, hrun, -, heq⟩
  · rw [heq] at h0
    exact absurd rfl h0
  · rw [heq]
    change Fresh s (s.pmm.frame f + BitVec.ofNat 64 k * pageSize)
    have hbound := hrun.1
    rw [← frame_add]
    exact h.fresh_frame (by omega) (hrun.2 k hk)

theorem Tracks.bit_freeFrame_held (h : Tracks s) {a : U64} (ha : a ∈ s.held) (j : ℕ) :
    (Pmm.freeFrame s.pmm a).bit j
      = if j < s.pmm.totalFrames.toNat ∧ s.pmm.frame j = a then false else s.pmm.bit j := by
  obtain ⟨i, hi, rfl, -, heq⟩ := freeFrame_used h.wf ((h.mem_iff a).mp ha)
  rw [heq, bit_unmark h.wf hi]
  by_cases hji : j = i
  · subst hji
    rw [if_pos rfl, if_pos ⟨hi, rfl⟩]
  · rw [if_neg hji, if_neg fun hc => hji (frame_inj h.wf hc.1 hi hc.2)]

theorem Tracks.freeFrame_not_held (h : Tracks s) {a : U64} (ha : a ∉ s.held) :
    Pmm.freeFrame s.pmm a = s.pmm :=
  freeFrame_not_used h.wf fun hu => ha ((h.mem_iff a).mpr hu)

/-- **The bitmap is the set of held frames.**  After any sequence of calls, on
the geometry of any kernel image: the bits of managed frames are the held set and
the padding bits stay set; a frame handed out was not held and is a page of the
managed range; `alloc_frame` answers `0` exactly when every frame is used; and
`free_frame` clears the bit of the held frame it is given, or nothing. -/
theorem pmm_tracks_held (img : KernelImage) (calls : List Call) :
    let s := (boot img).run calls
    (s.pmm.physMemStart = (pmmInit img.kernelEnd).physMemStart ∧
        s.pmm.totalFrames = (pmmInit img.kernelEnd).totalFrames) ∧
      (∀ i < s.pmm.totalFrames.toNat, s.pmm.bit i = true ↔ s.pmm.frame i ∈ s.held) ∧
      (∀ i, s.pmm.totalFrames.toNat ≤ i → i < 64 * s.pmm.numWords → s.pmm.bit i = true) ∧
      ((Pmm.allocFrame s.pmm).1 = 0 ↔
        ∀ i < s.pmm.totalFrames.toNat, s.pmm.frame i ∈ s.held) ∧
      ((Pmm.allocFrame s.pmm).1 ≠ 0 → Fresh s (Pmm.allocFrame s.pmm).1) ∧
      (∀ count : U64, (Pmm.allocFrames s.pmm count).1 ≠ 0 → ∀ k < count.toNat,
        Fresh s ((Pmm.allocFrames s.pmm count).1 + BitVec.ofNat 64 k * pageSize)) ∧
      (∀ a ∈ s.held, ∀ j, (Pmm.freeFrame s.pmm a).bit j
        = if j < s.pmm.totalFrames.toNat ∧ s.pmm.frame j = a then false else s.pmm.bit j) ∧
      (∀ a ∉ s.held, Pmm.freeFrame s.pmm a = s.pmm) := by
  intro s
  have h : Tracks s := tracks_run img calls
  have hbit : ∀ i < s.pmm.totalFrames.toNat, s.pmm.bit i = true ↔ s.pmm.frame i ∈ s.held := by
    intro i hi
    rw [h.mem_iff, used_frame_iff h.wf hi]
  refine ⟨geometry_run (tracks_boot img) calls, hbit, h.wf.padding, ?_,
    h.fresh_allocFrame, fun count h0 k hk => h.fresh_allocFrames h0 hk,
    fun a ha j => h.bit_freeFrame_held ha j, fun a ha => h.freeFrame_not_held ha⟩
  rw [h.allocFrame_eq_zero_iff]
  exact forall₂_congr fun i hi => hbit i hi

/-! ### The abstract allocator -/

/-- What the callers see of a call made in `s`. -/
def event (s : Holding) : Call → Ownership.Event U64
  | .allocFrame =>
    if (Pmm.allocFrame s.pmm).1 = 0 then .refuse else .grant {(Pmm.allocFrame s.pmm).1}
  | .allocFrames count =>
    if (Pmm.allocFrames s.pmm count).1 = 0 then .refuse
    else .grant (basesFrom (Pmm.allocFrames s.pmm count).1 count.toNat)
  | .freeFrame addr => if addr ∈ s.held then .release addr else .ignore addr

/-- The frames the allocator manages. -/
def managed (p : Pmm) : Set U64 := {a | ∃ i < p.totalFrames.toNat, a = p.frame i}

theorem Tracks.mem_managed (h : Tracks s) {a : U64} (hf : Fresh s a) : a ∈ managed s.pmm := by
  have h1 := hf.ge_start
  have h2 := hf.lt_end
  have h3 := hf.aligned
  have h4 := h.wf.start_aligned
  have hi : (a.toNat - s.pmm.physMemStart.toNat) / 4096 < s.pmm.totalFrames.toNat := by omega
  refine ⟨_, hi, BitVec.eq_of_toNat_eq ?_⟩
  rw [toNat_frame h.wf hi]
  omega

/-- **Refinement**: every call is a step of the abstract allocator. -/
theorem step_refines (h : Tracks s) (call : Call) :
    Ownership.Step (managed s.pmm) ↑s.held (s.event call) ↑(s.apply call).held := by
  cases call with
  | allocFrame =>
    by_cases h0 : (Pmm.allocFrame s.pmm).1 = 0
    · simp only [event, Holding.apply, if_pos h0]
      exact .refuse
    · have hfresh := h.fresh_allocFrame h0
      simp only [event, Holding.apply, if_neg h0]
      rw [Finset.coe_insert, ← Set.union_singleton]
      refine .grant ?_ ?_
      · rintro a rfl
        exact h.mem_managed hfresh
      · rintro a rfl
        exact fun ha => hfresh.not_held (Finset.mem_coe.mp ha)
  | allocFrames count =>
    by_cases h0 : (Pmm.allocFrames s.pmm count).1 = 0
    · simp only [event, Holding.apply, if_pos h0]
      exact .refuse
    · have hfresh : ∀ a ∈ basesFrom (Pmm.allocFrames s.pmm count).1 count.toNat, Fresh s a := by
        intro a ha
        obtain ⟨k, hk, rfl⟩ := Finset.mem_image.mp ha
        exact h.fresh_allocFrames h0 (Finset.mem_range.mp hk)
      simp only [event, Holding.apply, if_neg h0]
      rw [Finset.coe_union]
      refine .grant (fun a ha => h.mem_managed (hfresh a ha)) fun a ha hheld => ?_
      exact (hfresh a ha).not_held (Finset.mem_coe.mp hheld)
  | freeFrame addr =>
    by_cases ha : addr ∈ s.held
    · simp only [event, Holding.apply, if_pos ha]
      rw [Finset.coe_erase]
      exact .release (Finset.mem_coe.mpr ha)
    · simp only [event, Holding.apply, if_neg ha]
      rw [Finset.erase_eq_of_notMem ha]
      exact .ignore fun hc => ha (Finset.mem_coe.mp hc)

/-- What the callers see of a sequence of calls, latest first. -/
def trace (s : Holding) : List Call → List (Ownership.Event U64)
  | [] => []
  | call :: calls => trace (s.apply call) calls ++ [s.event call]

theorem managed_apply (h : Tracks s) (call : Call) :
    managed (s.apply call).pmm = managed s.pmm := by
  obtain ⟨h1, h2⟩ := geometry_apply h call
  simp only [managed, frame, h1, h2]

theorem run_refines (h : Tracks s) (calls : List Call) :
    Ownership.Extends (managed s.pmm) ↑s.held (s.trace calls) ↑(s.run calls).held := by
  induction calls generalizing s with
  | nil => exact .nil
  | cons call calls ih =>
    have hrest := ih (h.apply call)
    rw [managed_apply h] at hrest
    exact hrest.front (step_refines h call)

theorem managed_run (h : Tracks s) (calls : List Call) :
    managed (s.run calls).pmm = managed s.pmm := by
  obtain ⟨h1, h2⟩ := geometry_run h calls
  simp only [managed, frame, h1, h2]

/-- Only `free_frame` releases. -/
theorem freeFrame_mem_of_release {a : U64} {calls : List Call}
    (h : Ownership.Event.release a ∈ s.trace calls) : Call.freeFrame a ∈ calls := by
  induction calls generalizing s with
  | nil => exact absurd h List.not_mem_nil
  | cons call calls ih =>
    rcases List.mem_append.mp h with h | h
    · exact List.mem_cons_of_mem _ (ih h)
    · have hevent := (List.mem_singleton.mp h).symm
      cases call with
      | allocFrame =>
        rw [event] at hevent
        split at hevent <;> cases hevent
      | allocFrames count =>
        rw [event] at hevent
        split at hevent <;> cases hevent
      | freeFrame addr =>
        rw [event] at hevent
        split at hevent
        · cases hevent
          exact List.mem_cons_self
        · cases hevent

/-- **No frame has two owners**: a frame that two calls of a run have handed out was freed in
between. -/
theorem freed_between (img : KernelImage) (before between : List Call) {first second : Call}
    {S S' : Set U64} {a : U64} (hfirst : ((boot img).run before).event first = .grant S)
    (ha : a ∈ S)
    (hsecond : ((boot img).run (before ++ first :: between)).event second = .grant S')
    (ha' : a ∈ S') : Call.freeFrame a ∈ between := by
  have h := tracks_run img before
  have hrun : (boot img).run (before ++ first :: between) =
      (((boot img).run before).apply first).run between := by
    rw [run, List.foldl_append]
    rfl
  rw [hrun] at hsecond
  generalize (boot img).run before = s at h hfirst hsecond
  have h1 := step_refines h first
  have h2 := run_refines (h.apply first) between
  have h3 := step_refines ((h.apply first).run between) second
  rw [managed_run (h.apply first), managed_apply h] at h3
  rw [managed_apply h] at h2
  rw [hfirst] at h1
  rw [hsecond] at h3
  exact freeFrame_mem_of_release (h2.granted_once h1 ha h3 ha')

end Holding

end Pmm

end GamingConsole
