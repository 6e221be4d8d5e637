/-
What `kmalloc` hands out, over whole runs.

A run is a sequence of calls, on any cores and with any sizes; `heap_lock` keeps the
calls apart, and between any two actions everything but the two variables of the heap
may change (`HeapAct`).  The rounding of the size and the end of the block are computed
modulo 2⁶⁴, so that the blocks are sound exactly if every request, rounded up, ends
below 2⁶⁴.

* `holds_kmalloc` — a call returns the bump pointer and moves it by the rounded size;
* `KmallocRun.bump` — where the bump pointer is after requests that fit;
* **`kmalloc_sound_iff`** — for every run.
-/
import GamingConsole.Runs
import GamingConsole.Library.Device

namespace GamingConsole

open Prog

variable {c : ℕ} {k k' : Kernel} {size p : U64} {α : Type}

/-! ### A call -/

/-- The next address of the heap. -/
def Kernel.bump (k : Kernel) : U64 := k.var .bumpPtr

/-- Everything but the two variables of the heap may differ. -/
structure SameHeapVars (k k' : Kernel) : Prop where
  bump : k'.bump = k.bump
  heapEnd : k'.var .heapEnd = k.var .heapEnd

/-- One action of a call on core `c`, after anything that leaves the heap's variables
alone. -/
def HeapAct (c : ℕ) (e : Action) (k : Kernel) (r : e.Answer) (k' : Kernel) : Prop :=
  ∃ k₀, SameHeapVars k k₀ ∧ k₀.perform c e = some (r, k')

/-- The action does not store to `bump_ptr`. -/
def LeavesBump : Action → Prop
  | .set .bumpPtr _ => False
  | _ => True

theorem perform_bump {e : Action} {r : e.Answer} (he : LeavesBump e)
    (h : k.perform c e = some (r, k')) : k'.bump = k.bump := by
  cases e with
  | spinLock l =>
    rw [Kernel.perform, Kernel.spinLock] at h
    split at h
    · split at h <;> cases h
      rfl
    · cases h
      rfl
  | spinUnlock l flags =>
    rw [Kernel.perform, Option.some_inj, Prod.mk.injEq] at h
    obtain ⟨-, rfl⟩ := h
    rw [Kernel.spinUnlock]
    split <;> rfl
  | set x v =>
    cases h
    refine Kernel.withVar_of_ne ?_
    rintro rfl
    exact he
  | _ =>
    cases h
    try rfl

theorem HeapAct.bump {e : Action} {r : e.Answer} (h : HeapAct c e k r k') (he : LeavesBump e) :
    k'.bump = k.bump := by
  obtain ⟨k₀, hsame, hperform⟩ := h
  exact (perform_bump he hperform).trans hsame.bump

/-! ### Memory code leaves the bump pointer alone -/

theorem leavesBump_critical {l : Lock} {body : KProg α} (h : Only LeavesBump body) :
    Only LeavesBump (critical l body) :=
  Only.step trivial fun _ => h.bind fun _ => Only.step trivial fun _ => Only.ret _

theorem leavesBump_allocFrame : Only LeavesBump allocFrame :=
  leavesBump_critical (Only.perform trivial)

theorem leavesBump_freeFrame {addr : U64} : Only LeavesBump (freeFrame addr) :=
  Only.step trivial fun _ =>
    Only.ite (leavesBump_critical (Only.perform trivial)) (Only.ret _)

theorem leavesBump_getOrAllocTable {table : U64} {index : Fin 512} :
    Only LeavesBump (getOrAllocTable table index) := by
  refine Only.step trivial fun _ => Only.ite (Only.ret _) ?_
  refine leavesBump_allocFrame.bind fun _ => Only.ite (Only.ret _) ?_
  exact Only.step trivial fun _ => Only.step trivial fun _ => Only.ret _

theorem leavesBump_mapPage {va phys flags : U64} : Only LeavesBump (mapPage va phys flags) := by
  refine Only.step trivial fun _ => ?_
  refine leavesBump_getOrAllocTable.bind fun _ => Only.ite (Only.ret _) ?_
  refine leavesBump_getOrAllocTable.bind fun _ => Only.ite (Only.ret _) ?_
  exact Only.step trivial fun _ => Only.ret _

theorem leavesBump_freeIfEmpty {parent table : U64} {index : Fin 512} :
    Only LeavesBump (freeIfEmpty parent index table) :=
  Only.step trivial fun _ =>
    Only.ite (Only.step trivial fun _ => leavesBump_freeFrame) (Only.ret _)

theorem leavesBump_unmapPage {va : U64} : Only LeavesBump (unmapPage va) := by
  refine Only.step trivial fun _ => Only.step trivial fun _ => ?_
  refine Only.ite (Only.ret _) (Only.step trivial fun _ => ?_)
  refine Only.ite (Only.ret _) (Only.step trivial fun _ => ?_)
  refine leavesBump_freeIfEmpty.bind fun _ => ?_
  exact leavesBump_freeIfEmpty.bind fun _ => Only.ret _

theorem leavesBump_unmapPages {va : U64} (n : ℕ) :
    ∀ i, Only LeavesBump (unmapPages va n i) := by
  induction n with
  | zero => exact fun _ => Only.ret _
  | succ n ih =>
    exact fun i => leavesBump_unmapPage.bind fun _ => Only.ite (ih (i + 1)) (Only.ret _)

theorem leavesBump_tlbiPages {va : U64} (n : ℕ) : ∀ i, Only LeavesBump (tlbiPages va n i) := by
  induction n with
  | zero => exact fun _ => Only.ret _
  | succ n ih => exact fun i => Only.step trivial fun _ => ih (i + 1)

theorem leavesBump_unmapLocked {va size : U64} : Only LeavesBump (unmapLocked va size) :=
  (leavesBump_unmapPages _ 0).bind fun _ => Only.ite (leavesBump_tlbiPages _ 0) (Only.ret _)

theorem leavesBump_mapPages {va phys flags : U64} (n : ℕ) :
    ∀ i, Only LeavesBump (mapPages va phys flags n i) := by
  induction n with
  | zero => exact fun _ => Only.ret _
  | succ n ih =>
    intro i
    refine leavesBump_mapPage.bind fun _ => Only.ite (ih (i + 1)) ?_
    exact leavesBump_unmapLocked.bind fun _ => Only.ret _

theorem leavesBump_map {va phys size flags : U64} : Only LeavesBump (map va phys size flags) := by
  refine leavesBump_critical ((leavesBump_mapPages _ 0).bind fun _ => Only.ite ?_ (Only.ret _))
  exact (leavesBump_tlbiPages _ 0).bind fun _ => Only.ret _

theorem leavesBump_kmallocLoop {requiredEnd : U64} (n : ℕ) :
    Only LeavesBump (kmallocLoop requiredEnd n) := by
  induction n with
  | zero => exact Only.step trivial nofun
  | succ n ih =>
    refine Only.step trivial fun _ => Only.ite ?_ (Only.ret _)
    refine leavesBump_allocFrame.bind fun _ => Only.ite (Only.ret _) ?_
    exact leavesBump_map.bind fun _ => Only.step trivial fun _ => ih

/-- A call that returns gives out the bump pointer and moves it up by the rounded size. -/
theorem holds_kmalloc : Holds (HeapAct c) (fun _ => True) (fun p k' => p = k.bump ∧
    k.bump + alignedSize size ≤ heapBase + heapMaxSize ∧ k'.bump = k.bump + alignedSize size)
    (kmalloc size) k := by
  refine Holds.step trivial fun flags k₁ h₁ => ?_
  have hbump₁ : k₁.bump = k.bump := h₁.bump trivial
  refine Holds.step trivial fun bumpPtr k₂ h₂ => ?_
  have hbump₂ : k₂.bump = k.bump := (h₂.bump trivial).trans hbump₁
  have hread : bumpPtr = k.bump := by
    obtain ⟨k₀, hsame, hperform⟩ := h₂
    cases hperform
    exact hsame.bump.trans hbump₁
  subst hread
  dsimp only
  split
  · exact Holds.step trivial fun _ _ _ => Holds.step trivial nofun
  · next hend =>
    -- the loop moves `heap_end` only
    have hloop : Holds (HeapAct c) (fun k' => k'.bump = k.bump) (fun _ k' => k'.bump = k.bump)
        (kmallocLoop (k.bump + alignedSize size) fuel) k₂ :=
      (leavesBump_kmallocLoop fuel).holds hbump₂ fun e s r s' he hs hact => (hact.bump he).trans hs
    refine Holds.bind (hloop.mono (fun _ _ => trivial) fun _ _ h => h) fun grown k₃ h₃ => ?_
    split
    · refine Holds.step trivial fun _ k₄ h₄ => ?_
      have hbump₄ : k₄.bump = k.bump + alignedSize size := by
        obtain ⟨k₀, -, hperform⟩ := h₄
        cases hperform
        exact Kernel.withVar_self
      refine Holds.step trivial fun _ k₅ h₅ => Holds.ret ⟨rfl, BitVec.not_lt.mp hend, ?_⟩
      exact (h₅.bump trivial).trans hbump₄
    · exact Holds.step trivial fun _ _ _ => Holds.step trivial nofun

/-! ### Runs -/

/-- A call that has returned, with the bump pointer before and after it. -/
structure Kmalloc where
  size : U64
  ptr : U64
  before : U64
  after : U64

namespace Kmalloc

/-- The block lies in the heap's window, 16-byte aligned, and the bump pointer has not
gone down. -/
structure Placed (x : Kmalloc) : Prop where
  aligned : x.ptr.toNat % 16 = 0
  base : heapBase.toNat ≤ x.ptr.toNat
  top : x.ptr.toNat + x.size.toNat ≤ heapBase.toNat + heapMaxSize.toNat
  up : x.before.toNat ≤ x.after.toNat

/-- The two blocks do not overlap, unless one is empty. -/
def Apart (x y : Kmalloc) : Prop :=
  x.size ≠ 0 → y.size ≠ 0 → x.ptr.toNat + x.size.toNat ≤ y.ptr.toNat ∨
    y.ptr.toNat + y.size.toNat ≤ x.ptr.toNat

/-- The request, rounded up to 16 bytes, ends below 2⁶⁴. -/
def Fits (x : Kmalloc) : Prop :=
  x.before.toNat + (x.size.toNat + 15) / 16 * 16 < 2 ^ 64

instance (x : Kmalloc) : Decidable x.Fits := inferInstanceAs (Decidable (_ < _))

end Kmalloc

/-- The calls made since `kheap_init`, the last one first, and the kernel now. -/
inductive KmallocRun : List Kmalloc → Kernel → Prop where
  | init (k₀ : Kernel) : KmallocRun [] (kheapInit k₀)
  | call {log : List Kmalloc} {k k' : Kernel} (c : ℕ) (size : U64) {p : U64}
      (hrun : KmallocRun log k) (hcall : Returns (HeapAct c) (kmalloc size) k p k') :
      KmallocRun (⟨size, p, k.bump, k'.bump⟩ :: log) k'

/-- What is claimed of the calls of a run. -/
structure KmallocSound (log : List Kmalloc) : Prop where
  placed : ∀ x ∈ log, x.Placed
  apart : log.Pairwise Kmalloc.Apart

/-- Where the bump pointer is while the blocks are sound. -/
structure BumpInv (log : List Kmalloc) (k : Kernel) : Prop where
  aligned : k.bump.toNat % 16 = 0
  base : heapBase.toNat ≤ k.bump.toNat
  top : k.bump.toNat ≤ heapBase.toNat + heapMaxSize.toNat
  below : ∀ x ∈ log, x.ptr.toNat + x.size.toNat ≤ k.bump.toNat
  sound : KmallocSound log

theorem toNat_alignedSize (size : U64) :
    (alignedSize size).toNat = (size.toNat + 15) % 2 ^ 64 / 16 * 16 := by
  have hmask : 15#64 = BitFields.lowMask 64 4 := rfl
  rw [alignedSize, hmask, BitFields.toNat_and_highMask _ (by omega), BitVec.toNat_add]
  rfl

/-- A call moves a bump pointer in the window to the exact end of a request that fits. -/
theorem toNat_bump_add {b : U64} (hbase : heapBase.toNat ≤ b.toNat)
    (hfits : b.toNat + (size.toNat + 15) / 16 * 16 < 2 ^ 64) :
    (b + alignedSize size).toNat = b.toNat + (size.toNat + 15) / 16 * 16 := by
  have hlow : 0x100000000 ≤ b.toNat := hbase
  have hround : (size.toNat + 15) % 2 ^ 64 = size.toNat + 15 := by omega
  rw [BitVec.toNat_add, toNat_alignedSize, hround]
  exact Nat.mod_eq_of_lt hfits

variable {log : List Kmalloc}

theorem KmallocSound.tail {x : Kmalloc} (h : KmallocSound (x :: log)) : KmallocSound log :=
  ⟨fun y hy => h.placed y (List.mem_cons_of_mem _ hy), (List.pairwise_cons.mp h.apart).2⟩

theorem bumpInv_init (k₀ : Kernel) : BumpInv [] (kheapInit k₀) where
  aligned := by
    show heapBase.toNat % 16 = 0
    decide
  base := le_refl heapBase.toNat
  top := Nat.le_add_right heapBase.toNat _
  below _ hx := absurd hx List.not_mem_nil
  sound := ⟨fun _ hx => absurd hx List.not_mem_nil, .nil⟩

/-- One more request that fits. -/
theorem BumpInv.call (h : BumpInv log k)
    (hend : k.bump + alignedSize size ≤ heapBase + heapMaxSize)
    (hafter : k'.bump = k.bump + alignedSize size)
    (hfits : k.bump.toNat + (size.toNat + 15) / 16 * 16 < 2 ^ 64) :
    BumpInv (⟨size, k.bump, k.bump, k'.bump⟩ :: log) k' := by
  have hexact : k'.bump.toNat = k.bump.toNat + (size.toNat + 15) / 16 * 16 := by
    rw [hafter]
    exact toNat_bump_add h.base hfits
  have htop : k'.bump.toNat ≤ heapBase.toNat + heapMaxSize.toNat := by
    rw [hafter]
    exact hend
  have haligned := h.aligned
  have hbase := h.base
  refine ⟨by omega, by omega, htop, ?_, ?_, ?_⟩
  · intro x hx
    rcases List.mem_cons.mp hx with rfl | hx
    · show k.bump.toNat + size.toNat ≤ k'.bump.toNat
      omega
    · have := h.below x hx
      omega
  · intro x hx
    rcases List.mem_cons.mp hx with rfl | hx
    · refine ⟨haligned, hbase, ?_, ?_⟩
      · show k.bump.toNat + size.toNat ≤ _
        omega
      · show k.bump.toNat ≤ k'.bump.toNat
        omega
    · exact h.sound.placed x hx
  · -- the new block starts where all others have ended
    refine List.pairwise_cons.mpr ⟨fun y hy _ _ => Or.inr ?_, h.sound.apart⟩
    exact h.below y hy

theorem KmallocRun.bump (h : KmallocRun log k) (hfits : ∀ x ∈ log, x.Fits) : BumpInv log k := by
  induction h with
  | init k₀ => exact bumpInv_init k₀
  | @call log k k' c size p hrun hcall ih =>
    obtain ⟨rfl, hend, hafter⟩ := holds_kmalloc.of_returns hcall
    exact (ih fun x hx => hfits x (List.mem_cons_of_mem _ hx)).call hend hafter
      (hfits _ List.mem_cons_self)

/-- **The blocks of a run are sound exactly if every request ends below 2⁶⁴.** -/
theorem kmalloc_sound_iff (h : KmallocRun log k) : KmallocSound log ↔ ∀ x ∈ log, x.Fits := by
  refine ⟨fun hsound => ?_, fun hfits => (h.bump hfits).sound⟩
  induction h with
  | init k₀ => exact fun _ hx => absurd hx List.not_mem_nil
  | @call log k k' c size p hrun hcall ih =>
    have hfits := ih hsound.tail
    obtain ⟨rfl, -, -⟩ := holds_kmalloc.of_returns hcall
    have hplaced : k.bump.toNat + size.toNat ≤ heapBase.toNat + heapMaxSize.toNat :=
      (hsound.placed _ List.mem_cons_self).top
    have hwindow : heapBase.toNat + heapMaxSize.toNat = 0x100100000 := rfl
    intro x hx
    rcases List.mem_cons.mp hx with rfl | hx
    · show k.bump.toNat + (size.toNat + 15) / 16 * 16 < 2 ^ 64
      omega
    · exact hfits x hx

/-! ### Two runs -/

theorem heapAct_of_perform {e : Action} {r : e.Answer} (h : k.perform c e = some (r, k')) :
    HeapAct c e k r k' := ⟨k, ⟨rfl, rfl⟩, h⟩

/-- A call of core `c`, evaluated. -/
def callKmalloc (x : List Kmalloc × Kernel) (call : ℕ × U64) : Option (List Kmalloc × Kernel) :=
  (run (Kernel.perform call.1) (kmalloc call.2) x.2).map fun r =>
    (⟨call.2, r.1, x.2.bump, r.2.bump⟩ :: x.1, r.2)

theorem KmallocRun.calls {calls : List (ℕ × U64)} {x : List Kmalloc × Kernel}
    (hrun : KmallocRun log k) (h : calls.foldlM callKmalloc (log, k) = some x) :
    KmallocRun x.1 x.2 := by
  induction calls generalizing log k with
  | nil =>
    obtain rfl := Option.some.inj h
    exact hrun
  | cons call calls ih =>
    rw [List.foldlM_cons] at h
    obtain ⟨y, hcall, hrest⟩ := Option.bind_eq_some_iff.mp h
    obtain ⟨⟨p, k'⟩, hk, rfl⟩ := Option.map_eq_some_iff.mp hcall
    exact ih (.call call.1 call.2 hrun (.of_run (fun _ _ _ _ => heapAct_of_perform) hk)) hrest

/-- Calls that have been evaluated. -/
theorem exists_kmallocs (calls : List (ℕ × U64)) (P : List Kmalloc → Kernel → Bool)
    (h : (calls.foldlM callKmalloc ([], kheapInit fiveFrames.kernel)).any
      (fun x => P x.1 x.2) = true) : ∃ log k, KmallocRun log k ∧ P log k = true := by
  obtain ⟨x, hx, hP⟩ := (Option.any_eq_true _ _).mp h
  exact ⟨x.1, x.2, (KmallocRun.init fiveFrames.kernel).calls hx, hP⟩

/-- A request of 40 bytes, and one of 100 on another core. -/
theorem kmalloc_sound_two : ∃ log : List Kmalloc,
    log.map (fun x => (x.ptr, x.size)) = [(heapBase + 48#64, 100#64), (heapBase, 40#64)] ∧
      KmallocSound log := by
  obtain ⟨log, k, hrun, hP⟩ := exists_kmallocs [(0, 40#64), (1, 100#64)]
    (fun log _ => log.map (fun x => (x.ptr, x.size)) =
      [(heapBase + 48#64, 100#64), (heapBase, 40#64)] ∧ ∀ x ∈ log, x.Fits) (by decide +kernel)
  obtain ⟨hlog, hfits⟩ := of_decide_eq_true hP
  exact ⟨log, hlog, (kmalloc_sound_iff hrun).mpr hfits⟩

/-- A request of 2⁶⁴ - 2³² bytes, the first one, is answered, and the bump pointer falls
to 0. -/
theorem not_kmalloc_sound : ∃ x : Kmalloc, ∃ k, KmallocRun [x] k ∧
    x.size = 0xFFFFFFFF00000000#64 ∧ x.ptr = heapBase ∧ x.after = 0 ∧ ¬ KmallocSound [x] := by
  obtain ⟨log, k, hrun, hP⟩ := exists_kmallocs [(0, 0xFFFFFFFF00000000#64)]
    (fun log _ => log.map (fun x => (x.size, x.ptr, x.after)) =
      [(0xFFFFFFFF00000000#64, heapBase, 0)]) (by decide +kernel)
  obtain ⟨x, rfl, hx⟩ := List.map_eq_singleton_iff.mp (of_decide_eq_true hP)
  obtain ⟨hsize, hptr, hafter⟩ : x.size = _ ∧ x.ptr = _ ∧ x.after = _ := by simpa using hx
  refine ⟨x, k, hrun, hsize, hptr, hafter, fun hsound => ?_⟩
  have htop : x.ptr.toNat + x.size.toNat ≤ heapBase.toNat + heapMaxSize.toNat :=
    (hsound.placed _ List.mem_cons_self).top
  rw [hptr, hsize] at htop
  exact absurd htop (by decide)

end GamingConsole
