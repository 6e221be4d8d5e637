/-
What one step of a core does to the DMA buffers.

`AtWork c i b` is what core `c` knows inside a call that is about buffer `i`, `AtRest c`
what it knows outside of calls.  There is a lemma for each event: it keeps the
invariant, leaves the buffers of other cores alone (`DmaFoot`), and takes the core from
one of these to the next.
-/
import GamingConsole.DmaBuffers

namespace GamingConsole

open Space Prog Ownership

variable {w w' : DmaWorld} {c i n : ℕ} {b b' : DmaBuffer} {k k' : Kernel} {s' : Space}
  {size va phys : U64} {α : Type}

/-! ### The critical sections of `dma_lock` -/

theorem Kernel.withVar_eq_self (k : Kernel) (x : Var) : k.withVar x (k.var x) = k := by
  rw [Kernel.withVar, Function.update_eq_self]

theorem run_critical_var {l : Lock} {body : KProg α} {a : α} {x : Var} {v : U64} (h : k.Free l)
    (hbody : run (Kernel.perform c) body (k.entered c l) = some (a, (k.entered c l).withVar x v)) :
    run (Kernel.perform c) (critical l body) k = some (a, k.withVar x v) :=
  Kernel.run_critical h hbody (Kernel.spinUnlock_entered_var h)

/-- The first step of `dma_alloc`. -/
theorem run_dmaReserve (h : k.Free .dmaLock) (alignedSize : U64) :
    run (Kernel.perform c) (dmaReserve alignedSize) k =
      if k.var .dmaBumpPtr + alignedSize > dmaBase + dmaMaxSize then some (none, k)
      else some (some (k.var .dmaBumpPtr),
        k.withVar .dmaBumpPtr (k.var .dmaBumpPtr + alignedSize)) := by
  have hget : run (Kernel.perform c) (act (.get .dmaBumpPtr)) (k.entered c .dmaLock) =
      some (k.var .dmaBumpPtr, k.entered c .dmaLock) := by
    rw [act, run_perform, Kernel.perform, Kernel.entered_var]
  by_cases hfull : k.var .dmaBumpPtr + alignedSize > dmaBase + dmaMaxSize
  · have hsame : (k.entered c .dmaLock).withVar .dmaBumpPtr (k.var .dmaBumpPtr) =
        k.entered c .dmaLock := by
      rw [← Kernel.entered_var (k := k) (c := c) (l := .dmaLock), Kernel.withVar_eq_self]
    have hrun : run (Kernel.perform c) (dmaReserve alignedSize) k =
        some (none, k.withVar .dmaBumpPtr (k.var .dmaBumpPtr)) := by
      refine run_critical_var h ?_
      rw [run_bind_of_run hget, if_pos hfull, hsame]
      rfl
    rw [if_pos hfull, hrun, Kernel.withVar_eq_self]
  · rw [if_neg hfull]
    refine run_critical_var h ?_
    rw [run_bind_of_run hget, if_neg hfull]
    rfl

/-- `_dma_reclaim_va`. -/
theorem run_dmaReclaimVa (h : k.Free .dmaLock) (va size : U64) :
    run (Kernel.perform c) (dmaReclaimVa va size) k = some ((), k.withVar .dmaBumpPtr
      (if k.var .dmaBumpPtr = va + dmaAlignedSize size then va else k.var .dmaBumpPtr)) := by
  have hget : run (Kernel.perform c) (act (.get .dmaBumpPtr)) (k.entered c .dmaLock) =
      some (k.var .dmaBumpPtr, k.entered c .dmaLock) := by
    rw [act, run_perform, Kernel.perform, Kernel.entered_var]
  by_cases htop : k.var .dmaBumpPtr = va + dmaAlignedSize size
  · rw [if_pos htop]
    refine run_critical_var h ?_
    rw [run_bind_of_run hget, if_pos htop]
    rfl
  · have hsame : (k.entered c .dmaLock).withVar .dmaBumpPtr (k.var .dmaBumpPtr) =
        k.entered c .dmaLock := by
      rw [← Kernel.entered_var (k := k) (c := c) (l := .dmaLock), Kernel.withVar_eq_self]
    rw [if_neg htop]
    refine run_critical_var h ?_
    rw [run_bind_of_run hget, if_neg htop, hsame]
    rfl

/-! ### What a core knows -/

/-- A step of core `c`: the buffers and the work of other cores are as they were, and a
data frame that is given up is free. -/
structure DmaFoot (c : ℕ) (w w' : DmaWorld) : Prop where
  apart : ∀ d, d ≠ c → w'.work d = w.work d ∧
    ∀ i b, b.core = d → (w'.buf i = some b ↔ w.buf i = some b)
  freed : ∀ f, w.space.Data f → ¬ w'.space.Data f → ¬ w'.space.pmm.Used f

/-- Outside of calls: of the core's buffers only those that it holds are left. -/
def AtRest (c : ℕ) (w : DmaWorld) : Prop :=
  DmaInv w ∧ ∀ j b, w.buf j = some b → b.core = c → b.live = false → b.Over

/-- Inside a call on buffer `i`. -/
structure AtWork (c i : ℕ) (b : DmaBuffer) (w : DmaWorld) : Prop where
  inv : DmaInv w
  work : w.work c = i
  slot : w.buf i = some b
  core : b.core = c
  busy : b.live = false
  others : ∀ j b', j ≠ i → w.buf j = some b' → b'.core = c → b'.live = false → b'.Over

theorem DmaFoot.refl (c : ℕ) (w : DmaWorld) : DmaFoot c w w :=
  ⟨fun _ _ => ⟨rfl, fun _ _ _ => Iff.rfl⟩, fun _ ha hn => absurd ha hn⟩

theorem AtWork.edit_eq (h : AtWork c i b w) (f : DmaBuffer → DmaBuffer) :
    w.edit c k f = { w with kernel := k, buf := Function.update w.buf i (some (f b)) } := by
  rw [DmaWorld.edit, h.work, h.slot]
  rfl

/-- The core's own buffer changes. -/
theorem foot_update (b' : DmaBuffer) (hcore : ∀ b₀, w.buf i = some b₀ → b₀.core = c)
    (hcore' : b'.core = c)
    (hfreed : ∀ f, w.space.Data f → ¬ k.space.Data f → ¬ k.space.pmm.Used f) :
    DmaFoot c w { w with kernel := k, buf := Function.update w.buf i (some b') } := by
  refine ⟨fun d hd => ⟨rfl, fun j a ha => ?_⟩, hfreed⟩
  show Function.update w.buf i (some b') j = some a ↔ _
  by_cases hji : j = i
  · rw [hji, Function.update_self, Option.some_inj]
    refine iff_of_false ?_ ?_
    · rintro rfl
      exact hd (ha.symm.trans hcore')
    · exact fun hslot => hd (ha.symm.trans (hcore a hslot))
  · rw [Function.update_of_ne hji]

/-- A step on the buffer that the core works on. -/
theorem AtWork.edit (h : AtWork c i b w) (b' : DmaBuffer) (hva : b'.va = b.va)
    (hpages : b'.pages = b.pages)
    (hcore : b'.core = b.core) (hlive : b'.live = false) (hplaced : b'.Placed)
    (hmemory : DmaMemory s' w.rest (Function.update (slotOwns ∘ w.buf) i b'.Owns)
      (Function.update (slotMaps ∘ w.buf) i b'.Maps))
    (hfreed : ∀ f, w.space.Data f → ¬ s'.Data f → ¬ s'.pmm.Used f) :
    let w' : DmaWorld :=
      { w with
        kernel := w.kernel.withSpace s'
        buf := Function.update w.buf i (some b') }
    AtWork c i b' w' ∧ DmaFoot c w w' := by
  refine ⟨⟨h.inv.edit b' h.slot hva hpages hplaced hmemory, h.work, Function.update_self _ _ _,
    hcore.trans h.core, hlive, fun j a hji ha hca hla => ?_⟩, foot_update b' (fun b₀ hb₀ => ?_)
      (hcore.trans h.core) hfreed⟩
  · exact h.others j a hji ((Function.update_of_ne hji _ w.buf).symm.trans ha) hca hla
  · rw [h.slot] at hb₀
    obtain rfl := Option.some.inj hb₀
    exact h.core

/-- A step that leaves the frames of the buffer as they are. -/
theorem AtWork.own_eq (h : AtWork c i b w) (b' : DmaBuffer) (hown : b'.Owns = b.Owns) :
    Function.update (slotOwns ∘ w.buf) i b'.Owns = slotOwns ∘ w.buf := by
  rw [hown, Function.update_eq_self_iff, Function.comp_apply, h.slot]
  rfl

/-- A step that leaves the mappings of the buffer as they are. -/
theorem AtWork.maps_eq (h : AtWork c i b w) (b' : DmaBuffer) (hmaps : b'.Maps = b.Maps) :
    Function.update (slotMaps ∘ w.buf) i b'.Maps = slotMaps ∘ w.buf := by
  rw [hmaps, Function.update_eq_self_iff, Function.comp_apply, h.slot]
  rfl

/-- A step of a call is a run of the kernel. -/
theorem DmaWorld.run_of_step {e : DmaAction} {r : e.Answer}
    (hact : DmaWorld.perform c (.step e) w = some (r, w')) :
    ∃ k', run (Kernel.perform c) e.prog w.kernel = some (r, k') ∧ w.after c k' e r = w' := by
  obtain ⟨⟨r', k'⟩, hrun, heq⟩ := Option.map_eq_some_iff.mp hact
  rw [Prod.mk.injEq] at heq
  obtain ⟨rfl, hafter⟩ := heq
  exact ⟨k', hrun, hafter⟩

/-- A step that only reads and writes memory. -/
theorem DmaWorld.alone_of_step {e : DmaAction} {r : e.Answer} {P : e.Answer → Space → Prop}
    (hact : DmaWorld.perform c (.step e) w = some (r, w'))
    (halone : Alone c w.kernel e.prog w.space P) :
    ∃ s', w.after c (w.kernel.withSpace s') e r = w' ∧ P r s' := by
  obtain ⟨k', hrun, hafter⟩ := DmaWorld.run_of_step hact
  obtain ⟨s', rfl, hP⟩ := halone.of_run hrun
  exact ⟨s', hafter, hP⟩

/-! ### Reserving pages and giving them back -/

theorem first_dmaAt {f : ℕ} (hf : f ≤ dmaPages) (hva : b.va = dmaAt f) : b.first = f := by
  have hbase : dmaBase.toNat = 0x140000000 := rfl
  rw [DmaBuffer.first, hva, toNat_dmaAt (by omega), hbase]
  omega

theorem dmaAt_inj {f g : ℕ} (hf : f ≤ dmaPages) (hg : g ≤ dmaPages) (h : dmaAt f = dmaAt g) :
    f = g := by
  have heq := congrArg BitVec.toNat h
  rw [toNat_dmaAt (by omega), toNat_dmaAt (by omega)] at heq
  omega

/-- A buffer none of whose frames are left. -/
theorem DmaBuffer.owns_spent (h : b.next = b.pages) : b.Owns = fun _ => False := by
  funext a
  refine eq_false ?_
  rintro ⟨j, h1, h2, -⟩
  omega

theorem DmaBuffer.maps_unmapped (h : b.mapped = false) : b.Maps = fun _ _ => False := by
  funext q desc
  refine eq_false ?_
  rintro ⟨hm, -⟩
  rw [h] at hm
  cases hm

/-- The buffer of a request for `n` pages at `va`. -/
abbrev reservedBuffer (c : ℕ) (va : U64) (n : ℕ) : DmaBuffer :=
  { core := c, va := va, pages := n, phys := 0, next := n, mapped := false, live := false }

/-- The pages after the top of the window are reserved. -/
theorem DmaInv.reserved (h : DmaInv w) {top : ℕ} {leaked : ℕ → Prop} (hfit : top + n ≤ dmaPages)
    (hledger : Ledger (· < top) leaked (slotCovers ∘ w.buf)) :
    DmaInv (w.reserved c (w.kernel.withVar .dmaBumpPtr (dmaAt (top + n))) (dmaAt top) n) := by
  have hslot : w.buf w.count = none := h.fresh _ (le_refl _)
  have hfirst : (reservedBuffer c (dmaAt top) n).first = top := first_dmaAt (by omega) rfl
  -- the new buffer has no frames and maps nothing, as its slot did
  have hown : slotOwns (some (reservedBuffer c (dmaAt top) n)) = (slotOwns ∘ w.buf) w.count := by
    rw [Function.comp_apply, hslot]
    exact DmaBuffer.owns_spent rfl
  have hmaps : slotMaps (some (reservedBuffer c (dmaAt top) n)) = (slotMaps ∘ w.buf) w.count := by
    rw [Function.comp_apply, hslot]
    exact DmaBuffer.maps_unmapped rfl
  refine ⟨h.dmaFree, h.mmuFree, h.pmmFree, ⟨top + n, leaked, hfit, Kernel.withVar_self, ?_⟩, ?_,
    fun j a ha => ?_, fun j hj => ?_⟩
  · show Ledger _ _ (slotCovers ∘ Function.update w.buf w.count _)
    rw [Function.comp_update]
    refine hledger.update (fun q => ?_) fun q hq => Or.inr ?_
    · rw [Function.comp_apply, hslot]
      show q < top + n ↔ (q < top ∧ ¬ False) ∨ (reservedBuffer c (dmaAt top) n).Covers q
      rw [DmaBuffer.Covers, hfirst]
      show q < top + n ↔ (q < top ∧ ¬ False) ∨ (top ≤ q ∧ q < top + n)
      rw [and_iff_left not_false]
      omega
    · have hge : (reservedBuffer c (dmaAt top) n).first ≤ q := hq.1
      rw [hfirst] at hge
      exact Nat.not_lt.mpr hge
  · show DmaMemory _ _ (slotOwns ∘ Function.update w.buf w.count _)
      (slotMaps ∘ Function.update w.buf w.count _)
    rw [Function.comp_update, Function.comp_update, hown, hmaps, Function.update_eq_self,
      Function.update_eq_self]
    exact h.memory
  · by_cases hj : j = w.count
    · rw [hj] at ha
      obtain rfl := Option.some.inj ((Function.update_self w.count _ w.buf).symm.trans ha)
      refine ⟨by rw [hfirst], by rw [hfirst]; exact hfit, rfl, ?_, fun hl => absurd hl (by simp)⟩
      show 0 + n * 4096 ≤ 0x3F800000
      rw [dmaPages] at hfit
      omega
    · exact h.placed j a ((Function.update_of_ne hj _ w.buf).symm.trans ha)
  · have hlt : w.count + 1 ≤ j := hj
    exact (Function.update_of_ne (by omega) _ w.buf).trans (h.fresh j (by omega))

/-- The check of `dma_alloc`. -/
theorem fits_of_not_full {top : ℕ} (htop : top ≤ dmaPages) (hn : n ≤ dmaPages)
    (hfull : ¬ dmaAt (top + n) > dmaBase + dmaMaxSize) : top + n ≤ dmaPages := by
  have hlimit : (dmaBase + dmaMaxSize).toNat = 0x140000000 + dmaPages * 4096 := rfl
  have hle := BitVec.le_def.mp (BitVec.not_lt.mp hfull)
  rw [toNat_dmaAt (by omega), hlimit] at hle
  omega

/-- The first step of `dma_alloc`. -/
theorem AtRest.reserve {r : Option U64} (h : AtRest c w) (hn : (dmaPageCount size).toNat ≤ dmaPages)
    (hact : DmaWorld.perform c (.step (.reserve (dmaAlignedSize size))) w = some (r, w')) :
    DmaFoot c w w' ∧ (r = none ∧ AtRest c w' ∨ ∃ va i, r = some va ∧
      AtWork c i (reservedBuffer c va (dmaPageCount size).toNat) w') := by
  obtain ⟨hinv, hover⟩ := h
  obtain ⟨top, leaked, htop, hbump, hledger⟩ := hinv.window
  obtain ⟨k', hrun, hafter⟩ := DmaWorld.run_of_step hact
  change run (Kernel.perform c) (dmaReserve (dmaAlignedSize size)) w.kernel = some (r, k') at hrun
  rw [run_dmaReserve hinv.dmaFree, hbump, dmaAt_add hn] at hrun
  by_cases hfull : dmaAt (top + (dmaPageCount size).toNat) > dmaBase + dmaMaxSize
  · rw [if_pos hfull, Option.some_inj, Prod.mk.injEq] at hrun
    obtain ⟨rfl, rfl⟩ := hrun
    subst hafter
    exact ⟨.refl c w, Or.inl ⟨rfl, hinv, hover⟩⟩
  · rw [if_neg hfull, Option.some_inj, Prod.mk.injEq] at hrun
    obtain ⟨rfl, rfl⟩ := hrun
    have hfit := fits_of_not_full htop hn hfull
    have hslot : w.buf w.count = none := hinv.fresh _ (le_refl _)
    obtain rfl := hafter.symm.trans (congrArg (w.reserved c _ _) (numPages_dmaAlignedSize hn))
    refine ⟨⟨fun d hd => ⟨Function.update_of_ne hd _ _, fun j a ha => ?_⟩,
      fun _ ha hn => absurd ha hn⟩,
      Or.inr ⟨_, w.count, rfl, hinv.reserved hfit hledger, Function.update_self _ _ _,
        Function.update_self _ _ _, rfl, rfl, fun j a hj ha hca hla => ?_⟩⟩
    · show Function.update w.buf w.count _ j = some a ↔ _
      by_cases hj : j = w.count
      · rw [hj, Function.update_self, hslot, Option.some_inj]
        refine iff_of_false ?_ nofun
        rintro rfl
        exact hd ha.symm
      · rw [Function.update_of_ne hj]
    · exact hover j a ((Function.update_of_ne hj _ w.buf).symm.trans ha) hca hla

/-- The pages are given back if they are the last ones, and are lost otherwise. -/
theorem DmaInv.reclaimed (hinv : DmaInv w) (hslot : w.buf i = some b) (hover : b.Over)
    (hn : (dmaPageCount size).toNat = b.pages) :
    DmaInv { w with
      kernel := w.kernel.withVar .dmaBumpPtr (if w.kernel.var .dmaBumpPtr =
        b.va + dmaAlignedSize size then b.va else w.kernel.var .dmaBumpPtr)
      buf := Function.update w.buf i none } := by
  have hplaced := hinv.placed i b hslot
  have hfits := hplaced.fits
  obtain ⟨top, leaked, htop, hbump, hledger⟩ := hinv.window
  have hcovers : (slotCovers ∘ w.buf) i = b.Covers := by
    rw [Function.comp_apply, hslot]
    rfl
  have hown : slotOwns none = (slotOwns ∘ w.buf) i := by
    rw [Function.comp_apply, hslot]
    exact (DmaBuffer.owns_spent hover.1).symm
  have hmaps : slotMaps none = (slotMaps ∘ w.buf) i := by
    rw [Function.comp_apply, hslot]
    exact (DmaBuffer.maps_unmapped hover.2).symm
  have hend : b.va + dmaAlignedSize size = dmaAt (b.first + b.pages) := by
    rw [hplaced.va_eq, dmaAt_add (by omega), hn]
  refine ⟨hinv.dmaFree, hinv.mmuFree, hinv.pmmFree, ?_, ?_, fun j a ha => ?_, fun j hj => ?_⟩
  · show ∃ top' leaked', _ ∧ _ ∧ Ledger _ _ (slotCovers ∘ Function.update w.buf i none)
    rw [Kernel.withVar_self, hbump, hend, Function.comp_update]
    by_cases hlast : dmaAt top = dmaAt (b.first + b.pages)
    · -- everybody else's pages end before these
      have htop' : top = b.first + b.pages := dmaAt_inj htop hfits hlast
      refine ⟨b.first, leaked, by omega, (if_pos hlast).trans hplaced.va_eq,
        hledger.update (fun q => ?_) fun q hq => hq.elim⟩
      rw [hcovers]
      show q < b.first ↔ (q < top ∧ ¬ (b.first ≤ q ∧ q < b.first + b.pages)) ∨ False
      rw [or_false]
      omega
    · exact ⟨top, _, htop, if_neg hlast, hledger.forfeit i⟩
  · show DmaMemory _ _ (slotOwns ∘ Function.update w.buf i none)
      (slotMaps ∘ Function.update w.buf i none)
    rw [Function.comp_update, Function.comp_update, hown, hmaps, Function.update_eq_self,
      Function.update_eq_self]
    exact hinv.memory
  · change Function.update w.buf i none j = some a at ha
    by_cases hji : j = i
    · rw [hji, Function.update_self] at ha
      cases ha
    · exact hinv.placed j a ((Function.update_of_ne hji _ w.buf).symm.trans ha)
  · show Function.update w.buf i none j = none
    by_cases hji : j = i
    · rw [hji, Function.update_self]
    · exact (Function.update_of_ne hji _ w.buf).trans (hinv.fresh j hj)

/-- `_dma_reclaim_va`. -/
theorem AtWork.reclaim (h : AtWork c i b w) (hover : b.Over)
    (hn : (dmaPageCount size).toNat = b.pages)
    (hact : DmaWorld.perform c (.step (.reclaim b.va size)) w = some ((), w')) :
    DmaFoot c w w' ∧ AtRest c w' := by
  obtain ⟨k', hrun, hafter⟩ := DmaWorld.run_of_step hact
  change run (Kernel.perform c) (dmaReclaimVa b.va size) w.kernel = some ((), k') at hrun
  rw [run_dmaReclaimVa h.inv.dmaFree, Option.some_inj, Prod.mk.injEq] at hrun
  obtain ⟨-, rfl⟩ := hrun
  have hbuf : w'.buf = Function.update w.buf i none := by
    rw [← hafter, ← h.work]
    rfl
  have hcases : ∀ {j a}, w'.buf j = some a → j ≠ i ∧ w.buf j = some a := by
    intro j a ha
    rw [hbuf] at ha
    by_cases hji : j = i
    · rw [hji, Function.update_self] at ha
      cases ha
    · exact ⟨hji, (Function.update_of_ne hji _ w.buf).symm.trans ha⟩
  have hspace : w'.space = w.space := by
    rw [← hafter]
    rfl
  refine ⟨⟨fun d hd => ⟨by rw [← hafter]; rfl, fun j a ha => ?_⟩, fun f ha hn => ?_⟩, ?_,
    fun j a ha hca hla => ?_⟩
  · refine ⟨fun hj => (hcases hj).2, fun hj => ?_⟩
    have hji : j ≠ i := by
      rintro rfl
      rw [h.slot] at hj
      obtain rfl := Option.some.inj hj
      exact hd (ha.symm.trans h.core)
    rw [hbuf]
    exact (Function.update_of_ne hji _ w.buf).trans hj
  · rw [hspace] at hn
    exact absurd ha hn
  · have hinv := h.inv.reclaimed h.slot hover hn
    rw [← h.work] at hinv
    rw [← hafter]
    exact hinv
  · exact h.others j a (hcases ha).1 (hcases ha).2 hca hla

/-! ### Frames and mappings -/

namespace DmaBuffer

/-- The buffer once its frames have been found. -/
def withFrames (b : DmaBuffer) (phys : U64) : DmaBuffer := { b with phys := phys, next := 0 }

/-- The buffer once its pages have been mapped or unmapped. -/
def withMapped (b : DmaBuffer) (mapped : Bool) : DmaBuffer := { b with mapped := mapped }

/-- The buffer once its next frame has been freed. -/
def freed (b : DmaBuffer) : DmaBuffer := { b with next := b.next + 1 }

theorem owns_withFrames : (b.withFrames phys).Owns = InRun phys b.pages := by
  funext a
  refine propext ⟨?_, ?_⟩
  · rintro ⟨j, -, hj, rfl⟩
    exact ⟨j, hj, rfl⟩
  · rintro ⟨j, hj, rfl⟩
    exact ⟨j, Nat.zero_le j, hj, rfl⟩

theorem maps_mapped : (b.withMapped true).Maps =
    DmaMemory.runMaps b.first b.pages b.phys pteNormalNcRw := by
  funext q desc
  exact propext (and_iff_right rfl)

/-- The frames of a run in RAM are distinct. -/
theorem Placed.frame_inj (h : b.Placed) {j l : ℕ} (hj : j < b.pages) (hl : l < b.pages)
    (heq : pageAddr b.phys j = pageAddr b.phys l) : j = l := by
  have hbelow := h.below
  have hnat := congrArg BitVec.toNat heq
  rw [pageAddr, pageAddr, toNat_add_mul_pageSize (by omega),
    toNat_add_mul_pageSize (by omega)] at hnat
  omega

theorem Placed.owns_freed (h : b.Placed) (hnext : b.next < b.pages) :
    b.freed.Owns = fun a => b.Owns a ∧ a ≠ pageAddr b.phys b.next := by
  funext a
  refine propext ⟨?_, ?_⟩
  · rintro ⟨j, h1, h2, rfl⟩
    have hlt : b.next < j := h1
    refine ⟨⟨j, by omega, h2, rfl⟩, fun heq => ?_⟩
    have := h.frame_inj h2 hnext heq
    omega
  · rintro ⟨⟨j, h1, h2, rfl⟩, hne⟩
    refine ⟨j, Nat.lt_of_le_of_ne h1 ?_, h2, rfl⟩
    rintro rfl
    exact hne rfl

/-- A step on a busy buffer that leaves its run alone. -/
theorem Placed.of_busy (h : b.Placed) (hva : b'.va = b.va) (hpages : b'.pages = b.pages)
    (hphys : b'.phys = b.phys) (hlive : b'.live = false) : b'.Placed := by
  have hfirst : b'.first = b.first := by
    rw [first, first, hva]
  refine ⟨?_, ?_, ?_, ?_, fun hl => absurd (hlive.symm.trans hl) nofun⟩
  · rw [hva, hfirst]
    exact h.va_eq
  · rw [hfirst, hpages]
    exact h.fits
  · rw [hphys]
    exact h.aligned
  · rw [hphys, hpages]
    exact h.below

end DmaBuffer

/-- `alloc_frames` finds no run of no frames. -/
theorem count_pos_of_allocFrames {count r : U64} (hr : r ≠ 0)
    (hrun : run (Kernel.perform c) (allocFrames count) k = some (r, k')) : 0 < count.toNat := by
  refine Nat.pos_of_ne_zero fun h0 => hr ?_
  rw [GamingConsole.allocFrames, if_pos (BitVec.eq_of_toNat_eq h0)] at hrun
  exact (Prod.mk.inj (Option.some.inj hrun)).1.symm

theorem AtWork.allocFrames {count r : U64} (h : AtWork c i b w) (hover : b.Over)
    (hcount : count.toNat = b.pages)
    (hact : DmaWorld.perform c (.step (.allocFrames count)) w = some (r, w')) :
    DmaFoot c w w' ∧ (r = 0 ∧ AtWork c i b w' ∨
      r ≠ 0 ∧ 0 < b.pages ∧ AtWork c i (b.withFrames r) w') := by
  have hplaced := h.inv.placed i b h.slot
  have hpos : r ≠ 0 → 0 < b.pages := fun hr => by
    rw [← hcount]
    exact count_pos_of_allocFrames hr (DmaWorld.run_of_step hact).choose_spec.1
  obtain ⟨s', hafter, hspec⟩ := DmaWorld.alone_of_step hact
    (alone_allocFrames_given h.inv.memory.wf h.inv.pmmFree)
  have hedit := h.edit_eq (k := w.kernel.withSpace s') fun b => if r = 0 then b else b.withFrames r
  obtain rfl := hafter.symm.trans hedit
  rcases hspec with ⟨hr, rfl⟩ | ⟨hr, haligned, hbelow, hgiven⟩
  · rw [if_pos hr]
    have hmemory : DmaMemory w.space w.rest (Function.update (slotOwns ∘ w.buf) i b.Owns)
        (Function.update (slotMaps ∘ w.buf) i b.Maps) := by
      rw [h.own_eq b rfl, h.maps_eq b rfl]
      exact h.inv.memory
    obtain ⟨hwork, hfoot⟩ := h.edit b rfl rfl rfl h.busy hplaced hmemory
      fun f ha hn => absurd ha hn
    exact ⟨hfoot, Or.inl ⟨hr, hwork⟩⟩
  · rw [if_neg hr]
    rw [hcount] at hbelow hgiven
    -- the frames have been taken, and nothing is mapped yet
    have hmaps : (b.withFrames r).Maps = b.Maps := by
      rw [DmaBuffer.maps_unmapped hover.2, DmaBuffer.maps_unmapped (b := b.withFrames r) hover.2]
    have hmemory : DmaMemory s' w.rest (Function.update (slotOwns ∘ w.buf) i (b.withFrames r).Owns)
        (Function.update (slotMaps ∘ w.buf) i (b.withFrames r).Maps) := by
      rw [DmaBuffer.owns_withFrames, h.maps_eq (b.withFrames r) hmaps]
      refine h.inv.memory.given hgiven fun a ha => ?_
      rw [Function.comp_apply, h.slot] at ha
      change b.Owns a at ha
      rwa [DmaBuffer.owns_spent hover.1] at ha
    obtain ⟨hwork, hfoot⟩ := h.edit (b.withFrames r) rfl rfl rfl h.busy
      ⟨hplaced.va_eq, hplaced.fits, haligned, hbelow, fun hl => absurd (h.busy.symm.trans hl) nofun⟩
      hmemory fun f ha hn => absurd ((hgiven.data h.inv.memory.wf).mpr (Or.inl ha)) hn
    exact ⟨hfoot, Or.inr ⟨hr, hpos hr, hwork⟩⟩

/-- The pages of a buffer that is not mapped are mapped by nobody. -/
theorem AtWork.not_mapped (h : AtWork c i b w) (hmapped : b.mapped = false) {j q : ℕ} {desc : U64}
    (hm : (slotMaps ∘ w.buf) j q desc) : ¬ (b.first ≤ q ∧ q < b.first + b.pages) := by
  intro hq
  obtain rfl := h.inv.maps_apart h.slot hm hq
  rw [Function.comp_apply, h.slot] at hm
  exact absurd (hmapped.symm.trans hm.1) nofun

/-- The pages of a request for the buffer. -/
theorem AtWork.numPages (h : AtWork c i b w) (hn : (dmaPageCount size).toNat = b.pages) :
    numPages (dmaAlignedSize size) = b.pages := by
  have hfits := (h.inv.placed i b h.slot).fits
  rw [numPages_dmaAlignedSize (by omega), hn]

theorem AtWork.map {done : Bool} (h : AtWork c i b w) (hmapped : b.mapped = false)
    (hn : (dmaPageCount size).toNat = b.pages)
    (hact : DmaWorld.perform c (.step (.map b.va b.phys (dmaAlignedSize size))) w
      = some (done, w')) : DmaFoot c w w' ∧ AtWork c i (b.withMapped done) w' := by
  have hplaced := h.inv.placed i b h.slot
  have hpages := h.numPages hn
  have hun := h.inv.memory.unmapped_range hpages hplaced.fits fun j q d hm =>
      h.not_mapped hmapped hm
  rw [← hplaced.va_eq] at hun
  obtain ⟨s', hafter, hkept, hmaps, hleaf⟩ := DmaWorld.alone_of_step hact
    (alone_map_kept h.inv.memory.wf h.inv.mmuFree h.inv.pmmFree hun)
  obtain rfl := hafter.symm.trans
    (h.edit_eq (k := w.kernel.withSpace s') fun b => b.withMapped done)
  rw [hplaced.va_eq] at hkept hmaps
  have hmemory : DmaMemory s' w.rest (Function.update (slotOwns ∘ w.buf) i (b.withMapped done).Owns)
      (Function.update (slotMaps ∘ w.buf) i (b.withMapped done).Maps) := by
    rw [h.own_eq (b.withMapped done) rfl]
    cases done with
    | true =>
      rw [DmaBuffer.maps_mapped]
      refine h.inv.memory.mapped hpages hplaced.fits hkept (hmaps rfl) (fun q d hm => ?_)
        fun j q d hm => h.not_mapped hmapped hm
      rw [Function.comp_apply, h.slot] at hm
      exact absurd (hmapped.symm.trans hm.1) nofun
    | false =>
      rw [h.maps_eq (b.withMapped false)
        (by rw [DmaBuffer.maps_unmapped hmapped, DmaBuffer.maps_unmapped rfl])]
      exact h.inv.memory.kept hkept (hleaf rfl)
  obtain ⟨hwork, hfoot⟩ := h.edit (b.withMapped done) rfl rfl rfl h.busy
    (hplaced.of_busy rfl rfl rfl h.busy) hmemory fun f ha hn => absurd ((hkept.data f).mpr ha) hn
  exact ⟨hfoot, hwork⟩

/-- The descriptors of a mapped buffer. -/
theorem DmaInv.leaf (h : DmaInv w) (hslot : w.buf i = some b) (hmapped : b.mapped = true) {p : ℕ}
    (hp : p < b.pages) : w.space.leaf (dmaPage (b.first + p)) =
      pageDesc b.phys pteNormalNcRw p := by
  refine h.memory.leaf i _ _ ?_
  rw [Function.comp_apply, hslot]
  exact ⟨hmapped, p, hp, rfl, rfl⟩

theorem AtWork.unmap (h : AtWork c i b w) (hmapped : b.mapped = true)
    (hn : (dmaPageCount size).toNat = b.pages)
    (hact : DmaWorld.perform c (.step (.unmap b.va (dmaAlignedSize size))) w = some ((), w')) :
    DmaFoot c w w' ∧ AtWork c i (b.withMapped false) w' := by
  have hplaced := h.inv.placed i b h.slot
  have hfits := hplaced.fits
  have hpages := h.numPages hn
  have hself : ∀ p < GamingConsole.numPages (dmaAlignedSize size),
      w.space.Mapped (pageAt b.va p) := by
    intro p hp
    rw [hplaced.va_eq, pageAt_dmaAt, Space.Mapped, h.inv.leaf h.slot hmapped (by omega)]
    exact pageDesc_valid _ _ _
  have hfew : GamingConsole.numPages (dmaAlignedSize size) ≤ 2 ^ 27 := by
    rw [hpages]
    rw [dmaPages] at hfits
    omega
  obtain ⟨s', hafter, hkept, hclear⟩ := DmaWorld.alone_of_step hact
    (alone_unmap_kept h.inv.memory.wf h.inv.mmuFree h.inv.pmmFree hfew hself)
  obtain rfl := hafter.symm.trans
    (h.edit_eq (k := w.kernel.withSpace s') fun b => b.withMapped false)
  rw [hplaced.va_eq] at hkept hclear
  have hmemory : DmaMemory s' w.rest
      (Function.update (slotOwns ∘ w.buf) i (b.withMapped false).Owns)
      (Function.update (slotMaps ∘ w.buf) i (b.withMapped false).Maps) := by
    rw [h.own_eq (b.withMapped false) rfl, DmaBuffer.maps_unmapped (b := b.withMapped false) rfl]
    refine h.inv.memory.unmapped hpages hfits hkept hclear (fun q d hm => ?_)
      fun j hj q d hm hq => hj (h.inv.maps_apart h.slot hm hq)
    rw [Function.comp_apply, h.slot] at hm
    exact DmaBuffer.Maps.covers hm
  obtain ⟨hwork, hfoot⟩ := h.edit (b.withMapped false) rfl rfl rfl h.busy
    (hplaced.of_busy rfl rfl rfl h.busy) hmemory fun f ha hn => absurd ((hkept.data f).mpr ha) hn
  exact ⟨hfoot, hwork⟩

/-- The next frame of the buffer is freed. -/
theorem AtWork.freeFrame (h : AtWork c i b w) (hnext : b.next < b.pages)
    (hact : DmaWorld.perform c (.step (.freeFrame (pageAddr b.phys b.next))) w = some ((), w')) :
    DmaFoot c w w' ∧ AtWork c i b.freed w' := by
  have hplaced := h.inv.placed i b h.slot
  have hslot : (slotOwns ∘ w.buf) i = b.Owns := by
    rw [Function.comp_apply, h.slot]
    rfl
  have howned : (slotOwns ∘ w.buf) i (pageAddr b.phys b.next) := by
    rw [hslot]
    exact ⟨b.next, le_refl _, hnext, rfl⟩
  obtain ⟨s', hafter, hdrop⟩ := DmaWorld.alone_of_step hact
    (alone_freeFrame_dropped h.inv.memory.wf h.inv.pmmFree (h.inv.memory.frames.used_of_own howned))
  obtain rfl := hafter.symm.trans (h.edit_eq (k := w.kernel.withSpace s') fun b => b.freed)
  have hmemory : DmaMemory s' w.rest (Function.update (slotOwns ∘ w.buf) i b.freed.Owns)
      (Function.update (slotMaps ∘ w.buf) i b.freed.Maps) := by
    rw [hplaced.owns_freed hnext, h.maps_eq b.freed rfl, ← hslot]
    exact h.inv.memory.dropped hdrop howned
  obtain ⟨hwork, hfoot⟩ := h.edit b.freed rfl rfl rfl h.busy
    (hplaced.of_busy rfl rfl rfl h.busy) hmemory fun f ha hn hused =>
      hn (hdrop.data.mpr ⟨ha, ((hdrop.used f).mp hused).2⟩)
  exact ⟨hfoot, hwork⟩

/-! ### Mapped buffers -/

/-- What the addresses of a mapped buffer translate to. -/
theorem DmaInv.translation (h : DmaInv w) (hslot : w.buf i = some b) (hmapped : b.mapped = true)
    {off : ℕ} (hoff : off < b.pages * 4096) :
    w.space.translation (b.va + BitVec.ofNat 64 off) = b.phys + BitVec.ofNat 64 off := by
  have hplaced := h.placed i b hslot
  have hfits := hplaced.fits
  have hbelow := hplaced.below
  have hleaf := h.leaf hslot hmapped (p := off / 4096) (by omega)
  rw [← pageAt_dmaAt, ← hplaced.va_eq] at hleaf
  refine Space.translation_of_leaf ?_ hplaced.aligned (by omega) (by decide) hleaf
  rw [hplaced.va_eq, toNat_dmaAt (by omega)]
  omega

theorem DmaInv.translation_va (h : DmaInv w) (hslot : w.buf i = some b) (hmapped : b.mapped = true)
    (hpos : 0 < b.pages) : w.space.translation b.va = b.phys := by
  have htrans := h.translation hslot hmapped (by omega : 0 < b.pages * 4096)
  rwa [BitVec.add_zero, BitVec.add_zero] at htrans

theorem AtWork.translate {r : U64} (h : AtWork c i b w) (hmapped : b.mapped = true)
    (hpos : 0 < b.pages) (hact : DmaWorld.perform c (.step (.translate b.va)) w = some (r, w')) :
    r = b.phys ∧ w' = w := by
  obtain ⟨s', hafter, rfl, rfl⟩ := DmaWorld.alone_of_step hact
    (alone_translate h.inv.memory.wf h.inv.mmuFree b.va)
  exact ⟨h.inv.translation_va h.slot hmapped hpos, hafter.symm⟩

/-- Whether a buffer is held makes no difference to its pages and frames. -/
theorem DmaInv.withLive (h : DmaInv w) (hslot : w.buf i = some b) (live : Bool)
    (hlive : live = true → b.mapped = true ∧ b.next = 0 ∧ 0 < b.pages) :
    DmaInv { w with buf := Function.update w.buf i (some { b with live := live }) } := by
  have hplaced := h.placed i b hslot
  refine h.edit { b with live := live } hslot rfl rfl
    ⟨hplaced.va_eq, hplaced.fits, hplaced.aligned, hplaced.below, hlive⟩ ?_
  have hown : ({ b with live := live } : DmaBuffer).Owns = (slotOwns ∘ w.buf) i := by
    rw [Function.comp_apply, hslot]
    rfl
  have hmaps : ({ b with live := live } : DmaBuffer).Maps = (slotMaps ∘ w.buf) i := by
    rw [Function.comp_apply, hslot]
    rfl
  rw [hown, hmaps, Function.update_eq_self, Function.update_eq_self]
  exact h.memory

/-- The buffer that `dma_alloc` has returned is held. -/
theorem AtWork.hold (h : AtWork c i b w) (hmapped : b.mapped = true) (hnext : b.next = 0)
    (hpos : 0 < b.pages) (hact : DmaWorld.perform c (.hold b.va) w = some ((), w')) :
    DmaFoot c w w' ∧ AtRest c w' := by
  have hafter : w.edit c w.kernel (fun b₀ => { b₀ with va := b.va, live := true }) = w' :=
    (Prod.mk.inj (Option.some.inj hact)).2
  obtain rfl := hafter.symm.trans (h.edit_eq _)
  refine ⟨foot_update _ (fun b₀ hb₀ => ?_) h.core fun _ ha hn => absurd ha hn,
    h.inv.withLive h.slot true
    fun _ => ⟨hmapped, hnext, hpos⟩, fun j a ha hca hla => ?_⟩
  · rw [h.slot] at hb₀
    obtain rfl := Option.some.inj hb₀
    exact h.core
  · by_cases hji : j = i
    · rw [hji] at ha
      obtain rfl := Option.some.inj ((Function.update_self i _ w.buf).symm.trans ha)
      exact absurd hla nofun
    · exact h.others j a hji ((Function.update_of_ne hji _ w.buf).symm.trans ha) hca hla

/-- A held buffer is given to `dma_free`. -/
theorem AtRest.letGo (h : AtRest c w) (hslot : w.buf i = some b) (hcore : b.core = c)
    (hact : DmaWorld.perform c (.letGo i) w = some ((), w')) :
    DmaFoot c w w' ∧ AtWork c i { b with live := false } w' := by
  obtain ⟨hinv, hover⟩ := h
  have hafter := (Prod.mk.inj (Option.some.inj hact)).2
  have hself : Function.update w.work c i c = i := Function.update_self c i w.work
  have hedit : w' = { w with
      buf := Function.update w.buf i (some { b with live := false })
      work := Function.update w.work c i } := by
    rw [← hafter, DmaWorld.edit]
    simp only [hself, hslot]
    rfl
  subst hedit
  have hinv' := hinv.withLive hslot false fun hl => absurd hl nofun
  refine ⟨⟨fun d hd => ⟨Function.update_of_ne hd _ _, ?_⟩, fun _ ha hn => absurd ha hn⟩,
    ⟨?_, hself, Function.update_self _ _ _,
    hcore, rfl, fun j a hji ha hca hla => ?_⟩⟩
  · refine ((foot_update (k := w.kernel) { b with live := false } (fun b₀ hb₀ => ?_) hcore
      fun _ ha hn => absurd ha hn).apart d hd).2
    rw [hslot] at hb₀
    obtain rfl := Option.some.inj hb₀
    exact hcore
  · exact ⟨hinv'.dmaFree, hinv'.mmuFree, hinv'.pmmFree, hinv'.window, hinv'.memory, hinv'.placed,
      hinv'.fresh⟩
  · exact hover j a ((Function.update_of_ne hji _ w.buf).symm.trans ha) hca hla

end GamingConsole
