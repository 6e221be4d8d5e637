/-
DMA buffers on several cores.

A `DmaWorld` is the kernel with a record of every buffer a core has reserved room for.
A core runs `dma_alloc` and `dma_free` one step at a time (`DmaEvent.step`); between its
calls it holds what `dma_alloc` has returned (`hold`) until it gives it to `dma_free`
(`letGo`).  Between any two steps the rest of the kernel may do what it likes with
memory that is not the buffers' (`DmaOthers`).

* `DmaInv` — which core has which pages of the window and which frames;
* `DmaInv.edit` — a step on one buffer keeps it, if it keeps the memory in order.
-/
import GamingConsole.DmaMemory
import GamingConsole.Library.Interleaving

namespace GamingConsole

open Space Prog Ownership

/-! ### Buffers -/

/-- A buffer, from the moment its pages are reserved.  Its frames are those of the run at
`phys`, less the first `next`, which have been given back or, before `alloc_frames`,
never been had. -/
structure DmaBuffer where
  core : ℕ
  va : U64
  pages : ℕ
  phys : U64
  next : ℕ
  mapped : Bool
  live : Bool

namespace DmaBuffer

/-- The buffer's first page in the window. -/
def first (b : DmaBuffer) : ℕ := (b.va.toNat - dmaBase.toNat) / 4096

/-- The buffer reaches over page `q` of the window. -/
def Covers (b : DmaBuffer) (q : ℕ) : Prop := b.first ≤ q ∧ q < b.first + b.pages

/-- The buffer has the frame. -/
def Owns (b : DmaBuffer) (a : U64) : Prop :=
  ∃ i, b.next ≤ i ∧ i < b.pages ∧ a = pageAddr b.phys i

/-- The buffer maps page `q` of the window with descriptor `desc`. -/
def Maps (b : DmaBuffer) (q : ℕ) (desc : U64) : Prop :=
  b.mapped = true ∧ DmaMemory.runMaps b.first b.pages b.phys pteNormalNcRw q desc

/-- Nothing is left of the buffer. -/
def Over (b : DmaBuffer) : Prop := b.next = b.pages ∧ b.mapped = false

/-- The buffer lies in the window and its run in RAM. -/
structure Placed (b : DmaBuffer) : Prop where
  va_eq : b.va = dmaAt b.first
  fits : b.first + b.pages ≤ dmaPages
  aligned : b.phys.toNat % 4096 = 0
  below : b.phys.toNat + b.pages * 4096 ≤ 0x3F800000
  live : b.live = true → b.mapped = true ∧ b.next = 0 ∧ 0 < b.pages

end DmaBuffer

/-- The pages of the buffer in a slot. -/
def slotCovers : Option DmaBuffer → ℕ → Prop
  | none => fun _ => False
  | some b => b.Covers

/-- The frames of the buffer in a slot. -/
def slotOwns : Option DmaBuffer → U64 → Prop
  | none => fun _ => False
  | some b => b.Owns

/-- The mappings of the buffer in a slot. -/
def slotMaps : Option DmaBuffer → ℕ → U64 → Prop
  | none => fun _ _ => False
  | some b => b.Maps

/-! ### The world -/

/-- The kernel; the buffers, numbered in the order of their reservations; how many there
have been; the one each core works on; and the data frames of everyone else. -/
structure DmaWorld where
  kernel : Kernel
  buf : ℕ → Option DmaBuffer
  count : ℕ
  work : ℕ → ℕ
  rest : U64 → Prop

/-- What a core does: a step of a call, keeping the buffer at `va` that a call has
returned, or giving up buffer `i`. -/
inductive DmaEvent where
  | step (e : DmaAction)
  | hold (va : U64)
  | letGo (i : ℕ)

/-- What an event answers. -/
abbrev DmaEvent.Answer : DmaEvent → Type
  | .step e => e.Answer
  | _ => Unit

namespace DmaWorld

/-- The memory. -/
def space (w : DmaWorld) : Space := w.kernel.space

/-- The buffer that core `c` works on changes, and the kernel is `k`. -/
def edit (w : DmaWorld) (c : ℕ) (k : Kernel) (f : DmaBuffer → DmaBuffer) : DmaWorld :=
  { w with
    kernel := k
    buf := Function.update w.buf (w.work c) ((w.buf (w.work c)).map f) }

/-- Core `c` has reserved `n` pages at `va`. -/
def reserved (w : DmaWorld) (c : ℕ) (k : Kernel) (va : U64) (n : ℕ) : DmaWorld :=
  { w with
    kernel := k
    buf := Function.update w.buf w.count
      (some
        { core := c, va := va, pages := n, phys := 0, next := n, mapped := false, live := false })
    count := w.count + 1
    work := Function.update w.work c w.count }

/-- The record after a step of core `c` that was answered `r` and left the kernel in `k`. -/
def after (w : DmaWorld) (c : ℕ) (k : Kernel) : (e : DmaAction) → e.Answer → DmaWorld
  | .reserve alignedSize, some va => w.reserved c k va (numPages alignedSize)
  | .allocFrames _, phys =>
    w.edit c k fun b => if phys = 0 then b else { b with phys := phys, next := 0 }
  | .map _ _ _, done => w.edit c k fun b => { b with mapped := done }
  | .freeFrame _, _ => w.edit c k fun b => { b with next := b.next + 1 }
  | .unmap _ _, _ => w.edit c k fun b => { b with mapped := false }
  | .reclaim _ _, _ => { w with kernel := k, buf := Function.update w.buf (w.work c) none }
  | _, _ => { w with kernel := k }

/-- An event of core `c`. -/
def perform (c : ℕ) : (e : DmaEvent) → DmaWorld → Option (e.Answer × DmaWorld)
  | .step e, w =>
    (run (Kernel.perform c) e.prog w.kernel).map fun r => (r.1, w.after c r.2 e r.1)
  | .hold va, w => some ((), w.edit c w.kernel fun b => { b with va := va, live := true })
  | .letGo i, w =>
    let w : DmaWorld := { w with work := Function.update w.work c i }
    some ((), w.edit c w.kernel fun b => { b with live := false })

end DmaWorld

/-! ### Calls -/

/-- The calls of a core. -/
inductive DmaCall where
  | alloc (size : U64)
  | free (i : ℕ) (ptr size : U64)

/-- A step of a call as an event. -/
def dmaEvent (e : DmaAction) : Prog DmaEvent DmaEvent.Answer e.Answer :=
  Prog.perform (DmaEvent.step e)

/-- `dma_alloc`, whose buffer is kept, and `dma_free`. -/
def DmaCall.prog : DmaCall → Prog DmaEvent DmaEvent.Answer Unit
  | .alloc size => do
    let va ← (dmaAllocSteps size).interp dmaEvent
    if va = 0 then pure () else Prog.perform (DmaEvent.hold va)
  | .free i ptr size => do
    Prog.perform (DmaEvent.letGo i)
    (dmaFreeSteps ptr size).interp dmaEvent

/-- Sizes are at most `DMA_MAX_SIZE`, and a core frees buffers that it holds, with the
size they were allocated with. -/
def DmaCall.Allowed (c : ℕ) : DmaCall → DmaWorld → Prop
  | .alloc size, _ => size ≤ dmaMaxSize
  | .free i ptr size, w => ∃ b, w.buf i = some b ∧ b.core = c ∧ b.live = true ∧ ptr = b.va ∧
    (dmaPageCount size).toNat = b.pages

/-- A page of the window. -/
def InDmaWindow (pg : Page) : Prop := ∃ q < dmaPages, pg = dmaPage q

/-- A frame of a buffer. -/
def IsDmaFrame (w : DmaWorld) (a : U64) : Prop := ∃ i b, w.buf i = some b ∧ b.Owns a

/-- What the rest of the kernel may do. -/
inductive DmaOthers (w : DmaWorld) : DmaWorld → Prop where
  | mk (k' : Kernel) (space : Elsewhere InDmaWindow (IsDmaFrame w) w.space k'.space)
      (bump : k'.var .dmaBumpPtr = w.kernel.var .dmaBumpPtr) (dmaFree : k'.Free .dmaLock)
      (mmuFree : k'.Free .mmuLock) (pmmFree : k'.Free .pmmLock) :
      DmaOthers w
        { w with kernel := k', rest := fun a => k'.space.Data a ∧ ¬ IsDmaFrame w a }

/-- The cores, and the rest of the kernel. -/
def dmaSystem : Interleaving.System ℕ DmaEvent DmaEvent.Answer DmaWorld DmaCall where
  handler := DmaWorld.perform
  prog := DmaCall.prog
  allowed c call w := call.Allowed c w
  env := DmaOthers

/-! ### The invariant -/

/-- Which core has which pages and which frames. -/
structure DmaInv (w : DmaWorld) : Prop where
  dmaFree : w.kernel.Free .dmaLock
  mmuFree : w.kernel.Free .mmuLock
  pmmFree : w.kernel.Free .pmmLock
  window : ∃ top leaked, top ≤ dmaPages ∧ w.kernel.var .dmaBumpPtr = dmaAt top ∧
    Ledger (· < top) leaked (slotCovers ∘ w.buf)
  memory : DmaMemory w.space w.rest (slotOwns ∘ w.buf) (slotMaps ∘ w.buf)
  placed : ∀ i b, w.buf i = some b → b.Placed
  fresh : ∀ i, w.count ≤ i → w.buf i = none

variable {w w' : DmaWorld} {c i : ℕ} {b b' : DmaBuffer} {k : Kernel} {s' : Space}

/-- A step on one buffer, which stays where it is in the window. -/
theorem DmaInv.edit (h : DmaInv w) (b' : DmaBuffer) (hslot : w.buf i = some b) (hva : b'.va = b.va)
    (hpages : b'.pages = b.pages) (hplaced : b'.Placed)
    (hmemory : DmaMemory s' w.rest (Function.update (slotOwns ∘ w.buf) i b'.Owns)
      (Function.update (slotMaps ∘ w.buf) i b'.Maps)) :
    DmaInv { w with
      kernel := w.kernel.withSpace s'
      buf := Function.update w.buf i (some b') } := by
  have hcovers : slotCovers (some b') = (slotCovers ∘ w.buf) i := by
    rw [Function.comp_apply, hslot]
    show b'.Covers = b.Covers
    unfold DmaBuffer.Covers DmaBuffer.first
    rw [hva, hpages]
  refine ⟨h.dmaFree, h.mmuFree, h.pmmFree, ?_, ?_, fun j a ha => ?_, fun j hj => ?_⟩
  · obtain ⟨top, leaked, htop, hbump, hledger⟩ := h.window
    refine ⟨top, leaked, htop, hbump, ?_⟩
    rw [Function.comp_update, hcovers, Function.update_eq_self]
    exact hledger
  · rw [Function.comp_update, Function.comp_update]
    exact hmemory
  · by_cases hji : j = i
    · rw [hji] at ha
      obtain rfl := Option.some.inj ((Function.update_self i _ w.buf).symm.trans ha)
      exact hplaced
    · exact h.placed j a ((Function.update_of_ne hji _ w.buf).symm.trans ha)
  · have hji : j ≠ i := by
      rintro rfl
      rw [h.fresh j hj] at hslot
      cases hslot
    exact (Function.update_of_ne hji _ w.buf).trans (h.fresh j hj)

/-- Two buffers have no page in common. -/
theorem DmaInv.apart (h : DmaInv w) {j q : ℕ} (hi : w.buf i = some b) (hj : w.buf j = some b')
    (hq : b.Covers q) (hq' : b'.Covers q) : i = j := by
  obtain ⟨top, leaked, -, -, hledger⟩ := h.window
  refine hledger.unique i j q ?_ ?_
  · rw [Function.comp_apply, hi]
    exact hq
  · rw [Function.comp_apply, hj]
    exact hq'

theorem DmaBuffer.Maps.covers {q : ℕ} {desc : U64} (h : b.Maps q desc) : b.Covers q := by
  obtain ⟨-, p, hp, rfl, -⟩ := h
  exact ⟨by omega, by omega⟩

/-- Only the buffer itself maps its pages. -/
theorem DmaInv.maps_apart (h : DmaInv w) (hi : w.buf i = some b) {j q : ℕ} {desc : U64}
    (hm : (slotMaps ∘ w.buf) j q desc) (hq : b.Covers q) : j = i := by
  rw [Function.comp_apply] at hm
  rcases hj : w.buf j with _ | b'
  · rw [hj] at hm
    exact hm.elim
  · rw [hj] at hm
    exact (h.apart hi hj hq hm.covers).symm

end GamingConsole
