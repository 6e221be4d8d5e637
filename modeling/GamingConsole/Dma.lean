/-
DMA buffers (`dma.cpp`): a window of virtual addresses that is handed out by
moving a pointer, over runs of frames.

`dma_alloc` and `dma_free` are each several steps with a lock of their own, and
other cores may come in between.  So both are programs over these steps
(`DmaAction`), and a step is a program of the kernel (`DmaAction.prog`); `dmaAlloc`
and `dmaFree` put the two together.
-/
import GamingConsole.Mmu

namespace GamingConsole

open Prog

/-- `DMA_BASE`. -/
def dmaBase : U64 := 0x140000000#64

/-- `DMA_MAX_SIZE`. -/
def dmaMaxSize : U64 := 0x100000#64

/-- The pages of a request. -/
def dmaPageCount (size : U64) : U64 := (size + pageSize - 1#64) / pageSize

/-- The bytes of these pages. -/
def dmaAlignedSize (size : U64) : U64 := dmaPageCount size * pageSize

/-- The steps of `dma_alloc` and `dma_free`. -/
inductive DmaAction where
  | reserve (alignedSize : U64)
  | allocFrames (count : U64)
  | map (va phys size : U64)
  | freeFrame (addr : U64)
  | reclaim (va size : U64)
  | translate (va : U64)
  | unmap (va size : U64)

/-- What a step answers; `reserve` has no address to give when the window is full. -/
abbrev DmaAction.Answer : DmaAction → Type
  | .reserve _ => Option U64
  | .allocFrames _ => U64
  | .map _ _ _ => Bool
  | .translate _ => U64
  | _ => Unit

/-- Programs over the steps. -/
abbrev DmaProg (α : Type) : Type := Prog DmaAction DmaAction.Answer α

/-- The program that is one step. -/
def dma (e : DmaAction) : DmaProg e.Answer := Prog.perform e

/-! ### The steps -/

/-- The first critical section of `dma_alloc`. -/
def dmaReserve (alignedSize : U64) : KProg (Option U64) :=
  critical .dmaLock do
    let dmaBumpPtr ← act (.get .dmaBumpPtr)
    if dmaBumpPtr + alignedSize > dmaBase + dmaMaxSize then pure none
    else do
      act (.set .dmaBumpPtr (dmaBumpPtr + alignedSize))
      pure (some dmaBumpPtr)

/-- `_dma_reclaim_va`. -/
def dmaReclaimVa (va size : U64) : KProg Unit :=
  critical .dmaLock do
    let dmaBumpPtr ← act (.get .dmaBumpPtr)
    -- the range is given back only if nobody has reserved past it
    if dmaBumpPtr = va + dmaAlignedSize size then act (.set .dmaBumpPtr va) else pure ()

/-- A step as a program of the kernel. -/
def DmaAction.prog : (e : DmaAction) → KProg e.Answer
  | .reserve alignedSize => dmaReserve alignedSize
  | .allocFrames count => GamingConsole.allocFrames count
  | .map va phys size => GamingConsole.map va phys size pteNormalNcRw
  | .freeFrame addr => GamingConsole.freeFrame addr
  | .reclaim va size => dmaReclaimVa va size
  | .translate va => GamingConsole.translate va
  | .unmap va size => GamingConsole.unmap va size

/-! ### `dma_alloc` and `dma_free` -/

/-- The loop that frees `n` frames from frame `i` on. -/
def dmaFreeFrames (phys : U64) : (n i : ℕ) → DmaProg Unit
  | 0, _ => pure ()
  | n + 1, i => do
    dma (.freeFrame (pageAddr phys i))
    dmaFreeFrames phys n (i + 1)

/-- `dma_alloc`, step by step. -/
def dmaAllocSteps (size : U64) : DmaProg U64 := do
  let reserved ← dma (.reserve (dmaAlignedSize size))
  match reserved with
  | none => pure 0
  | some va => do
    let phys ← dma (.allocFrames (dmaPageCount size))
    if phys = 0 then do
      dma (.reclaim va size)
      pure 0
    else do
      let mapped ← dma (.map va phys (dmaAlignedSize size))
      if mapped then pure va
      else do
        dmaFreeFrames phys (dmaPageCount size).toNat 0
        dma (.reclaim va size)
        pure 0

/-- `dma_free`, step by step. -/
def dmaFreeSteps (ptr size : U64) : DmaProg Unit := do
  let phys ← dma (.translate ptr)
  if phys = ~~~0 then pure ()
  else do
    dma (.unmap ptr (dmaAlignedSize size))
    dmaFreeFrames phys (dmaPageCount size).toNat 0

/-- `dma_alloc`. -/
def dmaAlloc (size : U64) : KProg U64 := (dmaAllocSteps size).interp DmaAction.prog

/-- `dma_free`. -/
def dmaFree (ptr size : U64) : KProg Unit := (dmaFreeSteps ptr size).interp DmaAction.prog

end GamingConsole
