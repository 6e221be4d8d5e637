/-
The shared memory of the xHCI driver (`xhcisharedmemallocator.cpp`).

`Allocate` is `dma_alloc` with a record of what it returned; the records are a singly
linked list on the heap, and `Free` walks it to find the size again.  A walk goes from one
place that holds a pointer to the next (`SAllocationRecord **ppRecord`), so that a record
is taken out by a store to the place that led to it.

The loops are over a list in memory and have fuel; `walkFuel` is one more than there can be
records.  `m_nMemStart` and `m_nMemEnd` are stored by the constructor and never read, and
are left out.  The last part has the addresses that the driver gives to the controller (`xhci.h`,
`bcmpciehostbridge.h`).
-/
import GamingConsole.DmaAlone
import GamingConsole.Library.LinkedList

namespace GamingConsole

open Prog LinkedList

/-- `SAllocationRecord`: `pBlock` and `nSize`.  `pNext` is the link of its cell. -/
abbrev SAllocationRecord : Type := U64 × U64

/-- The kernel, and the records: `m_pFreeList` is their head. -/
structure Xhci where
  kernel : Kernel
  records : Cells U64 SAllocationRecord

/-- What the allocator does. -/
inductive XhciAction where
  | dmaAlloc (size : U64)
  | dmaFree (ptr size : U64)
  | new (record : SAllocationRecord) (pNext : U64)
  | delete (pRecord : U64)
  | load (place : Place U64)
  | store (place : Place U64) (p : U64)
  | record (pRecord : U64)
  | stuck

/-- What an action answers. -/
abbrev XhciAction.Answer : XhciAction → Type
  | .dmaAlloc _ => U64
  | .new _ _ => U64
  | .load _ => U64
  | .record _ => SAllocationRecord
  | .stuck => Empty
  | _ => Unit

/-- Programs of the allocator. -/
abbrev XhciProg (α : Type) : Type := Prog XhciAction XhciAction.Answer α

/-- The program that is one action. -/
def xhci (e : XhciAction) : XhciProg e.Answer := Prog.perform e

/-- The heap of the records: the address that `new` returns, and what `new` and `delete`
do to the rest of the kernel. -/
structure RecordHeap where
  address : Xhci → U64
  new : Xhci → Kernel
  delete : Xhci → Kernel

namespace Xhci

/-- An action on core `c`; a load through an address that holds no record has no answer. -/
def perform (c : ℕ) (heap : RecordHeap) : (e : XhciAction) → Xhci → Option (e.Answer × Xhci)
  | .dmaAlloc size, x =>
    (run (Kernel.perform c) (GamingConsole.dmaAlloc size) x.kernel).map fun r =>
      (r.1, { x with kernel := r.2 })
  | .dmaFree ptr size, x =>
    (run (Kernel.perform c) (GamingConsole.dmaFree ptr size) x.kernel).map fun r =>
      (r.1, { x with kernel := r.2 })
  | .new record pNext, x => some (heap.address x,
      { kernel := heap.new x, records := x.records.insert (heap.address x) record pNext })
  | .delete pRecord, x =>
    some ((), { kernel := heap.delete x, records := x.records.remove pRecord })
  | .load place, x => (x.records.load place).map fun p => (p, x)
  | .store place p, x => some ((), { x with records := x.records.store place p })
  | .record pRecord, x => (x.records.node pRecord).map fun cell => (cell.1, x)
  | .stuck, _ => none

/-! ### `CXHCISharedMemAllocator` -/

/-- Enough for every list of records. -/
def walkFuel : ℕ := dmaPages + 1

/-- `Allocate`; the alignment and the boundary are not used. -/
def allocate (nSize _nAlign _nBoundary : U64) : XhciProg U64 := do
  let pBlock ← xhci (.dmaAlloc nSize)
  if pBlock = 0 then pure 0
  else do
    let pFreeList ← xhci (.load .head)
    let pRecord ← xhci (.new (pBlock, nSize) pFreeList)
    xhci (.store .head pRecord)
    pure pBlock

/-- The loop of `Free`. -/
def freeLoop (pBlock : U64) : (fuel : ℕ) → (ppRecord : Place U64) → XhciProg Unit
  | 0, _ => do
    let never ← xhci .stuck
    never.elim
  | fuel + 1, ppRecord => do
    let pRecord ← xhci (.load ppRecord)
    if pRecord = 0 then pure ()
    else do
      let record ← xhci (.record pRecord)
      if record.1 = pBlock then do
        let pNext ← xhci (.load (.next pRecord))
        xhci (.store ppRecord pNext)
        xhci (.dmaFree record.1 record.2)
        xhci (.delete pRecord)
      else freeLoop pBlock fuel (.next pRecord)

/-- `Free`. -/
def free (pBlock : U64) : XhciProg Unit := freeLoop pBlock walkFuel .head

/-- The loop of the destructor. -/
def destructorLoop : (fuel : ℕ) → (pRecord : U64) → XhciProg Unit
  | 0, _ => do
    let never ← xhci .stuck
    never.elim
  | fuel + 1, pRecord =>
    if pRecord = 0 then pure ()
    else do
      let pNext ← xhci (.load (.next pRecord))
      let record ← xhci (.record pRecord)
      xhci (.dmaFree record.1 record.2)
      xhci (.delete pRecord)
      destructorLoop fuel pNext

/-- `~CXHCISharedMemAllocator`. -/
def destructor : XhciProg Unit := do
  let pRecord ← xhci (.load .head)
  destructorLoop walkFuel pRecord
  xhci (.store .head 0)

end Xhci

/-! ### Addresses for the controller -/

/-- `CBcmPCIeHostBridge::GetDMAAddress`: RP1 sees the memory of the host from here on. -/
def getDmaAddress (_nBus : U64) : U64 := 0x1000000000#64

/-- `PCIE_BUS_XHCI`. -/
def pcieBusXhci : U64 := 0#64

/-- `XHCI_TO_DMA`. -/
def xhciToDma (ptr : U64) : U64 := ptr ||| getDmaAddress pcieBusXhci

/-- `XHCI_FROM_DMA`. -/
def xhciFromDma (addr : U64) : U64 := addr &&& 0xFFFFFFFF#64

end GamingConsole
