/-
The kernel heap (`heap_alloc.cpp`): a bump allocator over a fixed window of
virtual addresses, backed by frames on demand.
-/
import GamingConsole.Mmu

namespace GamingConsole

/-- `HEAP_BASE`. -/
def heapBase : U64 := 0x100000000#64

/-- `HEAP_MAX_SIZE`. -/
def heapMaxSize : U64 := 0x100000#64

/-- Passes a page loop may make: one for each page of the address space. -/
def fuel : ℕ := 2 ^ 52

/-- `panic`. -/
def panic {α : Type} (msg : String) : KProg α := do
  let e ← act (.panic msg)
  nomatch e

/-- A loop that has made all its passes. -/
def stuck {α : Type} : KProg α := do
  let e ← act .stuck
  nomatch e

/-- `kheap_init`. -/
def kheapInit (k : Kernel) : Kernel :=
  ((k.withLock .heapLock none).withVar .bumpPtr heapBase).withVar .heapEnd heapBase

/-- The growth loop of `kmalloc`: `false` when a frame cannot be had.  The
result of `map` is not looked at. -/
def kmallocLoop (requiredEnd : U64) : ℕ → KProg Bool
  | 0 => stuck
  | n + 1 => do
    let heapEnd ← act (.get .heapEnd)
    if heapEnd < requiredEnd then do
      let pa ← allocFrame
      if pa = 0 then pure false
      else do
        let _ ← map heapEnd pa pageSize pteNormalRw
        act (.set .heapEnd (heapEnd + pageSize))
        kmallocLoop requiredEnd n
    else pure true

/-- The size `kmalloc` reserves for a request. -/
def alignedSize (size : U64) : U64 := (size + 15#64) &&& ~~~15#64

/-- `kmalloc`. -/
def kmalloc (size : U64) : KProg U64 := do
  let flags ← act (.spinLock .heapLock)
  let bumpPtr ← act (.get .bumpPtr)
  let requiredEnd := bumpPtr + alignedSize size
  if requiredEnd > heapBase + heapMaxSize then do
    act (.spinUnlock .heapLock flags)
    panic "kmalloc: heap region exhausted"
  else do
    let grown ← kmallocLoop requiredEnd fuel
    if grown then do
      act (.set .bumpPtr (bumpPtr + alignedSize size))
      act (.spinUnlock .heapLock flags)
      pure bumpPtr
    else do
      act (.spinUnlock .heapLock flags)
      panic "kmalloc: out of physical frames"

end GamingConsole
