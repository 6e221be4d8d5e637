/-
The newlib heap (`libc_retarget.cpp`): `_sbrk` moves the break of a heap that
grows and shrinks page by page.

`newlib_lock` is held for the whole call; `alloc_frame`, `map`, `translate`,
`unmap` and `free_frame` take their own locks under it.  The increment is a
`ptrdiff_t`; its sum with the break is computed in `uint64_t`.
-/
import GamingConsole.HeapAlloc

namespace GamingConsole

/-- `NEWLIB_HEAP_BASE`, where both newlib variables start. -/
def newlibHeapBase : U64 := 0x180000000#64

/-- `NEWLIB_HEAP_MAX_SIZE`. -/
def newlibHeapMaxSize : U64 := 0x38000000#64

/-- `ENOMEM`. -/
def enomem : ℕ := 12

/-- `(void*)-1`. -/
def sbrkFailed : U64 := ~~~0

/-- The loop of `_free_sbrk`. -/
def freeSbrkLoop (requiredEnd : U64) : ℕ → KProg Unit
  | 0 => stuck
  | n + 1 => do
    let heapEnd ← act (.get .currNewlibHeapEnd)
    if heapEnd > roundUp requiredEnd pageSize then do
      let pa ← translate (heapEnd - pageSize)
      unmap (heapEnd - pageSize) pageSize
      freeFrame pa
      act (.set .currNewlibHeapEnd (heapEnd - pageSize))
      freeSbrkLoop requiredEnd n
    else pure ()

/-- `_free_sbrk`. -/
def freeSbrk (incr : U64) : KProg Bool := do
  let currBrk ← act (.get .currBrk)
  let requiredEnd := currBrk + incr
  if requiredEnd < newlibHeapBase then pure false
  else do
    freeSbrkLoop requiredEnd fuel
    act (.set .currBrk requiredEnd)
    pure true

/-- The growth loop of `_sbrk`: `false` for its two failing returns. -/
def sbrkLoop (requiredEnd : U64) : ℕ → KProg Bool
  | 0 => stuck
  | n + 1 => do
    let heapEnd ← act (.get .currNewlibHeapEnd)
    if heapEnd < requiredEnd then do
      let pa ← allocFrame
      if pa = 0 then do
        act (.setErrno enomem)
        pure false
      else do
        let mapResult ← map heapEnd pa pageSize pteNormalRw
        if mapResult then do
          act (.set .currNewlibHeapEnd (heapEnd + pageSize))
          sbrkLoop requiredEnd n
        else do
          act (.setErrno enomem)
          freeFrame pa
          pure false
    else pure true

/-- `_sbrk`. -/
def sbrk (incr : U64) : KProg U64 := do
  let flags ← act (.spinLock .newlibLock)
  if incr = 0 then do
    act (.spinUnlock .newlibLock flags)
    act (.get .currBrk)
  else if incr.slt 0 then do
    let prevBrk ← act (.get .currBrk)
    let freed ← freeSbrk incr
    if freed then do
      act (.spinUnlock .newlibLock flags)
      pure prevBrk
    else do
      act (.setErrno enomem)
      act (.set .currBrk prevBrk)
      act (.spinUnlock .newlibLock flags)
      pure sbrkFailed
  else do
    let currBrk ← act (.get .currBrk)
    let requiredEnd := currBrk + incr
    if requiredEnd > newlibHeapBase + newlibHeapMaxSize then do
      act (.setErrno enomem)
      act (.spinUnlock .newlibLock flags)
      pure sbrkFailed
    else do
      let grown ← sbrkLoop requiredEnd fuel
      if grown then do
        let result ← act (.get .currBrk)
        act (.set .currBrk (result + incr))
        act (.spinUnlock .newlibLock flags)
        pure result
      else do
        act (.spinUnlock .newlibLock flags)
        pure sbrkFailed

end GamingConsole
