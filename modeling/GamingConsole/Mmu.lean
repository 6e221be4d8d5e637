/-
Page-table management (`mmu.cpp`).

The bodies of the loops over pages are functions of their own, and a loop counts
its iterations up in `i` with `n` of them left.  The counter is a natural number
where the source has an `int`, which holds every page index of a range shorter
than 2⁴³ bytes.

`map` and `unmap` take `mmu_lock` for the whole call; the frame allocator is
called under it.
-/
import GamingConsole.Kernel

namespace GamingConsole

/-- `PTE_NORMAL_RW`. -/
def pteNormalRw : U64 := 0x703#64

/-- `PTE_DEVICE_RW`. -/
def pteDeviceRw : U64 := 0x707#64

/-- `PTE_NORMAL_NC_RW`. -/
def pteNormalNcRw : U64 := 0x60B#64

/-- The address of page `i` of a range that starts at `va`. -/
def pageAddr (va : U64) (i : ℕ) : U64 := va + BitVec.ofNat 64 i * pageSize

/-- `size / PAGE_SIZE`. -/
def numPages (size : U64) : ℕ := (size / pageSize).toNat

/-- `_get_or_alloc_table`, `0` for `nullptr`. -/
def getOrAllocTable (table : U64) (index : Fin 512) : KProg U64 := do
  let entry ← act (.load table index)
  if entry &&& 1#64 ≠ 0 then pure (entry &&& addrMask)
  else do
    let child ← allocFrame
    if child = 0 then pure 0
    else do
      act (.zeroTable child)
      act (.linkTable table index child)
      pure child

/-- One iteration of the loop of `map`: `false` when a table cannot be had. -/
def mapPage (va phys flags : U64) : KProg Bool := do
  let l1Table ← act .l1Table
  let l2Table ← getOrAllocTable l1Table (l1Index va)
  if l2Table = 0 then pure false
  else do
    let l3Table ← getOrAllocTable l2Table (l2Index va)
    if l3Table = 0 then pure false
    else do
      act (.setPage (pageOf va) l3Table (phys ||| flags ||| 3#64))
      pure true

/-- Take the table out of its parent and free it, if it is empty. -/
def freeIfEmpty (parent : U64) (index : Fin 512) (table : U64) : KProg Unit := do
  let empty ← act (.tableIsEmpty table)
  if empty then do
    -- the parent's descriptor goes first, so that no descriptor in memory names a free frame
    act (.unlinkTable parent index)
    freeFrame table
  else pure ()

/-- One iteration of the first loop of `_unmap_locked`: `false` for its early
return. -/
def unmapPage (va : U64) : KProg Bool := do
  let l1Table ← act .l1Table
  let l1Desc ← act (.load l1Table (l1Index va))
  if l1Desc &&& 3#64 ≠ 3#64 then pure false
  else do
    let l2Table := l1Desc &&& addrMask
    let l2Desc ← act (.load l2Table (l2Index va))
    if l2Desc &&& 3#64 ≠ 3#64 then pure false
    else do
      let l3Table := l2Desc &&& addrMask
      act (.clearPage (pageOf va) l3Table)
      freeIfEmpty l2Table (l2Index va) l3Table
      freeIfEmpty l1Table (l1Index va) l2Table
      pure true

/-- The first loop of `_unmap_locked`. -/
def unmapPages (va : U64) : (n i : ℕ) → KProg Bool
  | 0, _ => pure true
  | n + 1, i => do
    let found ← unmapPage (pageAddr va i)
    if found then unmapPages va n (i + 1) else pure false

/-- The TLB invalidation loop of `map` and `_unmap_locked`. -/
def tlbiPages (va : U64) : (n i : ℕ) → KProg Unit
  | 0, _ => pure ()
  | n + 1, i => do
    act (.tlbi (pageAddr va i >>> 12))
    tlbiPages va n (i + 1)

/-- `_unmap_locked`. -/
def unmapLocked (va size : U64) : KProg Unit := do
  let done ← unmapPages va (numPages size) 0
  if done then tlbiPages va (numPages size) 0 else pure ()

/-- The first loop of `map`, with the rollback of a failed iteration. -/
def mapPages (va phys flags : U64) : (n i : ℕ) → KProg Bool
  | 0, _ => pure true
  | n + 1, i => do
    let done ← mapPage (pageAddr va i) (pageAddr phys i) flags
    if done then mapPages va phys flags n (i + 1)
    else do
      unmapLocked va (BitVec.ofNat 64 i * pageSize)
      pure false

/-- What `map` does while it holds `mmu_lock`. -/
def mapLocked (va phys size flags : U64) : KProg Bool := do
  let done ← mapPages va phys flags (numPages size) 0
  if done then do
    tlbiPages va (numPages size) 0
    pure true
  else pure false

/-- `map`. -/
def map (va phys size flags : U64) : KProg Bool :=
  critical .mmuLock (mapLocked va phys size flags)

/-- `unmap`. -/
def unmap (va size : U64) : KProg Unit := critical .mmuLock (unmapLocked va size)

/-- The walk of `translate`. -/
def translateLocked (virt : U64) : KProg U64 := do
  let l1Table ← act .l1Table
  let l1Desc ← act (.load l1Table (l1Index virt))
  if l1Desc &&& 3#64 ≠ 3#64 then pure (~~~0)
  else do
    let l2Table := l1Desc &&& addrMask
    let l2Desc ← act (.load l2Table (l2Index virt))
    if l2Desc &&& 3#64 ≠ 3#64 then pure (~~~0)
    else do
      let l3Table := l2Desc &&& addrMask
      let l3Desc ← act (.load l3Table (l3Index virt))
      if l3Desc &&& 3#64 ≠ 3#64 then pure (~~~0)
      else pure ((l3Desc &&& addrMask) ||| (virt &&& 0xFFF#64))

/-- `translate`. -/
def translate (virt : U64) : KProg U64 := critical .mmuLock (translateLocked virt)

end GamingConsole
