/-
Several cores at once.

`World` adds to the kernel's state what the properties speak of and the code does
not store: the translation caches, the pages whose descriptors the last holder of
`mmu_lock` has cleared, what was left of them in the caches, the tables taken out of
the tree, and who holds each frame.  `system` runs any
number of cores, each making calls of its choice; between any two actions the
hardware may cache a valid descriptor, and whoever holds a frame that is not a
table may write to it.
-/
import GamingConsole.HeapAlloc
import GamingConsole.Newlib
import GamingConsole.Dma
import GamingConsole.PmmHeld
import GamingConsole.MapLoops
import GamingConsole.Library.Interleaving

namespace GamingConsole

open Space

/-- Who holds a used frame: the page tables, the kernel heap, or a client that
runs on core `c`. -/
inductive Role where
  | table
  | kheap
  | client (c : ℕ)
  deriving DecidableEq

/-- The level of the table that a cached descriptor was read from. -/
inductive Level where
  | l1
  | l2
  | l3
  deriving DecidableEq

/-- A cached descriptor, kept under the page whose walk read it. -/
structure TlbEntry where
  page : Page
  level : Level
  desc : U64
  deriving DecidableEq

/-- The descriptor that a walk of the page reads at a level. -/
def Space.descAt (s : Space) (pg : Page) : Level → U64
  | .l1 => s.mem s.l1Table pg.l1
  | .l2 => (s.table pg.l2Path).elim 0 fun t => s.mem t pg.l2
  | .l3 => s.leaf pg

/-- The entry is a copy of a descriptor that is valid in the tables. -/
def Space.Cacheable (s : Space) (e : TlbEntry) : Prop :=
  e.desc = s.descAt e.page e.level ∧ e.desc &&& 3#64 = 3#64

/-- The system's state.  `cleared` are the pages whose descriptors were cleared
since `mmu_lock` was last taken, `stale` those of them that have not been
invalidated yet; `brokeOff` says that since then a walk has met an invalid
descriptor while pages were stale.  `left` is what was cached for the cleared pages
when `mmu_lock` was last released.  `unlinked` are the frames of all tables ever
taken out of the tree. -/
structure World where
  kernel : Kernel
  tlb : List TlbEntry
  cleared : List Page
  stale : List Page
  brokeOff : Bool
  left : List TlbEntry
  unlinked : List U64
  role : U64 → Option Role

namespace World

/-- The memory. -/
def space (w : World) : Space := w.kernel.space

/-- Whom a frame allocated by core `c` goes to. -/
def roleFor (w : World) (c : ℕ) : Role :=
  if w.kernel.lock .mmuLock = some c then .table
  else if w.kernel.lock .heapLock = some c then .kheap
  else .client c

/-- What an action with answer `r` does to the rest of the world, the kernel being
in `k` after it. -/
def after (w : World) (c : ℕ) (k : Kernel) : (e : Action) → e.Answer → World
  | .spinLock .mmuLock, _ =>
    { w with kernel := k, cleared := [], stale := [], brokeOff := false }
  | .spinUnlock .mmuLock _, _ =>
    { w with kernel := k, left := w.tlb.filter fun e => e.page ∈ w.cleared }
  | .pmmAlloc, a =>
    { w with
      kernel := k
      role := if a = 0 then w.role else Function.update w.role a (some (w.roleFor c)) }
  | .pmmAllocRun count, a =>
    { w with
      kernel := k
      role := fun b =>
        if a ≠ 0 ∧ b ∈ Pmm.basesFrom a count.toNat then some (w.roleFor c) else w.role b }
  | .pmmFree a, _ => { w with kernel := k, role := Function.update w.role a none }
  | .load _ _, desc =>
    { w with
      kernel := k
      brokeOff := w.brokeOff || (desc &&& 3#64 != 3#64 && !w.stale.isEmpty) }
  | .unlinkTable table index, _ =>
    { w with
      kernel := k
      unlinked := (w.space.mem table index &&& addrMask) :: w.unlinked }
  | .clearPage pg _, _ =>
    { w with kernel := k, cleared := pg :: w.cleared, stale := pg :: w.stale }
  | .tlbi vaPage, _ =>
    { w with
      kernel := k
      tlb := w.tlb.filter fun e => e.page.num ≠ vaPage.toNat % 2 ^ 27
      stale := w.stale.filter fun pg => pg.num ≠ vaPage.toNat % 2 ^ 27 }
  | _, _ => { w with kernel := k }

/-- One action of core `c`. -/
def perform (c : ℕ) (e : Action) (w : World) : Option (e.Answer × World) :=
  match w.kernel.perform c e with
  | none => none
  | some (r, k) => some (r, w.after c k e r)

end World

/-! ### Calls -/

/-- The calls a core can make. -/
inductive Call where
  | allocFrame
  | allocFrames (count : U64)
  | freeFrame (addr : U64)
  | map (va phys size flags : U64)
  | unmap (va size : U64)
  | translate (virt : U64)
  | kmalloc (size : U64)

/-- A call whose result is dropped. -/
def drop {α : Type} (p : KProg α) : KProg Unit := do
  let _ ← p
  pure ()

/-- The program of a call. -/
def Call.prog : Call → KProg Unit
  | .allocFrame => drop GamingConsole.allocFrame
  | .allocFrames count => drop (GamingConsole.allocFrames count)
  | .freeFrame addr => GamingConsole.freeFrame addr
  | .map va phys size flags => drop (GamingConsole.map va phys size flags)
  | .unmap va size => GamingConsole.unmap va size
  | .translate virt => drop (GamingConsole.translate virt)
  | .kmalloc size => drop (GamingConsole.kmalloc size)

/-- A page of the kernel heap's window. -/
def InHeapWindow (pg : Page) : Prop := ∃ i < 256, pg = pageAt heapBase i

/-- The runs considered.  `apart`: the window of the kernel heap is left to it.
`fed`: a table that the kernel heap asks for finds a frame.  `swept`: the caches hold
nothing that `_unmap_locked` is about to leave behind. -/
structure Mode where
  apart : Prop
  fed : Prop
  swept : Prop

/-- All runs. -/
def Mode.all : Mode := ⟨False, False, False⟩

/-- The runs in which no stale translation survives. -/
def Mode.flushed : Mode := ⟨False, False, True⟩

/-- The runs in which the kernel heap is backed. -/
def Mode.backed (m : Mode) : Prop := m.apart ∧ m.fed

/-- What a call may be, in a mode: clients free only frames they hold. -/
def Call.Allowed (m : Mode) (c : ℕ) : Call → World → Prop
  | .freeFrame addr, w => w.role addr = some (.client c)
  | .map va _ size _, _ => m.apart → ∀ i < numPages size, ¬ InHeapWindow (pageAt va i)
  | .unmap va size, _ => m.apart → ∀ i < numPages size, ¬ InHeapWindow (pageAt va i)
  | _, _ => True

/-- The condition of a mode on one action. -/
def Mode.Ok (m : Mode) (c : ℕ) (e : Action) (w : World) : Prop :=
  match e with
  | .pmmAlloc =>
    m.fed → w.kernel.lock .mmuLock = some c → w.kernel.lock .heapLock = some c →
      w.space.pmm.freeCount ≠ 0
  -- a table is not freed while a cached descriptor names it
  | .pmmFree a =>
    m.swept → w.kernel.lock .mmuLock = some c →
      ∀ e ∈ w.tlb, e.level ≠ .l3 → e.desc &&& addrMask ≠ a
  -- a walk does not break off while something is cached for a page it has cleared
  | .load table index =>
    m.swept → w.space.mem table index &&& 3#64 ≠ 3#64 → ∀ e ∈ w.tlb, e.page ∉ w.stale
  | _ => True

/-- While `mmu_lock` is held, something is cached for a cleared page only if its
invalidation is still to come. -/
def World.Flushes (w : World) (pg : Page) : Prop :=
  w.kernel.lock .mmuLock ≠ none → pg ∈ w.cleared → pg ∈ w.stale ∧ w.brokeOff = false

/-- What happens without any core's doing. -/
inductive World.Env (m : Mode) (w : World) : World → Prop where
  | fill (e : TlbEntry) (h : w.space.Cacheable e) (hm : m.swept → w.Flushes e.page) :
      Env m w { w with tlb := e :: w.tlb }
  | data (a : U64) (words : Fin 512 → U64) (h : w.role a ≠ some .table) :
      Env m w { w with
        kernel := w.kernel.withSpace
          { w.space with mem := Function.update w.space.mem a words } }

/-- The cores of the console, running calls that a mode allows. -/
def system (m : Mode) : Interleaving.System ℕ Action Action.Answer World Call where
  handler := World.perform
  prog := Call.prog
  allowed := fun c call w => call.Allowed m c w
  env := World.Env m

/-- A configuration of the system. -/
abbrev Cores : Type := Interleaving.Config ℕ Action Action.Answer World

/-- A run of the system in a mode. -/
abbrev Reach (m : Mode) : Cores → Cores → Prop := Interleaving.Reach (system m) m.Ok

/-! ### Boot -/

/-- A board: a kernel image, the contents of its RAM and of each core's DAIF and
`errno` at power-on.  There is a frame for the L1 table; `mmu_init` halts if there
is none. -/
structure Board where
  image : Pmm.KernelImage
  ram : U64 → Fin 512 → U64
  daif : ℕ → U64
  errno : ℕ → ℕ
  frames : 0 < (Pmm.pmmInit image.kernelEnd).totalFrames.toNat

/-- The memory once `alloc_frame` has answered `r` and the frame has become an
empty L1 table. -/
def Space.boot (r : U64 × Pmm) (ram : U64 → Fin 512 → U64) : Space :=
  ({ pmm := r.2, mem := ram, l1Table := r.1 } : Space).zero r.1

/-- The kernel once `mmu_init` has installed the L1 table and `kheap_init` has
run.  The identity mappings of `mmu_init` are calls of `map` like any other. -/
def Kernel.boot (s : Space) (daif : ℕ → U64) (errno : ℕ → ℕ) : Kernel :=
  kheapInit
    { space := s
      var := fun
        | .dmaBumpPtr => dmaBase
        | _ => newlibHeapBase
      lock := fun _ => none
      mmuActive := true
      daif := daif
      errno := errno }

/-- The world at boot: nothing is cached, and only the L1 table is held. -/
def World.boot (k : Kernel) : World :=
  { kernel := k
    tlb := []
    cleared := []
    stale := []
    brokeOff := false
    left := []
    unlinked := []
    role := Function.update (fun _ => none) k.space.l1Table (some .table) }

namespace Board

/-- The allocator after `mmu_init` has taken the L1 table from it. -/
def l1Alloc (b : Board) : U64 × Pmm := Pmm.allocFrame (Pmm.pmmInit b.image.kernelEnd)

/-- The memory with an empty L1 table. -/
def space (b : Board) : Space := Space.boot b.l1Alloc b.ram

/-- The kernel at boot. -/
def kernel (b : Board) : Kernel := Kernel.boot b.space b.daif b.errno

/-- All cores idle. -/
def boot (b : Board) : Cores := { shared := World.boot b.kernel, threads := fun _ => none }

end Board

end GamingConsole
