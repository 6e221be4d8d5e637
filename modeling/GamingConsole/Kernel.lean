/-
The kernel's shared state, and the actions its memory code performs on it.

A function of the source is a program over `Action`; an action is one access to
shared state that other cores can observe: a lock operation, a call into the
bitmap while its lock is held, one load or store of a descriptor, one TLB
invalidation, one access to a global variable.  `perform` answers an action on
core `c`.  Barriers (`dsb`, `isb`) order the accesses of the source; here the
accesses are in program order already and barriers leave no trace.

Three loops of the source are single actions, since all they touch is a frame
that the lock held by the caller keeps to it: the clearing of a fresh table, the
scan of `_table_is_empty`, and the search of the bitmap.
-/
import GamingConsole.Space
import GamingConsole.Library.Prog

namespace GamingConsole

/-- The spinlocks of the memory subsystem. -/
inductive Lock where
  | pmmLock
  | mmuLock
  | heapLock
  | newlibLock
  | dmaLock
  deriving DecidableEq

/-- The global variables of the heaps and of the DMA window. -/
inductive Var where
  | bumpPtr
  | heapEnd
  | currBrk
  | currNewlibHeapEnd
  | dmaBumpPtr
  deriving DecidableEq

/-- The shared state.  `lock l` is the core that holds the lock, whose word is
`SPINLOCK_FREE` when there is none; `daif` and `errno` are per core. -/
structure Kernel where
  space : Space
  var : Var → U64
  lock : Lock → Option ℕ
  mmuActive : Bool
  daif : ℕ → U64
  errno : ℕ → ℕ

/-- One access to the shared state.  `setPage` and `clearPage` store to the word
of an L3 table that their page is walked through, `linkTable` and `unlinkTable`
to a word of an L1 or L2 table. -/
inductive Action where
  | spinLock (l : Lock)
  | spinUnlock (l : Lock) (flags : U64)
  | pmmAlloc
  | pmmAllocRun (count : U64)
  | pmmInRange (addr : U64)
  | pmmFree (addr : U64)
  | l1Table
  | load (table : U64) (index : Fin 512)
  | tableIsEmpty (table : U64)
  | zeroTable (table : U64)
  | linkTable (table : U64) (index : Fin 512) (child : U64)
  | unlinkTable (table : U64) (index : Fin 512)
  | setPage (pg : Page) (table : U64) (desc : U64)
  | clearPage (pg : Page) (table : U64)
  | tlbi (vaPage : U64)
  | get (x : Var)
  | set (x : Var) (v : U64)
  | setErrno (e : ℕ)
  | panic (msg : String)
  | stuck

/-- What an action answers; `panic` never returns, and `stuck` stands for a loop
that has used up its fuel. -/
abbrev Action.Answer : Action → Type
  | .spinLock _ => U64
  | .pmmAlloc => U64
  | .pmmAllocRun _ => U64
  | .pmmInRange _ => Bool
  | .l1Table => U64
  | .load _ _ => U64
  | .tableIsEmpty _ => Bool
  | .get _ => U64
  | .panic _ => Empty
  | .stuck => Empty
  | _ => Unit

/-- Programs of the kernel. -/
abbrev KProg (α : Type) : Type := Prog Action Action.Answer α

namespace Kernel

def withSpace (k : Kernel) (s : Space) : Kernel := { k with space := s }

def withVar (k : Kernel) (x : Var) (v : U64) : Kernel :=
  { k with var := Function.update k.var x v }

/-- `DAIFSet #0xf`. -/
def maskIrqs (k : Kernel) (c : ℕ) : Kernel :=
  { k with daif := Function.update k.daif c (k.daif c ||| 0x3C0#64) }

def withLock (k : Kernel) (l : Lock) (o : Option ℕ) : Kernel :=
  { k with lock := Function.update k.lock l o }

/-- `spin_lock`: save and mask DAIF, then take the lock once it is free.  Before
the MMU is on, the lock word is not touched. -/
def spinLock (k : Kernel) (c : ℕ) (l : Lock) : Option (U64 × Kernel) :=
  if k.mmuActive then
    if k.lock l = none then some (k.daif c, (k.maskIrqs c).withLock l (some c)) else none
  else some (k.daif c, k.maskIrqs c)

/-- `spin_unlock`. -/
def spinUnlock (k : Kernel) (c : ℕ) (l : Lock) (flags : U64) : Kernel :=
  let k := if k.mmuActive then k.withLock l none else k
  { k with daif := Function.update k.daif c flags }

/-- The effect of one action of core `c`, `none` while it cannot happen. -/
def perform (c : ℕ) : (e : Action) → Kernel → Option (e.Answer × Kernel)
  | .spinLock l, k => k.spinLock c l
  | .spinUnlock l flags, k => some ((), k.spinUnlock c l flags)
  | .pmmAlloc, k =>
    let r := Pmm.allocFrame k.space.pmm
    some (r.1, k.withSpace { k.space with pmm := r.2 })
  | .pmmAllocRun count, k =>
    let r := Pmm.allocFrames k.space.pmm count
    some (r.1, k.withSpace { k.space with pmm := r.2 })
  | .pmmInRange addr, k => some (Pmm.inRange k.space.pmm addr, k)
  | .pmmFree addr, k =>
    some ((), k.withSpace { k.space with pmm := Pmm.freeFrame k.space.pmm addr })
  | .l1Table, k => some (k.space.l1Table, k)
  | .load table index, k => some (k.space.mem table index, k)
  | .tableIsEmpty table, k => some (k.space.tableIsEmpty table, k)
  | .zeroTable table, k => some ((), k.withSpace (k.space.zero table))
  | .linkTable table index child, k =>
    some ((), k.withSpace (k.space.store table index (tableDesc child)))
  | .unlinkTable table index, k => some ((), k.withSpace (k.space.store table index 0))
  | .setPage pg table desc, k => some ((), k.withSpace (k.space.store table pg.l3 desc))
  | .clearPage pg table, k => some ((), k.withSpace (k.space.store table pg.l3 0))
  | .tlbi _, k => some ((), k)
  | .get x, k => some (k.var x, k)
  | .set x v, k => some ((), k.withVar x v)
  | .setErrno e, k => some ((), { k with errno := Function.update k.errno c e })
  | .panic _, _ => none
  | .stuck, _ => none

end Kernel

/-! ### Critical sections -/

/-- The program that performs one action. -/
def act (e : Action) : KProg e.Answer := Prog.perform e

/-- `spin_lock(l, flags); body; spin_unlock(l, flags)`, with the unlock on every
way out of `body`. -/
def critical {α : Type} (l : Lock) (body : KProg α) : KProg α := do
  let flags ← act (.spinLock l)
  let a ← body
  act (.spinUnlock l flags)
  pure a

/-- `alloc_frame`. -/
def allocFrame : KProg U64 := critical .pmmLock (act .pmmAlloc)

/-- `alloc_frames`. -/
def allocFrames (count : U64) : KProg U64 :=
  if count = 0 then pure 0 else critical .pmmLock (act (.pmmAllocRun count))

/-- `free_frame`: the guards read only the fixed geometry and run unlocked. -/
def freeFrame (addr : U64) : KProg Unit := do
  let ok ← act (.pmmInRange addr)
  if ok then critical .pmmLock (act (.pmmFree addr)) else pure ()

namespace Kernel

variable {k : Kernel} {c : ℕ} {l : Lock} {s s' : Space} {α β : Type}

@[simp] theorem withSpace_space : (k.withSpace s).space = s := rfl
@[simp] theorem withSpace_var : (k.withSpace s).var = k.var := rfl
@[simp] theorem withSpace_lock : (k.withSpace s).lock = k.lock := rfl
@[simp] theorem withSpace_mmuActive : (k.withSpace s).mmuActive = k.mmuActive := rfl
@[simp] theorem withSpace_daif : (k.withSpace s).daif = k.daif := rfl
@[simp] theorem withSpace_withSpace : (k.withSpace s).withSpace s' = k.withSpace s' := rfl
@[simp] theorem withSpace_self : k.withSpace k.space = k := rfl

@[simp] theorem withVar_self {x : Var} {v : U64} : (k.withVar x v).var x = v :=
  Function.update_self _ _ _

theorem withVar_of_ne {x y : Var} {v : U64} (h : y ≠ x) : (k.withVar x v).var y = k.var y :=
  Function.update_of_ne h _ _

/-- Core `c` can take the lock at once. -/
def Free (k : Kernel) (l : Lock) : Prop := k.mmuActive = true → k.lock l = none

/-- The state inside a critical section. -/
def entered (k : Kernel) (c : ℕ) (l : Lock) : Kernel :=
  if k.mmuActive then (k.maskIrqs c).withLock l (some c) else k.maskIrqs c

@[simp] theorem entered_space : (k.entered c l).space = k.space := by
  rw [entered]
  split <;> rfl

@[simp] theorem entered_var : (k.entered c l).var = k.var := by
  rw [entered]
  split <;> rfl

@[simp] theorem entered_errno : (k.entered c l).errno = k.errno := by
  rw [entered]
  split <;> rfl

@[simp] theorem entered_mmuActive : (k.entered c l).mmuActive = k.mmuActive := by
  rw [entered]
  split <;> rfl

theorem entered_daif :
    (k.entered c l).daif = Function.update k.daif c (k.daif c ||| 0x3C0#64) := by
  rw [entered]
  split <;> rfl

theorem spinLock_of_free (h : k.Free l) : k.spinLock c l = some (k.daif c, k.entered c l) := by
  rw [spinLock, entered]
  by_cases hm : k.mmuActive = true
  · rw [if_pos hm, if_pos hm, if_pos (h hm)]
  · rw [if_neg hm, if_neg hm]

@[simp] theorem spinUnlock_space {flags : U64} : (k.spinUnlock c l flags).space = k.space := by
  rw [spinUnlock]
  split <;> rfl

@[simp] theorem spinUnlock_var {flags : U64} : (k.spinUnlock c l flags).var = k.var := by
  rw [spinUnlock]
  split <;> rfl

@[simp] theorem spinUnlock_errno {flags : U64} : (k.spinUnlock c l flags).errno = k.errno := by
  rw [spinUnlock]
  split <;> rfl

/-- Leaving a critical section whose body leaves the locks and the masks alone. -/
theorem spinUnlock_of_entered {k' : Kernel} (h : k.Free l)
    (hlock : k'.lock = (k.entered c l).lock) (hactive : k'.mmuActive = k.mmuActive)
    (hdaif : k'.daif = (k.entered c l).daif) :
    k'.spinUnlock c l (k.daif c) = { k' with lock := k.lock, daif := k.daif } := by
  have hmask : Function.update k'.daif c (k.daif c) = k.daif := by
    rw [hdaif, entered_daif, Function.update_idem, Function.update_eq_self]
  rw [entered] at hlock
  rw [spinUnlock]
  by_cases hm : k.mmuActive = true
  · rw [if_pos hm] at hlock
    rw [if_pos (hactive.trans hm)]
    have hleft : Function.update k'.lock l none = k.lock := by
      rw [hlock]
      show Function.update (Function.update k.lock l (some c)) l none = k.lock
      rw [Function.update_idem, ← h hm, Function.update_eq_self]
    simp only [withLock, hleft, hmask]
  · rw [if_neg hm] at hlock
    rw [if_neg (by rw [hactive]; exact hm)]
    have hsame : k'.lock = k.lock := hlock
    simp only [← hsame, hmask]

/-- Leaving a critical section with only the memory changed. -/
theorem spinUnlock_entered (h : k.Free l) :
    ((k.entered c l).withSpace s).spinUnlock c l (k.daif c) = k.withSpace s := by
  have hleave : ((k.entered c l).withSpace s).spinUnlock c l (k.daif c) = _ :=
    spinUnlock_of_entered h rfl entered_mmuActive rfl
  rw [hleave]
  simp [withSpace]

/-- Leaving a critical section with only a variable changed. -/
theorem spinUnlock_entered_var {x : Var} {v : U64} (h : k.Free l) :
    ((k.entered c l).withVar x v).spinUnlock c l (k.daif c) = k.withVar x v := by
  have hleave : ((k.entered c l).withVar x v).spinUnlock c l (k.daif c) = _ :=
    spinUnlock_of_entered h rfl entered_mmuActive rfl
  rw [hleave]
  simp [withVar]

/-- A critical section, from a run of its body. -/
theorem run_critical {body : KProg α} {a : α} {k₁ k' : Kernel} (h : k.Free l)
    (hbody : Prog.run (perform c) body (k.entered c l) = some (a, k₁))
    (hleave : k₁.spinUnlock c l (k.daif c) = k') :
    Prog.run (perform c) (critical l body) k = some (a, k') := by
  have hlock : Prog.run (perform c) (act (.spinLock l)) k = some (k.daif c, k.entered c l) := by
    rw [act, Prog.run_perform, perform, spinLock_of_free h]
  have hunlock : Prog.run (perform c) (act (.spinUnlock l (k.daif c))) k₁ = some ((), k') := by
    rw [act, Prog.run_perform, perform, hleave]
  rw [critical, Prog.run_bind_of_run hlock, Prog.run_bind_of_run hbody,
    Prog.run_bind_of_run hunlock]
  rfl

theorem Free.entered_of_ne {l' : Lock} (h : k.Free l') (hne : l' ≠ l) :
    (k.entered c l).Free l' := by
  intro hm
  rw [entered_mmuActive] at hm
  rw [entered, if_pos hm]
  exact (Function.update_of_ne hne _ _).trans (h hm)

end Kernel

/-! ### What no run changes -/

/-- No action of the kernel changes the number of frames. -/
theorem Kernel.perform_totalFrames {c : ℕ} {k k' : Kernel} {e : Action} {r : e.Answer}
    (h : Kernel.perform c e k = some (r, k')) :
    k'.space.pmm.totalFrames = k.space.pmm.totalFrames := by
  cases e with
  | spinLock l =>
    rw [Kernel.perform, Kernel.spinLock] at h
    split at h
    · split at h
      · rw [← (Prod.mk.inj (Option.some.inj h)).2]
        rfl
      · exact absurd h nofun
    · rw [← (Prod.mk.inj (Option.some.inj h)).2]
      rfl
  | spinUnlock l flags =>
    rw [← (Prod.mk.inj (Option.some.inj h)).2, Kernel.spinUnlock_space]
  | pmmAlloc =>
    rw [← (Prod.mk.inj (Option.some.inj h)).2]
    exact Pmm.totalFrames_allocFrame _
  | pmmAllocRun count =>
    rw [← (Prod.mk.inj (Option.some.inj h)).2]
    exact Pmm.totalFrames_allocFrames _ _
  | pmmFree a =>
    rw [← (Prod.mk.inj (Option.some.inj h)).2]
    exact Pmm.totalFrames_freeFrame _ _
  | panic msg => exact absurd h nofun
  | stuck => exact absurd h nofun
  | _ => exact (congrArg (fun x => x.2.space.pmm.totalFrames) (Option.some.inj h)).symm

theorem run_totalFrames {α : Type} {c : ℕ} {k k' : Kernel} {p : KProg α} {a : α}
    (h : Prog.run (Kernel.perform c) p k = some (a, k')) :
    k'.space.pmm.totalFrames = k.space.pmm.totalFrames := by
  induction p generalizing k with
  | ret b => rw [(Prod.mk.inj (Option.some.inj h)).2]
  | vis e f ih =>
    obtain ⟨r, k₁, hact, hrest⟩ := Prog.run_bind_eq_some (p := Prog.perform e) h
    rw [Prog.run_perform] at hact
    exact (ih r hrest).trans (Kernel.perform_totalFrames hact)

end GamingConsole
