/-
The locks of the memory code are taken in one order.

`newlib_lock` and `heap_lock` are taken first, `mmu_lock` under them and `pmm_lock`
under all; `dma_lock` stands alone.  Every operation keeps to this order on each of
its paths and gives back what it took (`tidy_prog`), whatever its actions are
answered.

* `Above` — what a core may hold when it comes to a lock;
* `tidy_map`, `tidy_sbrk`, … — a lemma for each function, from `Tidy.critical` up;
* **`no_deadlock`** — any number of cores running any of the operations.
-/
import GamingConsole.Newlib
import GamingConsole.Dma
import GamingConsole.Runs
import GamingConsole.Library.LockOrder

namespace GamingConsole

open Prog LockOrder

/-- What an action means for the locks. -/
def lockKind : (e : Action) → Kind Lock U64 e.Answer
  | .spinLock l => .acquire l id
  | .spinUnlock l flags => .release l flags
  | .panic _ => .halt
  | _ => .other

/-- The order in which the locks are taken. -/
def Lock.rank : Lock → ℕ
  | .newlibLock => 0
  | .heapLock => 1
  | .dmaLock => 2
  | .mmuLock => 3
  | .pmmLock => 4

/-- `p` keeps to the order while it holds these locks, and ends holding them. -/
abbrev Tidy {α : Type} (held : List (Lock × U64)) (p : KProg α) : Prop :=
  Balanced lockKind Lock.rank held p

/-- All these locks come before `l`. -/
def Above (held : List (Lock × U64)) (l : Lock) : Prop := ∀ h ∈ held, h.1.rank < l.rank

variable {held : List (Lock × U64)} {l l' : Lock} {α β : Type}

theorem Above.nil : Above [] l := fun _ h => absurd h List.not_mem_nil

theorem Above.cons {flags : U64} (h : Above held l) (hl : l.rank < l'.rank) :
    Above ((l, flags) :: held) l' := by
  intro x hx
  rcases List.mem_cons.mp hx with rfl | hx
  · exact hl
  · exact (h x hx).trans hl

/-! ### Building blocks -/

theorem Tidy.pure (a : α) : Tidy held (pure a : KProg α) := InOrder.ret rfl

theorem Tidy.act {e : Action} (he : lockKind e = .other) : Tidy held (act e) :=
  Balanced.perform he

/-- One action, then the rest. -/
theorem Tidy.step {e : Action} {f : e.Answer → KProg α} (he : lockKind e = .other)
    (hf : ∀ r, Tidy held (f r)) : Tidy held (GamingConsole.act e >>= f) :=
  InOrder.other he hf

theorem Tidy.bind {p : KProg α} {f : α → KProg β} (hp : Tidy held p)
    (hf : ∀ a, Tidy held (f a)) : Tidy held (p >>= f) :=
  Balanced.bind hp hf

theorem Tidy.drop {p : KProg α} (hp : Tidy held p) : Tidy held (drop p) :=
  hp.bind fun _ => Tidy.pure ()

/-- A lock is taken, and `f` gives it back. -/
theorem Tidy.lock {f : U64 → KProg α} (h : Above held l)
    (hf : ∀ flags, InOrder lockKind Lock.rank (fun _ h => h = held) (f flags)
      ((l, flags) :: held)) : Tidy held (GamingConsole.act (.spinLock l) >>= f) :=
  InOrder.acquire rfl h hf

/-- The lock taken last is given back. -/
theorem Tidy.unlock {flags : U64} {f : Unit → KProg α} {Q : α → List (Lock × U64) → Prop}
    (hf : InOrder lockKind Lock.rank Q (f ()) held) :
    InOrder lockKind Lock.rank Q (GamingConsole.act (.spinUnlock l flags) >>= f)
      ((l, flags) :: held) :=
  InOrder.release rfl fun _ => hf

theorem Tidy.critical {body : KProg α} (h : Above held l)
    (hbody : ∀ flags, Tidy ((l, flags) :: held) body) : Tidy held (critical l body) := by
  refine Tidy.lock h fun flags => ?_
  refine Balanced.bind (hbody flags) fun a => ?_
  exact Tidy.unlock (Tidy.pure a)

theorem Tidy.ite {c : Prop} [Decidable c] {p q : KProg α}
    {Q : α → List (Lock × U64) → Prop} (hp : InOrder lockKind Lock.rank Q p held)
    (hq : InOrder lockKind Lock.rank Q q held) :
    InOrder lockKind Lock.rank Q (if c then p else q) held := by
  split
  · exact hp
  · exact hq

/-! ### The frame allocator -/

theorem tidy_allocFrame (h : Above held .pmmLock) : Tidy held allocFrame :=
  Tidy.critical h fun _ => Tidy.act rfl

theorem tidy_allocFrames {count : U64} (h : Above held .pmmLock) :
    Tidy held (allocFrames count) :=
  Tidy.ite (Tidy.pure 0) (Tidy.critical h fun _ => Tidy.act rfl)

theorem tidy_freeFrame {addr : U64} (h : Above held .pmmLock) : Tidy held (freeFrame addr) :=
  Tidy.step rfl fun _ =>
    Tidy.ite (Tidy.critical h fun _ => Tidy.act rfl) (Tidy.pure ())

/-! ### Page tables -/

theorem tidy_getOrAllocTable {table : U64} {index : Fin 512} (h : Above held .pmmLock) :
    Tidy held (getOrAllocTable table index) := by
  refine Tidy.step rfl fun entry => Tidy.ite (Tidy.pure _) ?_
  refine (tidy_allocFrame h).bind fun child => Tidy.ite (Tidy.pure 0) ?_
  exact Tidy.step rfl fun _ => Tidy.step rfl fun _ => Tidy.pure child

theorem tidy_mapPage {va phys flags : U64} (h : Above held .pmmLock) :
    Tidy held (mapPage va phys flags) := by
  refine Tidy.step rfl fun l1Table => ?_
  refine (tidy_getOrAllocTable h).bind fun l2Table => Tidy.ite (Tidy.pure false) ?_
  refine (tidy_getOrAllocTable h).bind fun l3Table => Tidy.ite (Tidy.pure false) ?_
  exact Tidy.step rfl fun _ => Tidy.pure true

theorem tidy_freeIfEmpty {parent table : U64} {index : Fin 512} (h : Above held .pmmLock) :
    Tidy held (freeIfEmpty parent index table) :=
  Tidy.step rfl fun _ =>
    Tidy.ite (Tidy.step rfl fun _ => tidy_freeFrame h) (Tidy.pure ())

theorem tidy_unmapPage {va : U64} (h : Above held .pmmLock) : Tidy held (unmapPage va) := by
  refine Tidy.step rfl fun l1Table => Tidy.step rfl fun l1Desc => ?_
  refine Tidy.ite (Tidy.pure false) (Tidy.step rfl fun l2Desc => ?_)
  refine Tidy.ite (Tidy.pure false) (Tidy.step rfl fun _ => ?_)
  refine (tidy_freeIfEmpty h).bind fun _ => ?_
  exact (tidy_freeIfEmpty h).bind fun _ => Tidy.pure true

theorem tidy_unmapPages {va : U64} (h : Above held .pmmLock) (n : ℕ) :
    ∀ i, Tidy held (unmapPages va n i) := by
  induction n with
  | zero => exact fun _ => Tidy.pure true
  | succ n ih =>
    exact fun i => (tidy_unmapPage h).bind fun _ => Tidy.ite (ih (i + 1)) (Tidy.pure false)

theorem tidy_tlbiPages {va : U64} (n : ℕ) : ∀ i, Tidy held (tlbiPages va n i) := by
  induction n with
  | zero => exact fun _ => Tidy.pure ()
  | succ n ih => exact fun i => Tidy.step rfl fun _ => ih (i + 1)

theorem tidy_unmapLocked {va size : U64} (h : Above held .pmmLock) :
    Tidy held (unmapLocked va size) :=
  (tidy_unmapPages h _ 0).bind fun _ => Tidy.ite (tidy_tlbiPages _ 0) (Tidy.pure ())

/-- The rollback is `_unmap_locked`, so that `mmu_lock` is not taken again. -/
theorem tidy_mapPages {va phys flags : U64} (h : Above held .pmmLock) (n : ℕ) :
    ∀ i, Tidy held (mapPages va phys flags n i) := by
  induction n with
  | zero => exact fun _ => Tidy.pure true
  | succ n ih =>
    intro i
    refine (tidy_mapPage h).bind fun _ => Tidy.ite (ih (i + 1)) ?_
    exact (tidy_unmapLocked h).bind fun _ => Tidy.pure false

theorem tidy_mapLocked {va phys size flags : U64} (h : Above held .pmmLock) :
    Tidy held (mapLocked va phys size flags) := by
  refine (tidy_mapPages h _ 0).bind fun _ => Tidy.ite ?_ (Tidy.pure false)
  exact (tidy_tlbiPages _ 0).bind fun _ => Tidy.pure true

theorem tidy_translateLocked {virt : U64} : Tidy held (translateLocked virt) := by
  refine Tidy.step rfl fun l1Table => Tidy.step rfl fun l1Desc => ?_
  refine Tidy.ite (Tidy.pure _) (Tidy.step rfl fun l2Desc => ?_)
  refine Tidy.ite (Tidy.pure _) (Tidy.step rfl fun l3Desc => ?_)
  exact Tidy.ite (Tidy.pure _) (Tidy.pure _)

theorem tidy_map {va phys size flags : U64} (h : Above held .mmuLock) :
    Tidy held (map va phys size flags) :=
  Tidy.critical h fun _ => tidy_mapLocked (h.cons (by decide))

theorem tidy_unmap {va size : U64} (h : Above held .mmuLock) : Tidy held (unmap va size) :=
  Tidy.critical h fun _ => tidy_unmapLocked (h.cons (by decide))

theorem tidy_translate {virt : U64} (h : Above held .mmuLock) : Tidy held (translate virt) :=
  Tidy.critical h fun _ => tidy_translateLocked

theorem Above.pmm (h : Above held .mmuLock) : Above held .pmmLock :=
  fun x hx => (h x hx).trans (by decide)

/-! ### The kernel heap -/

theorem tidy_stuck : Tidy held (stuck : KProg α) := Tidy.step rfl nofun

theorem tidy_kmallocLoop {requiredEnd : U64} (h : Above held .mmuLock) (n : ℕ) :
    Tidy held (kmallocLoop requiredEnd n) := by
  induction n with
  | zero => exact tidy_stuck
  | succ n ih =>
    refine Tidy.step rfl fun heapEnd => Tidy.ite ?_ (Tidy.pure true)
    refine (tidy_allocFrame h.pmm).bind fun pa => Tidy.ite (Tidy.pure false) ?_
    exact (tidy_map h).bind fun _ => Tidy.step rfl fun _ => ih

/-- Both panics come after the unlock. -/
theorem tidy_kmalloc {size : U64} : Tidy [] (kmalloc size) := by
  refine Tidy.lock Above.nil fun flags => ?_
  refine InOrder.other rfl fun bumpPtr => Tidy.ite (Tidy.unlock (InOrder.halt rfl)) ?_
  refine Balanced.bind (tidy_kmallocLoop (Above.nil.cons (by decide)) _) fun grown => ?_
  refine Tidy.ite (InOrder.other rfl fun _ => ?_) (Tidy.unlock (InOrder.halt rfl))
  exact Tidy.unlock (Tidy.pure bumpPtr)

/-! ### The newlib heap -/

theorem tidy_freeSbrkLoop {requiredEnd : U64} (h : Above held .mmuLock) (n : ℕ) :
    Tidy held (freeSbrkLoop requiredEnd n) := by
  induction n with
  | zero => exact tidy_stuck
  | succ n ih =>
    refine Tidy.step rfl fun heapEnd => Tidy.ite ?_ (Tidy.pure ())
    refine (tidy_translate h).bind fun pa => (tidy_unmap h).bind fun _ => ?_
    exact (tidy_freeFrame h.pmm).bind fun _ => Tidy.step rfl fun _ => ih

theorem tidy_freeSbrk {incr : U64} (h : Above held .mmuLock) : Tidy held (freeSbrk incr) := by
  refine Tidy.step rfl fun currBrk => Tidy.ite (Tidy.pure false) ?_
  exact (tidy_freeSbrkLoop h _).bind fun _ => Tidy.step rfl fun _ => Tidy.pure true

theorem tidy_sbrkLoop {requiredEnd : U64} (h : Above held .mmuLock) (n : ℕ) :
    Tidy held (sbrkLoop requiredEnd n) := by
  induction n with
  | zero => exact tidy_stuck
  | succ n ih =>
    refine Tidy.step rfl fun heapEnd => Tidy.ite ?_ (Tidy.pure true)
    refine (tidy_allocFrame h.pmm).bind fun pa => Tidy.ite ?_ ?_
    · exact Tidy.step rfl fun _ => Tidy.pure false
    · refine (tidy_map h).bind fun _ => Tidy.ite ?_ ?_
      · exact Tidy.step rfl fun _ => ih
      · exact Tidy.step rfl fun _ => (tidy_freeFrame h.pmm).bind fun _ => Tidy.pure false

theorem tidy_sbrk {incr : U64} : Tidy [] (sbrk incr) := by
  refine Tidy.lock Above.nil fun flags => ?_
  have habove : Above [(.newlibLock, flags)] .mmuLock := Above.nil.cons (by decide)
  refine Tidy.ite (Tidy.unlock (Tidy.act (e := .get .currBrk) rfl)) (Tidy.ite ?_ ?_)
  · refine InOrder.other rfl fun prevBrk => ?_
    refine Balanced.bind (tidy_freeSbrk habove) fun freed => Tidy.ite ?_ ?_
    · exact Tidy.unlock (Tidy.pure _)
    · refine InOrder.other rfl fun _ => InOrder.other rfl fun _ => ?_
      exact Tidy.unlock (Tidy.pure _)
  · refine InOrder.other rfl fun currBrk => Tidy.ite ?_ ?_
    · exact InOrder.other rfl fun _ => Tidy.unlock (Tidy.pure _)
    · refine Balanced.bind (tidy_sbrkLoop habove _) fun grown => Tidy.ite ?_ ?_
      · refine InOrder.other rfl fun result => InOrder.other rfl fun _ => ?_
        exact Tidy.unlock (Tidy.pure _)
      · exact Tidy.unlock (Tidy.pure _)

/-! ### DMA buffers -/

theorem tidy_dmaStep (e : DmaAction) : Tidy [] e.prog := by
  cases e with
  | reserve alignedSize =>
    refine Tidy.critical Above.nil fun _ => Tidy.step rfl fun _ => Tidy.ite (Tidy.pure _) ?_
    exact Tidy.step rfl fun _ => Tidy.pure _
  | allocFrames count => exact tidy_allocFrames Above.nil
  | map va phys size => exact tidy_map Above.nil
  | freeFrame addr => exact tidy_freeFrame Above.nil
  | reclaim va size =>
    refine Tidy.critical Above.nil fun _ => Tidy.step rfl fun _ => ?_
    exact Tidy.ite (Tidy.act (e := .set .dmaBumpPtr va) rfl) (Tidy.pure ())
  | translate va => exact tidy_translate Above.nil
  | unmap va size => exact tidy_unmap Above.nil

/-! ### All cores -/

/-- The operations of the memory subsystem. -/
inductive MemOp where
  | kmalloc (size : U64)
  | sbrk (incr : U64)
  | dmaAlloc (size : U64)
  | dmaFree (ptr size : U64)
  | map (va phys size flags : U64)
  | unmap (va size : U64)
  | translate (virt : U64)
  | allocFrame
  | allocFrames (count : U64)
  | freeFrame (addr : U64)

/-- The program of an operation. -/
def MemOp.prog : MemOp → KProg Unit
  | .kmalloc size => drop (GamingConsole.kmalloc size)
  | .sbrk incr => drop (GamingConsole.sbrk incr)
  | .dmaAlloc size => drop (GamingConsole.dmaAlloc size)
  | .dmaFree ptr size => GamingConsole.dmaFree ptr size
  | .map va phys size flags => drop (GamingConsole.map va phys size flags)
  | .unmap va size => GamingConsole.unmap va size
  | .translate virt => drop (GamingConsole.translate virt)
  | .allocFrame => drop GamingConsole.allocFrame
  | .allocFrames count => drop (GamingConsole.allocFrames count)
  | .freeFrame addr => GamingConsole.freeFrame addr

theorem tidy_prog (op : MemOp) : Tidy [] op.prog := by
  cases op with
  | kmalloc size => exact Tidy.drop tidy_kmalloc
  | sbrk incr => exact Tidy.drop tidy_sbrk
  | dmaAlloc size => exact Tidy.drop (Balanced.interp tidy_dmaStep _)
  | dmaFree ptr size => exact Balanced.interp tidy_dmaStep _
  | map va phys size flags => exact Tidy.drop (tidy_map Above.nil)
  | unmap va size => exact tidy_unmap Above.nil
  | translate virt => exact Tidy.drop (tidy_translate Above.nil)
  | allocFrame => exact Tidy.drop (tidy_allocFrame Above.nil)
  | allocFrames count => exact Tidy.drop (tidy_allocFrames Above.nil)
  | freeFrame addr => exact tidy_freeFrame Above.nil

/-- The locks of the kernel, with translation on so that their words are used, and
the DAIF of each core. -/
def lockMachine : Machine lockKind ℕ Kernel where
  act c e k r k' := k.perform c e = some (r, k')
  inv k := k.mmuActive = true
  owner k := k.lock
  mask k := k.daif
  inv_act {c e k r k'} hinv hact := by
    cases e <;> simp only [Kernel.perform, Option.some_inj, Prod.mk.injEq, reduceCtorEq] at hact
    case spinLock l =>
      rw [Kernel.spinLock, if_pos hinv] at hact
      split at hact <;> cases hact
      exact hinv
    case spinUnlock l flags =>
      obtain ⟨-, rfl⟩ := hact
      rw [Kernel.spinUnlock, if_pos hinv]
      exact hinv
    all_goals
      obtain ⟨-, rfl⟩ := hact
      exact hinv
  acquire {c e k r k' l saved} hinv hact hk := by
    cases e <;> simp only [lockKind, reduceCtorEq, Kind.acquire.injEq] at hk
    obtain ⟨rfl, rfl⟩ := hk
    rw [Kernel.perform, Kernel.spinLock, if_pos hinv] at hact
    split at hact
    · next hfree =>
      cases hact
      exact ⟨hfree, rfl, rfl, fun u hu => Function.update_of_ne hu _ _⟩
    · cases hact
  release {c e k r k' l saved} hinv hact hk := by
    cases e <;> simp only [lockKind, reduceCtorEq, Kind.release.injEq] at hk
    obtain ⟨rfl, rfl⟩ := hk
    rw [Kernel.perform, Option.some_inj, Prod.mk.injEq] at hact
    obtain ⟨-, rfl⟩ := hact
    rw [Kernel.spinUnlock, if_pos hinv]
    exact ⟨rfl, rfl⟩
  halt {c e k r k'} hact hk := by
    cases e <;> simp only [lockKind, reduceCtorEq] at hk
    cases hact
  other {c e k r k'} hinv hact hk := by
    cases e <;> simp only [lockKind, reduceCtorEq] at hk <;>
      simp only [Kernel.perform, Option.some_inj, Prod.mk.injEq, reduceCtorEq] at hact
    all_goals
      obtain ⟨-, rfl⟩ := hact
      exact ⟨rfl, rfl⟩

/-- The kernel, and what each core has still to run. -/
abbrev LockCores : Type := Config Action Action.Answer U64 ℕ Kernel

/-- **No deadlock on the locks of the memory code.**  However many cores run the
operations, in whatever order their actions come: no core waits for a lock that it holds,
neither cores nor locks wait in a circle, and an operation that returns or panics holds
nothing and has the DAIF it was entered with. -/
theorem no_deadlock {c c' : LockCores} (hfresh : Fresh lockMachine c)
    (hreach : Relation.ReflTransGen (Step lockMachine MemOp.prog) c c') : Sound lockMachine c' :=
  Reach.sound tidy_prog hfresh hreach

/-! ### A run in which cores wait -/

/-- All cores idle on a board that has just booted. -/
def LockCores.boot (b : Board) : LockCores := { shared := b.kernel, threads := fun _ => none }

theorem fresh_boot (b : Board) : Fresh lockMachine (LockCores.boot b) where
  inv := rfl
  idle _ := rfl
  free l := by cases l <;> rfl

/-- A core starts an operation. -/
def LockCores.start (c : LockCores) (t : ℕ) (op : MemOp) : LockCores :=
  { c with threads := Function.update c.threads t (some (c.shared.daif t, op.prog)) }

/-- A core performs its next action. -/
def LockCores.advance (c : LockCores) (t : ℕ) : Option LockCores :=
  match c.threads t with
  | some (d, .vis e k) =>
    (c.shared.perform t e).map fun r =>
      { shared := r.2, threads := Function.update c.threads t (some (d, k r.1)) }
  | _ => none

/-- The lock that a core comes to next. -/
def LockCores.next (c : LockCores) (t : ℕ) : Option Lock :=
  match c.threads t with
  | some (_, .vis (.spinLock l) _) => some l
  | _ => none

theorem LockCores.reach_advance {c' : LockCores} {ts : List ℕ} : ∀ {c : LockCores},
    ts.foldlM LockCores.advance c = some c' →
    Relation.ReflTransGen (Step lockMachine MemOp.prog) c c' := by
  induction ts with
  | nil =>
    intro c h
    cases h
    exact .refl
  | cons t ts ih =>
    intro c h
    rw [List.foldlM_cons] at h
    obtain ⟨c₁, hone, hrest⟩ := Option.bind_eq_some_iff.mp h
    refine .head ?_ (ih hrest)
    rw [LockCores.advance] at hone
    split at hone
    · next d e k hrun =>
      obtain ⟨⟨r, s'⟩, hact, rfl⟩ := Option.map_eq_some_iff.mp hone
      exact .act t hrun hact
    · cases hone

theorem LockCores.wants_of_next {c : LockCores} {t : ℕ} (h : c.next t = some l) :
    Wants lockKind c t l := by
  rw [LockCores.next] at h
  split at h
  · next d l' k hrun =>
    cases h
    exact ⟨d, _, k, id, hrun, rfl⟩
  · cases h

/-- Core 2 waits in `_sbrk` for core 0, which waits in `_sbrk` for core 1. -/
theorem no_deadlock_waiting : ∃ c : LockCores, Sound lockMachine c ∧
    WaitsFor lockMachine c 2 0 ∧ WaitsFor lockMachine c 0 1 := by
  let c₀ : LockCores := LockCores.boot twoFrames
  let c₃ := ((c₀.start 0 (.sbrk 0x1000#64)).start 1 .allocFrame).start 2 (.sbrk 0x1000#64)
  have hstart : Relation.ReflTransGen (Step lockMachine MemOp.prog) c₀ c₃ :=
    .head (.call 0 (MemOp.sbrk 0x1000#64) rfl) <| .head (.call 1 MemOp.allocFrame rfl) <|
      .single (.call 2 (MemOp.sbrk 0x1000#64) rfl)
  have hrun : ([0, 0, 0, 1].foldlM LockCores.advance c₃).any (fun c =>
      c.next 2 = some .newlibLock ∧ c.shared.lock .newlibLock = some 0 ∧
        c.next 0 = some .pmmLock ∧ c.shared.lock .pmmLock = some 1) = true := by
    decide +kernel
  obtain ⟨c, hc, hP⟩ := (Option.any_eq_true _ _).mp hrun
  obtain ⟨hnext₂, hown₂, hnext₀, hown₀⟩ := of_decide_eq_true hP
  refine ⟨c, no_deadlock (fresh_boot twoFrames)
    (hstart.trans (LockCores.reach_advance hc)), ?_, ?_⟩
  · exact ⟨_, LockCores.wants_of_next hnext₂, hown₂⟩
  · exact ⟨_, LockCores.wants_of_next hnext₀, hown₀⟩

end GamingConsole
