/-
Every call is safe, so the invariant holds in every reachable state.

`Idle m c w` is what a core knows between its calls: the invariant, and that it
holds neither `mmu_lock` nor `heap_lock`.  Each call leads from there to there.
In `kmalloc` the core holds `heap_lock` across the growth loop (`Growing`), and
the frame it has just been given stays its own (`FreshFrame`) until `map` has
put it behind the next page of the window.
-/
import GamingConsole.MmuCores

namespace GamingConsole

open Space Prog

variable {m : Mode} {c : ℕ} {R : Page → Prop} {w w' : World} {a b e : U64} {α : Type}

/-- Between calls. -/
structure Idle (m : Mode) (c : ℕ) (w : World) : Prop where
  inv : Inv m w
  mmu : w.kernel.lock .mmuLock ≠ some c
  heap : w.kernel.lock .heapLock ≠ some c

/-- A program of core `c` is safe. -/
abbrev CoreSafe (m : Mode) (c : ℕ) (p : KProg α) (Q : α → World → Prop) (w : World) : Prop :=
  Safe (Rely m c) (Guar m c) (ActOf m c) Q p w

theorem Idle.stable : Stable (Rely m c) (Idle m c) :=
  fun _ _ hw hr => ⟨hr.1, fun hl => hw.mmu ((Rely.lock hw.inv hr _).mp hl),
    fun hl => hw.heap ((Rely.lock hw.inv hr _).mp hl)⟩

theorem Idle.relock_pmm {o : Option ℕ} {daif : ℕ → U64} (h : Idle m c w)
    (hinv : Inv m (w.relock .pmmLock o daif)) : Idle m c (w.relock .pmmLock o daif) :=
  ⟨hinv, fun hl => h.mmu ((World.relock_lock_of_ne (by decide)).symm.trans hl),
    fun hl => h.heap ((World.relock_lock_of_ne (by decide)).symm.trans hl)⟩

theorem MmuGuar.guar (h : MmuGuar m c R w w') : Guar m c w w' := ⟨h.inv, h.foot⟩

/-- A read of the kernel's state. -/
theorem coreSafe_read {e : Action} {f : e.Answer → KProg α} {P : World → Prop}
    {Q : α → World → Prop} (val : World → e.Answer)
    (hval : ∀ w, World.perform c e w = some (val w, w)) (hs : P w) (hP : Stable (Rely m c) P)
    (hinv : ∀ w, P w → Inv m w) (h : ∀ w, P w → CoreSafe m c (f (val w)) Q w) :
    CoreSafe m c (act e >>= f) Q w :=
  safe_stay val hval hs hP (fun w hw => ⟨hinv w hw, .refl _⟩) h

/-- `panic` stops the core. -/
theorem coreSafe_panic {msg : String} {P : World → Prop} {Q : α → World → Prop} (hs : P w)
    (hP : Stable (Rely m c) P) : CoreSafe m c (panic msg) Q w :=
  Safe.step hs hP fun _ _ r _ _ => nomatch r

theorem coreSafe_stuck {P : World → Prop} {Q : α → World → Prop} (hs : P w)
    (hP : Stable (Rely m c) P) : CoreSafe m c stuck Q w :=
  Safe.step hs hP fun _ _ r _ _ => nomatch r

/-! ### Calls of the frame allocator -/

/-- A frame goes to whoever asked for it. -/
theorem Inv.alloc {r : U64} (h : Inv m w) (hact : ActOf m c .pmmAlloc w r w') :
    MmuGuar m c R w w' ∧ w'.kernel.lock = w.kernel.lock ∧
      (r ≠ 0 → w.role r = none ∧ w'.role r = some (w.roleFor c)) := by
  rcases Pmm.allocFrame_cases h.wf.pmm with ⟨-, heq⟩ | ⟨f, hf, hb, -, heq⟩
  · obtain ⟨rfl, rfl⟩ := hact.eq (perform_alloc_none heq)
    exact ⟨h.guar_refl, rfl, fun h0 => absurd rfl h0⟩
  · obtain ⟨rfl, rfl⟩ := hact.eq (perform_alloc_some heq (Pmm.frame_ne_zero h.wf.pmm hf))
    refine ⟨h.guar_allocFrame hf hb, rfl, fun _ => ⟨?_, Function.update_self _ _ _⟩⟩
    by_contra hne
    have := (Pmm.used_frame_iff h.wf.pmm hf).mp ((h.used _).mpr hne)
    rw [hb] at this
    exact absurd this (by simp)

/-- A call of the frame allocator outside of the other critical sections. -/
theorem coreSafe_pmmCritical {e : Action} (h : Idle m c w)
    (hact : ∀ w r w', Inv m w → ActOf m c e w r w' →
      MmuGuar m c (fun _ => False) w w' ∧ w'.kernel.lock = w.kernel.lock) :
    CoreSafe m c (critical .pmmLock (act e)) (fun _ => Idle m c) w := by
  refine safe_pmmCritical (R := fun _ => False) (fun _ _ => MmuGuar.guar) Idle.stable
    (fun _ => Idle.stable) (fun _ h => h.inv) (fun _ _ h => h.inv)
    (fun _ _ _ h => h.relock_pmm) (fun _ _ _ _ h => h.relock_pmm) (fun w r w' hw hdo => ?_) h
  obtain ⟨hg, hl⟩ := hact w r w' hw.inv hdo
  exact ⟨hg.guar, ⟨hg.inv, by rw [hl]; exact hw.mmu, by rw [hl]; exact hw.heap⟩, hl⟩

theorem coreSafe_allocFrame (h : Idle m c w) :
    CoreSafe m c allocFrame (fun _ => Idle m c) w := by
  refine coreSafe_pmmCritical h fun w r w' hinv hact => ?_
  obtain ⟨hg, hl, -⟩ := hinv.alloc hact
  exact ⟨hg, hl⟩

theorem perform_allocRun (count : U64) : World.perform c (.pmmAllocRun count) w =
    some ((Pmm.allocFrames w.space.pmm count).1, w.after c
      (w.kernel.withSpace { w.space with pmm := (Pmm.allocFrames w.space.pmm count).2 })
      (.pmmAllocRun count) (Pmm.allocFrames w.space.pmm count).1) := rfl

theorem perform_allocRun_none {count : U64}
    (h : Pmm.allocFrames w.space.pmm count = (0, w.space.pmm)) :
    World.perform c (.pmmAllocRun count) w = some ((0 : U64), w) := by
  rw [perform_allocRun, h, World.after]
  have hrole : (fun x => if (0 : U64) ≠ 0 ∧ x ∈ Pmm.basesFrom 0 count.toNat
      then some (w.roleFor c) else w.role x) = w.role := by
    funext x
    exact if_neg fun hx => hx.1 rfl
  rw [hrole]
  rfl

theorem perform_allocRun_some {count : U64} {f : ℕ}
    (h : Pmm.allocFrames w.space.pmm count
      = (w.space.pmm.frame f, w.space.pmm.markFrames f count.toNat))
    (hne : w.space.pmm.frame f ≠ 0) :
    World.perform c (.pmmAllocRun count) w = some (w.space.pmm.frame f,
      { w with
        kernel := w.kernel.withSpace
          { w.space with pmm := w.space.pmm.markFrames f count.toNat }
        role := fun x => if x ∈ Pmm.basesFrom (w.space.pmm.frame f) count.toNat
          then some (w.roleFor c) else w.role x }) := by
  rw [perform_allocRun, h, World.after]
  simp only [ne_eq, hne, not_false_eq_true, true_and]

/-- A run of frames goes to whoever asked for it. -/
theorem Inv.allocRun {count r : U64} (h : Inv m w) (hact : ActOf m c (.pmmAllocRun count) w r w') :
    MmuGuar m c R w w' ∧ w'.kernel.lock = w.kernel.lock := by
  rcases Pmm.allocFrames_cases w.space.pmm count with ⟨-, heq⟩ | ⟨f, h0, hrun, -, heq⟩
  · obtain ⟨rfl, rfl⟩ := hact.eq (perform_allocRun_none heq)
    exact ⟨h.guar_refl, rfl⟩
  · have hpos : 0 < count.toNat := by
      rcases Nat.eq_zero_or_pos count.toNat with hz | hz
      · exact absurd (BitVec.eq_of_toNat_eq hz) h0
      · exact hz
    have hf : f < w.space.pmm.totalFrames.toNat := by
      have := hrun.1
      omega
    obtain ⟨rfl, rfl⟩ := hact.eq (perform_allocRun_some heq (Pmm.frame_ne_zero h.wf.pmm hf))
    refine ⟨h.guar_alloc (A := fun a => a ∈ Pmm.basesFrom (w.space.pmm.frame f) count.toNat)
      (h.wf.pmm.markFrames hrun.1) ⟨rfl, rfl, rfl, Pmm.length_markRun _ _ _⟩ (fun a => ?_)
      (fun a ha => ?_) (fun a ha => if_pos ha) (fun a ha => if_neg ha) rfl, rfl⟩
    · rw [Pmm.used_markFrames_iff h.wf.pmm hrun.1, Pmm.Holding.mem_basesFrom]
    · obtain ⟨k, hk, rfl⟩ := Pmm.Holding.mem_basesFrom.mp ha
      have hlt : f + k < w.space.pmm.totalFrames.toNat := by
        have := hrun.1
        omega
      rw [Pmm.used_frame_iff h.wf.pmm hlt, hrun.2 k hk]
      exact Bool.false_ne_true

theorem coreSafe_allocFrames {count : U64} (h : Idle m c w) :
    CoreSafe m c (allocFrames count) (fun _ => Idle m c) w := by
  rw [allocFrames]
  split
  · exact Safe.ret h Idle.stable fun _ h => h
  · exact coreSafe_pmmCritical h fun w r w' hinv hact => hinv.allocRun hact

/-- A client gives back a frame of its own. -/
theorem coreSafe_freeFrame (h : Idle m c w) (ha : w.role a = some (.client c)) :
    CoreSafe m c (freeFrame a) (fun _ => Idle m c) w := by
  have hP : Stable (Rely m c) fun w => Idle m c w ∧ w.role a = some (.client c) := by
    intro w w' hw hr
    obtain ⟨u, hu, hf⟩ := Rely.foot hw.1.inv hr
    exact ⟨Idle.stable _ _ hw.1 hr, (hf.client c a hu.symm).mpr hw.2⟩
  rw [freeFrame]
  refine coreSafe_read (fun w => w.space.pmm.inRange a) (fun _ => rfl) ⟨h, ha⟩ hP
    (fun _ h => h.1.inv) fun w hw => ?_
  split
  · refine safe_pmmCritical (R := fun _ => False) (fun _ _ => MmuGuar.guar) hP
      (fun _ => Idle.stable) (fun _ h => h.1.inv) (fun _ _ h => h.inv)
      (fun _ _ _ h hi => ⟨h.1.relock_pmm hi, h.2⟩) (fun _ _ _ _ h => h.relock_pmm)
      (fun w r w' hw hact => ?_) hw
    have hok := hact.1
    obtain ⟨-, rfl⟩ := hact.eq rfl
    have hnot : ¬ w.space.IsTable a := by
      intro ht
      have := (hw.1.inv.table a ht).symm.trans hw.2
      exact absurd this (by simp)
    obtain ⟨hinv, hfoot⟩ := hw.1.inv.guar_free hnot (Or.inl hw.2) hok
    exact ⟨⟨hinv, hfoot⟩, ⟨hinv, hw.1.mmu, hw.1.heap⟩, rfl⟩
  · exact Safe.ret hw hP fun _ h => h.1

/-! ### Calls of the page-table code -/

/-- Such a call leaves `heap_lock` as it is. -/
theorem Idle.of_mmu {p : KProg α} {Q : α → World → Prop} (h : Idle m c w)
    (hp : MmuSafe m c R p (fun a w => Inv m w ∧ w.kernel.lock .mmuLock ≠ some c ∧ Q a w) w) :
    CoreSafe m c p (fun _ => Idle m c) w := by
  refine (Safe.frame (A := fun w => Inv m w ∧ w.kernel.lock .heapLock ≠ some c) hp
    ⟨h.inv, h.heap⟩ ?_ ?_).mono (fun _ _ hg => hg.guar)
    fun _ _ hq => ⟨hq.1.1, hq.1.2.1, hq.2.2⟩
  · exact fun w w' hw hr => ⟨hr.1, fun hl => hw.2 ((Rely.lock hw.1 hr _).mp hl)⟩
  · exact fun w w' hw hg => ⟨hg.inv, fun hl => hw.2 (hg.own.heapLock.symm.trans hl)⟩

theorem clearOf_inRange {va size : U64}
    (h : m.apart → ∀ i < numPages size, ¬ InHeapWindow (pageAt va i)) :
    m.backed → ClearOf c (InRange va size) w := by
  intro hm
  refine Or.inl ?_
  rintro pg ⟨j, hj, rfl⟩
  exact h hm.1 j hj

/-! ### `kmalloc` -/

/-- Holding `heap_lock`, with the values of the heap's variables. -/
structure Growing (m : Mode) (c : ℕ) (b e : U64) (w : World) : Prop where
  inv : Inv m w
  lock : w.kernel.lock .heapLock = some c
  bumpPtr : w.kernel.var .bumpPtr = b
  heapEnd : w.kernel.var .heapEnd = e

/-- A frame that the heap holds and that is not behind any of its pages. -/
def FreshFrame (m : Mode) (a : U64) (w : World) : Prop :=
  w.role a = some .kheap ∧ (m.backed → ∀ i < w.heapPages, w.heapFrame i ≠ a)

theorem Growing.rely (h : Growing m c b e w) (hr : Rely m c w w') : Growing m c b e w' := by
  obtain ⟨u, hu, hf⟩ := Rely.foot h.inv hr
  have hh := hf.heap c hu.symm h.lock
  exact ⟨hr.1, (Rely.lock h.inv hr _).mpr h.lock, hh.bumpPtr.trans h.bumpPtr,
    hh.heapEnd.trans h.heapEnd⟩

theorem Growing.freshFrame_rely (h : Growing m c b e w) (ha : FreshFrame m a w)
    (hr : Rely m c w w') : FreshFrame m a w' := by
  obtain ⟨u, hu, hf⟩ := Rely.foot h.inv hr
  have hh := hf.heap c hu.symm h.lock
  refine ⟨(hh.role a).mpr ha.1, fun hm i hi => ?_⟩
  rw [Rely.heapPages h.inv h.lock hr] at hi
  have hin : InHeapWindow (pageAt heapBase i) :=
    ⟨i, lt_of_lt_of_le hi (h.inv.heap hm).le, rfl⟩
  rw [World.heapFrame, hh.leaf hm _ hin]
  exact ha.2 hm i hi

theorem Growing.stable_mmu : Stable (Rely m c)
    fun w => Growing m c b e w ∧ w.kernel.lock .mmuLock ≠ some c :=
  fun _ _ hw hr => ⟨hw.1.rely hr, fun hl => hw.2 ((Rely.lock hw.1.inv hr _).mp hl)⟩

theorem Growing.relock_pmm {o : Option ℕ} {daif : ℕ → U64} (h : Growing m c b e w)
    (hinv : Inv m (w.relock .pmmLock o daif)) : Growing m c b e (w.relock .pmmLock o daif) :=
  ⟨hinv, (World.relock_lock_of_ne (by decide)).trans h.lock, h.bumpPtr, h.heapEnd⟩

/-- A page-table call of the heap works on its next page. -/
theorem Growing.mmu (h : Growing m c b e w) (ha : FreshFrame m a w)
    (hR : m.backed → ∀ pg, R pg → ∀ i < w.heapPages, pg ≠ pageAt heapBase i)
    (hg : MmuGuar m c R w w') : Growing m c b e w' ∧ FreshFrame m a w' := by
  refine ⟨⟨hg.inv, hg.own.heapLock.trans h.lock, (congrFun hg.own.var _).trans h.bumpPtr,
    (congrFun hg.own.var _).trans h.heapEnd⟩, hg.own.role a _ (by simp) ha.1, fun hm i hi => ?_⟩
  have hpages : w'.heapPages = w.heapPages := by
    rw [World.heapPages, World.heapPages, hg.own.var]
  rw [hpages] at hi
  rw [World.heapFrame, hg.own.leaf _ fun hp => hR hm _ hp i hi rfl]
  exact ha.2 hm i hi

/-- `heap_end` is where the next page of the window goes. -/
theorem HeapInv.pageAt_end (h : HeapInv w) (he : w.kernel.var .heapEnd = e) :
    pageAt e 0 = pageAt heapBase w.heapPages := by
  have hle := h.le
  have hend := h.end_eq
  rw [he] at hend
  rw [pageAt, pageAt, pageAddr_zero]
  congr 1
  apply BitVec.eq_of_toNat_eq
  rw [pageAddr, toNat_add_mul_pageSize (by rw [show heapBase.toNat = 0x100000000 from rfl]; omega),
    hend]

/-- Below the limit there is room for another page. -/
theorem HeapInv.room {r : U64} (h : HeapInv w) (he : w.kernel.var .heapEnd = e) (hlt : e < r)
    (hr : r ≤ heapBase + heapMaxSize) : w.heapPages < 256 := by
  have hend := h.end_eq
  rw [he] at hend
  have h1 := BitVec.lt_def.mp hlt
  have h2 := BitVec.le_def.mp hr
  rw [show (heapBase + heapMaxSize).toNat = 0x100100000 from rfl] at h2
  rw [show heapBase.toNat = 0x100000000 from rfl] at hend
  omega

theorem HeapInv.pageAt_ne (h : HeapInv w) {i j : ℕ} (hi : i < w.heapPages) (hj : j ≤ 256)
    (hij : i ≠ j) : pageAt heapBase j ≠ pageAt heapBase i := by
  have hle := h.le
  exact fun he => hij (pageAt_inj (by omega) (by omega) he).symm

/-- The heap with one more page. -/
theorem HeapInv.extend {r : U64} (h : HeapInv w) (hwf : w.space.WF)
    (hused : ∀ a, w.space.pmm.Used a ↔ w.role a ≠ none) (he : w.kernel.var .heapEnd = e)
    (hlt : e < r) (hr : r ≤ heapBase + heapMaxSize) (ha : w.role a = some .kheap)
    (hfresh : ∀ i < w.heapPages, w.heapFrame i ≠ a)
    (hleaf : w.space.leaf (pageAt e 0) = pageDesc a pteNormalRw 0) :
    HeapInv { w with kernel := w.kernel.withVar .heapEnd (e + pageSize) } := by
  have hroom := h.room he hlt hr
  have hend := h.end_eq
  have hbump := h.bump_le
  have hbase : heapBase.toNat = 0x100000000 := rfl
  rw [he] at hend hbump
  rw [h.pageAt_end he] at hleaf
  have hnext : (e + pageSize).toNat = e.toNat + 4096 := by
    rw [BitVec.toNat_add, toNat_pageSize]
    omega
  have hend' : (w.kernel.withVar .heapEnd (e + pageSize)).var .heapEnd = e + pageSize :=
    Kernel.withVar_self
  have hbump' : (w.kernel.withVar .heapEnd (e + pageSize)).var .bumpPtr = w.kernel.var .bumpPtr :=
    Kernel.withVar_of_ne (by decide)
  have hpages : World.heapPages { w with kernel := w.kernel.withVar .heapEnd (e + pageSize) }
      = w.heapPages + 1 := by
    rw [World.heapPages]
    simp only [hend']
    omega
  -- the new page is the frame that has been asked for, and belongs to the heap
  have hframe : w.heapFrame w.heapPages = a := by
    have hu : w.space.pmm.Used a := (hused a).mpr (by rw [ha]; simp)
    have hal := hu.aligned hwf.pmm
    have hb := hu.lt hwf.pmm
    rw [World.heapFrame, hleaf, pageDesc_and_addrMask _ _ (by decide), pageAddr_zero]
    · rwa [pageAddr_zero]
    · rw [pageAddr_zero]
      omega
  refine ⟨?_, by rw [hpages]; omega, ?_, ?_, ?_, ?_⟩
  · rw [hpages]
    simp only [hend']
    omega
  · intro i hi
    rw [hpages] at hi
    rcases Nat.lt_succ_iff_lt_or_eq.mp hi with hi | rfl
    · exact h.mapped i hi
    · exact (congrArg (· &&& 3#64) hleaf).trans (pageDesc_valid _ _ _)
  · intro i hi
    rw [hpages] at hi
    rcases Nat.lt_succ_iff_lt_or_eq.mp hi with hi | rfl
    · exact h.role i hi
    · exact (congrArg w.role hframe).trans ha
  · intro i hi j hj hij
    rw [hpages] at hi hj
    change w.heapFrame i = w.heapFrame j at hij
    -- two old pages, or the new one and a page whose frame it is not
    rcases Nat.lt_succ_iff_lt_or_eq.mp hi with hi | rfl <;>
      rcases Nat.lt_succ_iff_lt_or_eq.mp hj with hj | rfl
    · exact h.inj i hi j hj hij
    · exact absurd (hij.trans hframe) (hfresh i hi)
    · exact absurd (hij.symm.trans hframe) (hfresh j hj)
    · rfl
  · simp only [hend', hbump']
    omega

theorem HeapInv.set_bumpPtr {v : U64} (h : HeapInv w)
    (hv : v.toNat ≤ (w.kernel.var .heapEnd).toNat) :
    HeapInv { w with kernel := w.kernel.withVar .bumpPtr v } := by
  have hend : (w.kernel.withVar .bumpPtr v).var .heapEnd = w.kernel.var .heapEnd :=
    Kernel.withVar_of_ne (by decide)
  have hpages : World.heapPages { w with kernel := w.kernel.withVar .bumpPtr v } = w.heapPages := by
    rw [World.heapPages, World.heapPages, hend]
  refine ⟨?_, ?_, ?_, ?_, ?_, ?_⟩
  · rw [hpages, hend]
    exact h.end_eq
  · rw [hpages]
    exact h.le
  · rw [hpages]
    exact h.mapped
  · rw [hpages]
    exact h.role
  · rw [hpages]
    exact h.inj
  · rw [hend]
    exact le_of_eq_of_le (congrArg BitVec.toNat Kernel.withVar_self) hv

/-- Storing to a variable of the heap. -/
theorem Growing.guar_set {x : Var} {v : U64} (h : Growing m c b e w)
    (hheap : m.backed → HeapInv { w with kernel := w.kernel.withVar x v }) :
    Guar m c w { w with kernel := w.kernel.withVar x v } := by
  refine ⟨⟨h.inv.wf, h.inv.active, h.inv.used, h.inv.table,
      ⟨h.inv.flush.fresh, h.inv.flush.unmapped, h.inv.flush.done⟩, h.inv.cached, hheap,
      fun hm => (h.inv.swept hm).of_same rfl rfl (fun _ _ _ hr => hr) fun _ _ hf => hf⟩,
    ⟨fun _ _ _ => Iff.rfl, Pmm.SameGeometry.refl _, rfl,
      fun _ _ _ => ⟨fun _ _ => rfl, fun _ => Iff.rfl, rfl, rfl, rfl⟩, fun d hd hl => ?_,
      fun _ _ _ => Iff.rfl⟩⟩
  rw [h.lock, Option.some_inj] at hl
  exact absurd hl.symm hd

/-- `alloc_frame` in the growth loop. -/
theorem Growing.safe_allocFrame (h : Growing m c b e w) (hl : w.kernel.lock .mmuLock ≠ some c) :
    CoreSafe m c allocFrame (fun r w => (Growing m c b e w ∧ w.kernel.lock .mmuLock ≠ some c) ∧
      (r ≠ 0 → FreshFrame m r w)) w := by
  refine safe_pmmCritical (R := fun _ => False)
    (P := fun w => Growing m c b e w ∧ w.kernel.lock .mmuLock ≠ some c)
    (fun _ _ => MmuGuar.guar) Growing.stable_mmu (fun r => ?_) (fun _ h => h.1.inv)
    (fun _ _ h => h.1.1.inv) (fun _ _ _ h hi => ⟨h.1.relock_pmm hi, ?_⟩)
    (fun r _ _ _ h hi => ⟨⟨h.1.1.relock_pmm hi, ?_⟩, h.2⟩) (fun w r w' hw hact => ?_) ⟨h, hl⟩
  · exact fun w w' hw hr => ⟨Growing.stable_mmu _ _ hw.1 hr,
      fun h0 => hw.1.1.freshFrame_rely (hw.2 h0) hr⟩
  · rw [World.relock_lock_of_ne (by decide)]
    exact h.2
  · rw [World.relock_lock_of_ne (by decide)]
    exact h.1.2
  · obtain ⟨hg, hlock, hrole⟩ := hw.1.inv.alloc (R := fun _ => False) hact
    have hvar := hg.own.var
    refine ⟨hg.guar, ⟨⟨⟨hg.inv, by rw [hlock]; exact hw.1.lock, by rw [hvar]; exact hw.1.bumpPtr,
      by rw [hvar]; exact hw.1.heapEnd⟩, by rw [hlock]; exact hw.2⟩, fun h0 => ?_⟩, hlock⟩
    obtain ⟨hnone, hsome⟩ := hrole h0
    rw [World.roleFor, if_neg hw.2, if_pos hw.1.lock] at hsome
    refine ⟨hsome, fun hm i hi => ?_⟩
    rw [World.heapPages, hvar] at hi
    rw [World.heapFrame, hg.own.leaf _ id]
    rintro rfl
    have hk := (hw.1.inv.heap hm).role i hi
    rw [World.heapFrame, hnone] at hk
    exact absurd hk (by simp)

/-- `map` in the growth loop. -/
theorem Growing.safe_map {r : U64} (h : Growing m c b e w) (ha : FreshFrame m a w) (hlt : e < r)
    (hr : r ≤ heapBase + heapMaxSize) :
    CoreSafe m c (map e a pageSize pteNormalRw) (fun _ w =>
      (Growing m c b e w ∧ w.kernel.lock .mmuLock ≠ some c) ∧ FreshFrame m a w ∧
        (m.backed → w.space.leaf (pageAt e 0) = pageDesc a pteNormalRw 0)) w := by
  have hone : numPages pageSize = 1 := by rw [numPages_eq]; rfl
  have hne : ∀ {w : World}, Growing m c b e w → m.backed → ∀ pg, pg = pageAt e 0 →
      ∀ i < w.heapPages, pg ≠ pageAt heapBase i := by
    rintro w hw hm pg rfl i hi
    have hh := hw.inv.heap hm
    rw [hh.pageAt_end hw.heapEnd]
    exact hh.pageAt_ne hi hh.le (by omega)
  refine (Safe.frame (A := fun w => Growing m c b e w ∧ FreshFrame m a w)
    (GamingConsole.safe_map h.inv (R := fun pg => pg = pageAt e 0)
      (fun hm => Or.inr ⟨h.lock, hne h hm⟩) fun j hj => ?_) ⟨h, ha⟩ ?_ ?_).mono
    (fun _ _ hg => hg.guar) fun _ w hq => ⟨⟨hq.2.1, hq.1.2.1⟩, hq.2.2, fun hm => ?_⟩
  · rw [hone] at hj
    rw [show j = 0 by omega]
  · exact fun w w' hw hr => ⟨hw.1.rely hr, hw.1.freshFrame_rely hw.2 hr⟩
  · exact fun w w' hw hg => hw.1.mmu hw.2 (hne hw.1) hg
  · have hh := hq.2.1.inv.heap hm
    exact hq.1.2.2 hm hq.2.1.lock hone ⟨_, hh.room hq.2.1.heapEnd hlt hr,
      hh.pageAt_end hq.2.1.heapEnd⟩

/-- The growth loop. -/
theorem safe_kmallocLoop {r : U64} (hr : r ≤ heapBase + heapMaxSize) : ∀ (n : ℕ) (e : U64)
    (w : World), Growing m c b e w → w.kernel.lock .mmuLock ≠ some c →
    CoreSafe m c (kmallocLoop r n) (fun grown w => ∃ e, (Growing m c b e w ∧
      w.kernel.lock .mmuLock ≠ some c) ∧ (grown = true → r ≤ e)) w := by
  intro n
  induction n with
  | zero => exact fun e w h hl => coreSafe_stuck ⟨h, hl⟩ Growing.stable_mmu
  | succ n ih =>
    intro e w h hl
    rw [kmallocLoop]
    refine coreSafe_read (fun w => w.kernel.var .heapEnd) (fun _ => rfl) ⟨h, hl⟩
      Growing.stable_mmu (fun _ h => h.1.inv) fun w hw => ?_
    rw [hw.1.heapEnd]
    by_cases hlt : e < r
    · rw [if_pos hlt]
      refine Safe.bind (hw.1.safe_allocFrame hw.2) fun a w hw => ?_
      by_cases h0 : a = 0
      · rw [if_pos h0]
        exact Safe.ret hw.1 Growing.stable_mmu fun w hw => ⟨e, hw, fun hf => absurd hf (by simp)⟩
      · rw [if_neg h0]
        -- the new page is above the heap, so that mapping it changes none of the heap's
        refine Safe.bind (hw.1.1.safe_map (hw.2 h0) hlt hr) fun _ w hw => ?_
        refine Safe.step (P := fun w => (Growing m c b e w ∧ w.kernel.lock .mmuLock ≠ some c) ∧
          FreshFrame m a w ∧ (m.backed → w.space.leaf (pageAt e 0) = pageDesc a pteNormalRw 0)) hw
          ?_ fun w hw _ w' hact => ?_
        · refine fun w w' hw hrely => ⟨Growing.stable_mmu _ _ hw.1 hrely,
            hw.1.1.freshFrame_rely hw.2.1 hrely, fun hm => ?_⟩
          obtain ⟨u, hu, hf⟩ := Rely.foot hw.1.1.inv hrely
          have hh := hw.1.1.inv.heap hm
          rw [(hf.heap c hu.symm hw.1.1.lock).leaf hm _ ⟨_, hh.room hw.1.1.heapEnd hlt hr,
            hh.pageAt_end hw.1.1.heapEnd⟩]
          exact hw.2.2 hm
        · obtain ⟨-, rfl⟩ := hact.eq rfl
          have hg := hw.1.1.guar_set (x := .heapEnd) (v := e + pageSize) fun hm =>
            (hw.1.1.inv.heap hm).extend hw.1.1.inv.wf hw.1.1.inv.used hw.1.1.heapEnd hlt hr
              hw.2.1.1 (hw.2.1.2 hm) (hw.2.2 hm)
          refine ⟨hg, ih (e + pageSize) _ ⟨hg.1, hw.1.1.lock, ?_, Kernel.withVar_self⟩ hw.1.2⟩
          exact (Kernel.withVar_of_ne (by decide)).trans hw.1.1.bumpPtr
    · rw [if_neg hlt]
      exact Safe.ret hw Growing.stable_mmu fun w hw => ⟨e, hw, fun _ => BitVec.not_lt.mp hlt⟩

/-- Releasing `heap_lock`. -/
theorem Growing.safe_unlock {flags : U64} {f : Unit → KProg α} {Q : α → World → Prop}
    (h : Growing m c b e w) (hl : w.kernel.lock .mmuLock ≠ some c)
    (hf : ∀ w, Idle m c w → CoreSafe m c (f ()) Q w) :
    CoreSafe m c (act (.spinUnlock .heapLock flags) >>= f) Q w := by
  refine Safe.step ⟨h, hl⟩ Growing.stable_mmu fun w hw _ w' hact => ?_
  obtain ⟨daif, rfl⟩ := ActOf.spinUnlock hact hw.1.inv.active
  rw [if_neg (by decide)]
  have hinv : Inv m (w.relock .heapLock none daif) := hw.1.inv.relock (by decide)
  refine ⟨⟨hinv, .relock (Or.inr hw.1.lock) (Or.inl rfl)⟩, hf _ ⟨hinv, ?_, ?_⟩⟩
  · rw [World.relock_lock_of_ne (by decide)]
    exact hw.2
  · rw [World.relock_lock_self]
    simp

/-- `kmalloc`. -/
theorem coreSafe_kmalloc {size : U64} (h : Idle m c w) :
    CoreSafe m c (kmalloc size) (fun _ => Idle m c) w := by
  rw [kmalloc]
  refine Safe.step h Idle.stable fun w hw flags w' hact => ?_
  obtain ⟨hnone, daif, rfl⟩ := ActOf.spinLock hact hw.inv.active
  rw [if_neg (by decide)]
  have hinv : Inv m (w.relock .heapLock (some c) daif) := hw.inv.relock (by decide)
  have hgrow : Growing m c (w.kernel.var .bumpPtr) (w.kernel.var .heapEnd)
      (w.relock .heapLock (some c) daif) := ⟨hinv, World.relock_lock_self, rfl, rfl⟩
  have hmmu : (w.relock .heapLock (some c) daif).kernel.lock .mmuLock ≠ some c := by
    rw [World.relock_lock_of_ne (by decide)]
    exact hw.mmu
  -- the other cores leave the two variables alone while the lock is held
  generalize w.kernel.var .bumpPtr = b at hgrow
  generalize w.kernel.var .heapEnd = e at hgrow
  refine ⟨⟨hinv, .relock (Or.inl hnone) (Or.inr rfl)⟩,
    coreSafe_read (fun w => w.kernel.var .bumpPtr)
    (fun _ => rfl) ⟨hgrow, hmmu⟩ Growing.stable_mmu (fun _ h => h.1.inv) fun w hw => ?_⟩
  rw [hw.1.bumpPtr]
  by_cases hgt : b + alignedSize size > heapBase + heapMaxSize
  · rw [if_pos hgt]
    exact hw.1.safe_unlock hw.2 fun w h => coreSafe_panic h Idle.stable
  · rw [if_neg hgt]
    refine Safe.bind (safe_kmallocLoop (BitVec.not_lt.mp hgt) fuel e w hw.1 hw.2)
      fun grown w hw => ?_
    obtain ⟨e, ⟨hg, hl⟩, hle⟩ := hw
    cases grown with
    | false =>
      rw [if_neg (by simp)]
      exact hg.safe_unlock hl fun w h => coreSafe_panic h Idle.stable
    | true =>
      rw [if_pos rfl]
      refine Safe.step ⟨hg, hl⟩ Growing.stable_mmu fun w hw _ w' hact => ?_
      obtain ⟨-, rfl⟩ := hact.eq rfl
      have hset := hw.1.guar_set (x := .bumpPtr) (v := b + alignedSize size) fun hm =>
        (hw.1.inv.heap hm).set_bumpPtr (by rw [hw.1.heapEnd]; exact BitVec.le_def.mp (hle rfl))
      refine ⟨hset, Growing.safe_unlock (b := b + alignedSize size) (e := e)
        ⟨hset.1, hw.1.lock, Kernel.withVar_self,
          (Kernel.withVar_of_ne (by decide)).trans hw.1.heapEnd⟩ hw.2 fun w h =>
        Safe.ret h Idle.stable fun _ h => h⟩

/-! ### All calls -/

theorem coreSafe_drop {p : KProg α} (hp : CoreSafe m c p (fun _ => Idle m c) w) :
    CoreSafe m c (drop p) (fun _ => Idle m c) w :=
  Safe.bind hp fun _ _ h => Safe.ret h Idle.stable fun _ h => h

/-- Every call that a mode allows is safe. -/
theorem Call.safe {call : Call} (h : Idle m c w) (hallowed : call.Allowed m c w) :
    CoreSafe m c call.prog (fun _ => Idle m c) w := by
  cases call with
  | allocFrame => exact coreSafe_drop (coreSafe_allocFrame h)
  | allocFrames count => exact coreSafe_drop (coreSafe_allocFrames h)
  | freeFrame addr => exact coreSafe_freeFrame h hallowed
  | map va phys size flags =>
    exact coreSafe_drop (h.of_mmu (safe_map h.inv (clearOf_inRange hallowed)
      fun j hj => ⟨j, hj, rfl⟩))
  | unmap va size =>
    exact h.of_mmu (safe_unmap h.inv (clearOf_inRange hallowed) fun j hj => ⟨j, hj, rfl⟩)
  | translate virt =>
    exact coreSafe_drop (h.of_mmu (safe_translate (R := fun _ => False) h.inv
      fun _ => Or.inl fun _ hF => hF.elim))
  | kmalloc size => exact coreSafe_drop (coreSafe_kmalloc h)

end GamingConsole
