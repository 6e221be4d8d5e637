/-
What holds in every reachable state, for any number of cores and any
interleaving of their calls.

* `TablesOwned` — each page table is named by one descriptor, and its frame is
  used and nobody else's;
* `StaleFree` — no stale translation survives an `unmap`, in the runs that leave the caches
  nothing stale;
* `TlbSound` — what the caches may hold in all runs;
* `HeapBacked` — the kernel heap is mapped up to `heap_end`, to frames of its own.
-/
import GamingConsole.Runs

namespace GamingConsole

open Space Prog Interleaving

variable {b : Board} {m : Mode} {x : Cores}

/-! ### Page tables -/

/-- The frames used as tables: one descriptor each, marked used, held by no client. -/
structure TablesOwned (w : World) : Prop where
  distinct : ∀ p q t, p.length ≤ 2 → q.length ≤ 2 → w.space.table p = some t →
    w.space.table q = some t → p = q
  named_once : ∀ p q t u i j a, p.length ≤ 1 → q.length ≤ 1 → w.space.table p = some t →
    w.space.table q = some u → nextTable (w.space.mem t i) = some a →
    nextTable (w.space.mem u j) = some a → t = u ∧ i = j
  used : ∀ a, w.space.IsTable a → w.space.pmm.Used a
  not_client : ∀ a c, w.space.IsTable a → w.role a ≠ some (.client c)

/-- **In every reachable state the tables' frames are distinct, used, and held by
no client.** -/
theorem tables_owned (h : Reach Mode.all b.boot x) : TablesOwned x.shared where
  distinct _ _ _ hp hq h1 h2 := (Reach.wf h).table_inj hp hq h1 h2
  named_once := by
    intro p q t u i j a hp hq ht hu hi hj
    rw [← table_cons ht] at hi
    rw [← table_cons hu] at hj
    have hpath := (Reach.wf h).table_inj (by simpa using hp) (by simpa using hq) hi hj
    obtain ⟨rfl, rfl⟩ := List.cons_eq_cons.mp hpath
    rw [ht, Option.some_inj] at hu
    exact ⟨hu, rfl⟩
  used := (Reach.wf h).used
  not_client := by
    intro a c ha hc
    have := ((Reach.inv h).table a ha).symm.trans hc
    exact absurd this (by simp)

/-- Page 0 mapped to a frame past the RAM, by core 0. -/
def mapPageZero : Move := .call 0 (.map 0 0x40000000#64 pageSize pteNormalRw)

/-- After a `map` the new L3 table is owned as well. -/
theorem tables_owned_map : ∃ x : Cores, x.shared.space.table (pageOf 0).l3Path ≠ none ∧
    TablesOwned x.shared := by
  obtain ⟨x, hreach, hP⟩ := exists_play (b := fiveFrames) [mapPageZero] false false
    (fun w => w.space.table (pageOf 0).l3Path ≠ none) (by decide +kernel)
  exact ⟨x, of_decide_eq_true hP, tables_owned (Reach.all hreach)⟩

/-! ### Translation caches -/

/-- When `mmu_lock` was last released nothing was cached for a page that had been cleared, and
no frame that a cached descriptor of the first two levels names is free. -/
structure StaleFree (w : World) : Prop where
  left : w.left = []
  backed : ∀ e ∈ w.tlb, e.level ≠ .l3 → w.space.pmm.Used (e.desc &&& addrMask)

/-- The L1 descriptor that a walk of page 2 reads while page 0 is mapped. -/
def pageTwoL1 : TlbEntry := ⟨pageOf 0x2000, .l1, tableDesc 0x3F7FC000#64⟩

/-- Pages 0 and 1 are unmapped, without a hole: their tables are freed, and page 2, for which a
descriptor of one of these is cached, is not invalidated. -/
theorem freed_while_cached : ∃ x : Cores, Reach Mode.all fiveFrames.boot x ∧
    x.shared.kernel.lock .mmuLock = none ∧ x.shared.brokeOff = false ∧
    pageTwoL1 ∈ x.shared.tlb ∧ x.shared.role 0x3F7FC000#64 = none := by
  obtain ⟨x, hreach, hP⟩ := exists_play (b := fiveFrames)
    [.call 0 (.map 0 0x40000000#64 (pageSize + pageSize) pteNormalRw), .fill pageTwoL1,
      .call 0 (.unmap 0 (pageSize + pageSize))] false false
    (fun w => w.kernel.lock .mmuLock = none ∧ w.brokeOff = false ∧ pageTwoL1 ∈ w.tlb ∧
      w.role 0x3F7FC000#64 = none) (by decide +kernel)
  exact ⟨x, Reach.all hreach, of_decide_eq_true hP⟩

/-- A cached descriptor of a frame that nobody holds. -/
theorem not_staleFree_of_role {e : TlbEntry} (h : Inv m x.shared) (he : e ∈ x.shared.tlb)
    (hl : e.level ≠ .l3) (hrole : x.shared.role (e.desc &&& addrMask) = none) :
    ¬ StaleFree x.shared :=
  fun hs => (h.used _).mp (hs.backed e he hl) hrole

theorem not_staleFree : ¬ ∀ (b : Board) (x : Cores), Reach Mode.all b.boot x →
    StaleFree x.shared := by
  intro h
  obtain ⟨x, hreach, -, -, he, hrole⟩ := freed_while_cached
  exact not_staleFree_of_role (Reach.inv hreach) he (by decide) hrole (h _ x hreach)

/-- What is cached of page 0 while it is mapped, the L3 descriptor first. -/
def pageZeroL3 : TlbEntry := ⟨pageOf 0, .l3, 0x40000703#64⟩

def pageZeroL1 : TlbEntry := ⟨pageOf 0, .l1, tableDesc 0x3F7FC000#64⟩

/-- A hole after a mapped page: `unmap` clears the page, frees its tables and breaks off, and
what is cached of the page is left. -/
theorem left_after_hole : ∃ x : Cores, Reach Mode.all fiveFrames.boot x ∧
    pageZeroL3 ∈ x.shared.left := by
  obtain ⟨x, hreach, hP⟩ := exists_play (b := fiveFrames)
    [mapPageZero, .fill pageZeroL3, .call 0 (.unmap 0 (pageSize + pageSize))] false false
    (fun w => pageZeroL3 ∈ w.left) (by decide +kernel)
  exact ⟨x, Reach.all hreach, of_decide_eq_true hP⟩

/-- **No stale translation survives an `unmap`** in a run in which no table is freed while a
cached descriptor names it, no walk breaks off while something is cached for a page that it has
cleared, and nothing is fetched for such a page once its invalidation has been done or left out. -/
theorem stale_free (h : Reach Mode.flushed b.boot x) : StaleFree x.shared := by
  have hinv := Reach.inv h
  have hswept := hinv.swept trivial
  refine ⟨hswept.left, fun e he hl => ?_⟩
  rw [hinv.used, hswept.named e he hl]
  simp

/-- Two pages are unmapped one after the other, and the tables go with the second. -/
theorem stale_free_unmap : ∃ x : Cores, pageOf 0x1000 ∈ x.shared.cleared ∧
    x.shared.unlinked ≠ [] ∧ StaleFree x.shared := by
  obtain ⟨x, hreach, hP⟩ := exists_play (b := fiveFrames)
    [.call 0 (.map 0 0x40000000#64 (pageSize + pageSize) pteNormalRw), .fill pageZeroL3,
      .fill pageZeroL1, .call 0 (.unmap 0 pageSize), .call 1 (.unmap pageSize pageSize)] false true
    (fun w => pageOf 0x1000 ∈ w.cleared ∧ w.unlinked ≠ []) (by decide +kernel)
  obtain ⟨hcleared, hun⟩ := of_decide_eq_true hP
  exact ⟨x, hcleared, hun, stale_free (hreach.mono False.elim False.elim fun _ => rfl)⟩

/-- A free that leaves nothing stale met the condition: no cached descriptor named the table. -/
theorem staleFree_of_free {c : ℕ} {a : U64} {k : Unit → KProg Unit} {w : World}
    (h : Reach Mode.all b.boot x) (hprog : x.threads c = some (.vis (.pmmFree a) k))
    (hstep : World.perform c (.pmmFree a) x.shared = some ((), w)) (hfree : StaleFree w) :
    Mode.flushed.Ok c (.pmmFree a) x.shared := by
  rintro - - e he hl rfl
  have hall : Mode.all.Ok c (.pmmFree (e.desc &&& addrMask)) x.shared := fun hf => hf.elim
  have hact : (system Mode.all).handler c (.pmmFree (e.desc &&& addrMask)) x.shared =
    some ((), w) := hstep
  have hy : Reach Mode.all b.boot _ := h.tail (.act c _ k () w hprog hall hact)
  obtain rfl := (Prod.mk.inj (Option.some.inj hstep)).2
  exact not_staleFree_of_role (Reach.inv hy) he hl (Function.update_self _ _ _) hfree

/-- What the code does ensure of the caches, in all runs. -/
structure TlbSound (w : World) : Prop where
  unmapped : w.kernel.lock .mmuLock = none → w.brokeOff = false → ∀ pg ∈ w.cleared,
    w.space.leaf pg = 0 ∧ ∀ e ∈ w.tlb, e.page = pg → e.level ≠ .l3 ∧ w.space.Cacheable e
  backed : ∀ e ∈ w.tlb, e.level ≠ .l3 →
    w.space.pmm.Used (e.desc &&& addrMask) ∨ e.desc &&& addrMask ∈ w.unlinked

/-- **When a walk has not broken off, all that is cached of the pages it cleared
are copies of L1 and L2 descriptors that are in the tables**; and a cached L1 or
L2 descriptor names a used frame, or a table that was taken out of the tree. -/
theorem tlb_sound (h : Reach Mode.all b.boot x) : TlbSound x.shared where
  unmapped := by
    intro hlock hbroke pg hpg
    have hinv := Reach.inv h
    have hleaf := hinv.flush.unmapped pg hpg
    have hstale : x.shared.stale = [] :=
      (hinv.flush.done hlock).resolve_right (by rw [hbroke]; simp)
    refine ⟨hleaf, fun e he hpage => ?_⟩
    subst hpage
    rcases hinv.flush.fresh e he hpg with hs | hc
    · rw [hstale] at hs
      exact absurd hs (by simp)
    · refine ⟨fun hl => ?_, hc⟩
      have hdesc := hc.1
      rw [hl, Space.descAt, hleaf] at hdesc
      exact ne_zero_of_valid hc.2 hdesc
  backed := by
    intro e he hl
    have hinv := Reach.inv h
    exact (hinv.cached e he hl).imp_left fun hc => hinv.wf.used _ (hc.isTable hl)

/-! ### The kernel heap -/

/-- The frame that the page of `va` is mapped to. -/
def Space.frameOf (s : Space) (va : U64) : U64 := s.leaf (pageOf va) &&& addrMask

/-- An address of the kernel heap. -/
def World.InHeap (w : World) (va : U64) : Prop :=
  heapBase.toNat ≤ va.toNat ∧ va.toNat < (w.kernel.var .heapEnd).toNat

/-- Every byte of the kernel heap is backed by a frame of its own page. -/
structure HeapBacked (w : World) : Prop where
  aligned : (w.kernel.var .heapEnd).toNat % 4096 = 0
  bump_le : (w.kernel.var .bumpPtr).toNat ≤ (w.kernel.var .heapEnd).toNat
  translated : ∀ va, w.InHeap va →
    w.space.translation va = w.space.frameOf va ||| (va &&& 0xFFF#64)
  used : ∀ va, w.InHeap va → w.space.pmm.Used (w.space.frameOf va)
  held : ∀ va, w.InHeap va → w.role (w.space.frameOf va) = some .kheap
  distinct : ∀ va va', w.InHeap va → w.InHeap va' → w.space.frameOf va = w.space.frameOf va' →
    va.toNat / 4096 = va'.toNat / 4096

/-- `kmalloc(1)` with a single frame left: the frame is handed out, `map` finds none
for its tables, and the page is counted as backed. -/
theorem not_heapBacked : ¬ ∀ (b : Board) (x : Cores), Reach ⟨True, False, False⟩ b.boot x →
    x.shared.kernel.lock .heapLock = none → HeapBacked x.shared := by
  intro h
  obtain ⟨x, hreach, hP⟩ := exists_play (b := twoFrames) [.call 0 (.kmalloc 1)] false false
    (fun w => w.kernel.lock .heapLock = none ∧ w.space.frameOf heapBase = 0 ∧ w.role 0 = none ∧
      w.kernel.var .heapEnd = heapBase + pageSize) (by decide +kernel)
  obtain ⟨hlock, hframe, hrole, hend⟩ := of_decide_eq_true hP
  have hb := h twoFrames x (hreach.mono (fun _ => trivial) False.elim False.elim) hlock
  have hheld := hb.held heapBase ⟨le_refl _, by rw [hend]; decide⟩
  rw [hframe, hrole] at hheld
  exact absurd hheld (by simp)

/-- The heap's page that an address lies in. -/
theorem HeapInv.page {w : World} (h : HeapInv w) {va : U64} (hva : w.InHeap va) :
    ∃ i < w.heapPages, pageOf va = pageAt heapBase i ∧ va.toNat / 4096 = 0x100000 + i := by
  obtain ⟨h1, h2⟩ := hva
  have hend := h.end_eq
  have hbase : heapBase.toNat = 0x100000000 := rfl
  refine ⟨va.toNat / 4096 - 0x100000, by omega, ?_, by omega⟩
  apply Page.num_inj
  rw [num_pageOf, num_pageAt]
  omega

/-- **In every run in which the heap's tables find frames, and others keep out of its
window, the heap is backed in every state.** -/
theorem heap_backed (h : Reach ⟨True, True, False⟩ b.boot x) : HeapBacked x.shared := by
  have hinv := Reach.inv h
  have hheap := hinv.heap ⟨trivial, trivial⟩
  have hframe : ∀ {va i}, pageOf va = pageAt heapBase i →
      x.shared.space.frameOf va = x.shared.heapFrame i := fun hp => by
    rw [Space.frameOf, World.heapFrame, hp]
  refine ⟨?_, hheap.bump_le, fun va hva => ?_, fun va hva => ?_, fun va hva => ?_,
    fun va va' hva hva' heq => ?_⟩
  · rw [hheap.end_eq]
    have hbase : heapBase.toNat = 0x100000000 := rfl
    omega
  · obtain ⟨i, hi, hp, -⟩ := hheap.page hva
    have hm := hheap.mapped i hi
    rw [Space.Mapped, ← hp] at hm
    exact if_pos hm
  · obtain ⟨i, hi, hp, -⟩ := hheap.page hva
    rw [hinv.used, hframe hp, hheap.role i hi]
    simp
  · obtain ⟨i, hi, hp, -⟩ := hheap.page hva
    rw [hframe hp, hheap.role i hi]
  · obtain ⟨i, hi, hp, hn⟩ := hheap.page hva
    obtain ⟨j, hj, hp', hn'⟩ := hheap.page hva'
    rw [hframe hp, hframe hp'] at heq
    rw [hn, hn', hheap.inj i hi j hj heq]

/-- `kmalloc` with enough frames. -/
theorem heap_backed_kmalloc : ∃ x : Cores,
    x.shared.kernel.var .heapEnd = heapBase + pageSize ∧ HeapBacked x.shared := by
  obtain ⟨x, hreach, hP⟩ := exists_play (b := fiveFrames)
    [.call 1 .allocFrame, .call 0 (.kmalloc 1)] true false
    (fun w => w.kernel.var .heapEnd = heapBase + pageSize) (by decide +kernel)
  exact ⟨x, of_decide_eq_true hP,
    heap_backed (hreach.mono (fun _ => trivial) (fun _ => rfl) False.elim)⟩

end GamingConsole
