/-
The invariant of the system, and what one core's step leaves to the others.

* `Inv` — the page tables are well formed, every used frame has exactly one
  holder, the tables' frames are the tables', and the caches lag behind the tables
  only where the code has not invalidated them; in the runs that back the kernel
  heap its pages are in order as well, and in those that sweep the caches nothing
  stale is left in them;
* `Foot` — what a step of core `c` cannot touch: locks and frames of others, the
  tables unless `c` holds `mmu_lock`, the heap unless it holds `heap_lock`;
* `Own` — what a call into the allocator or the page tables leaves alone on its
  own core too.
-/
import GamingConsole.World

namespace GamingConsole

open Space Prog

/-! ### The kernel heap -/

namespace World

/-- Pages of the heap's window below `heap_end`. -/
def heapPages (w : World) : ℕ := ((w.kernel.var .heapEnd).toNat - heapBase.toNat) / 4096

/-- The frame behind page `i` of the heap's window. -/
def heapFrame (w : World) (i : ℕ) : U64 := w.space.leaf (pageAt heapBase i) &&& addrMask

end World

/-- The kernel heap is backed up to `heap_end`. -/
structure HeapInv (w : World) : Prop where
  end_eq : (w.kernel.var .heapEnd).toNat = heapBase.toNat + w.heapPages * 4096
  le : w.heapPages ≤ 256
  mapped : ∀ i < w.heapPages, w.space.Mapped (pageAt heapBase i)
  role : ∀ i < w.heapPages, w.role (w.heapFrame i) = some .kheap
  inj : ∀ i < w.heapPages, ∀ j < w.heapPages, w.heapFrame i = w.heapFrame j → i = j
  bump_le : (w.kernel.var .bumpPtr).toNat ≤ (w.kernel.var .heapEnd).toNat

/-! ### The translation caches -/

/-- What is cached for a cleared page is still to be invalidated, or valid. -/
structure FlushInv (w : World) : Prop where
  fresh : ∀ e ∈ w.tlb, e.page ∈ w.cleared → e.page ∈ w.stale ∨ w.space.Cacheable e
  unmapped : ∀ pg ∈ w.cleared, w.space.leaf pg = 0
  done : w.kernel.lock .mmuLock = none → w.stale = [] ∨ w.brokeOff = true

/-- Cached L1 and L2 descriptors are those in the tables, or name a table that has
been taken out of the tree. -/
def CachedInv (w : World) : Prop :=
  ∀ e ∈ w.tlb, e.level ≠ .l3 → w.space.Cacheable e ∨ e.desc &&& addrMask ∈ w.unlinked

/-- Nothing stale is left behind: what is cached of the first two levels names tables, and
what is cached for a cleared page is invalidated before `mmu_lock` is released. -/
structure SweptInv (w : World) : Prop where
  named : ∀ e ∈ w.tlb, e.level ≠ .l3 → w.role (e.desc &&& addrMask) = some .table
  pending : ∀ e ∈ w.tlb, w.Flushes e.page
  left : w.left = []

/-! ### The invariant -/

structure Inv (m : Mode) (w : World) : Prop where
  wf : w.space.WF
  active : w.kernel.mmuActive = true
  used : ∀ a, w.space.pmm.Used a ↔ w.role a ≠ none
  table : ∀ a, w.space.IsTable a → w.role a = some .table
  flush : FlushInv w
  cached : CachedInv w
  heap : m.backed → HeapInv w
  swept : m.swept → SweptInv w

/-- What the holder of `mmu_lock` relies on. -/
structure SameMmu (w w' : World) : Prop where
  mem : ∀ a, w.role a = some .table → w'.space.mem a = w.space.mem a
  role : ∀ a, w'.role a = some .table ↔ w.role a = some .table
  cleared : w'.cleared = w.cleared
  stale : w'.stale = w.stale
  brokeOff : w'.brokeOff = w.brokeOff

/-- What the holder of `heap_lock` relies on. -/
structure SameHeap (m : Mode) (w w' : World) : Prop where
  bumpPtr : w'.kernel.var .bumpPtr = w.kernel.var .bumpPtr
  heapEnd : w'.kernel.var .heapEnd = w.kernel.var .heapEnd
  role : ∀ a, w'.role a = some .kheap ↔ w.role a = some .kheap
  leaf : m.backed → ∀ pg, InHeapWindow pg → w'.space.leaf pg = w.space.leaf pg

/-- A step of core `c`, as the others see it. -/
structure Foot (m : Mode) (c : ℕ) (w w' : World) : Prop where
  lock : ∀ l d, d ≠ c → (w'.kernel.lock l = some d ↔ w.kernel.lock l = some d)
  geometry : w.space.pmm.SameGeometry w'.space.pmm
  root : w'.space.l1Table = w.space.l1Table
  mmu : ∀ d, d ≠ c → w.kernel.lock .mmuLock = some d → SameMmu w w'
  heap : ∀ d, d ≠ c → w.kernel.lock .heapLock = some d → SameHeap m w w'
  client : ∀ d a, d ≠ c → (w'.role a = some (.client d) ↔ w.role a = some (.client d))

/-- A step inside a call of the allocator or of the page-table code that is
working on the pages in `R`. -/
structure Own (R : Page → Prop) (w w' : World) : Prop where
  var : w'.kernel.var = w.kernel.var
  heapLock : w'.kernel.lock .heapLock = w.kernel.lock .heapLock
  role : ∀ a r, r ≠ .table → w.role a = some r → w'.role a = some r
  leaf : ∀ pg, ¬ R pg → w'.space.leaf pg = w.space.leaf pg

/-- The guarantee of such a call. -/
structure MmuGuar (m : Mode) (c : ℕ) (R : Page → Prop) (w w' : World) : Prop where
  inv : Inv m w'
  foot : Foot m c w w'
  own : Own R w w'

/-- What core `c` expects of the others. -/
abbrev Rely (m : Mode) (c : ℕ) : World → World → Prop :=
  Interleaving.relyOf (system m) (Inv m) (Foot m) c

/-- What core `c` promises to the others. -/
abbrev Guar (m : Mode) (c : ℕ) : World → World → Prop :=
  Interleaving.guarOf (Inv m) (Foot m) c

/-- The actions of core `c` in a mode. -/
abbrev ActOf (m : Mode) (c : ℕ) : (e : Action) → World → e.Answer → World → Prop :=
  Interleaving.actOf (system m) m.Ok c

variable {m : Mode} {c : ℕ} {R : Page → Prop} {w w' : World} {a : U64} {l : Lock}

/-! ### Steps that change nothing of interest -/

theorem SameMmu.refl (w : World) : SameMmu w w :=
  ⟨fun _ _ => rfl, fun _ => Iff.rfl, rfl, rfl, rfl⟩

theorem SameHeap.refl (w : World) : SameHeap m w w :=
  ⟨rfl, rfl, fun _ => Iff.rfl, fun _ _ _ => rfl⟩

theorem Foot.refl (w : World) : Foot m c w w :=
  ⟨fun _ _ _ => Iff.rfl, Pmm.SameGeometry.refl _, rfl, fun _ _ _ => .refl w,
    fun _ _ _ => .refl w, fun _ _ _ => Iff.rfl⟩

theorem Own.refl (w : World) : Own R w w :=
  ⟨rfl, rfl, fun _ _ _ h => h, fun _ _ => rfl⟩

theorem Inv.guar_refl (h : Inv m w) : MmuGuar m c R w w := ⟨h, .refl w, .refl w⟩

/-- A core that is not working on the tables sees a cache fill or a write to data
as a step of somebody else. -/
theorem World.Env.foot (h : Inv m w) (he : World.Env m w w') : Foot m c w w' := by
  cases he with
  | fill e hc hm => exact ⟨fun _ _ _ => Iff.rfl, Pmm.SameGeometry.refl _, rfl,
      fun _ _ _ => ⟨fun _ _ => rfl, fun _ => Iff.rfl, rfl, rfl, rfl⟩,
      fun _ _ _ => ⟨rfl, rfl, fun _ => Iff.rfl, fun _ _ _ => rfl⟩, fun _ _ _ => Iff.rfl⟩
  | data b words hb =>
    have hne : ∀ a, w.role a = some .table → a ≠ b := fun a ha hab => hb (hab ▸ ha)
    have hsame : SameTables w.space { w.space with mem := Function.update w.space.mem b words } :=
      ⟨rfl, fun a ha => Function.update_of_ne (hne a (h.table a ha)) _ _⟩
    exact ⟨fun _ _ _ => Iff.rfl, Pmm.SameGeometry.refl _, rfl,
      fun _ _ _ => ⟨fun a ha => Function.update_of_ne (hne a ha) _ _, fun _ => Iff.rfl,
      rfl, rfl, rfl⟩,
      fun _ _ _ => ⟨rfl, rfl, fun _ => Iff.rfl, fun _ pg _ => hsame.leaf pg⟩, fun _ _ _ => Iff.rfl⟩

/-- Interference is a step of some other core. -/
theorem Rely.foot (h : Inv m w) (hr : Rely m c w w') : ∃ u, u ≠ c ∧ Foot m u w w' := by
  rcases hr.2 with hu | he
  · exact hu
  · exact ⟨c + 1, by omega, he.foot h⟩

/-! ### Descriptors under changes of the tables -/

theorem Space.SameTables.descAt {s s' : Space} (h : SameTables s s') (pg : Page) (lv : Level) :
    s'.descAt pg lv = s.descAt pg lv := by
  cases lv with
  | l1 =>
    rw [Space.descAt, Space.descAt, h.root]
    exact congrFun (h.mem _ isTable_l1) pg.l1
  | l2 =>
    rw [Space.descAt, Space.descAt, h.table (by simp [Page.l2Path])]
    rcases ht : s.table pg.l2Path with _ | t
    · rfl
    · exact congrFun (h.mem t ⟨_, by simp [Page.l2Path], ht⟩) pg.l2
  | l3 => exact h.leaf pg

theorem Space.SameTables.cacheable {s s' : Space} (h : SameTables s s') {e : TlbEntry}
    (he : s.Cacheable e) : s'.Cacheable e := ⟨he.1.trans (h.descAt _ _).symm, he.2⟩

/-- A valid descriptor at the first two levels names the next table. -/
theorem Space.Cacheable.table {s : Space} {e : TlbEntry} (he : s.Cacheable e) :
    (e.level = .l1 → s.table e.page.l2Path = some (e.desc &&& addrMask)) ∧
      (e.level = .l2 → s.table e.page.l3Path = some (e.desc &&& addrMask)) := by
  obtain ⟨hd, hv⟩ := he
  constructor
  · intro hl
    rw [hl, Space.descAt] at hd
    have := table_of_valid (p := []) (s := s) (i := e.page.l1) rfl (by rw [← hd]; exact hv)
    rwa [← hd] at this
  · intro hl
    rw [hl, Space.descAt] at hd
    rcases ht : s.table e.page.l2Path with _ | t
    · rw [ht] at hd
      change e.desc = 0 at hd
      rw [hd] at hv
      exact absurd hv (by decide)
    · rw [ht] at hd
      change e.desc = s.mem t e.page.l2 at hd
      have := table_of_valid (i := e.page.l2) ht (by rw [← hd]; exact hv)
      rwa [← hd] at this

theorem Space.Cacheable.isTable {s : Space} {e : TlbEntry} (he : s.Cacheable e)
    (hl : e.level ≠ .l3) : s.IsTable (e.desc &&& addrMask) := by
  obtain ⟨h1, h2⟩ := he.table
  rcases hlv : e.level with _ | _ | _
  · exact ⟨_, by simp [Page.l2Path], h1 hlv⟩
  · exact ⟨_, by simp [Page.l3Path], h2 hlv⟩
  · exact absurd hlv hl

/-- Where the tables keep their words, caches stay as sound as they were. -/
theorem FlushInv.of_sameTables (h : FlushInv w) (hs : SameTables w.space w'.space)
    (htlb : w'.tlb = w.tlb) (hcleared : w'.cleared = w.cleared) (hstale : w'.stale = w.stale)
    (hbroke : w'.brokeOff = w.brokeOff)
    (hlock : w'.kernel.lock .mmuLock = none → w.kernel.lock .mmuLock = none ∨
      w.stale = [] ∨ w.brokeOff = true) :
    FlushInv w' where
  fresh := by
    rw [htlb, hcleared, hstale]
    exact fun e he hc => (h.fresh e he hc).imp_right fun hca => hs.cacheable hca
  unmapped := by
    rw [hcleared]
    exact fun pg hpg => (hs.leaf pg).trans (h.unmapped pg hpg)
  done := by
    rw [hstale, hbroke]
    exact fun hl => (hlock hl).elim h.done id

theorem CachedInv.of_sameTables (h : CachedInv w) (hs : SameTables w.space w'.space)
    (htlb : w'.tlb = w.tlb) (hun : w'.unlinked = w.unlinked) : CachedInv w' := by
  rw [CachedInv, htlb, hun]
  exact fun e he hl => (h e he hl).imp_left fun hc => hs.cacheable hc

/-- Where the caches and their record stay, so does what is left in them. -/
theorem SweptInv.of_same (h : SweptInv w) (htlb : w'.tlb = w.tlb) (hleft : w'.left = w.left)
    (hrole : ∀ e ∈ w.tlb, e.level ≠ .l3 → w.role (e.desc &&& addrMask) = some .table →
      w'.role (e.desc &&& addrMask) = some .table)
    (hflush : ∀ e ∈ w.tlb, w.Flushes e.page → w'.Flushes e.page) : SweptInv w' where
  named := by
    rw [htlb]
    exact fun e he hl => hrole e he hl (h.named e he hl)
  pending := by
    rw [htlb]
    exact fun e he => hflush e he (h.pending e he)
  left := hleft.trans h.left

/-- The heap's invariant under a step that keeps its window and its frames. -/
theorem HeapInv.of_same (h : HeapInv w) (hvar : w'.kernel.var = w.kernel.var)
    (hleaf : ∀ i < w.heapPages,
      w'.space.leaf (pageAt heapBase i) = w.space.leaf (pageAt heapBase i))
    (hrole : ∀ a, w.role a = some .kheap → w'.role a = some .kheap) : HeapInv w' := by
  have hpages : w'.heapPages = w.heapPages := by rw [World.heapPages, World.heapPages, hvar]
  have hframe : ∀ i < w.heapPages, w'.heapFrame i = w.heapFrame i := by
    intro i hi
    rw [World.heapFrame, World.heapFrame, hleaf i hi]
  refine ⟨by rw [hvar, hpages, h.end_eq], by rw [hpages]; exact h.le, ?_, ?_, ?_,
    by rw [hvar]; exact h.bump_le⟩
  · intro i hi
    rw [hpages] at hi
    rw [Space.Mapped, hleaf i hi]
    exact h.mapped i hi
  · intro i hi
    rw [hpages] at hi
    rw [hframe i hi]
    exact hrole _ (h.role i hi)
  · intro i hi j hj
    rw [hpages] at hi hj
    rw [hframe i hi, hframe j hj]
    exact h.inj i hi j hj

/-! ### Locks -/

/-- The world with a lock in another state and other interrupt masks. -/
def World.relock (w : World) (l : Lock) (o : Option ℕ) (daif : ℕ → U64) : World :=
  { w with kernel := { w.kernel with lock := Function.update w.kernel.lock l o, daif := daif } }

namespace World

variable {o : Option ℕ} {daif : ℕ → U64}

@[simp] theorem relock_space : (w.relock l o daif).space = w.space := rfl
@[simp] theorem relock_var : (w.relock l o daif).kernel.var = w.kernel.var := rfl
@[simp] theorem relock_role : (w.relock l o daif).role = w.role := rfl
@[simp] theorem relock_cleared : (w.relock l o daif).cleared = w.cleared := rfl
@[simp] theorem relock_stale : (w.relock l o daif).stale = w.stale := rfl
@[simp] theorem relock_brokeOff : (w.relock l o daif).brokeOff = w.brokeOff := rfl
@[simp] theorem relock_lock_self : (w.relock l o daif).kernel.lock l = o :=
  Function.update_self _ _ _

theorem relock_lock_of_ne {l' : Lock} (h : l' ≠ l) :
    (w.relock l o daif).kernel.lock l' = w.kernel.lock l' := Function.update_of_ne h _ _

end World

/-- Another lock than `mmu_lock` protects nothing that the invariant speaks of. -/
theorem Inv.relock {o : Option ℕ} {daif : ℕ → U64} (h : Inv m w) (hl : l ≠ .mmuLock) :
    Inv m (w.relock l o daif) where
  wf := h.wf
  active := h.active
  used := h.used
  table := h.table
  flush := by
    refine ⟨h.flush.fresh, h.flush.unmapped, fun hnone => ?_⟩
    rw [World.relock_lock_of_ne hl.symm] at hnone
    exact h.flush.done hnone
  cached := h.cached
  heap := fun hm => (h.heap hm).of_same rfl (fun _ _ => rfl) fun _ ha => ha
  swept := by
    refine fun hm => (h.swept hm).of_same rfl rfl (fun _ _ _ hr => hr) fun e _ hf hlock => ?_
    rw [World.relock_lock_of_ne hl.symm] at hlock
    exact hf hlock

/-- `mmu_lock` is released; what is cached for the cleared pages is left. -/
def World.released (w : World) (daif : ℕ → U64) : World :=
  { w.relock .mmuLock none daif with left := w.tlb.filter fun e => e.page ∈ w.cleared }

/-- `mmu_lock` is released with nothing stale, or after a walk that broke off. -/
theorem Inv.released {daif : ℕ → U64} (h : Inv m w) (hlock : w.kernel.lock .mmuLock = some c)
    (hdone : w.stale = [] ∨ w.brokeOff = true) : Inv m (w.released daif) where
  wf := h.wf
  active := h.active
  used := h.used
  table := h.table
  flush := ⟨h.flush.fresh, h.flush.unmapped, fun _ => hdone⟩
  cached := h.cached
  heap := fun hm => (h.heap hm).of_same rfl (fun _ _ => rfl) fun _ ha => ha
  swept := by
    intro hm
    refine ⟨(h.swept hm).named, fun e _ hne => absurd World.relock_lock_self hne, ?_⟩
    refine List.filter_eq_nil_iff.mpr fun e he hcleared => ?_
    obtain ⟨hstale, hwalk⟩ := (h.swept hm).pending e he (by rw [hlock]; simp)
      (of_decide_eq_true hcleared)
    rcases hdone with hnil | hbroke
    · rw [hnil] at hstale
      exact absurd hstale (by simp)
    · rw [hwalk] at hbroke
      exact absurd hbroke (by simp)

/-- A lock goes from nobody to `c` or back. -/
theorem Foot.relock {o : Option ℕ} {daif : ℕ → U64}
    (hold : w.kernel.lock l = none ∨ w.kernel.lock l = some c) (ho : o = none ∨ o = some c) :
    Foot m c w (w.relock l o daif) where
  lock := by
    intro l' d hd
    by_cases hl' : l' = l
    · subst hl'
      rw [World.relock_lock_self]
      have hne : some c ≠ some d := fun he => hd (Option.some.inj he).symm
      rcases hold with h | h <;> rcases ho with h' | h' <;> rw [h, h'] <;> simp [hne]
    · rw [World.relock_lock_of_ne hl']
  geometry := Pmm.SameGeometry.refl _
  root := rfl
  mmu := fun _ _ _ => ⟨fun _ _ => rfl, fun _ => Iff.rfl, rfl, rfl, rfl⟩
  heap := fun _ _ _ => ⟨rfl, rfl, fun _ => Iff.rfl, fun _ _ _ => rfl⟩
  client := fun _ _ _ => Iff.rfl

theorem Own.relock {o : Option ℕ} {daif : ℕ → U64} (hl : l ≠ .heapLock) :
    Own R w (w.relock l o daif) :=
  ⟨rfl, World.relock_lock_of_ne hl.symm, fun _ _ _ h => h, fun _ _ => rfl⟩

/-- `pmm_lock` protects nothing that the invariant speaks of. -/
theorem Inv.guar_relock_pmm {o : Option ℕ} {daif : ℕ → U64} (h : Inv m w)
    (hold : w.kernel.lock .pmmLock = none ∨ w.kernel.lock .pmmLock = some c)
    (ho : o = none ∨ o = some c) : MmuGuar m c R w (w.relock .pmmLock o daif) :=
  ⟨h.relock (by decide), .relock hold ho, .relock (by decide)⟩

/-! ### Frames -/

/-- Fresh frames go to the role of the core that asked for them. -/
theorem Inv.guar_alloc {p : Pmm} {A : U64 → Prop} {role : U64 → Option Role} {r : Role}
    (h : Inv m w) (hp : p.WF) (hgeo : w.space.pmm.SameGeometry p)
    (hused : ∀ a, p.Used a ↔ w.space.pmm.Used a ∨ A a) (hfresh : ∀ a, A a → ¬ w.space.pmm.Used a)
    (hnew : ∀ a, A a → role a = some r) (hold : ∀ a, ¬ A a → role a = w.role a)
    (hr : r = w.roleFor c) :
    MmuGuar m c R w
      { w with kernel := w.kernel.withSpace { w.space with pmm := p }, role := role } := by
  -- a fresh frame had no role, so that no other role changes
  have hnone : ∀ a, A a → w.role a = none := by
    intro a ha
    by_contra hne
    exact hfresh a ha ((h.used a).mpr hne)
  have hkeep : ∀ a r', w.role a = some r' → role a = some r' := by
    intro a r' ha
    rw [hold, ha]
    intro hA
    rw [hnone a hA] at ha
    exact absurd ha (by simp)
  have hiff : ∀ a r', r' ≠ r → (role a = some r' ↔ w.role a = some r') := by
    intro a r' hne
    by_cases ha : A a
    · rw [hnew a ha, hnone a ha]
      simp [hne.symm]
    · rw [hold a ha]
  have hsame : SameTables w.space { w.space with pmm := p } := sameTables_pmm _
  refine ⟨⟨?_, h.active, ?_, ?_, ?_, ?_, ?_, ?_⟩, ⟨fun _ _ _ => Iff.rfl, hgeo, rfl,
    ?_, ?_, ?_⟩, ⟨rfl, rfl, fun a r' _ ha => hkeep a r' ha, fun pg _ => hsame.leaf pg⟩⟩
  · exact h.wf.of_sameTables hsame hp fun a ha => (hused a).mpr (Or.inl (h.wf.used a ha))
  · intro a
    refine (hused a).trans ?_
    rw [h.used]
    by_cases ha : A a
    · simp [ha, hnew a ha]
    · simp [ha, hold a ha]
  · exact fun a ha => hkeep a _ (h.table a (hsame.isTable_iff.mp ha))
  · exact h.flush.of_sameTables hsame rfl rfl rfl rfl Or.inl
  · exact h.cached.of_sameTables hsame rfl rfl
  · exact fun hm => (h.heap hm).of_same rfl (fun i _ => hsame.leaf _) fun a ha => hkeep a _ ha
  · exact fun hm => (h.swept hm).of_same rfl rfl (fun _ _ _ hr => hkeep _ _ hr) fun _ _ hf => hf
  · intro d hd hl
    refine ⟨fun _ _ => rfl, fun a => hiff a _ ?_, rfl, rfl, rfl⟩
    rw [hr, World.roleFor, hl, if_neg (fun he => hd (Option.some.inj he))]
    split <;> simp
  · intro d hd hl
    refine ⟨rfl, rfl, fun a => hiff a _ ?_, fun _ pg _ => hsame.leaf pg⟩
    rw [hr, World.roleFor, hl, if_neg (fun he => hd (Option.some.inj he) : ¬ some d = some c)]
    split <;> simp
  · intro d a hd
    refine hiff a _ ?_
    rw [hr, World.roleFor]
    split
    · simp
    · split
      · simp
      · simpa using hd

/-- `alloc_frame` finding frame `f`. -/
theorem Inv.guar_allocFrame {f : ℕ} (h : Inv m w) (hf : f < w.space.pmm.totalFrames.toNat)
    (hb : w.space.pmm.bit f = false) :
    MmuGuar m c R w
      { w with
        kernel := w.kernel.withSpace { w.space with pmm := w.space.pmm.mark f }
        role := Function.update w.role (w.space.pmm.frame f) (some (w.roleFor c)) } := by
  refine h.guar_alloc (A := fun a => a = w.space.pmm.frame f) (h.wf.pmm.mark hf)
    (Pmm.sameGeometry_mark _ _) (Pmm.used_mark_iff h.wf.pmm hf) ?_ ?_
    (fun a ha => Function.update_of_ne ha _ _) rfl
  · rintro a rfl
    rw [Pmm.used_frame_iff h.wf.pmm hf, hb]
    exact Bool.false_ne_true
  · rintro a rfl
    exact Function.update_self _ _ _

/-- A frame that is not a table is given back by the core that holds it. -/
theorem Inv.guar_free (h : Inv m w) (ha : ¬ w.space.IsTable a)
    (hrole : w.role a = some (.client c) ∨
      w.role a = some .table ∧ w.kernel.lock .mmuLock = some c)
    (hok : m.Ok c (.pmmFree a) w) :
    Inv m { w with
        kernel := w.kernel.withSpace { w.space with pmm := Pmm.freeFrame w.space.pmm a }
        role := Function.update w.role a none } ∧
      Foot m c w { w with
        kernel := w.kernel.withSpace { w.space with pmm := Pmm.freeFrame w.space.pmm a }
        role := Function.update w.role a none } := by
  have hne : w.role a ≠ none := by
    rcases hrole with hr | ⟨hr, -⟩ <;> rw [hr] <;> simp
  obtain ⟨f, hf, rfl, hb, heq⟩ := Pmm.freeFrame_used h.wf.pmm ((h.used a).mpr hne)
  have hsame : SameTables w.space { w.space with pmm := w.space.pmm.unmark f } := sameTables_pmm _
  have hiff : ∀ b r, w.role (w.space.pmm.frame f) ≠ some r →
      (Function.update w.role (w.space.pmm.frame f) none b = some r ↔ w.role b = some r) := by
    intro b r hr
    by_cases hb : b = w.space.pmm.frame f
    · rw [hb, Function.update_self]
      simp [hr]
    · rw [Function.update_of_ne hb]
  rw [heq]
  refine ⟨⟨?_, h.active, ?_, ?_, ?_, ?_, ?_, ?_⟩,
    ⟨fun _ _ _ => Iff.rfl, Pmm.sameGeometry_unmark _ _, rfl,
    ?_, ?_, ?_⟩⟩
  · refine h.wf.of_sameTables hsame (h.wf.pmm.unmark hf) fun b hbt => ?_
    exact (Pmm.used_unmark_iff h.wf.pmm hf b).mpr
      ⟨h.wf.used b hbt, fun hbf => ha (hbf ▸ hbt)⟩
  · intro b
    refine (Pmm.used_unmark_iff h.wf.pmm hf b).trans ?_
    rw [h.used]
    by_cases hbf : b = w.space.pmm.frame f
    · simp [hbf]
    · simp [hbf]
  · intro b hbt
    have hbt' := hsame.isTable_iff.mp hbt
    refine (Function.update_of_ne ?_ _ _).trans (h.table b hbt')
    rintro rfl
    exact ha hbt'
  · exact h.flush.of_sameTables hsame rfl rfl rfl rfl Or.inl
  · exact h.cached.of_sameTables hsame rfl rfl
  · refine fun hm => (h.heap hm).of_same rfl (fun i _ => hsame.leaf _) fun b hb => ?_
    refine (hiff b _ ?_).mpr hb
    rcases hrole with hr | ⟨hr, -⟩ <;> rw [hr] <;> simp
  · -- a client's frame is none of the tables', and a table is not named any more
    refine fun hm => (h.swept hm).of_same rfl rfl (fun e he hl hr => ?_) fun _ _ hf => hf
    refine (Function.update_of_ne ?_ _ _).trans hr
    rcases hrole with hc | ⟨-, hlock⟩
    · intro heq
      rw [heq, hc] at hr
      exact absurd hr (by simp)
    · exact hok hm hlock e he hl
  · intro d hd hl
    refine ⟨fun _ _ => rfl, fun b => hiff b _ ?_, rfl, rfl, rfl⟩
    rcases hrole with hr | ⟨-, hc⟩
    · rw [hr]
      simp
    · rw [hl, Option.some_inj] at hc
      exact absurd hc hd
  · intro d hd hl
    refine ⟨rfl, rfl, fun b => hiff b _ ?_, fun _ pg _ => hsame.leaf pg⟩
    rcases hrole with hr | ⟨hr, -⟩ <;> rw [hr] <;> simp
  · intro d b hd
    refine hiff b _ ?_
    rcases hrole with hr | ⟨hr, -⟩
    · rw [hr]
      simpa using hd.symm
    · rw [hr]
      simp

end GamingConsole
