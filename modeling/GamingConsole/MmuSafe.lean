/-
The page-table code among other cores.

`Held m c R S w` says that core `c` is inside a critical section of `mmu_lock`,
working on the pages in `R`, with the pages in `S` cleared and not invalidated.
Nobody else moves the tables under it (`Held.rely`), and every store of the code
keeps it (`Held.update`).  From there each function is safe: it keeps the
invariant at every action and leaves `mmu_lock` with nothing stale.
-/
import GamingConsole.WorldInv

namespace GamingConsole

open Space Prog

variable {m : Mode} {c : ℕ} {R S S' : Page → Prop} {w w' : World} {a t : U64} {l : Lock}
  {q : List (Fin 512)} {i : Fin 512} {pg : Page}

/-- The pages in `R` are none of the kernel heap's, or they are its next ones and
`c` is growing it. -/
def ClearOf (c : ℕ) (R : Page → Prop) (w : World) : Prop :=
  (∀ pg, R pg → ¬ InHeapWindow pg) ∨
    w.kernel.lock .heapLock = some c ∧ ∀ pg, R pg → ∀ i < w.heapPages, pg ≠ pageAt heapBase i

/-- Inside a critical section of `mmu_lock`. -/
structure Held (m : Mode) (c : ℕ) (R S : Page → Prop) (w : World) : Prop where
  inv : Inv m w
  lock : w.kernel.lock .mmuLock = some c
  cleared : ∀ pg ∈ w.cleared, pg ∈ w.stale
  stale : ∀ pg ∈ w.stale, S pg
  walking : w.brokeOff = false
  clear : m.backed → ClearOf c R w

/-- At the end of one: only the invalidations count. -/
structure Flushing (m : Mode) (c : ℕ) (S : Page → Prop) (w : World) : Prop where
  inv : Inv m w
  lock : w.kernel.lock .mmuLock = some c
  stale : w.brokeOff = true ∨ ∀ pg ∈ w.stale, S pg

/-- Nothing is stale, unless the walk broke off. -/
abbrev Flushed (m : Mode) (c : ℕ) : World → Prop := Flushing m c fun _ => False

theorem Held.flushing (h : Held m c R S w) : Flushing m c S w :=
  ⟨h.inv, h.lock, Or.inr h.stale⟩

theorem Held.mono (h : Held m c R S w) (hS : ∀ pg, S pg → S' pg) : Held m c R S' w :=
  { h with stale := fun pg hpg => hS pg (h.stale pg hpg) }

theorem Flushing.mono (h : Flushing m c S w) (hS : ∀ pg ∈ w.stale, S pg → S' pg) :
    Flushing m c S' w :=
  { h with stale := h.stale.imp_right fun hst pg hpg => hS pg hpg (hst pg hpg) }

/-- Nothing is stale yet, so that no walk can break off. -/
theorem Held.stale_nil (h : Held m c R (fun _ => False) w) : w.stale = [] :=
  List.eq_nil_iff_forall_not_mem.mpr h.stale

/-! ### Interference -/

/-- What the holder of `mmu_lock` sees of the others' steps. -/
structure Undisturbed (c : ℕ) (w w' : World) : Prop where
  lock : ∀ l, w'.kernel.lock l = some c ↔ w.kernel.lock l = some c
  mmu : SameMmu w w'
  tables : SameTables w.space w'.space

theorem Rely.lock (h : Inv m w) (hr : Rely m c w w') (l : Lock) :
    w'.kernel.lock l = some c ↔ w.kernel.lock l = some c := by
  obtain ⟨u, hu, hf⟩ := Rely.foot h hr
  exact hf.lock l c hu.symm

theorem Rely.undisturbed (h : Inv m w) (hl : w.kernel.lock .mmuLock = some c)
    (hr : Rely m c w w') : Undisturbed c w w' := by
  obtain ⟨u, hu, hf⟩ := Rely.foot h hr
  have hm := hf.mmu c hu.symm hl
  exact ⟨fun l => hf.lock l c hu.symm, hm, hf.root, fun a ha => hm.mem a (h.table a ha)⟩

theorem Rely.heapPages (h : Inv m w) (hl : w.kernel.lock .heapLock = some c)
    (hr : Rely m c w w') : w'.heapPages = w.heapPages := by
  obtain ⟨u, hu, hf⟩ := Rely.foot h hr
  rw [World.heapPages, World.heapPages, (hf.heap c hu.symm hl).heapEnd]

theorem ClearOf.rely (hc : ClearOf c R w) (h : Inv m w) (hr : Rely m c w w') : ClearOf c R w' := by
  rcases hc with hout | ⟨hl, hnext⟩
  · exact Or.inl hout
  · refine Or.inr ⟨(Rely.lock h hr _).mpr hl, ?_⟩
    rwa [Rely.heapPages h hl hr]

theorem Held.rely (h : Held m c R S w) (hr : Rely m c w w') : Held m c R S w' := by
  have hu := Rely.undisturbed h.inv h.lock hr
  refine ⟨hr.1, (hu.lock _).mpr h.lock, ?_, ?_, hu.mmu.brokeOff.trans h.walking,
    fun hm => (h.clear hm).rely h.inv hr⟩
  · rw [hu.mmu.cleared, hu.mmu.stale]
    exact h.cleared
  · rw [hu.mmu.stale]
    exact h.stale

theorem Flushing.rely (h : Flushing m c S w) (hr : Rely m c w w') : Flushing m c S w' := by
  have hu := Rely.undisturbed h.inv h.lock hr
  refine ⟨hr.1, (hu.lock _).mpr h.lock, ?_⟩
  rw [hu.mmu.stale, hu.mmu.brokeOff]
  exact h.stale

/-- Facts about the tables, the caches' ghost state and one's own locks are
stable inside the critical section. -/
theorem Held.stable_and {F : World → Prop} (hF : ∀ w w', Undisturbed c w w' → F w → F w') :
    Stable (Rely m c) fun w => Held m c R S w ∧ F w :=
  fun w _ hw hr => ⟨hw.1.rely hr, hF w _ (Rely.undisturbed hw.1.inv hw.1.lock hr) hw.2⟩

theorem Flushing.stable_and {F : World → Prop} (hF : ∀ w w', Undisturbed c w w' → F w → F w') :
    Stable (Rely m c) fun w => Flushing m c S w ∧ F w :=
  fun w _ hw hr => ⟨hw.1.rely hr, hF w _ (Rely.undisturbed hw.1.inv hw.1.lock hr) hw.2⟩

theorem Undisturbed.table_eq (h : Undisturbed c w w') (hq : q.length ≤ 2) :
    w'.space.table q = w.space.table q := h.tables.table hq

/-- A table's frame outside the tree. -/
def Floating (w : World) (a : U64) : Prop := w.role a = some .table ∧ ¬ w.space.IsTable a

theorem Undisturbed.floating (h : Undisturbed c w w') (hf : Floating w a) : Floating w' a :=
  ⟨(h.mmu.role a).mpr hf.1, fun ht => hf.2 (h.tables.isTable_iff.mp ht)⟩

/-! ### Actions -/

/-- An action has one outcome. -/
theorem ActOf.eq {e : Action} {r r₀ : e.Answer} {w₀ : World} (h : ActOf m c e w r w')
    (hp : World.perform c e w = some (r₀, w₀)) : r = r₀ ∧ w' = w₀ := by
  have heq := h.2.symm.trans hp
  rw [Option.some_inj, Prod.mk.injEq] at heq
  exact heq

theorem ActOf.spinLock {r : U64} (h : ActOf m c (.spinLock l) w r w')
    (ha : w.kernel.mmuActive = true) :
    w.kernel.lock l = none ∧ ∃ daif,
      w' = if l = .mmuLock then
          { w.relock l (some c) daif with cleared := [], stale := [], brokeOff := false }
        else w.relock l (some c) daif := by
  have hp := h.2
  change World.perform c (.spinLock l) w = _ at hp
  rw [World.perform, Kernel.perform, Kernel.spinLock, if_pos ha] at hp
  by_cases hl : w.kernel.lock l = none
  · rw [if_pos hl] at hp
    have heq := (Prod.mk.inj (Option.some.inj hp)).2
    refine ⟨hl, Function.update w.kernel.daif c (w.kernel.daif c ||| 0x3C0#64), ?_⟩
    rw [← heq]
    cases l <;> rfl
  · rw [if_neg hl] at hp
    exact absurd hp (by simp)

theorem ActOf.spinUnlock {flags : U64} {r : Unit} (h : ActOf m c (.spinUnlock l flags) w r w')
    (ha : w.kernel.mmuActive = true) :
    ∃ daif, w' = if l = .mmuLock then w.released daif else w.relock l none daif := by
  have hp := h.2
  change World.perform c (.spinUnlock l flags) w = _ at hp
  rw [World.perform, Kernel.perform, Kernel.spinUnlock, if_pos ha] at hp
  have heq := (Prod.mk.inj (Option.some.inj hp)).2
  refine ⟨Function.update w.kernel.daif c flags, ?_⟩
  rw [← heq]
  cases l <;> rfl

/-! ### `pmm_lock` -/

/-- A critical section of `pmm_lock` around one action. -/
theorem safe_pmmCritical {e : Action} {P : World → Prop} {Q : e.Answer → World → Prop}
    {G : World → World → Prop} (hG : ∀ w w', MmuGuar m c R w w' → G w w') (hP : Stable (Rely m c) P)
    (hQ : ∀ r, Stable (Rely m c) (Q r)) (hPinv : ∀ w, P w → Inv m w)
    (hQinv : ∀ r w, Q r w → Inv m w)
    (hPlock : ∀ w o daif, P w → Inv m (w.relock .pmmLock o daif) → P (w.relock .pmmLock o daif))
    (hQlock : ∀ r w o daif, Q r w → Inv m (w.relock .pmmLock o daif) →
      Q r (w.relock .pmmLock o daif))
    (hact : ∀ w r w', P w → ActOf m c e w r w' →
      G w w' ∧ Q r w' ∧ w'.kernel.lock = w.kernel.lock) (hs : P w) :
    Safe (Rely m c) G (ActOf m c) Q (critical .pmmLock (act e)) w := by
  have hlocked : ∀ {P : World → Prop}, Stable (Rely m c) P → (∀ w, P w → Inv m w) →
      Stable (Rely m c) fun w => P w ∧ w.kernel.lock .pmmLock = some c :=
    fun hP hinv w _ hw hr => ⟨hP _ _ hw.1 hr, (Rely.lock (hinv w hw.1) hr _).mpr hw.2⟩
  refine Safe.step hs hP fun w₁ hw₁ flags w₂ hlock => ?_
  obtain ⟨hnone, daif, rfl⟩ := ActOf.spinLock hlock (hPinv w₁ hw₁).active
  rw [if_neg (by decide)]
  have hg : MmuGuar m c R w₁ (w₁.relock .pmmLock (some c) daif) :=
    (hPinv w₁ hw₁).guar_relock_pmm (Or.inl hnone) (Or.inr rfl)
  refine ⟨hG _ _ hg, Safe.step (P := fun w => P w ∧ w.kernel.lock .pmmLock = some c)
    ⟨hPlock _ _ _ hw₁ hg.inv, World.relock_lock_self⟩ (hlocked hP hPinv)
    fun w₃ hw₃ r w₄ hdo => ?_⟩
  obtain ⟨hg₂, hq, hsame⟩ := hact w₃ r w₄ hw₃.1 hdo
  refine ⟨hg₂, Safe.step (P := fun w => Q r w ∧ w.kernel.lock .pmmLock = some c)
    ⟨hq, by rw [hsame, hw₃.2]⟩ (hlocked (hQ r) (hQinv r)) fun w₅ hw₅ _ w₆ hun => ?_⟩
  obtain ⟨daif', rfl⟩ := ActOf.spinUnlock hun (hQinv r w₅ hw₅.1).active
  rw [if_neg (by decide)]
  have hg₃ : MmuGuar m c R w₅ (w₅.relock .pmmLock none daif') :=
    (hQinv r w₅ hw₅.1).guar_relock_pmm (Or.inr hw₅.2) (Or.inl rfl)
  exact ⟨hG _ _ hg₃, Safe.ret (hQlock r _ _ _ hw₅.1 hg₃.inv) (hQ r) fun _ h => h⟩

theorem Held.relock_pmm {o : Option ℕ} {daif : ℕ → U64} (h : Held m c R S w)
    (hinv : Inv m (w.relock .pmmLock o daif)) : Held m c R S (w.relock .pmmLock o daif) := by
  refine ⟨hinv, (World.relock_lock_of_ne (by decide)).trans h.lock, h.cleared,
    h.stale, h.walking, fun hm => ?_⟩
  rcases h.clear hm with hout | ⟨hl, hnext⟩
  · exact Or.inl hout
  · exact Or.inr ⟨(World.relock_lock_of_ne (by decide)).trans hl, hnext⟩

/-! ### Stores inside the critical section -/

/-- A cached descriptor of the first two levels stays valid as long as the table it
names stays in the tree. -/
theorem Space.WF.cacheable_of_tables {s s' : Space} {un : List U64} (h : s.WF) (h' : s'.WF)
    (hmono : ∀ q t, q.length ≤ 2 → s.table q = some t → s'.table q = some t ∨ t ∈ un)
    {e : TlbEntry} (hl : e.level ≠ .l3) (he : s.Cacheable e) :
    s'.Cacheable e ∨ e.desc &&& addrMask ∈ un := by
  obtain ⟨h1, h2⟩ := he.table
  obtain ⟨hd, hv⟩ := he
  rcases hlv : e.level with _ | _ | _
  · have ht := h1 hlv
    refine (hmono _ _ (by simp [Page.l2Path]) ht).imp_left fun ht' => ⟨?_, hv⟩
    rw [hd, hlv]
    exact (h.mem_of_table_some (p := []) (by simp) rfl ht).trans
      (h'.mem_of_table_some (p := []) (by simp) rfl ht').symm
  · have ht := h2 hlv
    refine (hmono _ _ (by simp [Page.l3Path]) ht).imp_left fun ht' => ⟨?_, hv⟩
    obtain ⟨t₂, ht2, -⟩ := table_cons_eq_some ht
    obtain ⟨t₂', ht2', -⟩ := table_cons_eq_some ht'
    have hm := h.mem_of_table_some (by simp) ht2 ht
    have hm' := h'.mem_of_table_some (by simp) ht2' ht'
    rw [hd, hlv, Space.descAt, Space.descAt, Page.l2Path, ht2, ht2']
    exact hm.trans hm'.symm
  · exact absurd hlv hl

/-- What the record says of a cleared page while `mmu_lock` is held. -/
theorem Held.pending (h : Held m c R S w) (hm : m.swept) {e : TlbEntry} (he : e ∈ w.tlb)
    (hcl : e.page ∈ w.cleared) : e.page ∈ w.stale :=
  ((h.inv.swept hm).pending e he (by rw [h.lock]; simp) hcl).1

/-- A store to the tables by the holder of `mmu_lock`. -/
theorem Held.update (h : Held m c R S w) (s' : Space) (cl st : List Page) (b : Bool)
    (un : List U64) (S' : Page → Prop) (hwf : s'.WF)
    (hpmm : s'.pmm = w.space.pmm) (hroot : s'.l1Table = w.space.l1Table)
    (htable : ∀ a, s'.IsTable a → w.role a = some .table)
    (hleaf : ∀ pg, ¬ R pg → s'.leaf pg = w.space.leaf pg) (hcl : ∀ pg ∈ cl, pg ∈ st)
    (hst : ∀ pg ∈ st, S' pg) (hunm : ∀ pg ∈ cl, s'.leaf pg = 0) (hun : ∀ a ∈ w.unlinked, a ∈ un)
    (hmono : ∀ q t, q.length ≤ 2 → w.space.table q = some t → s'.table q = some t ∨ t ∈ un)
    (hbroke : m.swept → ∀ e ∈ w.tlb, e.page ∈ cl → b = false) :
    MmuGuar m c R w
        { w with
          kernel := w.kernel.withSpace s', cleared := cl, stale := st,
          brokeOff := b, unlinked := un } ∧
      (b = false → Held m c R S'
        { w with
          kernel := w.kernel.withSpace s', cleared := cl, stale := st,
          brokeOff := b, unlinked := un }) := by
  have hinv : Inv m { w with
      kernel := w.kernel.withSpace s', cleared := cl, stale := st,
      brokeOff := b, unlinked := un } := by
    refine ⟨hwf, h.inv.active, fun a => ?_, htable, ?_, fun e he hl => ?_, fun hm => ?_,
      fun hm => ⟨(h.inv.swept hm).named,
        fun e he _ hpg => ⟨hcl _ hpg, hbroke hm e he hpg⟩, (h.inv.swept hm).left⟩⟩
    · exact (iff_of_eq (by rw [World.space, Kernel.withSpace_space, hpmm])).trans (h.inv.used a)
    · exact ⟨fun e _ hc => Or.inl (hcl _ hc), hunm, fun hl => by
        have hl' : w.kernel.lock .mmuLock = none := hl
        rw [h.lock] at hl'
        exact absurd hl' (by simp)⟩
    · -- an old table entry is cached from a table that stays, or from one that is now unlinked
      rcases h.inv.cached e he hl with hc | hgone
      · exact h.inv.wf.cacheable_of_tables hwf hmono hl hc
      · exact Or.inr (hun _ hgone)
    · refine (h.inv.heap hm).of_same rfl (fun i hi => hleaf _ fun hR => ?_) fun _ ha => ha
      rcases h.clear hm with hout | ⟨-, hnext⟩
      · exact hout _ hR ⟨i, lt_of_lt_of_le hi (h.inv.heap hm).le, rfl⟩
      · exact hnext _ hR i hi rfl
  refine ⟨⟨hinv, ⟨fun _ _ _ => Iff.rfl, ?_, hroot, fun d hd hl => ?_, fun d hd hl => ?_,
    fun _ _ _ => Iff.rfl⟩, ⟨rfl, rfl, fun _ _ _ ha => ha, hleaf⟩⟩,
    fun hb => ⟨hinv, h.lock, hcl, hst, hb, h.clear⟩⟩
  · change w.space.pmm.SameGeometry s'.pmm
    rw [hpmm]
    exact Pmm.SameGeometry.refl _
  · -- no other core has `mmu_lock`
    rw [h.lock, Option.some_inj] at hl
    exact absurd hl.symm hd
  · refine ⟨rfl, rfl, fun _ => Iff.rfl, fun hm pg hpg => hleaf pg fun hR => ?_⟩
    rcases h.clear hm with hout | ⟨hlc, -⟩
    · exact hout pg hR hpg
    · rw [hl, Option.some_inj] at hlc
      exact hd hlc

/-- A load of a descriptor leaves a trace only where a walk breaks off. -/
theorem Held.load {r : U64} (h : Held m c R S w) (hact : ActOf m c (.load t i) w r w') :
    MmuGuar m c R w w' ∧ r = w.space.mem t i ∧ w'.space = w.space ∧
      (r &&& 3#64 = 3#64 ∨ w.stale = [] → Held m c R S w') ∧
      (r &&& 3#64 ≠ 3#64 → Flushed m c w') := by
  have hok : m.Ok c (.load t i) w := hact.1
  obtain ⟨rfl, rfl⟩ := hact.eq rfl
  obtain ⟨hg, hheld⟩ := h.update w.space w.cleared w.stale
    (w.brokeOff || (w.space.mem t i &&& 3#64 != 3#64 && !w.stale.isEmpty)) w.unlinked S h.inv.wf
    rfl rfl h.inv.table (fun _ _ => rfl) h.cleared h.stale h.inv.flush.unmapped (fun _ ha => ha)
    (fun _ _ _ ht => Or.inl ht) fun hm e he hcl => by
      -- otherwise something is cached for a page that the walk leaves behind
      by_cases hv : w.space.mem t i &&& 3#64 = 3#64
      · rw [h.walking, hv]
        rfl
      · exact absurd (h.pending hm he hcl) (hok hm hv e he)
  refine ⟨hg, rfl, rfl, fun hgo => hheld ?_, fun hv => ⟨hg.inv, h.lock, ?_⟩⟩
  · rw [h.walking]
    rcases hgo with hv | hnil
    · rw [show w.space.mem t i &&& 3#64 = 3#64 from hv]
      rfl
    · rw [hnil]
      exact Bool.and_false _
  · rcases hs : w.stale with _ | ⟨pg, st⟩
    · refine Or.inr fun pg hpg => ?_
      change pg ∈ w.stale at hpg
      rw [hs] at hpg
      exact absurd hpg (by simp)
    · refine Or.inl ?_
      change (w.brokeOff || (w.space.mem t i &&& 3#64 != 3#64 && !w.stale.isEmpty)) = true
      have hne : (w.space.mem t i &&& 3#64 != 3#64) = true := bne_iff_ne.mpr hv
      rw [hs, hne]
      simp

theorem Held.zeroTable {r : Unit} (h : Held m c R S w) (hfl : Floating w a)
    (hact : ActOf m c (.zeroTable a) w r w') :
    MmuGuar m c R w w' ∧ Held m c R S w' ∧ SameTables w.space w'.space ∧ Floating w' a ∧
      w'.space.mem a = fun _ => 0 := by
  obtain ⟨-, rfl⟩ := hact.eq rfl
  have hsame : SameTables w.space (w.space.zero a) := sameTables_zero hfl.2
  obtain ⟨hg, hheld⟩ := h.update _ _ _ w.brokeOff w.unlinked S (h.inv.wf.zero hfl.2) rfl rfl
    (fun b hb => h.inv.table b (hsame.isTable_iff.mp hb)) (fun pg _ => hsame.leaf pg) h.cleared
    h.stale (fun pg hpg => (hsame.leaf pg).trans (h.inv.flush.unmapped pg hpg)) (fun _ ha => ha)
    (fun q t hq ht => Or.inl ((hsame.table hq).trans ht)) fun _ _ _ _ => h.walking
  exact ⟨hg, hheld h.walking, hsame, ⟨hfl.1, fun ht => hfl.2 (hsame.isTable_iff.mp ht)⟩,
    Function.update_self _ _ _⟩

theorem Held.linkTable {r : Unit} (h : Held m c R S w) (hl : CanLink w.space q t i a)
    (hrole : w.role a = some .table) (hact : ActOf m c (.linkTable t i a) w r w') :
    MmuGuar m c R w w' ∧ Held m c R S w' ∧ w'.space.table (i :: q) = some a := by
  obtain ⟨-, rfl⟩ := hact.eq rfl
  have hwf := h.inv.wf
  obtain ⟨hg, hheld⟩ := h.update _ _ _ w.brokeOff w.unlinked _ (hwf.link hl) rfl rfl
    (fun b hb => ((isTable_link hwf hl).mp hb).elim (h.inv.table b) (fun hba => hba ▸ hrole))
    (fun pg _ => leaf_link hwf hl pg) h.cleared h.stale
    (fun pg hpg => (leaf_link hwf hl pg).trans (h.inv.flush.unmapped pg hpg)) (fun _ ha => ha)
    (fun q' t' hq' ht' => by
      refine Or.inl ?_
      rw [table_link hwf hl hq', if_neg, ht']
      rintro rfl
      rw [hl.free] at ht'
      exact absurd ht' (by simp)) fun _ _ _ _ => h.walking
  exact ⟨hg, hheld h.walking, (table_link hwf hl (by simpa using hl.depth)).trans (if_pos rfl)⟩

/-- Taking a table out of the tree; its own copies in the caches survive it. -/
theorem Held.unlinkTable {r : Unit} (h : Held m c R S w)
    (hu : CanUnlink w.space q t i a) (hact : ActOf m c (.unlinkTable t i) w r w') :
    MmuGuar m c R w w' ∧ Held m c R S w' ∧ w'.space.table q = some t ∧ Floating w' a := by
  obtain ⟨-, rfl⟩ := hact.eq rfl
  have hwf := h.inv.wf
  have hrole := h.inv.table a ⟨i :: q, by simpa using hu.depth, hu.child⟩
  have hchild : w.space.mem t i &&& addrMask = a := by
    have hv : w.space.mem t i &&& 3#64 = 3#64 := by
      rw [hwf.mem_of_table_some hu.depth hu.parent hu.child]
      exact tableDesc_and_three a
    have hnext := (table_cons hu.parent).symm.trans hu.child
    rwa [nextTable_of_valid hv, Option.some_inj] at hnext
  obtain ⟨hg, hheld⟩ := h.update _ _ _ w.brokeOff ((w.space.mem t i &&& addrMask) :: w.unlinked) _
    (hwf.unlink hu) rfl rfl (fun b hb => h.inv.table b ((isTable_unlink hwf hu).mp hb).1)
    (fun pg _ => leaf_unlink hwf hu pg) h.cleared h.stale
    (fun pg hpg => (leaf_unlink hwf hu pg).trans (h.inv.flush.unmapped pg hpg))
    (fun _ ha => List.mem_cons_of_mem _ ha) (fun q' t' hq' ht' => by
      rw [table_unlink hwf hu hq', hchild]
      by_cases hq : q' = i :: q
      · rw [hq, hu.child, Option.some_inj] at ht'
        exact Or.inr (ht' ▸ List.mem_cons_self)
      · exact Or.inl ((if_neg hq).trans ht')) fun _ _ _ _ => h.walking
  refine ⟨hg, hheld h.walking, ?_, hrole, fun hb => ((isTable_unlink hwf hu).mp hb).2 rfl⟩
  refine (table_unlink hwf hu (by have := hu.depth; omega)).trans
    ((if_neg fun hq => ?_).trans hu.parent)
  have := congrArg List.length hq
  simp at this

/-- Mapping a page; nothing is stale when the code does it. -/
theorem Held.setPage {r : Unit} {desc : U64} (h : Held m c R (fun _ => False) w)
    (ht : w.space.table pg.l3Path = some t) (hR : R pg) (hd : desc &&& 3#64 = 3#64)
    (hact : ActOf m c (.setPage pg t desc) w r w') :
    MmuGuar m c R w w' ∧ Held m c R (fun _ => False) w' ∧ w'.space.leaf pg = desc := by
  obtain ⟨-, rfl⟩ := hact.eq rfl
  have hwf := h.inv.wf
  have hleaf := leaf_storeLeaf (w := desc) hwf ht
  obtain ⟨hg, hheld⟩ := h.update _ _ _ w.brokeOff w.unlinked _ (hwf.storeLeaf ht (Or.inr hd)) rfl
    rfl (fun b hb => h.inv.table b ((isTable_storeLeaf hwf ht).mp hb))
    (fun pg' hpg' => by rw [hleaf, if_neg]; rintro rfl; exact hpg' hR) h.cleared h.stale
    (fun pg' hpg' => (h.stale pg' (h.cleared pg' hpg')).elim) (fun _ ha => ha)
    (fun q' t' hq' ht' => Or.inl ((table_storeLeaf hwf ht hq').trans ht')) fun _ _ _ _ => h.walking
  exact ⟨hg, hheld h.walking, (hleaf pg).trans (if_pos rfl)⟩

/-- Clearing a page leaves it to be invalidated. -/
theorem Held.clearPage {r : Unit} (h : Held m c R S w) (ht : w.space.table pg.l3Path = some t)
    (hR : R pg) (hact : ActOf m c (.clearPage pg t) w r w') :
    MmuGuar m c R w w' ∧ Held m c R (fun pg' => S pg' ∨ pg' = pg) w' ∧
      ∀ q, q.length ≤ 2 → w'.space.table q = w.space.table q := by
  obtain ⟨-, rfl⟩ := hact.eq rfl
  have hwf := h.inv.wf
  have hleaf := leaf_storeLeaf (w := 0) hwf ht
  have htable : ∀ q, q.length ≤ 2 → (w.space.store t pg.l3 0).table q = w.space.table q :=
    fun q hq => table_storeLeaf hwf ht hq
  obtain ⟨hg, hheld⟩ := h.update _ (pg :: w.cleared) (pg :: w.stale) w.brokeOff w.unlinked
    (fun pg' => S pg' ∨ pg' = pg) (hwf.storeLeaf ht (Or.inl rfl)) rfl rfl
    (fun b hb => h.inv.table b ((isTable_storeLeaf hwf ht).mp hb))
    (fun pg' hpg' => by rw [hleaf, if_neg]; rintro rfl; exact hpg' hR)
    (List.forall_mem_cons.mpr ⟨List.mem_cons_self, fun pg' hpg' =>
      List.mem_cons_of_mem _ (h.cleared pg' hpg')⟩)
    (List.forall_mem_cons.mpr ⟨Or.inr rfl, fun pg' hpg' => Or.inl (h.stale pg' hpg')⟩)
    (List.forall_mem_cons.mpr ⟨(hleaf pg).trans (if_pos rfl), fun pg' hpg' => by
      rw [hleaf]
      split
      · rfl
      · exact h.inv.flush.unmapped pg' hpg'⟩) (fun _ ha => ha)
    (fun q' t' hq' ht' => Or.inl ((htable q' hq').trans ht')) fun _ _ _ _ => h.walking
  exact ⟨hg, hheld h.walking, htable⟩

end GamingConsole
