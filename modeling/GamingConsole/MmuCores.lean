/-
Each function of `mmu.cpp`, safe among other cores.

`MmuSafe m c R p Q w`: from `w`, whatever the other cores do between the actions
of `p`, every action keeps the invariant, touches nothing of theirs and no page
outside `R`, and `p` ends in `Q`.  There is one lemma for each function, in the
order of the source; `safe_map` and `safe_unmap` are the whole calls.
-/
import GamingConsole.MmuSafe

namespace GamingConsole

open Space Prog

variable {m : Mode} {c : ℕ} {R S : Page → Prop} {w w' : World} {a t : U64}
  {q : List (Fin 512)} {i : Fin 512} {pg : Page} {α β : Type}

/-- A program of the allocator or of the page tables is safe. -/
abbrev MmuSafe (m : Mode) (c : ℕ) (R : Page → Prop) (p : KProg α) (Q : α → World → Prop)
    (w : World) : Prop := Safe (Rely m c) (MmuGuar m c R) (ActOf m c) Q p w

/-- An action that only reads, under a guarantee that staying put meets. -/
theorem safe_stay {e : Action} {f : e.Answer → KProg β} {P : World → Prop} {Q : β → World → Prop}
    {G : World → World → Prop} (val : World → e.Answer)
    (hval : ∀ w, World.perform c e w = some (val w, w)) (hs : P w) (hP : Stable (Rely m c) P)
    (hG : ∀ w, P w → G w w) (h : ∀ w, P w → Safe (Rely m c) G (ActOf m c) Q (f (val w)) w) :
    Safe (Rely m c) G (ActOf m c) Q (act e >>= f) w := by
  refine Safe.step hs hP fun w₁ hw₁ r w₂ hact => ?_
  obtain ⟨rfl, rfl⟩ := hact.eq (hval w₁)
  exact ⟨hG _ hw₁, h _ hw₁⟩

theorem safe_read {e : Action} {f : e.Answer → KProg β} {P : World → Prop} {Q : β → World → Prop}
    (val : World → e.Answer) (hval : ∀ w, World.perform c e w = some (val w, w))
    (hs : P w) (hP : Stable (Rely m c) P) (hinv : ∀ w, P w → Inv m w)
    (h : ∀ w, P w → MmuSafe m c R (f (val w)) Q w) :
    MmuSafe m c R (act e >>= f) Q w :=
  safe_stay val hval hs hP (fun w hw => (hinv w hw).guar_refl) h

/-! ### Frames -/

theorem perform_alloc : World.perform c .pmmAlloc w =
    some ((Pmm.allocFrame w.space.pmm).1, w.after c
      (w.kernel.withSpace { w.space with pmm := (Pmm.allocFrame w.space.pmm).2 }) .pmmAlloc
      (Pmm.allocFrame w.space.pmm).1) := rfl

theorem perform_alloc_none (h : Pmm.allocFrame w.space.pmm = (0, w.space.pmm)) :
    World.perform c .pmmAlloc w = some ((0 : U64), w) := by
  rw [perform_alloc, h, World.after, if_pos rfl]
  rfl

theorem perform_alloc_some {f : ℕ}
    (h : Pmm.allocFrame w.space.pmm = (w.space.pmm.frame f, w.space.pmm.mark f))
    (hne : w.space.pmm.frame f ≠ 0) :
    World.perform c .pmmAlloc w = some (w.space.pmm.frame f,
      { w with
        kernel := w.kernel.withSpace { w.space with pmm := w.space.pmm.mark f }
        role := Function.update w.role (w.space.pmm.frame f) (some (w.roleFor c)) }) := by
  rw [perform_alloc, h, World.after, if_neg hne]

/-- A frame that the page-table code gets belongs to the tables and is not in the
tree. -/
theorem Held.alloc {r : U64} (h : Held m c R S w) (hact : ActOf m c .pmmAlloc w r w') :
    MmuGuar m c R w w' ∧ Held m c R S w' ∧ SameTables w.space w'.space ∧
      w'.kernel.lock = w.kernel.lock ∧ (r ≠ 0 → Floating w' r) ∧
      (r = 0 → m.backed → w'.kernel.lock .heapLock ≠ some c) := by
  rcases Pmm.allocFrame_cases h.inv.wf.pmm with ⟨hall, heq⟩ | ⟨f, hf, hb, -, heq⟩
  · obtain ⟨rfl, rfl⟩ := hact.eq (perform_alloc_none heq)
    refine ⟨h.inv.guar_refl, h, ⟨rfl, fun _ _ => rfl⟩, rfl, fun h0 => absurd rfl h0, ?_⟩
    exact fun _ hm hl => hact.1 hm.2 h.lock hl (Pmm.freeCount_eq_zero_iff.mpr hall)
  · have hne := Pmm.frame_ne_zero h.inv.wf.pmm hf
    obtain ⟨rfl, rfl⟩ := hact.eq (perform_alloc_some heq hne)
    have hg := h.inv.guar_allocFrame (R := R) (c := c) hf hb
    refine ⟨hg, ⟨hg.inv, h.lock, h.cleared, h.stale, h.walking, h.clear⟩, sameTables_pmm _, rfl,
      fun _ => ?_, fun h0 => absurd h0 hne⟩
    refine ⟨?_, fun ht => ?_⟩
    · rw [World.roleFor, if_pos h.lock]
      exact Function.update_self _ _ _
    · have := (Pmm.used_frame_iff h.inv.wf.pmm hf).mp
        (h.inv.wf.used _ ((sameTables_pmm _).isTable_iff.mp ht))
      rw [hb] at this
      exact absurd this (by simp)

/-- A fact about the words of the tables. -/
def OfTables (F : Space → Prop) : Prop := ∀ s s', SameTables s s' → F s → F s'

theorem ofTables_table (hq : q.length ≤ 2) (o : Option U64) :
    OfTables fun s => s.table q = o := fun _ _ h hs => (h.table hq).trans hs

theorem OfTables.and {F G : Space → Prop} (hF : OfTables F) (hG : OfTables G) :
    OfTables fun s => F s ∧ G s := fun s s' h hs => ⟨hF s s' h hs.1, hG s s' h hs.2⟩

theorem ofTables_leaf (pg : Page) (d : U64) : OfTables fun s => s.leaf pg = d :=
  fun _ _ h hs => (h.leaf pg).trans hs

theorem ofTables_true : OfTables fun _ => True := fun _ _ _ _ => trivial

variable {F : Space → Prop}

theorem Held.stable (hF : OfTables F) :
    Stable (Rely m c) fun w => Held m c R S w ∧ F w.space :=
  Held.stable_and fun _ _ hu => hF _ _ hu.tables

theorem Flushing.stable (hF : OfTables F) :
    Stable (Rely m c) fun w => Flushing m c S w ∧ F w.space :=
  Flushing.stable_and fun _ _ hu => hF _ _ hu.tables

theorem safe_allocFrame (hF : OfTables F) (h : Held m c R S w) (hf : F w.space) :
    MmuSafe m c R allocFrame (fun r w => (Held m c R S w ∧ F w.space) ∧ (r ≠ 0 → Floating w r) ∧
      (r = 0 → m.backed → w.kernel.lock .heapLock ≠ some c)) w := by
  refine safe_pmmCritical (P := fun w => Held m c R S w ∧ F w.space) (fun _ _ h => h)
    (Held.stable hF) (fun r => ?_)
    (fun _ h => h.1.inv) (fun _ _ h => h.1.1.inv) (fun _ _ _ h hi => ⟨h.1.relock_pmm hi, h.2⟩)
    (fun r _ _ _ h hi => ⟨⟨h.1.1.relock_pmm hi, h.1.2⟩, h.2.1, ?_⟩)
      (fun w r w' hw hact => ?_) ⟨h, hf⟩
  · intro w w' hw hr
    have hu := Rely.undisturbed hw.1.1.inv hw.1.1.lock hr
    exact ⟨Held.stable hF _ _ hw.1 hr, fun h0 => hu.floating (hw.2.1 h0),
      fun h0 hm hl => hw.2.2 h0 hm ((hu.lock _).mp hl)⟩
  · rw [World.relock_lock_of_ne (by decide)]
    exact h.2.2
  · obtain ⟨hg, hh, hs, hl, h1, h2⟩ := hw.1.alloc hact
    exact ⟨hg, ⟨⟨hh, hF _ _ hs hw.2⟩, h1, h2⟩, hl⟩

/-- `free_frame` on a table that has been taken out of the tree. -/
theorem safe_freeFrame_table (hF : OfTables F) (h : Held m c R S w) (hf : F w.space)
    (hfl : Floating w a) :
    MmuSafe m c R (freeFrame a) (fun _ w => Held m c R S w ∧ F w.space) w := by
  have hP : Stable (Rely m c) fun w => Held m c R S w ∧ F w.space ∧ Floating w a :=
    Held.stable_and fun _ _ hu hw => ⟨hF _ _ hu.tables hw.1, hu.floating hw.2⟩
  rw [freeFrame]
  refine safe_read (fun w => w.space.pmm.inRange a) (fun _ => rfl) ⟨h, hf, hfl⟩ hP
    (fun _ h => h.1.inv) fun w hw => ?_
  split
  · refine safe_pmmCritical (fun _ _ h => h) hP (fun _ => Held.stable hF) (fun _ h => h.1.inv)
      (fun _ _ h => h.1.inv)
      (fun _ _ _ h hi => ⟨h.1.relock_pmm hi, h.2⟩) (fun _ _ _ _ h hi => ⟨h.1.relock_pmm hi, h.2⟩)
      (fun w r w' hw hact => ?_) hw
    have hok := hact.1
    obtain ⟨-, rfl⟩ := hact.eq rfl
    obtain ⟨hinv, hfoot⟩ :=
      hw.1.inv.guar_free (c := c) hw.2.2.2 (Or.inr ⟨hw.2.2.1, hw.1.lock⟩) hok
    refine ⟨⟨hinv, hfoot, rfl, rfl, fun b r hr hb => ?_, fun pg _ => (sameTables_pmm _).leaf pg⟩,
      ⟨⟨hinv, hw.1.lock, hw.1.cleared, hw.1.stale, hw.1.walking, hw.1.clear⟩,
        hF _ _ (sameTables_pmm _) hw.2.1⟩, rfl⟩
    refine (Function.update_of_ne ?_ _ _).trans hb
    rintro rfl
    rw [hw.2.2.1, Option.some_inj] at hb
    exact hr hb.symm
  · exact Safe.ret hw hP fun w hw => ⟨hw.1, hw.2.1⟩

/-- A load of a descriptor; where it is invalid, the walk ends. -/
theorem safe_load {f : U64 → KProg β} {Q : β → World → Prop} (hF : OfTables F) (h : Held m c R S w)
    (hf : F w.space)
    (hrest : ∀ r w, F w.space → r = w.space.mem t i → (r &&& 3#64 = 3#64 → Held m c R S w) →
      (r &&& 3#64 ≠ 3#64 → Flushed m c w) → MmuSafe m c R (f r) Q w) :
    MmuSafe m c R (act (.load t i) >>= f) Q w := by
  refine Safe.step ⟨h, hf⟩ (Held.stable hF) fun w hw r w' hact => ?_
  obtain ⟨hg, hr, hspace, hvalid, hinvalid⟩ := hw.1.load hact
  exact ⟨hg, hrest r w' (by rw [hspace]; exact hw.2) (by rw [hr, hspace])
    (fun hv => hvalid (Or.inl hv)) hinvalid⟩

/-- While nothing is stale, an invalid descriptor does not end anything. -/
theorem safe_load_fresh {f : U64 → KProg β} {Q : β → World → Prop} (hF : OfTables F)
    (h : Held m c R (fun _ => False) w) (hf : F w.space)
    (hrest : ∀ r w, Held m c R (fun _ => False) w → F w.space → r = w.space.mem t i →
      MmuSafe m c R (f r) Q w) :
    MmuSafe m c R (act (.load t i) >>= f) Q w := by
  refine Safe.step ⟨h, hf⟩ (Held.stable hF) fun w hw r w' hact => ?_
  obtain ⟨hg, hr, hspace, hheld, -⟩ := hw.1.load hact
  exact ⟨hg, hrest r w' (hheld (Or.inr hw.1.stale_nil)) (by rw [hspace]; exact hw.2)
    (by rw [hr, hspace])⟩

/-! ### Tables -/

/-- `_get_or_alloc_table`, for the table at `i :: q`. -/
theorem safe_getOrAllocTable (hq : q.length ≤ 1) (h : Held m c R (fun _ => False) w)
    (ht : w.space.table q = some t) :
    MmuSafe m c R (getOrAllocTable t i) (fun r w => Held m c R (fun _ => False) w ∧
      (r ≠ 0 → w.space.table (i :: q) = some r) ∧
      (r = 0 → m.backed → w.kernel.lock .heapLock ≠ some c)) w := by
  have hlen : (i :: q).length ≤ 2 := by simpa using hq
  have hq2 : q.length ≤ 2 := by omega
  have hQ : ∀ r, Stable (Rely m c) fun w => Held m c R (fun _ => False) w ∧
      (r ≠ 0 → w.space.table (i :: q) = some r) ∧
      (r = 0 → m.backed → w.kernel.lock .heapLock ≠ some c) :=
    fun r => Held.stable_and fun _ _ hu hw => ⟨fun h0 => (hu.table_eq hlen).trans (hw.1 h0),
      fun h0 hm hl => hw.2 h0 hm ((hu.lock _).mp hl)⟩
  rw [getOrAllocTable]
  refine safe_load_fresh (ofTables_table hq2 _) h ht fun entry w h ht hentry => ?_
  have htable : w.space.table (i :: q) = nextTable entry := by rw [table_cons ht, hentry]
  split
  · rename_i hvalid
    rw [nextTable, if_pos hvalid] at htable
    refine Safe.ret (P := fun w' => Held m c R (fun _ => False) w' ∧
      w'.space.table (i :: q) = some (entry &&& addrMask)) ⟨h, htable⟩
      (Held.stable (ofTables_table hlen _)) fun w' hw' => ⟨hw'.1, fun _ => hw'.2, fun h0 => ?_⟩
    exact absurd h0 ((hw'.1.inv.wf.table_used hlen hw'.2).ne_zero hw'.1.inv.wf.pmm)
  · rename_i hinvalid
    rw [nextTable, if_neg hinvalid] at htable
    refine Safe.bind (safe_allocFrame ((ofTables_table hq2 _).and (ofTables_table hlen _)) h
      ⟨ht, htable⟩) fun child w hw => ?_
    by_cases hc : child = 0
    · rw [if_pos hc]
      exact Safe.ret (P := fun w => Held m c R (fun _ => False) w ∧
          (child ≠ 0 → w.space.table (i :: q) = some 0) ∧
          (child = 0 → m.backed → w.kernel.lock .heapLock ≠ some c))
        ⟨hw.1.1, fun h0 => absurd hc h0, hw.2.2⟩
        (Held.stable_and fun _ _ hu hw => ⟨fun h0 => absurd hc h0,
          fun h0 hm hl => hw.2 h0 hm ((hu.lock _).mp hl)⟩)
        fun w hw => ⟨hw.1, fun h0 => absurd rfl h0, fun _ => hw.2.2 hc⟩
    · rw [if_neg hc]
      -- while it is not linked the new table is nobody else's
      refine Safe.step (P := fun w => Held m c R (fun _ => False) w ∧ (w.space.table q = some t ∧
        w.space.table (i :: q) = none) ∧ Floating w child) ⟨hw.1.1, hw.1.2, hw.2.1 hc⟩
        (Held.stable_and fun _ _ hu hw => ⟨⟨(hu.table_eq hq2).trans hw.1.1,
          (hu.table_eq hlen).trans hw.1.2⟩, hu.floating hw.2⟩) fun w hw _ w' hact => ?_
      obtain ⟨h, ⟨ht, hnone⟩, hfl⟩ := hw
      obtain ⟨hg, hheld, hsame, hfl', hzero⟩ := h.zeroTable hfl hact
      refine ⟨hg, Safe.step (P := fun w => Held m c R (fun _ => False) w ∧
          (w.space.table q = some t ∧ w.space.table (i :: q) = none) ∧ Floating w child ∧
          w.space.mem child = fun _ => 0)
        ⟨hheld, ⟨(hsame.table hq2).trans ht, (hsame.table hlen).trans hnone⟩, hfl', hzero⟩
        (Held.stable_and fun _ _ hu hw => ⟨⟨(hu.table_eq hq2).trans hw.1.1,
          (hu.table_eq hlen).trans hw.1.2⟩, hu.floating hw.2.1,
          (hu.mmu.mem child hw.2.1.1).trans hw.2.2⟩) fun w hw _ w' hact => ?_⟩
      obtain ⟨h, ⟨ht, hnone⟩, hfl, hzero⟩ := hw
      have hused : w.space.pmm.Used child := (h.inv.used child).mpr (by rw [hfl.1]; simp)
      obtain ⟨hg, hheld, hchild⟩ := h.linkTable ⟨hq, ht, hnone, hused, hfl.2, hzero⟩ hfl.1 hact
      exact ⟨hg, Safe.ret (P := fun w => Held m c R (fun _ => False) w ∧
          w.space.table (i :: q) = some child)
        ⟨hheld, hchild⟩ (Held.stable (ofTables_table hlen _))
        fun w hw => ⟨hw.1, fun _ => hw.2, fun h0 => absurd h0 hc⟩⟩

/-- The code that drops the table `a` at `i :: q` when it is empty. -/
theorem safe_freeIfEmpty (hq : q.length ≤ 1) (h : Held m c R S w) (ht : w.space.table q = some t)
    (ha : w.space.table (i :: q) = some a) :
    MmuSafe m c R (freeIfEmpty t i a) (fun _ w => Held m c R S w ∧ w.space.table q = some t) w := by
  have hlen : (i :: q).length ≤ 2 := by simpa using hq
  have hq2 : q.length ≤ 2 := by omega
  have hF := (ofTables_table hq2 (some t)).and (ofTables_table hlen (some a))
  rw [freeIfEmpty]
  refine safe_read (fun w => w.space.tableIsEmpty a) (fun _ => rfl) ⟨h, ht, ha⟩ (Held.stable hF)
    (fun _ h => h.1.inv) fun w hw => ?_
  obtain ⟨h, ht, ha⟩ := hw
  split
  · rename_i hempty
    have hzero : ∀ j, w.space.mem a j = 0 := tableIsEmpty_iff.mp hempty
    refine Safe.step (P := fun w => Held m c R S w ∧ (w.space.table q = some t ∧
      w.space.table (i :: q) = some a) ∧ w.space.mem a = fun _ => 0) ⟨h, ⟨ht, ha⟩, funext hzero⟩
      (Held.stable_and fun w w' hu hw => ⟨⟨(hu.table_eq hq2).trans hw.1.1,
        (hu.table_eq hlen).trans hw.1.2⟩, (hu.tables.mem a ⟨_, hlen, hw.1.2⟩).trans hw.2⟩)
      fun w hw _ w' hact => ?_
    obtain ⟨h, ⟨ht, ha⟩, hzero⟩ := hw
    obtain ⟨hg, hheld, ht', hfl⟩ := h.unlinkTable ⟨hq, ht, ha, hzero⟩ hact
    exact ⟨hg, safe_freeFrame_table (ofTables_table hq2 _) hheld ht' hfl⟩
  · exact Safe.ret (P := fun w => Held m c R S w ∧ w.space.table q = some t) ⟨h, ht⟩
      (Held.stable (ofTables_table hq2 _)) fun w hw => hw

/-- The L1 table stays where it is. -/
theorem safe_frame_root {p : KProg α} {Q : α → World → Prop} {t : U64} (hinv : Inv m w)
    (hp : MmuSafe m c R p Q w) (ht : w.space.l1Table = t) :
    MmuSafe m c R p (fun a w => Q a w ∧ w.space.l1Table = t) w := by
  refine (Safe.frame (A := fun w => Inv m w ∧ w.space.l1Table = t) hp ⟨hinv, ht⟩ ?_ ?_).mono
    (fun _ _ h => h) fun _ _ h => ⟨h.1, h.2.2⟩
  · intro w w' hw hr
    obtain ⟨u, -, hf⟩ := Rely.foot hw.1 hr
    exact ⟨hr.1, hf.root.trans hw.2⟩
  · exact fun w w' hw hg => ⟨hg.inv, hg.foot.root.trans hw.2⟩

/-! ### Pages -/

/-- One iteration of the loop of `map`. -/
theorem safe_mapPage {va phys flags : U64} (hR : R (pageOf va))
    (h : Held m c R (fun _ => False) w) :
    MmuSafe m c R (mapPage va phys flags) (fun r w => Held m c R (fun _ => False) w ∧
      (r = true → w.space.leaf (pageOf va) = phys ||| flags ||| 3#64) ∧
      (r = false → m.backed → w.kernel.lock .heapLock ≠ some c)) w := by
  have hstable : ∀ p : Prop, Stable (Rely m c) fun w => Held m c R (fun _ => False) w ∧
      (p → m.backed → w.kernel.lock .heapLock ≠ some c) :=
    fun p => Held.stable_and fun _ _ hu hw hp hm hl => hw hp hm ((hu.lock _).mp hl)
  rw [mapPage]
  refine safe_read (fun w => w.space.l1Table) (fun _ => rfl) ⟨h, trivial⟩
    (Held.stable ofTables_true) (fun _ h => h.1.inv) fun w hw => ?_
  refine Safe.bind (safe_getOrAllocTable (q := []) (t := w.space.l1Table) (by simp) hw.1 table_nil)
    fun l2Table w hw => ?_
  by_cases h2 : l2Table = 0
  · rw [if_pos h2]
    exact Safe.ret ⟨hw.1, hw.2.2⟩ (hstable _)
      fun w hw => ⟨hw.1, fun hf => absurd hf (by simp), fun _ => hw.2 h2⟩
  · rw [if_neg h2]
    refine Safe.bind (safe_getOrAllocTable (q := [l1Index va]) (by simp) hw.1 (hw.2.1 h2))
      fun l3Table w hw => ?_
    by_cases h3 : l3Table = 0
    · rw [if_pos h3]
      exact Safe.ret ⟨hw.1, hw.2.2⟩ (hstable _)
        fun w hw => ⟨hw.1, fun hf => absurd hf (by simp), fun _ => hw.2 h3⟩
    · rw [if_neg h3]
      have hlen : (pageOf va).l3Path.length ≤ 2 := by simp [Page.l3Path]
      refine Safe.step (P := fun w => Held m c R (fun _ => False) w ∧
        w.space.table (pageOf va).l3Path = some l3Table) ⟨hw.1, hw.2.1 h3⟩
        (Held.stable (ofTables_table hlen _)) fun w hw _ w' hact => ?_
      obtain ⟨hg, hheld, hleaf⟩ := hw.1.setPage hw.2 hR (tableDesc_and_three (phys ||| flags)) hact
      exact ⟨hg, Safe.ret ⟨hheld, hleaf⟩ (Held.stable (ofTables_leaf _ _))
        fun w hw => ⟨hw.1, fun _ => hw.2, fun hf => absurd hf (by simp)⟩⟩

/-- One iteration of the first loop of `_unmap_locked`. -/
theorem safe_unmapPage {va : U64} (hR : R (pageOf va)) (h : Held m c R S w) :
    MmuSafe m c R (unmapPage va) (fun r w =>
      (r = true → Held m c R (fun pg => S pg ∨ pg = pageOf va) w) ∧
      (r = false → Flushed m c w)) w := by
  have hret : ∀ {w : World}, Flushed m c w →
      MmuSafe m c R (pure false) (fun r w =>
        (r = true → Held m c R (fun pg => S pg ∨ pg = pageOf va) w) ∧
        (r = false → Flushed m c w)) w :=
    fun h => Safe.ret ⟨h, trivial⟩ (Flushing.stable ofTables_true)
      fun w hw => ⟨fun hf => absurd hf (by simp), fun _ => hw.1⟩
  -- the tables on the way are known from load to load, since others store to none of them
  have hroot := ofTables_table (q := []) (by simp) (some w.space.l1Table)
  rw [unmapPage]
  refine safe_read (P := fun w' => Held m c R S w' ∧ w'.space.table [] = some w.space.l1Table)
    (fun w => w.space.l1Table) (fun _ => rfl) ⟨h, rfl⟩ (Held.stable hroot) (fun _ h => h.1.inv)
    fun w₁ hw₁ => ?_
  rw [show w₁.space.l1Table = w.space.l1Table from Option.some_inj.mp hw₁.2]
  refine safe_load hroot hw₁.1 hw₁.2 fun l1Desc w₁ ht1 hd1 hheld hbroke => ?_
  split
  · rename_i hv
    exact hret (hbroke hv)
  · rename_i hv
    rw [not_not] at hv
    have h := hheld hv
    rw [hd1] at hv
    have ht2 := table_of_valid (i := l1Index va) ht1 hv
    rw [← hd1] at ht2
    refine safe_load (hroot.and (ofTables_table (by simp) _)) h ⟨ht1, ht2⟩
      fun l2Desc w₂ ht hd2 hheld hbroke => ?_
    obtain ⟨ht1, ht2⟩ := ht
    split
    · rename_i hv
      exact hret (hbroke hv)
    · rename_i hv
      rw [not_not] at hv
      have h := hheld hv
      rw [hd2] at hv
      have ht3 := table_of_valid (i := l2Index va) ht2 hv
      rw [← hd2] at ht3
      have hlen : (pageOf va).l3Path.length ≤ 2 := by simp [Page.l3Path]
      refine Safe.step ⟨h, ht1, ht2, ht3⟩ (Held.stable (hroot.and
        ((ofTables_table (by simp) _).and (ofTables_table hlen _)))) fun w₃ hw₃ _ w' hact => ?_
      obtain ⟨h, ht1, ht2, ht3⟩ := hw₃
      obtain ⟨hg, hheld, htable⟩ := h.clearPage ht3 hR hact
      have hroot' : w'.space.l1Table = w.space.l1Table :=
        hg.foot.root.trans (Option.some_inj.mp ht1)
      refine ⟨hg, Safe.bind
        (safe_frame_root hheld.inv (safe_freeIfEmpty (q := [l1Index va]) (by simp)
        hheld ((htable _ (by simp)).trans ht2) ((htable _ hlen).trans ht3)) hroot')
        fun _ w₄ hw₄ => ?_⟩
      obtain ⟨⟨h, ht2⟩, hroot⟩ := hw₄
      refine Safe.bind (safe_freeIfEmpty (q := []) (t := w.space.l1Table) (by simp) h ?_ ht2)
        fun _ w₅ hw₅ => ?_
      · rw [table_nil, hroot]
      · exact Safe.ret ⟨hw₅.1, trivial⟩ (Held.stable ofTables_true)
          fun w hw => ⟨fun _ => hw.1, fun hf => absurd hf (by simp)⟩

/-! ### Loops -/

/-- The first `n` pages of a range. -/
def Upto (va : U64) (n : ℕ) (pg : Page) : Prop := ∃ j < n, pg = pageAt va j

theorem Upto.mono {va : U64} {n n' : ℕ} (hn : n ≤ n') {pg : Page} (h : Upto va n pg) :
    Upto va n' pg := by
  obtain ⟨j, hj, rfl⟩ := h
  exact ⟨j, by omega, rfl⟩

/-- The first loop of `_unmap_locked`. -/
theorem safe_unmapPages {va : U64} : ∀ (n i : ℕ) (w : World), (∀ j < i + n, R (pageAt va j)) →
    Held m c R (Upto va i) w → MmuSafe m c R (unmapPages va n i)
      (fun r w => (r = true → Held m c R (Upto va (i + n)) w) ∧ (r = false → Flushed m c w)) w := by
  intro n
  induction n with
  | zero =>
    exact fun i w _ h => Safe.ret ⟨h, trivial⟩ (Held.stable ofTables_true)
      fun w hw => ⟨fun _ => hw.1, fun hf => absurd hf (by simp)⟩
  | succ n ih =>
    intro i w hR h
    rw [unmapPages]
    refine Safe.bind (safe_unmapPage (R := R) (hR i (by omega)) h) fun found w hw => ?_
    cases found with
    | true =>
      have hheld : Held m c R (Upto va (i + 1)) w := (hw.1 rfl).mono fun pg hpg => by
        rcases hpg with hpg | rfl
        · exact hpg.mono (by omega)
        · exact ⟨i, by omega, rfl⟩
      rw [if_pos rfl, show i + (n + 1) = i + 1 + n by omega]
      exact ih (i + 1) w (fun j hj => hR j (by omega)) hheld
    | false =>
      exact Safe.ret ⟨hw.2 rfl, trivial⟩ (Flushing.stable ofTables_true)
        fun w hw => ⟨fun hf => absurd hf (by simp), fun _ => hw.1⟩

/-- The page that an operand of `tlbi` names. -/
theorem num_tlbi (va : U64) (i : ℕ) :
    (pageAddr va i >>> 12).toNat % 2 ^ 27 = (pageAt va i).num := by
  rw [pageAt, num_pageOf, BitVec.toNat_ushiftRight, Nat.shiftRight_eq_div_pow]

/-- Invalidating a page. -/
theorem Flushing.tlbi {va : U64} {i n : ℕ} {r : Unit}
    (h : Flushing m c (fun pg => ∃ j, i ≤ j ∧ j < n ∧ pg = pageAt va j) w)
    (hact : ActOf m c (.tlbi (pageAddr va i >>> 12)) w r w') :
    MmuGuar m c R w w' ∧ Flushing m c (fun pg => ∃ j, i + 1 ≤ j ∧ j < n ∧ pg = pageAt va j) w' ∧
      w'.space = w.space := by
  obtain ⟨-, rfl⟩ := hact.eq rfl
  -- the operand names the page by 27 bits, which are all that a page has
  have hstale : ∀ pg, pg ∈ w.stale.filter (fun pg => pg.num ≠ (pageAddr va i >>> 12).toNat % 2 ^ 27)
      ↔ pg ∈ w.stale ∧ pg ≠ pageAt va i := by
    intro pg
    rw [num_tlbi, List.mem_filter, decide_eq_true_iff]
    exact and_congr_right fun _ => not_congr ⟨Page.num_inj, fun he => by rw [he]⟩
  have htlb : ∀ e, e ∈ w.tlb.filter (fun e => e.page.num ≠ (pageAddr va i >>> 12).toNat % 2 ^ 27)
      ↔ e ∈ w.tlb ∧ e.page ≠ pageAt va i := by
    intro e
    rw [num_tlbi, List.mem_filter, decide_eq_true_iff]
    exact and_congr_right fun _ => not_congr ⟨Page.num_inj, fun he => by rw [he]⟩
  have hinv : Inv m { w with
      tlb := w.tlb.filter fun e => e.page.num ≠ (pageAddr va i >>> 12).toNat % 2 ^ 27
      stale := w.stale.filter fun pg => pg.num ≠ (pageAddr va i >>> 12).toNat % 2 ^ 27 } := by
    refine ⟨h.inv.wf, h.inv.active, h.inv.used, h.inv.table,
      ⟨fun e he hc => ?_, h.inv.flush.unmapped, fun hl => ?_⟩,
      fun e he => h.inv.cached e ((htlb e).mp he).1,
      fun hm => (h.inv.heap hm).of_same rfl (fun _ _ => rfl) fun _ ha => ha,
      fun hm => ⟨fun e he => (h.inv.swept hm).named e ((htlb e).mp he).1, fun e he hl hc => ?_,
        (h.inv.swept hm).left⟩⟩
    · obtain ⟨he, hne⟩ := (htlb e).mp he
      exact (h.inv.flush.fresh e he hc).imp_left fun hs => (hstale _).mpr ⟨hs, hne⟩
    · have hl' : w.kernel.lock .mmuLock = none := hl
      rw [h.lock] at hl'
      exact absurd hl' (by simp)
    · -- what is cached for a page is removed with its mark
      obtain ⟨he, hne⟩ := (htlb e).mp he
      obtain ⟨hs, hwalk⟩ := (h.inv.swept hm).pending e he hl hc
      exact ⟨(hstale _).mpr ⟨hs, hne⟩, hwalk⟩
  refine ⟨⟨hinv, ⟨fun _ _ _ => Iff.rfl, Pmm.SameGeometry.refl _, rfl, fun d hd hl => ?_,
    fun _ _ _ => ⟨rfl, rfl, fun _ => Iff.rfl, fun _ _ _ => rfl⟩, fun _ _ _ => Iff.rfl⟩,
    ⟨rfl, rfl, fun _ _ _ hr => hr, fun _ _ => rfl⟩⟩,
    ⟨hinv, h.lock, h.stale.imp_right fun hst pg hpg => ?_⟩, rfl⟩
  · rw [h.lock, Option.some_inj] at hl
    exact absurd hl.symm hd
  · obtain ⟨hpg, hne⟩ := (hstale pg).mp hpg
    obtain ⟨j, hj1, hj2, rfl⟩ := hst pg hpg
    refine ⟨j, ?_, hj2, rfl⟩
    rcases Nat.lt_or_ge i j with hlt | hge
    · exact hlt
    · exact absurd (by rw [show j = i by omega]) hne

/-- The invalidation loop. -/
theorem safe_tlbiPages {va : U64} (hF : OfTables F) : ∀ (n i : ℕ) (w : World),
    Flushing m c (fun pg => ∃ j, i ≤ j ∧ j < i + n ∧ pg = pageAt va j) w → F w.space →
    MmuSafe m c R (tlbiPages va n i) (fun _ w => Flushed m c w ∧ F w.space) w := by
  intro n
  induction n with
  | zero =>
    intro i w h hf
    refine Safe.ret (P := fun w => Flushed m c w ∧ F w.space) ⟨h.mono ?_, hf⟩
      (Flushing.stable hF) fun w hw => hw
    rintro pg - ⟨j, h1, h2, -⟩
    omega
  | succ n ih =>
    intro i w h hf
    rw [tlbiPages]
    refine Safe.step ⟨h, hf⟩ (Flushing.stable hF) fun w hw _ w' hact => ?_
    obtain ⟨hg, hfl, hspace⟩ := hw.1.tlbi hact
    rw [show i + (n + 1) = i + 1 + n by omega] at hfl
    exact ⟨hg, ih (i + 1) w' hfl (by rw [hspace]; exact hw.2)⟩

/-- `_unmap_locked`. -/
theorem safe_unmapLocked {va size : U64} (hR : ∀ j < numPages size, R (pageAt va j))
    (h : Held m c R (fun _ => False) w) :
    MmuSafe m c R (unmapLocked va size) (fun _ w => Flushed m c w) w := by
  rw [unmapLocked]
  refine Safe.bind (safe_unmapPages (numPages size) 0 w (fun j hj => hR j (by omega))
    (h.mono fun _ hF => hF.elim)) fun done w hw => ?_
  rw [Nat.zero_add] at hw
  cases done with
  | true =>
    rw [if_pos rfl]
    refine (safe_tlbiPages ofTables_true (numPages size) 0 w ((hw.1 rfl).flushing.mono ?_)
      trivial).mono (fun _ _ h => h) fun _ _ h => h.1
    rintro pg - ⟨j, hj, rfl⟩
    exact ⟨j, by omega, by omega, rfl⟩
  | false =>
    exact Safe.ret ⟨hw.2 rfl, trivial⟩ (Flushing.stable ofTables_true) fun w hw => hw.1

/-- A core that does not hold `heap_lock` does not take it here. -/
theorem safe_frame_heapLock {p : KProg α} {Q : α → World → Prop} (hinv : Inv m w)
    (hp : MmuSafe m c R p Q w) (hl : m.backed → w.kernel.lock .heapLock ≠ some c) :
    MmuSafe m c R p (fun a w => Q a w ∧ (m.backed → w.kernel.lock .heapLock ≠ some c)) w := by
  refine (Safe.frame (A := fun w => Inv m w ∧ (m.backed → w.kernel.lock .heapLock ≠ some c)) hp
    ⟨hinv, hl⟩ ?_ ?_).mono (fun _ _ h => h) fun _ _ h => ⟨h.1, h.2.2⟩
  · exact fun w w' hw hr => ⟨hr.1, fun hm he => hw.2 hm ((Rely.lock hw.1 hr _).mp he)⟩
  · exact fun w w' hw hg => ⟨hg.inv, fun hm he => hw.2 hm (hg.own.heapLock.symm.trans he)⟩

/-- The first loop of `map`. -/
theorem safe_mapPages {va phys flags : U64} : ∀ (n i : ℕ) (w : World), i + n < 2 ^ 52 →
    (∀ j < i + n, R (pageAt va j)) → Held m c R (fun _ => False) w →
    MmuSafe m c R (mapPages va phys flags n i) (fun r w =>
      (r = true → Held m c R (fun _ => False) w ∧
        (n = 1 → w.space.leaf (pageAt va i) = pageDesc phys flags i)) ∧
      (r = false → Flushed m c w ∧ (m.backed → w.kernel.lock .heapLock ≠ some c))) w := by
  intro n
  induction n with
  | zero =>
    exact fun i w _ _ h => Safe.ret ⟨h, trivial⟩ (Held.stable ofTables_true)
      fun w hw => ⟨fun _ => ⟨hw.1, fun h0 => absurd h0 (by omega)⟩, fun hf => absurd hf (by simp)⟩
  | succ n ih =>
    intro i w hi hR h
    rw [mapPages]
    refine Safe.bind (safe_mapPage (R := R) (hR i (by omega)) h) fun done w hw => ?_
    obtain ⟨h, hleaf, hfull⟩ := hw
    cases done with
    | false =>
      -- the pages that were mapped are unmapped again, and flushed
      refine Safe.bind (safe_frame_heapLock h.inv (safe_unmapLocked
        (fun j hj => hR j ?_) h) (hfull rfl)) fun _ w hw => ?_
      · rw [numPages_mul (by omega)] at hj
        omega
      · exact Safe.ret hw (Flushing.stable_and fun _ _ hu hw hm hl => hw hm ((hu.lock _).mp hl))
          fun w hw => ⟨fun hf => absurd hf (by simp), fun _ => hw⟩
    | true =>
      rw [if_pos rfl]
      cases n with
      | zero =>
        exact Safe.ret ⟨h, hleaf rfl⟩ (Held.stable (ofTables_leaf _ _))
          fun w hw => ⟨fun _ => ⟨hw.1, fun _ => hw.2⟩, fun hf => absurd hf (by simp)⟩
      | succ n =>
        exact (ih (i + 1) w (by omega) (fun j hj => hR j (by omega)) h).mono (fun _ _ h => h)
          fun r w hw => ⟨fun hr => ⟨(hw.1 hr).1, fun h0 => absurd h0 (by omega)⟩, hw.2⟩

/-- What a `map` of one page, made while growing the kernel heap, achieves. -/
def Grown (m : Mode) (c : ℕ) (va phys flags size : U64) (w : World) : Prop :=
  m.backed → w.kernel.lock .heapLock = some c → numPages size = 1 → InHeapWindow (pageAt va 0) →
    w.space.leaf (pageAt va 0) = pageDesc phys flags 0

theorem safe_mapLocked {va phys size flags : U64} (hR : ∀ j < numPages size, R (pageAt va j))
    (h : Held m c R (fun _ => False) w) :
    MmuSafe m c R (mapLocked va phys size flags)
      (fun _ w => Flushed m c w ∧ Grown m c va phys flags size w) w := by
  rw [mapLocked]
  refine Safe.bind (safe_mapPages (numPages size) 0 w (by have := numPages_lt size; omega)
    (fun j hj => hR j (by omega)) h) fun done w hw => ?_
  have hF : OfTables fun s => numPages size = 1 → s.leaf (pageAt va 0) = pageDesc phys flags 0 :=
    fun s s' hs hl hn => (hs.leaf _).trans (hl hn)
  cases done with
  | true =>
    obtain ⟨h, hleaf⟩ := hw.1 rfl
    rw [if_pos rfl]
    exact Safe.bind (safe_tlbiPages hF (numPages size) 0 w
      (h.flushing.mono fun _ _ hf => hf.elim) hleaf) fun _ w hw =>
      Safe.ret hw (Flushing.stable hF) fun w hw => ⟨hw.1, fun _ _ hn _ => hw.2 hn⟩
  | false =>
    exact Safe.ret (P := fun w => Flushed m c w ∧ (m.backed → w.kernel.lock .heapLock ≠ some c))
      (hw.2 rfl) (Flushing.stable_and fun _ _ hu hw hm hl => hw hm ((hu.lock _).mp hl))
      fun w hw => ⟨hw.1, fun hm hl => absurd hl (hw.2 hm)⟩

/-- The walk of `translate`. -/
theorem safe_translateLocked {virt : U64} (h : Held m c R (fun _ => False) w) :
    MmuSafe m c R (translateLocked virt) (fun _ w => Flushed m c w) w := by
  have hread : ∀ {t : U64} {i : Fin 512} {f : U64 → KProg U64} {w : World},
      Held m c R (fun _ => False) w →
      (∀ r w, Held m c R (fun _ => False) w → MmuSafe m c R (f r) (fun _ w => Flushed m c w) w) →
      MmuSafe m c R (act (.load t i) >>= f) (fun _ w => Flushed m c w) w :=
    fun h hf => safe_load_fresh ofTables_true h trivial fun r w h _ _ => hf r w h
  have hret : ∀ (r : U64) (w : World), Held m c R (fun _ => False) w →
      MmuSafe m c R (pure r) (fun _ w => Flushed m c w) w :=
    fun r w h => Safe.ret ⟨h, trivial⟩ (Held.stable ofTables_true) fun w hw => hw.1.flushing
  rw [translateLocked]
  refine safe_read (fun w => w.space.l1Table) (fun _ => rfl) ⟨h, trivial⟩
    (Held.stable ofTables_true) (fun _ h => h.1.inv) fun w hw => hread hw.1 fun d₁ w h => ?_
  split
  · exact hret _ w h
  · refine hread h fun d₂ w h => ?_
    split
    · exact hret _ w h
    · refine hread h fun d₃ w h => ?_
      split
      · exact hret _ w h
      · exact hret _ w h

/-! ### Critical sections of `mmu_lock` -/

theorem Flushed.done (h : Flushed m c w) : w.stale = [] ∨ w.brokeOff = true :=
  h.stale.symm.imp_left fun hst => List.eq_nil_iff_forall_not_mem.mpr hst

/-- A critical section of `mmu_lock`: taking it finds nothing stale, and nothing
may be stale when it is released. -/
theorem safe_mmuCritical {body : KProg α} {Q : α → World → Prop} (hinv : Inv m w)
    (hclear : m.backed → ClearOf c R w)
    (hbody : ∀ w, Held m c R (fun _ => False) w →
      MmuSafe m c R body (fun a w => Flushed m c w ∧ Q a w) w)
    (hQ : ∀ a, Stable (Rely m c) fun w => Inv m w ∧ Q a w)
    (hQlock : ∀ a w daif, Q a w → Q a (w.released daif)) :
    MmuSafe m c R (critical .mmuLock body)
      (fun a w => Inv m w ∧ w.kernel.lock .mmuLock ≠ some c ∧ Q a w) w := by
  refine Safe.step (P := fun w => Inv m w ∧ (m.backed → ClearOf c R w)) ⟨hinv, hclear⟩
    (fun w w' hw hr => ⟨hr.1, fun hm => (hw.2 hm).rely hw.1 hr⟩) fun w hw flags w₁ hlock => ?_
  obtain ⟨hinv, hclear⟩ := hw
  obtain ⟨hnone, daif, rfl⟩ := ActOf.spinLock hlock hinv.active
  rw [if_pos rfl]
  -- the record of what is stale starts anew with the lock
  have hinv' : Inv m
      { w.relock .mmuLock (some c) daif with cleared := [], stale := [], brokeOff := false } :=
    { hinv with
      flush := ⟨fun e _ he => absurd he (by simp), fun pg hpg => absurd hpg (by simp),
        fun hl => absurd (World.relock_lock_self.symm.trans hl) (by simp)⟩
      heap := fun hm => (hinv.heap hm).of_same rfl (fun _ _ => rfl) fun _ ha => ha
      swept := fun hm => (hinv.swept hm).of_same rfl rfl (fun _ _ _ hr => hr)
        fun e _ _ _ hpg => absurd hpg (by simp) }
  have hfoot : Foot m c w
      { w.relock .mmuLock (some c) daif with cleared := [], stale := [], brokeOff := false } :=
    { Foot.relock (m := m) (c := c) (Or.inl hnone) (Or.inr rfl) with
      mmu := fun d _ hl => by rw [hnone] at hl; exact absurd hl (by simp)
      heap := fun _ _ _ => ⟨rfl, rfl, fun _ => Iff.rfl, fun _ _ _ => rfl⟩ }
  have hheld : Held m c R (fun _ => False)
      { w.relock .mmuLock (some c) daif with cleared := [], stale := [], brokeOff := false } := by
    refine ⟨hinv', World.relock_lock_self, fun pg hpg => absurd hpg (by simp),
      fun pg hpg => absurd hpg (by simp), rfl, fun hm => ?_⟩
    rcases hclear hm with hout | ⟨hl, hnext⟩
    · exact Or.inl hout
    · exact Or.inr ⟨(World.relock_lock_of_ne (by decide)).trans hl, hnext⟩
  refine ⟨⟨hinv', hfoot, rfl, World.relock_lock_of_ne (by decide), fun _ _ _ h => h,
    fun _ _ => rfl⟩,
    Safe.bind (hbody _ hheld) fun a w hw => ?_⟩
  -- until the release nothing is stale, whatever the other cores do
  refine Safe.step (P := fun w => Flushed m c w ∧ Q a w) hw
    (fun w w' hw hr => ⟨hw.1.rely hr, (hQ a _ _ ⟨hw.1.inv, hw.2⟩ hr).2⟩) fun w hw _ w₂ hun => ?_
  obtain ⟨daif', rfl⟩ := ActOf.spinUnlock hun hw.1.inv.active
  rw [if_pos rfl]
  have hinv₂ : Inv m (w.released daif') := hw.1.inv.released hw.1.lock hw.1.done
  have hfoot₂ : Foot m c w (w.released daif') :=
    { Foot.relock (m := m) (c := c) (l := .mmuLock) (Or.inr hw.1.lock) (Or.inl rfl) with
      mmu := fun _ _ _ => ⟨fun _ _ => rfl, fun _ => Iff.rfl, rfl, rfl, rfl⟩
      heap := fun _ _ _ => ⟨rfl, rfl, fun _ => Iff.rfl, fun _ _ _ => rfl⟩ }
  have hunlocked : (w.released daif').kernel.lock .mmuLock = none := World.relock_lock_self
  refine ⟨⟨hinv₂, hfoot₂, rfl, World.relock_lock_of_ne (by decide), fun _ _ _ h => h,
    fun _ _ => rfl⟩,
    Safe.ret (P := fun w => (Inv m w ∧ Q a w) ∧ w.kernel.lock .mmuLock ≠ some c)
      ⟨⟨hinv₂, hQlock a w daif' hw.2⟩, by rw [hunlocked]; simp⟩
      (fun w w' hw hr => ⟨hQ a _ _ hw.1 hr, fun hl => hw.2 ((Rely.lock hw.1.1 hr _).mp hl)⟩)
      fun w hw => ⟨hw.1.1, hw.2, hw.1.2⟩⟩

/-- `map`. -/
theorem safe_map {va phys size flags : U64} (hinv : Inv m w) (hclear : m.backed → ClearOf c R w)
    (hR : ∀ j < numPages size, R (pageAt va j)) :
    MmuSafe m c R (map va phys size flags) (fun _ w => Inv m w ∧ w.kernel.lock .mmuLock ≠ some c ∧
      Grown m c va phys flags size w) w := by
  refine safe_mmuCritical hinv hclear (fun w h => safe_mapLocked hR h) (fun _ w w' hw hr => ?_)
    fun _ w daif hw hm hl => hw hm ((World.relock_lock_of_ne (by decide)).symm.trans hl)
  refine ⟨hr.1, fun hm hl hn hwin => ?_⟩
  have hl' := (Rely.lock hw.1 hr _).mp hl
  obtain ⟨u, hu, hf⟩ := Rely.foot hw.1 hr
  rw [(hf.heap c hu.symm hl').leaf hm _ hwin]
  exact hw.2 hm hl' hn hwin

/-- `unmap`. -/
theorem safe_unmap {va size : U64} (hinv : Inv m w) (hclear : m.backed → ClearOf c R w)
    (hR : ∀ j < numPages size, R (pageAt va j)) :
    MmuSafe m c R (unmap va size) (fun _ w => Inv m w ∧ w.kernel.lock .mmuLock ≠ some c ∧ True) w :=
  safe_mmuCritical hinv hclear (fun _ h => (safe_unmapLocked hR h).mono (fun _ _ h => h)
    fun _ _ h => ⟨h, trivial⟩) (fun _ _ _ _ hr => ⟨hr.1, trivial⟩) fun _ _ _ _ => trivial

/-- `translate`. -/
theorem safe_translate {virt : U64} (hinv : Inv m w) (hclear : m.backed → ClearOf c R w) :
    MmuSafe m c R (translate virt)
      (fun _ w => Inv m w ∧ w.kernel.lock .mmuLock ≠ some c ∧ True) w :=
  safe_mmuCritical hinv hclear (fun _ h => (safe_translateLocked h).mono (fun _ _ h => h)
    fun _ _ h => ⟨h, trivial⟩) (fun _ _ _ _ hr => ⟨hr.1, trivial⟩) fun _ _ _ _ => trivial

end GamingConsole
