/-
Whole runs of `map` and `unmap` from any reachable state in which nobody holds
the locks they take.

* `map_translates` — a `map` that succeeds adds the translations asked for and
  changes no other;
* `map_atomic_iff` — when a `map` that fails has left nothing behind;
* `unmap_undoes_map` — `unmap` after `map` restores the bitmap and every
  translation.
-/
import GamingConsole.MapUndo
import GamingConsole.Runs

namespace GamingConsole

open Space Prog BitFields

variable {b : Board} {x : Cores} {c : ℕ} {k' : Kernel} {va phys size flags : U64}

/-- The locks of the allocator and of the page tables are free. -/
structure Quiet (k : Kernel) : Prop where
  mmu : k.lock .mmuLock = none
  pmm : k.lock .pmmLock = none

theorem Quiet.free {k : Kernel} (h : Quiet k) : k.Free .mmuLock ∧ k.Free .pmmLock :=
  ⟨fun _ => h.mmu, fun _ => h.pmm⟩

/-- `translate` returns the translation in the tables. -/
theorem run_translate {k : Kernel} (hwf : k.space.WF) (hk : k.Free .mmuLock) (virt : U64) :
    run (Kernel.perform c) (translate virt) k = some (k.space.translation virt, k) := by
  obtain ⟨r, s', hrun, rfl, rfl⟩ := (alone_translate (c := c) hwf hk virt).run_eq
  exact hrun

/-! ### Successful calls of `map` -/

/-- The address of byte `off` of a mapped range. -/
theorem MapsRange.translation {s₀ s : Space} (h : MapsRange s₀ s va phys flags (numPages size))
    (hva : va.toNat % 4096 = 0) (hphys : phys.toNat % 4096 = 0)
    (hfits : phys.toNat + size.toNat ≤ 2 ^ 48) (hsize : size.toNat % 4096 = 0)
    (hmax : size.toNat ≤ 2 ^ 39) (hflags : (flags ||| 3#64).toNat < 4096) {off : ℕ}
    (hoff : off < size.toNat) :
    s.translation (va + BitVec.ofNat 64 off) = phys + BitVec.ofNat 64 off := by
  have hpages := numPages_eq size
  exact Space.translation_of_leaf hva hphys (by omega) hflags (h.inside (by omega) _ (by omega))

/-- **A successful `map` implements the translation asked for, and only that.** -/
theorem map_translates (h : Reach Mode.all b.boot x) (hquiet : Quiet x.shared.kernel)
    (hva : va.toNat % 4096 = 0) (hphys : phys.toNat % 4096 = 0)
    (hfits : phys.toNat + size.toNat ≤ 2 ^ 48) (hsize : size.toNat % 4096 = 0)
    (hmax : size.toNat ≤ 2 ^ 39)
    (hflags : flags = pteNormalRw ∨ flags = pteDeviceRw ∨ flags = pteNormalNcRw)
    (hrun : run (Kernel.perform c) (map va phys size flags) x.shared.kernel = some (true, k')) :
    (∀ off < size.toNat, run (Kernel.perform c) (translate (va + BitVec.ofNat 64 off)) k'
        = some (phys + BitVec.ofNat 64 off, k')) ∧
      ∀ virt : U64, (∀ off < size.toNat,
          virt.toNat / 4096 % 2 ^ 27 ≠ (va.toNat + off) / 4096 % 2 ^ 27) →
        ∃ r, run (Kernel.perform c) (translate virt) x.shared.kernel = some (r, x.shared.kernel) ∧
          run (Kernel.perform c) (translate virt) k' = some (r, k') := by
  have hwf := Reach.wf h
  obtain ⟨hmmu, hpmm⟩ := hquiet.free
  have hdone := (alone_map hwf hmmu hpmm).of_run hrun
  obtain ⟨s', rfl, hwf', hmaps⟩ := hdone
  have hmaps := hmaps rfl
  have hlow : (flags ||| 3#64).toNat < 4096 := by
    rcases hflags with rfl | rfl | rfl <;> decide
  refine ⟨fun off hoff => ?_, fun virt hvirt => ⟨_, run_translate hwf hmmu virt, ?_⟩⟩
  · rw [run_translate (k := x.shared.kernel.withSpace s') hwf' hmmu, Kernel.withSpace_space,
      hmaps.translation hva hphys hfits hsize hmax hlow hoff]
  · have hpages := numPages_eq size
    have hleaf : s'.leaf (pageOf virt) = x.shared.space.leaf (pageOf virt) := by
      refine hmaps.outside _ fun i hi hp => ?_
      have hnum := congrArg Page.num hp
      rw [num_pageOf, num_pageAt] at hnum
      exact hvirt (i * 4096) (by omega) (by omega)
    rw [run_translate (k := x.shared.kernel.withSpace s') hwf' hmmu, Kernel.withSpace_space,
      Space.translation, Space.translation, hleaf]
    rfl

instance (s : Space) (va : U64) (n : ℕ) : Decidable (s.Unmapped va n) :=
  inferInstanceAs (Decidable (∀ i < n, ¬ s.leaf (pageAt va i) &&& 3#64 = 3#64))

/-- A run that has been evaluated. -/
theorem exists_run {α : Type} {p : KProg α} {k : Kernel} (P : α → Kernel → Bool)
    (h : (run (Kernel.perform c) p k).any (fun r => P r.1 r.2) = true) :
    ∃ a k', run (Kernel.perform c) p k = some (a, k') ∧ P a k' = true := by
  obtain ⟨⟨a, k'⟩, hrun, hP⟩ := (Option.any_eq_true _ _).mp h
  exact ⟨a, k', hrun, hP⟩

theorem Board.quiet (b : Board) : Quiet (World.boot b.kernel).kernel :=
  ⟨by simp [World.boot, kernel, Kernel.boot, kheapInit, Kernel.withLock, Kernel.withVar],
    by simp [World.boot, kernel, Kernel.boot, kheapInit, Kernel.withLock, Kernel.withVar]⟩

/-- One page, mapped at boot. -/
theorem map_translates_page : ∃ k',
    run (Kernel.perform 0) (map 0 0x40000000#64 pageSize pteNormalRw)
      fiveFrames.kernel = some (true, k') ∧
    run (Kernel.perform 0) (translate 5) k' = some (0x40000005#64, k') := by
  obtain ⟨done, k', hrun, rfl⟩ := exists_run (c := 0) (k := fiveFrames.kernel)
    (p := map 0 0x40000000#64 pageSize pteNormalRw) (fun done _ => done) (by decide +kernel)
  refine ⟨k', hrun, ?_⟩
  exact (map_translates (b := fiveFrames) (x := fiveFrames.boot) .refl fiveFrames.quiet rfl rfl
    (by decide) rfl (by decide) (Or.inl rfl) hrun).1 5 (by decide)

/-! ### Failing calls of `map` -/

/-- One frame is left and the page lacks both of its tables: the L2 table is made,
the L3 table is not, and the rollback does not reach the L2 table. -/
theorem map_leaves_table : ∃ k', run (Kernel.perform 0)
      (map 0 0x40000000#64 pageSize pteNormalRw) twoFrames.kernel = some (false, k') ∧
    ¬ Restored twoFrames.kernel.space k'.space := by
  obtain ⟨done, k', hrun, hP⟩ := exists_run (c := 0) (k := twoFrames.kernel)
    (p := map 0 0x40000000#64 pageSize pteNormalRw)
    (fun done k' => !done && decide (k'.space.table [0] ≠ none)) (by decide +kernel)
  rw [Bool.and_eq_true, Bool.not_eq_true', decide_eq_true_iff] at hP
  obtain ⟨rfl, htable⟩ := hP
  have hnone : twoFrames.kernel.space.table [0] = none := by decide +kernel
  exact ⟨k', hrun, fun hres => htable ((hres.1.table (by decide)).trans hnone)⟩

theorem not_map_atomic : ¬ ∀ (b : Board) (x : Cores) (c : ℕ) (va phys size flags : U64)
    (k' : Kernel), Reach Mode.all b.boot x → Quiet x.shared.kernel → va.toNat % 4096 = 0 →
    size.toNat % 4096 = 0 → x.shared.space.Unmapped va (numPages size) →
    run (Kernel.perform c) (map va phys size flags) x.shared.kernel = some (false, k') →
    Restored x.shared.space k'.space := by
  intro h
  obtain ⟨k', hrun, hnot⟩ := map_leaves_table
  exact hnot (h twoFrames twoFrames.boot 0 0 0x40000000#64 pageSize pteNormalRw k' .refl
    twoFrames.quiet rfl rfl (by decide +kernel) hrun)

/-- **A failing `map` leaves the tables and the bitmap as they were exactly where the
frames run out between two pages.** -/
theorem map_atomic_iff (h : Reach Mode.all b.boot x) (hquiet : Quiet x.shared.kernel)
    (hun : x.shared.space.Unmapped va (numPages size)) :
    (∀ k', run (Kernel.perform c) (map va phys size flags) x.shared.kernel = some (false, k') →
        Restored x.shared.space k'.space) ↔
      (newTables x.shared.space va (numPages size)).card ≤ x.shared.space.pmm.freeCount ∨
        FrameBoundary x.shared.space va (numPages size) := by
  obtain ⟨hmmu, hpmm⟩ := hquiet.free
  obtain ⟨done, s', hrun, hdone, -, hfail⟩ := (alone_map_unmapped (Reach.wf h) hmmu hpmm hun :
    Alone c x.shared.kernel (map va phys size flags) x.shared.space _).run_eq
  cases done with
  | true =>
    exact iff_of_true (fun k' hk' => by rw [hrun] at hk'; simp at hk') (Or.inl (hdone.mp rfl))
  | false =>
    have hshort : ¬ (newTables x.shared.space va (numPages size)).card
        ≤ x.shared.space.pmm.freeCount := fun hle => absurd (hdone.mpr hle) (by simp)
    rw [or_iff_right hshort, ← hfail rfl]
    constructor
    · exact fun hall => hall _ hrun
    · intro hres k' hk'
      rw [hrun, Option.some_inj, Prod.mk.injEq] at hk'
      rw [← hk'.2]
      exact hres

/-- With five frames there is nothing to roll back. -/
theorem map_atomic_iff_page :
    (newTables fiveFrames.kernel.space 0 (numPages pageSize)).card ≤
        fiveFrames.kernel.space.pmm.freeCount ∧
      ∀ k', run (Kernel.perform 0) (map 0 0x40000000#64 pageSize pteNormalRw) fiveFrames.kernel =
          some (false, k') → Restored fiveFrames.kernel.space k'.space := by
  have hle : (newTables fiveFrames.kernel.space 0 (numPages pageSize)).card ≤
      fiveFrames.kernel.space.pmm.freeCount := by decide +kernel
  exact ⟨hle, Iff.mpr (map_atomic_iff (b := fiveFrames) (x := fiveFrames.boot) .refl
    fiveFrames.quiet (by decide +kernel)) (Or.inl hle)⟩

/-! ### `unmap` after `map` -/

/-- No L2 or L3 table is empty. -/
def Space.NoEmptyTable (s : Space) : Prop :=
  ∀ q : List (Fin 512), q ≠ [] → q.length ≤ 2 → ¬ s.EmptyTable q

/-- **`unmap` undoes `map`.** -/
theorem unmap_undoes_map (h : Reach Mode.all b.boot x) (hquiet : Quiet x.shared.kernel)
    (hempty : x.shared.space.NoEmptyTable) (hun : x.shared.space.Unmapped va (numPages size))
    (hrun : run (Kernel.perform c) (map va phys size flags) x.shared.kernel = some (true, k')) :
    ∃ k'', run (Kernel.perform c) (unmap va size) k' = some ((), k'') ∧
      k''.space.pmm = x.shared.space.pmm ∧
      (∀ virt, ∃ r,
        run (Kernel.perform c) (translate virt) x.shared.kernel = some (r, x.shared.kernel) ∧
          run (Kernel.perform c) (translate virt) k'' = some (r, k'')) ∧
      k''.space.NoEmptyTable := by
  have hwf := Reach.wf h
  obtain ⟨hmmu, hpmm⟩ := hquiet.free
  obtain ⟨s', rfl, -, hmapping, -⟩ := (alone_map_unmapped hwf hmmu hpmm hun).of_run hrun
  have hne : NoEmptyTables x.shared.space va (numPages size) := fun i _ =>
    ⟨hempty _ (by simp [Page.l2Path]) (by simp [Page.l2Path]),
      hempty _ (by simp [Page.l3Path]) (by simp [Page.l3Path])⟩
  obtain ⟨u, s'', hrun', hres⟩ := (alone_unmap_mapped (c := c)
    (k := x.shared.kernel.withSpace s') hmmu hpmm hun hne (hmapping rfl)).run_eq
  rw [Kernel.withSpace_withSpace] at hrun'
  have hwf'' : s''.WF := hwf.of_sameTables hres.1 (by rw [hres.2]; exact hwf.pmm)
    fun a ha => by rw [hres.2]; exact hwf.used a ha
  refine ⟨_, hrun', hres.2, fun virt => ⟨_, run_translate hwf hmmu virt, ?_⟩,
    fun q hq hlen => ?_⟩
  · rw [run_translate (k := x.shared.kernel.withSpace s'') hwf'' hmmu, Kernel.withSpace_space,
      Space.translation, Space.translation, hres.1.leaf]
    rfl
  · exact fun he => hempty q hq hlen ((hres.emptyTable hlen).mp he)

/-- One page, mapped and unmapped again at boot. -/
theorem unmap_undoes_map_page : ∃ k' k'', run (Kernel.perform 0)
      (map 0 0x40000000#64 pageSize pteNormalRw) fiveFrames.kernel = some (true, k') ∧
    run (Kernel.perform 0) (unmap 0 pageSize) k' = some ((), k'') ∧
      k''.space.pmm = fiveFrames.kernel.space.pmm := by
  obtain ⟨done, k', hrun, rfl⟩ := exists_run (c := 0) (k := fiveFrames.kernel)
    (p := map 0 0x40000000#64 pageSize pteNormalRw) (fun done _ => done) (by decide +kernel)
  have hempty : fiveFrames.boot.shared.space.NoEmptyTable := by
    rintro q hq - ⟨t, ht, -⟩
    exact hq (Space.table_of_empty Space.boot_empty ht).1
  obtain ⟨k'', hrun', hpmm, -⟩ := unmap_undoes_map (b := fiveFrames) (x := fiveFrames.boot) .refl
    fiveFrames.quiet hempty (by decide +kernel) hrun
  exact ⟨k', k'', hrun, hrun', hpmm⟩

end GamingConsole
