/-
What a call of the memory subsystem leaves alone.

A used frame that is no table is data.  `Kept R s s'` says that going from `s` to
`s'` changed no data frame and no page outside `R`.  A `map` or `unmap` is `Kept`
on its range whatever its outcome; on top of that `alone_map_kept` and
`alone_unmap_kept` say which pages of the range are mapped afterwards, a failed
`map` included.  `alloc_frame`, `alloc_frames` and `free_frame` change the data
frames by exactly what they return or are given.
-/
import GamingConsole.MapUndo
import GamingConsole.PmmHeld

namespace GamingConsole

namespace Space

variable {s s' s'' : Space} {R R' : Page → Prop} {a : U64} {pg : Page}

/-- A used frame that is not a table. -/
def Data (s : Space) (a : U64) : Prop := s.pmm.Used a ∧ ¬ s.IsTable a

/-- Only pages in `R` and tables have changed. -/
structure Kept (R : Page → Prop) (s s' : Space) : Prop where
  wf : s'.WF
  geometry : s.pmm.SameGeometry s'.pmm
  leaf : ∀ pg, ¬ R pg → s'.leaf pg = s.leaf pg
  data : ∀ a, s'.Data a ↔ s.Data a

theorem Kept.refl (h : s.WF) : Kept R s s :=
  ⟨h, Pmm.SameGeometry.refl _, fun _ _ => rfl, fun _ => Iff.rfl⟩

theorem Kept.trans (h : Kept R s s') (h' : Kept R s' s'') : Kept R s s'' :=
  ⟨h'.wf, h.geometry.trans h'.geometry, fun pg hpg => (h'.leaf pg hpg).trans (h.leaf pg hpg),
    fun a => (h'.data a).trans (h.data a)⟩

theorem Kept.mono (h : Kept R s s') (hR : ∀ pg, R pg → R' pg) : Kept R' s s' :=
  { h with leaf := fun pg hpg => h.leaf pg fun hr => hpg (hR pg hr) }

/-! ### Steps on the tables -/

theorem Added.kept {p : List (Fin 512)} {c : U64} (h : Added s s' p c) : Kept R s s' := by
  refine ⟨h.wf, h.frames.geometry, fun pg _ => h.leaf pg, fun a => ?_⟩
  rw [Data, Data, h.used, h.isTable_iff]
  constructor
  · rintro ⟨hu | rfl, hn⟩
    · exact ⟨hu, fun ht => hn (Or.inl ht)⟩
    · exact absurd (Or.inr rfl) hn
  · rintro ⟨hu, hn⟩
    refine ⟨Or.inl hu, ?_⟩
    rintro (ht | rfl)
    · exact hn ht
    · exact h.fresh hu

theorem Removed.kept {p : List (Fin 512)} {c : U64} (h : Removed s s' p c) (hwf : s.WF) :
    Kept R s s' := by
  refine ⟨h.wf, h.frames.geometry, fun pg _ => h.leaf pg, fun a => ?_⟩
  rw [Data, Data, h.used, h.isTable_iff hwf]
  constructor
  · rintro ⟨⟨hu, hne⟩, hn⟩
    exact ⟨hu, fun ht => hn ⟨ht, hne⟩⟩
  · rintro ⟨hu, hn⟩
    refine ⟨⟨hu, ?_⟩, fun ht => hn ht.1⟩
    rintro rfl
    exact hn ⟨p, h.depth, h.had⟩

theorem LeafSet.kept {w : U64} (h : LeafSet s s' pg w) (hR : R pg) : Kept R s s' := by
  refine ⟨h.wf, h.frames.geometry, fun pg' hpg' => ?_, fun a => ?_⟩
  · rw [h.leaf, if_neg]
    rintro rfl
    exact hpg' hR
  · rw [Data, Data, h.pmm, h.isTable_iff]

end Space

open Space

variable {s s' : Space} {R : Page → Prop} {pg : Page} {p : List (Fin 512)} {a desc : U64}
  {c : ℕ} {k : Kernel} {va phys size flags : U64} {n : ℕ}

theorem Ensured.kept (h : Ensured s s' p a) (hwf : s.WF) : Kept R s s' := by
  rcases h with ⟨-, rfl⟩ | h
  · exact .refl hwf
  · exact h.kept

theorem Pruned.kept (h : Pruned s s' p) (hwf : s.WF) : Kept R s s' := by
  rcases h with ⟨-, r, hr⟩ | ⟨-, rfl⟩
  · exact hr.kept hwf
  · exact .refl hwf

theorem MapPageSpec.kept {done : Bool} (h : MapPageSpec s pg desc done s') (hwf : s.WF)
    (hR : R pg) : Kept R s s' := by
  cases h with
  | mapped h2 h3 hset =>
    exact ((h2.kept hwf).trans (h3.kept (h2.wf hwf))).trans (hset.kept hR)
  | noL2 => exact .refl hwf
  | noL3 h2 => exact h2.kept hwf

theorem UnmapPageSpec.kept {found : Bool} (h : UnmapPageSpec s pg found s') (hwf : s.WF)
    (hR : R pg) : Kept R s s' := by
  cases h with
  | hole => exact .refl hwf
  | cleared _ _ hset h3 h2 =>
    exact ((hset.kept hR).trans (h3.kept hset.wf)).trans (h2.kept (h3.wf hset.wf))

/-! ### `map` and `unmap` -/

/-- The rollback of a failed `map` takes every page of the range back. -/
theorem alone_rollback_kept {s₀ : Space} (hk : k.Free .pmmLock) (hn : n < 2 ^ 27)
    (hwf₀ : s₀.WF) (hun : s₀.Unmapped va n) (hR : ∀ i < n, R (pageAt va i))
    (hkept : Kept R s₀ s) (hrem : Remaining s₀ s va 0 n) :
    Alone c k (unmapLocked va (BitVec.ofNat 64 n * pageSize)) s fun _ s' =>
      Kept R s₀ s' ∧ ∀ pg, s'.leaf pg = s₀.leaf pg := by
  have hsize := numPages_mul (i := n) (by omega)
  refine Alone.mono (Alone.unmapLocked (R := fun m s' => Remaining s₀ s' va m n ∧ Kept R s₀ s')
    (J := fun _ => False) hk (fun _ _ h => h.1.wf) ?_ ?_ ⟨hrem, hkept⟩) fun _ s' hor => ?_
  · intro m t t' hm h hspec
    rw [hsize] at hm
    exact ⟨h.1.step hm (by omega) (hun.leaf hwf₀ hm) hspec,
      h.2.trans (hspec.kept h.1.wf (hR m hm))⟩
  · intro m t t' hm h hspec
    rw [hsize] at hm
    exact h.1.no_hole hm hspec
  · rcases hor with h | hF
    · rw [hsize] at h
      exact ⟨h.2, h.1.done⟩
    · exact hF.elim

/-- **`map` of unmapped pages**: all of them are mapped, or none. -/
theorem alone_map_kept {s₀ : Space} (h : s₀.WF) (hmmu : k.Free .mmuLock) (hpmm : k.Free .pmmLock)
    (hun : s₀.Unmapped va (numPages size)) :
    Alone c k (map va phys size flags) s₀ fun done s' => Kept (InRange va size) s₀ s' ∧
      (done = true → MapsRange s₀ s' va phys flags (numPages size)) ∧
      (done = false → ∀ pg, s'.leaf pg = s₀.leaf pg) := by
  have hR : ∀ i < numPages size, InRange va size (pageAt va i) := fun i hi => ⟨i, hi, rfl⟩
  refine Alone.mono (Alone.map (I := fun n s => n ≤ 2 ^ 27 ∧ MapsRange s₀ s va phys flags n ∧
      Kept (InRange va size) s₀ s)
    (J := fun s' => Kept (InRange va size) s₀ s' ∧ ∀ pg, s'.leaf pg = s₀.leaf pg) hmmu hpmm
    (fun _ _ hI => hI.2.1.wf) (fun j s s' hj hI hspec => ?_) (fun j s s' hj hI hspec => ?_)
    ⟨by omega, .zero h, .refl h⟩) fun done s' hor => ?_
  · exact ⟨hI.2.1.lt hI.1, hI.2.1.step hspec, hI.2.2.trans (hspec.kept hI.2.1.wf (hR j hj))⟩
  · -- a failed page has no leaf of its own yet
    have hleaf : ∀ pg, s'.leaf pg = s.leaf pg := by
      intro pg
      cases hspec with
      | noL2 => rfl
      | noL3 h2 => exact h2.leaf pg
    have hrem := Remaining.of_mapsRange hI.1 hI.2.1
    refine alone_rollback_kept (hpmm.entered_of_ne (by decide)) (hI.2.1.lt hI.1) h
      (fun i hi => hun i (by omega)) (fun i hi => hR i (by omega))
      (hI.2.2.trans (hspec.kept hI.2.1.wf (hR j hj)))
      ⟨hspec.wf hI.2.1.wf, fun i h1 h2 => ?_, fun pg hpg => ?_⟩
    · rw [hleaf]
      exact hrem.mapped i h1 h2
    · rw [hleaf]
      exact hrem.leaf pg hpg
  · rcases hor with ⟨rfl, -, hmaps, hkept⟩ | ⟨rfl, hkept, hleaf⟩
    · exact ⟨hkept, fun _ => hmaps, fun hf => absurd hf (by simp)⟩
    · exact ⟨hkept, fun hf => absurd hf (by simp), fun _ => hleaf⟩

/-- The clearing loop half way through a range that was mapped. -/
structure Clearing (s₀ s : Space) (va size : U64) (m : ℕ) : Prop where
  kept : Kept (InRange va size) s₀ s
  cleared : ∀ i < m, s.leaf (pageAt va i) = 0
  rest : ∀ i, m ≤ i → i < numPages size → s.leaf (pageAt va i) = s₀.leaf (pageAt va i)

/-- **`unmap` of mapped pages** clears all of them. -/
theorem alone_unmap_kept {s₀ : Space} (h : s₀.WF) (hmmu : k.Free .mmuLock)
    (hpmm : k.Free .pmmLock) (hn : numPages size ≤ 2 ^ 27)
    (hmapped : ∀ i < numPages size, s₀.Mapped (pageAt va i)) :
    Alone c k (unmap va size) s₀ fun _ s' => Kept (InRange va size) s₀ s' ∧
      ∀ i < numPages size, s'.leaf (pageAt va i) = 0 := by
  refine Alone.mono (Alone.unmap (R := fun m s => Clearing s₀ s va size m) (J := fun _ => False)
    hmmu hpmm (fun _ _ hR => hR.kept.wf) (fun j s s' hj hR hspec => ?_)
    (fun j s s' hj hR hspec => ?_) ⟨.refl h, fun i hi => absurd hi (by omega), fun _ _ _ => rfl⟩)
    fun _ s' hor => ?_
  · refine ⟨hR.kept.trans (hspec.kept hR.kept.wf ⟨j, hj, rfl⟩), fun i hi => ?_,
      fun i h1 h2 => ?_⟩
    · rw [hspec.leaf]
      split
      · rfl
      · rename_i hne
        have hij : i ≠ j := fun he => hne (by rw [he])
        exact hR.cleared i (by omega)
    · rw [hspec.leaf, if_neg fun he => by have := pageAt_inj (by omega) (by omega) he; omega]
      exact hR.rest i (by omega) h2
  · have h0 := hspec.leaf_of_hole
    rw [hR.rest j (le_refl j) hj] at h0
    exact ne_zero_of_valid (hmapped j hj) h0
  · rcases hor with hR | hF
    · exact ⟨hR.kept, hR.cleared⟩
    · exact hF.elim

/-- Whatever is mapped there, `unmap` changes tables and its own pages only. -/
theorem alone_unmap_inside {s₀ : Space} (h : s₀.WF) (hmmu : k.Free .mmuLock)
    (hpmm : k.Free .pmmLock) :
    Alone c k (unmap va size) s₀ fun _ s' => Kept (InRange va size) s₀ s' := by
  refine Alone.mono (Alone.unmap (R := fun _ s => Kept (InRange va size) s₀ s)
    (J := fun s => Kept (InRange va size) s₀ s) hmmu hpmm (fun _ _ hR => hR.wf)
    (fun j _ _ hj hR hspec => hR.trans (hspec.kept hR.wf ⟨j, hj, rfl⟩))
    (fun j _ _ hj hR hspec => hR.trans (hspec.kept hR.wf ⟨j, hj, rfl⟩)) (.refl h))
    fun _ _ hor => hor.elim id id

/-- Whatever is mapped there, and whether it succeeds or not, so does `map`. -/
theorem alone_map_inside {s₀ : Space} (h : s₀.WF) (hmmu : k.Free .mmuLock)
    (hpmm : k.Free .pmmLock) :
    Alone c k (map va phys size flags) s₀ fun _ s' => Kept (InRange va size) s₀ s' := by
  refine Alone.mono (Alone.map (I := fun _ s => Kept (InRange va size) s₀ s)
    (J := fun s => Kept (InRange va size) s₀ s) hmmu hpmm (fun _ _ hI => hI.wf)
    (fun j _ _ hj hI hspec => hI.trans (hspec.kept hI.wf ⟨j, hj, rfl⟩))
    (fun j s s' hj hI hspec => ?_) (.refl h)) fun _ _ hor => hor.elim (·.2) (·.2)
  have hkept := hI.trans (hspec.kept hI.wf ⟨j, hj, rfl⟩)
  have hpages := numPages_eq size
  have hn : numPages (BitVec.ofNat 64 j * pageSize) = j :=
    numPages_mul (by have := size.isLt; omega)
  -- the rollback stays below the page that failed
  refine Alone.mono (Alone.unmapLocked (R := fun _ s => Kept (InRange va size) s₀ s)
    (J := fun s => Kept (InRange va size) s₀ s) (hpmm.entered_of_ne (by decide))
    (fun _ _ hR => hR.wf) (fun i _ _ hi hR hspec => ?_) (fun i _ _ hi hR hspec => ?_) hkept)
    fun _ _ hor => hor.elim id id
  · exact hR.trans (hspec.kept hR.wf ⟨i, by omega, rfl⟩)
  · exact hR.trans (hspec.kept hR.wf ⟨i, by omega, rfl⟩)

/-- A page that fails had no frame left for one of its tables, and stays unmapped. -/
theorem MapPageSpec.short {s₀ : Space} (h : Ledger s₀ s (newTables s₀ va n))
    (hspec : MapPageSpec s (pageAt va n) desc false s') :
    s₀.pmm.freeCount < (newTables s₀ va (n + 1)).card ∧ s'.leaf (pageAt va n) = 0 := by
  have hlen2 : (pageAt va n).l2Path.length ≤ 2 := by simp [Page.l2Path]
  have hlen3 : (pageAt va n).l3Path.length ≤ 2 := by simp [Page.l3Path]
  cases hspec with
  | noL2 hnone hfull =>
    obtain ⟨-, hcard⟩ := h.full hlen2 hnone hfull
    have hle := card_addMissing_le s₀ (addMissing s₀ (newTables s₀ va n) (pageAt va n).l2Path)
      (pageAt va n).l3Path
    refine ⟨?_, leaf_of_no_table (PointerTree.walk_cons_eq_none hnone)⟩
    rw [newTables]
    omega
  | noL3 he hnone hfull =>
    obtain ⟨-, hcard⟩ := (h.ensured he hlen2).full hlen3 hnone hfull
    refine ⟨?_, leaf_of_no_table hnone⟩
    rw [newTables]
    omega

/-- **`map`, whatever is mapped there**: it succeeds if there are frames for the tables, and
otherwise it leaves a page unmapped. -/
theorem alone_map_iff {s₀ : Space} (h : s₀.WF) (hmmu : k.Free .mmuLock) (hpmm : k.Free .pmmLock) :
    Alone c k (map va phys size flags) s₀ fun done s' =>
      (done = true ↔ (newTables s₀ va (numPages size)).card ≤ s₀.pmm.freeCount) ∧
        (done = true → MapsRange s₀ s' va phys flags (numPages size)) ∧
        (done = false → ∃ i < numPages size, s'.leaf (pageAt va i) = 0) := by
  refine Alone.mono (Alone.map
    (I := fun n s => MapsRange s₀ s va phys flags n ∧ Ledger s₀ s (newTables s₀ va n))
    (J := fun s' => s₀.pmm.freeCount < (newTables s₀ va (numPages size)).card ∧
      ∃ i < numPages size, s'.leaf (pageAt va i) = 0)
    hmmu hpmm (fun _ _ hI => hI.1.wf) (fun j s s' hj hI hspec => ?_)
    (fun j s s' hj hI hspec => ?_) ⟨.zero h, .zero s₀⟩) fun done s' hor => ?_
  · exact ⟨hI.1.step hspec, hI.2.mapPage hspec⟩
  · obtain ⟨hshort, hleaf⟩ := hspec.short hI.2
    have hmono := card_newTables_mono s₀ va (show j + 1 ≤ numPages size from hj)
    -- the rollback clears pages, and this one is clear
    refine Alone.mono (Alone.unmapLocked (R := fun _ s => s.WF ∧ s.leaf (pageAt va j) = 0)
      (J := fun s => s.leaf (pageAt va j) = 0) (hpmm.entered_of_ne (by decide))
      (fun _ _ hR => hR.1) (fun i _ _ _ hR hspec => ⟨hspec.wf hR.1, ?_⟩)
      (fun i _ _ _ hR hspec => ?_) ⟨hspec.wf hI.1.wf, hleaf⟩) fun _ s'' hor => ?_
    · rw [hspec.leaf, hR.2, ite_self]
    · cases hspec with
      | hole => exact hR.2
    · exact ⟨lt_of_lt_of_le hshort hmono, j, hj, hor.elim (·.2) id⟩
  · rcases hor with ⟨rfl, hmaps, hledger⟩ | ⟨rfl, hshort, hhole⟩
    · have hcount := hledger.count
      exact ⟨⟨fun _ => by omega, fun _ => rfl⟩, fun _ => hmaps, fun hf => absurd hf (by simp)⟩
    · exact ⟨⟨fun hf => absurd hf (by simp), fun hle => absurd hshort (by omega)⟩,
        fun hf => absurd hf (by simp), fun _ => hhole⟩

/-! ### Frames -/

/-- What `alloc_frames` and `alloc_frame` do to memory: the frames in `A` are new. -/
structure Given (A : U64 → Prop) (s s' : Space) : Prop where
  wf : s'.WF
  geometry : s.pmm.SameGeometry s'.pmm
  tables : SameTables s s'
  fresh : ∀ a, A a → ¬ s.pmm.Used a
  used : ∀ a, s'.pmm.Used a ↔ s.pmm.Used a ∨ A a

theorem Given.data {A : U64 → Prop} (h : Given A s s') (hwf : s.WF) :
    s'.Data a ↔ s.Data a ∨ A a := by
  rw [Data, Data, h.used, h.tables.isTable_iff]
  constructor
  · rintro ⟨hu | ha, hn⟩
    · exact Or.inl ⟨hu, hn⟩
    · exact Or.inr ha
  · rintro (⟨hu, hn⟩ | ha)
    · exact ⟨Or.inl hu, hn⟩
    · exact ⟨Or.inr ha, fun ht => h.fresh a ha (hwf.used a ht)⟩

theorem alone_allocFrame_given (h : s.WF) (hk : k.Free .pmmLock) :
    Alone c k allocFrame s fun r s' => r = 0 ∧ s' = s ∨ r ≠ 0 ∧ Given (· = r) s s' := by
  refine Alone.mono (alone_allocFrame h.pmm hk) fun r s' hspec => ?_
  cases hspec with
  | none => exact Or.inl ⟨rfl, rfl⟩
  | some f hf hb =>
    have hused := Pmm.used_mark_iff h.pmm hf
    refine Or.inr ⟨Pmm.frame_ne_zero h.pmm hf, h.of_sameTables (sameTables_pmm _) (h.pmm.mark hf)
      fun a ha => (hused a).mpr (Or.inl (h.used a ha)), Pmm.sameGeometry_mark _ _,
      sameTables_pmm _, ?_, hused⟩
    rintro a rfl
    rw [Pmm.used_frame_iff h.pmm hf, hb]
    exact Bool.false_ne_true

/-- The frames of a run. -/
def InRun (base : U64) (n : ℕ) (a : U64) : Prop := ∃ i < n, a = pageAddr base i

/-- The run that `alloc_frames` finds. -/
theorem given_allocFrames {count r : U64} {q : Pmm} (h : s.WF) (h0 : count ≠ 0)
    (heq : Pmm.allocFrames s.pmm count = (r, q)) :
    r = 0 ∧ q = s.pmm ∨ r ≠ 0 ∧ r.toNat % 4096 = 0 ∧ r.toNat + count.toNat * 4096 ≤ 0x3F800000 ∧
      Given (InRun r count.toNat) s { s with pmm := q } := by
  rcases Pmm.allocFrames_cases s.pmm count with ⟨-, hnone⟩ | ⟨f, -, hrun, -, hsome⟩
  · rw [hnone, Prod.mk.injEq] at heq
    exact Or.inl ⟨heq.1.symm, heq.2.symm⟩
  · rw [hsome, Prod.mk.injEq] at heq
    obtain ⟨rfl, rfl⟩ := heq
    have hpos : 0 < count.toNat := by
      rcases Nat.eq_zero_or_pos count.toNat with hz | hz
      · exact absurd (BitVec.eq_of_toNat_eq hz) h0
      · exact hz
    have hle := hrun.1
    have hf : f < s.pmm.totalFrames.toNat := by omega
    have hused := Pmm.used_markFrames_iff h.pmm hrun.1
    have hin : ∀ a, InRun (s.pmm.frame f) count.toNat a ↔
        ∃ i < count.toNat, a = s.pmm.frame (f + i) := fun a =>
      exists_congr fun i => and_congr_right fun _ => by rw [Pmm.Holding.frame_add, pageAddr]
    have hstart := Pmm.toNat_frame h.pmm hf
    have hend := h.pmm.managed_end
    have hal := h.pmm.start_aligned
    rw [toNat_physMemEnd] at hend
    refine Or.inr ⟨Pmm.frame_ne_zero h.pmm hf, by omega, by omega,
      h.of_sameTables (sameTables_pmm _) (h.pmm.markFrames hrun.1)
        fun a ha => (hused a).mpr (Or.inl (h.used a ha)),
      ⟨rfl, rfl, rfl, Pmm.length_markRun _ _ _⟩, sameTables_pmm _, fun a ha => ?_, fun a => ?_⟩
    · obtain ⟨i, hi, rfl⟩ := (hin a).mp ha
      rw [Pmm.used_frame_iff h.pmm (by omega), hrun.2 i hi]
      exact Bool.false_ne_true
    · rw [hin]
      exact hused a

/-- `alloc_frames` of a single frame does what `alloc_frame` does. -/
theorem alone_allocFrames_one (hk : k.Free .pmmLock) :
    Alone c k (allocFrames 1) s (AllocSpec s) := by
  refine Alone.critical hk (Alone.perform rfl ?_)
  show AllocSpec s (Pmm.allocFrames s.pmm 1).1 { s with pmm := (Pmm.allocFrames s.pmm 1).2 }
  rcases Pmm.allocFrames_cases s.pmm 1 with ⟨hnone, heq⟩ | ⟨f, -, hrun, -, heq⟩
  · rw [heq]
    refine .none (Pmm.freeCount_eq_zero_iff.mpr fun i hi => ?_)
    by_contra hclear
    refine hnone (by decide) i ⟨hi, fun j hj => ?_⟩
    have hj0 : j = 0 := Nat.lt_one_iff.mp hj
    rw [hj0, Nat.add_zero]
    exact Bool.eq_false_iff.mpr hclear
  · rw [heq]
    exact .some f hrun.1 (hrun.2 0 (by decide))

theorem alone_allocFrames_given {count : U64} (h : s.WF) (hk : k.Free .pmmLock) :
    Alone c k (allocFrames count) s fun r s' => r = 0 ∧ s' = s ∨
      r ≠ 0 ∧ r.toNat % 4096 = 0 ∧ r.toNat + count.toNat * 4096 ≤ 0x3F800000 ∧
        Given (InRun r count.toNat) s s' := by
  rw [allocFrames]
  by_cases h0 : count = 0
  · rw [if_pos h0]
    exact Alone.pure (Or.inl ⟨rfl, rfl⟩)
  · rw [if_neg h0]
    refine Alone.critical hk (Alone.perform rfl ?_)
    refine (given_allocFrames h h0 rfl).imp_left fun hr => ⟨hr.1, ?_⟩
    show { s with pmm := (Pmm.allocFrames s.pmm count).2 } = s
    rw [show (Pmm.allocFrames s.pmm count).2 = s.pmm from hr.2]

/-- `free_frame` of a data frame. -/
structure Dropped (a : U64) (s s' : Space) : Prop where
  wf : s'.WF
  geometry : s.pmm.SameGeometry s'.pmm
  tables : SameTables s s'
  used : ∀ b, s'.pmm.Used b ↔ s.pmm.Used b ∧ b ≠ a

theorem Dropped.data (h : Dropped a s s') {b : U64} : s'.Data b ↔ s.Data b ∧ b ≠ a := by
  rw [Data, Data, h.used, h.tables.isTable_iff]
  exact and_right_comm

theorem alone_freeFrame_dropped (h : s.WF) (hk : k.Free .pmmLock) (ha : s.Data a) :
    Alone c k (freeFrame a) s fun _ s' => Dropped a s s' := by
  refine Alone.mono (alone_freeFrame hk) fun _ s' hs' => ?_
  obtain ⟨f, hf, rfl, -, heq⟩ := Pmm.freeFrame_used h.pmm ha.1
  have hused := Pmm.used_unmark_iff h.pmm hf
  rw [hs', heq]
  refine ⟨h.of_sameTables (sameTables_pmm _) (h.pmm.unmark hf) fun b hb => (hused b).mpr
    ⟨h.used b hb, ?_⟩, Pmm.sameGeometry_unmark _ _, sameTables_pmm _, hused⟩
  rintro rfl
  exact ha.2 hb

/-! ### When frames suffice -/

/-- The paths among `Q` that have no table. -/
def missing (s : Space) (Q : Finset (List (Fin 512))) : Finset (List (Fin 512)) :=
  Q.filter fun q => s.table q = none

/-- There is a frame for every table missing at `Q`, and `r` more. -/
def Budget (s : Space) (Q : Finset (List (Fin 512))) (r : ℕ) : Prop :=
  (missing s Q).card + r ≤ s.pmm.freeCount

variable {Q : Finset (List (Fin 512))} {r : ℕ}

theorem Budget.mono {r' : ℕ} (h : Budget s Q r) (hle : r' ≤ r) : Budget s Q r' :=
  (Nat.add_le_add_left hle _).trans h

theorem mem_missing (hp : p ∈ Q) (hnone : s.table p = none) : p ∈ missing s Q :=
  Finset.mem_filter.mpr ⟨hp, hnone⟩

theorem Budget.ensured (h : Budget s Q r) (he : Ensured s s' p a) (hp : p ∈ Q)
    (hQ : ∀ q ∈ Q, q.length ≤ 2) : Budget s' Q r := by
  rcases he with ⟨-, rfl⟩ | he
  · exact h
  · have herase : missing s' Q = (missing s Q).erase p := by
      ext q
      rw [missing, missing, Finset.mem_erase, Finset.mem_filter, Finset.mem_filter]
      constructor
      · rintro ⟨hq, hn⟩
        rw [he.table q (hQ q hq)] at hn
        by_cases hqp : q = p
        · rw [if_pos hqp] at hn
          exact absurd hn (by simp)
        · rw [if_neg hqp] at hn
          exact ⟨hqp, hq, hn⟩
      · rintro ⟨hqp, hq, hn⟩
        exact ⟨hq, by rw [he.table q (hQ q hq), if_neg hqp, hn]⟩
    have hcard := Finset.card_erase_add_one (mem_missing hp he.free)
    have hcount := he.count
    rw [Budget, herase]
    rw [Budget] at h
    omega

theorem Budget.leafSet {w : U64} (h : Budget s Q r) (hset : LeafSet s s' pg w)
    (hQ : ∀ q ∈ Q, q.length ≤ 2) : Budget s' Q r := by
  have heq : missing s' Q = missing s Q :=
    Finset.filter_congr fun q hq => by rw [hset.table q (hQ q hq)]
  rw [Budget, heq, hset.pmm]
  exact h

/-- A missing table finds a frame. -/
theorem Budget.not_full (h : Budget s Q r) (hp : p ∈ Q) (hnone : s.table p = none) :
    s.pmm.freeCount ≠ 0 := by
  have hpos := Finset.card_pos.mpr ⟨p, mem_missing hp hnone⟩
  rw [Budget] at h
  omega

theorem Budget.mapPage {done : Bool} (h : Budget s Q r) (hspec : MapPageSpec s pg desc done s')
    (h2 : pg.l2Path ∈ Q) (h3 : pg.l3Path ∈ Q) (hQ : ∀ q ∈ Q, q.length ≤ 2) :
    done = true ∧ Budget s' Q r := by
  cases hspec with
  | mapped he2 he3 hset =>
    exact ⟨rfl, ((h.ensured he2 h2 hQ).ensured he3 h3 hQ).leafSet hset hQ⟩
  | noL2 hnone hfull => exact absurd hfull (h.not_full h2 hnone)
  | noL3 he2 hnone hfull => exact absurd hfull ((h.ensured he2 h2 hQ).not_full h3 hnone)

/-- Within its budget `map` succeeds, and leaves the rest of the budget. -/
theorem alone_map_budget {s₀ : Space} (hwf : s₀.WF) (hmmu : k.Free .mmuLock)
    (hpmm : k.Free .pmmLock) (h : Budget s₀ Q r) (hQ : ∀ q ∈ Q, q.length ≤ 2)
    (hpages : ∀ i < numPages size, (pageAt va i).l2Path ∈ Q ∧ (pageAt va i).l3Path ∈ Q) :
    Alone c k (map va phys size flags) s₀ fun done s' => done = true ∧ Budget s' Q r := by
  refine Alone.mono (Alone.map (I := fun _ s => s.WF ∧ Budget s Q r) (J := fun _ => False)
    hmmu hpmm (fun _ _ hI => hI.1) (fun j s s' hj hI hspec => ?_) (fun j s s' hj hI hspec => ?_)
    ⟨hwf, h⟩) fun done s' hor => ?_
  · exact ⟨hspec.wf hI.1, (hI.2.mapPage hspec (hpages j hj).1 (hpages j hj).2 hQ).2⟩
  · exact absurd (hI.2.mapPage hspec (hpages j hj).1 (hpages j hj).2 hQ).1 (by simp)
  · rcases hor with ⟨hd, hI⟩ | ⟨-, hF⟩
    · exact ⟨hd, hI.2⟩
    · exact hF.elim

/-- A table that goes leaves its frame. -/
theorem Budget.removed (h : Budget s Q r) (hr : Removed s s' p a)
    (hQ : ∀ q ∈ Q, q.length ≤ 2) : Budget s' Q r := by
  have hsub : missing s' Q ⊆ insert p (missing s Q) := by
    intro q hq
    obtain ⟨hmem, hnone⟩ := Finset.mem_filter.mp hq
    rw [hr.table q (hQ q hmem)] at hnone
    by_cases hqp : q = p
    · exact Finset.mem_insert.mpr (Or.inl hqp)
    · rw [if_neg hqp] at hnone
      exact Finset.mem_insert_of_mem (mem_missing hmem hnone)
  have hcard := (Finset.card_le_card hsub).trans (Finset.card_insert_le _ _)
  have hcount := hr.count
  rw [Budget] at h ⊢
  omega

theorem Budget.pruned (h : Budget s Q r) (hp : Pruned s s' p) (hQ : ∀ q ∈ Q, q.length ≤ 2) :
    Budget s' Q r := by
  rcases hp with ⟨-, t, hr⟩ | ⟨-, rfl⟩
  · exact h.removed hr hQ
  · exact h

theorem Budget.unmapPage {found : Bool} (h : Budget s Q r) (hspec : UnmapPageSpec s pg found s')
    (hQ : ∀ q ∈ Q, q.length ≤ 2) : Budget s' Q r := by
  cases hspec with
  | hole => exact h
  | cleared _ _ hset h3 h2 => exact ((h.leafSet hset hQ).pruned h3 hQ).pruned h2 hQ

/-- `unmap` leaves what is planned possible. -/
theorem alone_unmap_budget {s₀ : Space} (hwf : s₀.WF) (hmmu : k.Free .mmuLock)
    (hpmm : k.Free .pmmLock) (h : Budget s₀ Q r) (hQ : ∀ q ∈ Q, q.length ≤ 2) :
    Alone c k (unmap va size) s₀ fun _ s' => s'.WF ∧ Budget s' Q r :=
  Alone.mono (Alone.unmap (R := fun _ s => s.WF ∧ Budget s Q r)
    (J := fun s => s.WF ∧ Budget s Q r) hmmu hpmm (fun _ _ hR => hR.1)
    (fun _ _ _ _ hR hspec => ⟨hspec.wf hR.1, hR.2.unmapPage hspec hQ⟩)
    (fun _ _ _ _ hR hspec => ⟨hspec.wf hR.1, hR.2.unmapPage hspec hQ⟩) ⟨hwf, h⟩)
    fun _ _ hor => hor.elim id id

theorem Budget.freeFrame (h : Budget s Q r) (hwf : s.pmm.WF) (hQ : ∀ q ∈ Q, q.length ≤ 2)
    (a : U64) :
    Budget { s with pmm := Pmm.freeFrame s.pmm a } Q r := by
  have heq : missing { s with pmm := Pmm.freeFrame s.pmm a } Q = missing s Q :=
    Finset.filter_congr fun q hq => by rw [(sameTables_pmm (s := s) _).table (hQ q hq)]
  have hcount : s.pmm.freeCount ≤ (Pmm.freeFrame s.pmm a).freeCount := by
    by_cases ha : s.pmm.Used a
    · obtain ⟨f, hf, -, hbit, hfree⟩ := Pmm.freeFrame_used hwf ha
      rw [hfree, Pmm.freeCount_unmark hwf hf hbit]
      exact Nat.le_succ _
    · rw [Pmm.freeFrame_not_used hwf ha]
  rw [Budget, heq]
  exact h.trans hcount

/-- A data frame is paid for by one of the frames that are left over. -/
theorem Budget.alloc (h : Budget s Q (r + 1)) (hspec : AllocSpec s a s') (hwf : s.WF)
    (hQ : ∀ q ∈ Q, q.length ≤ 2) : a ≠ 0 ∧ Budget s' Q r := by
  cases hspec with
  | none hfull =>
    rw [Budget] at h
    omega
  | some f hf hbit =>
    have hcount := Pmm.freeCount_mark hwf.pmm hf hbit
    have heq : missing { s with pmm := s.pmm.mark f } Q = missing s Q :=
      Finset.filter_congr fun q hq => by rw [(sameTables_pmm (s := s) _).table (hQ q hq)]
    refine ⟨Pmm.frame_ne_zero hwf.pmm hf, ?_⟩
    rw [Budget, heq]
    rw [Budget] at h
    change _ ≤ (s.pmm.mark f).freeCount
    omega

theorem Budget.of_card (h : Q.card + r ≤ s.pmm.freeCount) : Budget s Q r :=
  (Nat.add_le_add_right (Finset.card_filter_le _ _) r).trans h

/-- What is planned for covers what `map` will need. -/
theorem Budget.newTables_le (h : Budget s Q r) {n : ℕ}
    (hpages : ∀ i < n, (pageAt va i).l2Path ∈ Q ∧ (pageAt va i).l3Path ∈ Q) :
    (newTables s va n).card ≤ s.pmm.freeCount := by
  have hadd : ∀ {T : Finset (List (Fin 512))} {q : List (Fin 512)}, T ⊆ missing s Q → q ∈ Q →
      addMissing s T q ⊆ missing s Q := by
    intro T q hT hq
    rw [addMissing]
    split
    · rename_i hnone
      exact Finset.insert_subset (mem_missing hq hnone) hT
    · exact hT
  have hsub : newTables s va n ⊆ missing s Q := by
    induction n with
    | zero => exact Finset.empty_subset _
    | succ n ih =>
      obtain ⟨h2, h3⟩ := hpages n (Nat.lt_succ_self n)
      exact hadd (hadd (ih fun i hi => hpages i (Nat.lt_succ_of_lt hi)) h2) h3
  exact (Finset.card_le_card hsub).trans ((Nat.le_add_right _ _).trans h)

/-! ### How many frames there are -/

/-- Pages that lie apart need tables of their own. -/
theorem le_totalFrames_of_mapped (h : s.WF) {n : ℕ} (pages : ℕ → Page)
    (hapart : ∀ i < n, ∀ j < n, (pages i).l3Path = (pages j).l3Path → i = j)
    (hmapped : ∀ i < n, s.Mapped (pages i)) : n ≤ s.pmm.totalFrames.toNat := by
  have hframe : ∀ i, i < n → ∃ f < s.pmm.totalFrames.toNat,
      s.table (pages i).l3Path = some (s.pmm.frame f) := by
    intro i hi
    obtain ⟨-, t, -, ht, -⟩ := tables_of_leaf_ne (ne_zero_of_valid (hmapped i hi))
    obtain ⟨f, hf, rfl, -⟩ := h.used t ⟨(pages i).l3Path, by simp [Page.l3Path], ht⟩
    exact ⟨f, hf, ht⟩
  choose f hf htable using hframe
  have hcard := Finset.card_le_card_of_injOn (s := (Finset.univ : Finset (Fin n)))
    (t := Finset.range s.pmm.totalFrames.toNat) (fun i => f i.1 i.2)
    (fun i _ => Finset.mem_coe.mpr (Finset.mem_range.mpr (hf i.1 i.2))) ?_
  · rwa [Finset.card_univ, Fintype.card_fin, Finset.card_range] at hcard
  · intro i _ j _ heq
    have hti := htable i.1 i.2
    have htj := htable j.1 j.2
    dsimp only at heq
    rw [heq] at hti
    refine Fin.ext (hapart i.1 i.2 j.1 j.2 (h.tree _ _ _ ?_ ?_ hti htj))
    · simp [Page.l3Path]
    · simp [Page.l3Path]

/-! ### Other clients -/

/-- What others may do between two calls: the pages in `P` and the data frames in
`A` are left to their owner. -/
structure Elsewhere (P : Page → Prop) (A : U64 → Prop) (s s' : Space) : Prop where
  wf : s'.WF
  leaf : ∀ pg, P pg → s'.leaf pg = s.leaf pg
  data : ∀ a, A a → s.Data a → s'.Data a

variable {P : Page → Prop} {A B : U64 → Prop}

theorem Kept.elsewhere (h : Kept R s s') (hP : ∀ pg, P pg → ¬ R pg) : Elsewhere P A s s' :=
  ⟨h.wf, fun pg hpg => h.leaf pg (hP pg hpg), fun a _ ha => (h.data a).mpr ha⟩

end GamingConsole
