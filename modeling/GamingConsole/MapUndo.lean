/-
`map` on unmapped pages: what it takes, what a failure leaves, what `unmap`
takes back.

* `alone_map_unmapped` — `map` succeeds exactly when the missing tables fit in
  the free frames; when it fails, memory is as before exactly under
  `FrameBoundary`;
* `alone_unmap_mapped` — `unmap` after a successful `map` restores a memory
  without empty tables.

Both go through `Remaining`, the state of the clearing loop half way.
-/
import GamingConsole.Rollback
import Mathlib.Data.Fintype.Prod
import Mathlib.Data.Fintype.Card

namespace GamingConsole

open Space

variable {s₀ s s' : Space} {va phys flags size : U64} {m n : ℕ} {c : ℕ} {k : Kernel}

/-- Same descriptors, same bitmap. -/
def Restored (s₀ s : Space) : Prop := SameTables s₀ s ∧ s.pmm = s₀.pmm

/-- No page of the range is mapped. -/
def Space.Unmapped (s : Space) (va : U64) (n : ℕ) : Prop := ∀ i < n, ¬ s.Mapped (pageAt va i)

theorem Space.Unmapped.leaf (h : s.Unmapped va n) (hwf : s.WF) {i : ℕ} (hi : i < n) :
    s.leaf (pageAt va i) = 0 := (hwf.leaf _).resolve_right (h i hi)

theorem Restored.emptyTable (h : Restored s₀ s) {q : List (Fin 512)} (hq : q.length ≤ 2) :
    s.EmptyTable q ↔ s₀.EmptyTable q := by
  constructor
  · rintro ⟨t, ht, hz⟩
    have ht₀ : s₀.table q = some t := by rw [← h.1.table hq, ht]
    exact ⟨t, ht₀, fun i => by rw [← h.1.mem t ⟨q, hq, ht₀⟩, hz]⟩
  · rintro ⟨t, ht, hz⟩
    exact ⟨t, by rw [h.1.table hq, ht], fun i => by rw [h.1.mem t ⟨q, hq, ht⟩, hz]⟩

/-! ### The clearing loop -/

/-- `s` is `s₀` with the pages `m, …, n - 1` of the range mapped, as far as leaves
go. -/
structure Remaining (s₀ s : Space) (va : U64) (m n : ℕ) : Prop where
  wf : s.WF
  mapped : ∀ i, m ≤ i → i < n → s.leaf (pageAt va i) ≠ 0
  leaf : ∀ pg, (∀ i, m ≤ i → i < n → pg ≠ pageAt va i) → s.leaf pg = s₀.leaf pg

theorem Remaining.of_mapsRange (hn : n ≤ 2 ^ 27) (h : MapsRange s₀ s va phys flags n) :
    Remaining s₀ s va 0 n where
  wf := h.wf
  mapped := by
    intro i _ hi
    rw [h.inside hn i hi]
    exact ne_zero_of_valid (pageDesc_valid phys flags i)
  leaf := fun pg hpg => h.outside pg fun i hi => hpg i (Nat.zero_le i) hi

theorem Remaining.step (h : Remaining s₀ s va m n) (hm : m < n) (hn : n ≤ 2 ^ 27)
    (h0 : s₀.leaf (pageAt va m) = 0) (hspec : UnmapPageSpec s (pageAt va m) true s') :
    Remaining s₀ s' va (m + 1) n where
  wf := hspec.wf h.wf
  mapped := by
    intro i hi hin
    rw [hspec.leaf, if_neg fun he => by have := pageAt_inj (by omega) (by omega) he; omega]
    exact h.mapped i (by omega) hin
  leaf := by
    intro pg hpg
    rw [hspec.leaf]
    by_cases hpm : pg = pageAt va m
    · rw [if_pos hpm, hpm, h0]
    · rw [if_neg hpm]
      refine h.leaf pg fun i hi hin => ?_
      by_cases him : i = m
      · rwa [him]
      · exact hpg i (by omega) hin

/-- A page that is still mapped is no hole. -/
theorem Remaining.no_hole (h : Remaining s₀ s va m n) (hm : m < n)
    (hspec : UnmapPageSpec s (pageAt va m) false s') : False :=
  h.mapped m (le_refl m) hm hspec.leaf_of_hole

theorem Remaining.done (h : Remaining s₀ s va n n) (pg : Page) : s.leaf pg = s₀.leaf pg :=
  h.leaf pg fun i h1 h2 => absurd h1 (by omega)

/-- After a page is cleared, the tables on its path are gone or hold something. -/
theorem UnmapPageSpec.pruned {pg : Page} (hspec : UnmapPageSpec s pg true s') :
    ¬ s'.EmptyTable pg.l2Path ∧ ¬ s'.EmptyTable pg.l3Path := by
  cases hspec with
  | cleared _ _ hset h3 h2 =>
    rename_i t₂ t₃ s₁ s₂ _ _
    have hgone : ∀ {s s' : Space} {q : List (Fin 512)}, Pruned s s' q → ¬ s'.EmptyTable q := by
      intro s s' q hpr he
      rcases hpr with ⟨-, r, hr⟩ | ⟨hne, rfl⟩
      · obtain ⟨t, ht⟩ := he.table_isSome
        rw [hr.table q hr.depth, if_pos rfl] at ht
        exact absurd ht (by simp)
      · exact hne he
    refine ⟨hgone h2, fun he => hgone h3 ?_⟩
    obtain ⟨t, ht⟩ := he.table_isSome
    have hlen : pg.l3Path.length ≤ 2 := by simp [Page.l3Path]
    refine he.of_le (h3.wf hset.wf) (h2.wf (h3.wf hset.wf)) hlen
      (fun i hl => absurd hl (by simp [Page.l3Path])) (fun pg' _ h0 => (h2.leaf pg').symm.trans h0)
      (t := t) ?_
    rw [← ht, h2.table_of_ne hlen (by simp [Page.l2Path, Page.l3Path])]

/-- Tables off the page's path are left alone. -/
theorem UnmapPageSpec.table {pg : Page} (hspec : UnmapPageSpec s pg true s') {q : List (Fin 512)}
    (hq : q.length ≤ 2) (h2 : q ≠ pg.l2Path) (h3 : q ≠ pg.l3Path) : s'.table q = s.table q := by
  cases hspec with
  | cleared _ _ hset hp3 hp2 => rw [hp2.table_of_ne hq h2, hp3.table_of_ne hq h3, hset.table q hq]

/-- The state of a rollback that has cleared the first `m` of `n` pages, begun in
`s₁`. -/
structure RollingBack (s₀ s₁ s : Space) (va : U64) (n m : ℕ) : Prop where
  remaining : Remaining s₀ s va m n
  pruned : ∀ i < m, ¬ s.EmptyTable (pageAt va i).l2Path ∧ ¬ s.EmptyTable (pageAt va i).l3Path
  other : ∀ q, q.length ≤ 2 → (∀ i < n, q ≠ (pageAt va i).l2Path ∧ q ≠ (pageAt va i).l3Path) →
    s.table q = s₁.table q

/-- A table that is not on the path of the cleared page has not become empty. -/
theorem UnmapPageSpec.emptyTable_of_ne {pg : Page} (h : s.WF) (hspec : UnmapPageSpec s pg true s')
    {q : List (Fin 512)} (hq : q.length ≤ 2) (hne2 : q ≠ pg.l2Path) (hne3 : q ≠ pg.l3Path)
    (hne : q ≠ []) (he : s'.EmptyTable q) : s.EmptyTable q := by
  obtain ⟨t, ht⟩ := he.table_isSome
  rw [hspec.table hq hne2 hne3] at ht
  refine he.of_le h (hspec.wf h) hq (fun i hlen hn => ?_) (fun pg' hpath h0 => ?_) ht
  · rwa [hspec.table (by simpa using hlen)] at hn
    · intro hi
      have := congrArg List.length hi
      simp only [List.length_cons, Page.l2Path, List.length_nil] at this
      exact hne (List.length_eq_zero_iff.mp (by omega))
    · intro hi
      obtain ⟨-, rfl⟩ := List.cons.inj hi
      exact hne2 rfl
  · rwa [hspec.leaf, if_neg] at h0
    rintro rfl
    exact hne3 hpath.symm

theorem RollingBack.step {s₁ : Space} (h : RollingBack s₀ s₁ s va n m) (hm : m < n)
    (hn : n ≤ 2 ^ 27) (h0 : s₀.leaf (pageAt va m) = 0)
    (hspec : UnmapPageSpec s (pageAt va m) true s') : RollingBack s₀ s₁ s' va n (m + 1) where
  remaining := h.remaining.step hm hn h0 hspec
  pruned := by
    intro i hi
    obtain ⟨h2, h3⟩ := hspec.pruned
    by_cases him : i = m
    · rw [him]
      exact ⟨h2, h3⟩
    · obtain ⟨hi2, hi3⟩ := h.pruned i (by omega)
      constructor
      · by_cases he : (pageAt va i).l2Path = (pageAt va m).l2Path
        · rwa [he]
        · exact fun hem => hi2 (hspec.emptyTable_of_ne h.remaining.wf (by simp [Page.l2Path]) he
            (by simp [Page.l2Path, Page.l3Path]) (by simp [Page.l2Path]) hem)
      · by_cases he : (pageAt va i).l3Path = (pageAt va m).l3Path
        · rwa [he]
        · exact fun hem => hi3 (hspec.emptyTable_of_ne h.remaining.wf (by simp [Page.l3Path])
            (by simp [Page.l2Path, Page.l3Path]) he (by simp [Page.l3Path]) hem)
  other := by
    intro q hq hoff
    rw [hspec.table hq (hoff m hm).1 (hoff m hm).2, h.other q hq hoff]

/-! ### Enough virtual memory for all of it -/

/-- There are more L3 paths than frames. -/
theorem Space.WF.exists_no_l3 (h : s.WF) : ∃ pg : Page, s.table pg.l3Path = none := by
  by_contra hall
  simp only [not_exists, ← ne_eq, Option.ne_none_iff_exists'] at hall
  have hframe : ∀ x : Fin 512 × Fin 512, ∃ i : Fin s.pmm.totalFrames.toNat,
      s.table [x.1, x.2] = some (s.pmm.frame i) := by
    intro x
    obtain ⟨t, ht⟩ := hall ⟨x.2, x.1, 0⟩
    obtain ⟨i, hi, rfl, -⟩ := h.table_used (by simp [Page.l3Path]) ht
    exact ⟨⟨i, hi⟩, ht⟩
  choose f hf using hframe
  have hinj : Function.Injective f := by
    intro x y hxy
    have hx := hf x
    rw [hxy, ← hf y] at hx
    have := h.table_inj (p := [x.1, x.2]) (q := [y.1, y.2]) (by simp) (by simp) (hx.trans (hf y))
      (hf y)
    simp only [List.cons.injEq, and_true] at this
    exact Prod.ext this.1 this.2
  have hcard := Fintype.card_le_of_injective f hinj
  rw [Fintype.card_prod, Fintype.card_fin, Fintype.card_fin] at hcard
  have hend := h.pmm.managed_end
  rw [toNat_physMemEnd] at hend
  omega

/-- A range of 2²⁷ pages is all of them. -/
theorem exists_pageAt (va : U64) (pg : Page) : ∃ i < 2 ^ 27, pg = pageAt va i := by
  have hnum : pg.num < 2 ^ 27 := by
    rcases pg with ⟨a, b, c⟩
    simp only [Page.num]
    omega
  refine ⟨(pg.num + 2 ^ 27 - va.toNat / 4096 % 2 ^ 27) % 2 ^ 27, by omega, Page.num_inj ?_⟩
  rw [num_pageAt]
  omega

theorem MapsRange.lt (h : MapsRange s₀ s va phys flags n) (hn : n ≤ 2 ^ 27) : n < 2 ^ 27 := by
  rcases Nat.lt_or_ge n (2 ^ 27) with hlt | hge
  · exact hlt
  · obtain ⟨pg, hnone⟩ := h.wf.exists_no_l3
    obtain ⟨i, hi, rfl⟩ := exists_pageAt va pg
    have := h.inside hn i (by omega)
    rw [leaf_of_no_table hnone] at this
    exact absurd this.symm (ne_zero_of_valid (pageDesc_valid phys flags i))

/-! ### The mapping loop -/

/-- No table on the path of the first `n` pages is empty. -/
def NoEmptyTables (s : Space) (va : U64) (n : ℕ) : Prop :=
  ∀ i < n, ¬ s.EmptyTable (pageAt va i).l2Path ∧ ¬ s.EmptyTable (pageAt va i).l3Path

/-- The free frames run out between two pages, after exactly the tables that the
pages before them take, and no table on the path of those pages is empty. -/
def FrameBoundary (s : Space) (va : U64) (n : ℕ) : Prop :=
  ∃ j < n, (newTables s va j).card = s.pmm.freeCount ∧
    s.pmm.freeCount < (newTables s va (j + 1)).card ∧
    NoEmptyTables s va j

/-- The state of `map` after `n` pages. -/
structure Mapping (s₀ s : Space) (va phys flags : U64) (n : ℕ) : Prop where
  le : n ≤ 2 ^ 27
  overlay : Overlay s₀ s fun _ => False
  maps : MapsRange s₀ s va phys flags n
  ledger : Ledger s₀ s (newTables s₀ va n)

theorem Mapping.zero (h : s₀.WF) : Mapping s₀ s₀ va phys flags 0 :=
  ⟨by omega, .refl h, .zero h, .zero s₀⟩

theorem Mapping.step (h : Mapping s₀ s va phys flags n) (h0 : s₀.leaf (pageAt va n) = 0)
    (hspec : MapPageSpec s (pageAt va n) (pageDesc phys flags n) true s') :
    Mapping s₀ s' va phys flags (n + 1) where
  le := h.maps.lt h.le
  overlay := h.overlay.mapPage h0 (ne_zero_of_valid (pageDesc_valid phys flags n)) hspec
  maps := h.maps.step hspec
  ledger := h.ledger.mapPage hspec

theorem Mapping.card_le (h : Mapping s₀ s va phys flags n) :
    (newTables s₀ va n).card ≤ s₀.pmm.freeCount := by
  have := h.ledger.count
  omega

/-- What a failed page leaves: an L2 table of its own, when it got one. -/
structure PageFailed (s₀ s : Space) (va phys flags : U64) (n : ℕ) : Prop where
  le : n < 2 ^ 27
  maps : MapsRange s₀ s va phys flags n
  short : s₀.pmm.freeCount < (newTables s₀ va (n + 1)).card
  outcome : (newTables s₀ va n).card = s₀.pmm.freeCount ∧ (Overlay s₀ s fun _ => False) ∨
    (newTables s₀ va n).card ≠ s₀.pmm.freeCount ∧ s₀.table (pageAt va n).l2Path = none ∧
      s.table (pageAt va n).l2Path ≠ none ∧ ∀ i < n, (pageAt va n).l2Path ≠ (pageAt va i).l2Path

theorem MapsRange.ensured {q : List (Fin 512)} {t : U64} (h : MapsRange s₀ s va phys flags n)
    (he : Ensured s s' q t) : MapsRange s₀ s' va phys flags n :=
  ⟨he.wf h.wf, fun hn i hi => by rw [he.leaf, h.inside hn i hi],
    fun pg hpg => by rw [he.leaf, h.outside pg hpg]⟩

/-- A mapped page has its L2 table. -/
theorem MapsRange.l2_ne (h : MapsRange s₀ s va phys flags n) (hn : n ≤ 2 ^ 27) {pg : Page}
    (hnone : s.table pg.l2Path = none) {i : ℕ} (hi : i < n) :
    pg.l2Path ≠ (pageAt va i).l2Path := by
  intro he
  have hne : s.leaf (pageAt va i) ≠ 0 := by
    rw [h.inside hn i hi]
    exact ne_zero_of_valid (pageDesc_valid phys flags i)
  obtain ⟨t₂, -, ht2, -⟩ := tables_of_leaf_ne hne
  rw [he, ht2] at hnone
  exact absurd hnone (by simp)

theorem Mapping.failed (h : Mapping s₀ s va phys flags n)
    (hspec : MapPageSpec s (pageAt va n) (pageDesc phys flags n) false s') :
    PageFailed s₀ s' va phys flags n := by
  have hlen2 : (pageAt va n).l2Path.length ≤ 2 := by simp [Page.l2Path]
  have hlen3 : (pageAt va n).l3Path.length ≤ 2 := by simp [Page.l3Path]
  cases hspec with
  | noL2 hnone hfull =>
    obtain ⟨h1, h2⟩ := h.ledger.full hlen2 hnone hfull
    refine ⟨h.maps.lt h.le, h.maps, ?_, Or.inl ⟨h1, h.overlay⟩⟩
    have := card_addMissing_le s₀ (addMissing s₀ (newTables s₀ va n) (pageAt va n).l2Path)
      (pageAt va n).l3Path
    rw [newTables]
    omega
  | noL3 he hnone hfull =>
    obtain ⟨h1, h2⟩ := (h.ledger.ensured he hlen2).full hlen3 hnone hfull
    refine ⟨h.maps.lt h.le, h.maps.ensured he, by rw [newTables]; omega, ?_⟩
    rcases he with ⟨hfound, rfl⟩ | hadd
    · left
      refine ⟨?_, h.overlay⟩
      have hT := (h.ledger.missing _ hlen2).not.mp (by rw [hfound]; simp)
      rw [addMissing] at h1
      by_cases hn : s₀.table (pageAt va n).l2Path = none
      · rwa [if_pos hn, Finset.insert_eq_of_mem (by simpa [hn] using hT)] at h1
      · rwa [if_neg hn] at h1
    · right
      obtain ⟨hn, hT⟩ := (h.ledger.missing _ hlen2).mp hadd.free
      rw [addMissing, if_pos hn, Finset.card_insert_of_notMem hT] at h1
      refine ⟨by omega, hn, ?_, fun i hi => h.maps.l2_ne h.le hadd.free hi⟩
      rw [hadd.table _ hlen2, if_pos rfl]
      simp


/-! ### Whole calls -/

theorem alone_rollback (hk : k.Free .pmmLock) (h : PageFailed s₀ s va phys flags n)
    (hun : s₀.Unmapped va n) (hwf : s₀.WF) :
    Alone c k (unmapLocked va (BitVec.ofNat 64 n * pageSize)) s fun _ s' =>
      Restored s₀ s' ↔ (newTables s₀ va n).card = s₀.pmm.freeCount ∧ NoEmptyTables s₀ va n := by
  have hn := numPages_mul (i := n) (by have := h.le; omega)
  refine Alone.mono (Alone.unmapLocked (J := fun _ => False)
    (R := fun m s' => RollingBack s₀ s s' va n m ∧
      ((newTables s₀ va n).card = s₀.pmm.freeCount ∧ NoEmptyTables s₀ va n →
        Overlay s₀ s' fun _ => False)) hk (fun _ _ hR => hR.1.remaining.wf) ?_ ?_ ?_)
    fun _ s' hor => ?_
  · intro m t t' hm hR hspec
    rw [hn] at hm
    refine ⟨hR.1.step hm (by have := h.le; omega) (hun.leaf hwf hm) hspec, fun hclean => ?_⟩
    exact (hR.2 hclean).unmapPage (hun.leaf hwf hm) (hclean.2 m hm).2 (hclean.2 m hm).1 hspec
  · intro m t t' hm hR hspec
    rw [hn] at hm
    exact hR.1.remaining.no_hole hm hspec
  · refine ⟨⟨.of_mapsRange (by have := h.le; omega) h.maps, fun i hi => absurd hi (by omega),
      fun _ _ _ => rfl⟩, fun hclean => ?_⟩
    rcases h.outcome with ⟨-, hov⟩ | ⟨hne, -⟩
    · exact hov
    · exact absurd hclean.1 hne
  · rcases hor with ⟨hrb, hov⟩ | hF
    · rw [hn] at hrb
      constructor
      · intro hres
        refine ⟨?_, fun i hi => ?_⟩
        · rcases h.outcome with ⟨hcard, -⟩ | ⟨-, hnone, hsome, hne⟩
          · exact hcard
          · -- the L2 table of the failed page is still there
            refine absurd ?_ hsome
            rw [← hrb.other _ (by simp [Page.l2Path]) fun i hi =>
              ⟨hne i hi, by simp [Page.l2Path, Page.l3Path]⟩, hres.1.table (by simp [Page.l2Path]),
              hnone]
        · obtain ⟨h2, h3⟩ := hrb.pruned i hi
          rw [hres.emptyTable (by simp [Page.l2Path])] at h2
          rw [hres.emptyTable (by simp [Page.l3Path])] at h3
          exact ⟨h2, h3⟩
      · exact fun hclean => (hov hclean).restored hrb.remaining.done
    · exact hF.elim

/-- A run of `map` over pages that are not mapped. -/
theorem alone_map_unmapped (h : s₀.WF) (hmmu : k.Free .mmuLock) (hpmm : k.Free .pmmLock)
    (hun : s₀.Unmapped va (numPages size)) :
    Alone c k (map va phys size flags) s₀ fun done s' =>
      (done = true ↔ (newTables s₀ va (numPages size)).card ≤ s₀.pmm.freeCount) ∧
        (done = true → Mapping s₀ s' va phys flags (numPages size)) ∧
        (done = false → (Restored s₀ s' ↔ FrameBoundary s₀ va (numPages size))) := by
  refine Alone.mono (Alone.map (I := fun n s => Mapping s₀ s va phys flags n)
    (J := fun s' => s₀.pmm.freeCount < (newTables s₀ va (numPages size)).card ∧
      (Restored s₀ s' ↔ FrameBoundary s₀ va (numPages size)))
    hmmu hpmm (fun _ _ hI => hI.maps.wf) (fun j s s' hj hI hspec => hI.step (hun.leaf h hj) hspec)
    (fun j s s' hj hI hspec => ?_) (.zero h)) fun done s' hor => ?_
  · have hfail := hI.failed hspec
    refine Alone.mono (alone_rollback (hpmm.entered_of_ne (by decide)) hfail
      (fun i hi => hun i (by omega)) h) fun _ s'' hiff => ⟨?_, hiff.trans ⟨?_, ?_⟩⟩
    · exact lt_of_lt_of_le hfail.short (card_newTables_mono s₀ va hj)
    · exact fun hb => ⟨j, hj, hb.1, hfail.short, hb.2⟩
    · rintro ⟨i, hi, hcard, hshort, hne⟩
      -- the page that fails is the first that does not fit
      have hij : i = j := by
        have hle := hI.card_le
        rcases Nat.lt_trichotomy i j with hlt | heq | hgt
        · have := card_newTables_mono s₀ va (show i + 1 ≤ j from hlt)
          dsimp only at this
          omega
        · exact heq
        · have := card_newTables_mono s₀ va (show j + 1 ≤ i from hgt)
          have := hfail.short
          dsimp only at *
          omega
      subst hij
      exact ⟨hcard, hne⟩
  · rcases hor with ⟨rfl, hI⟩ | ⟨rfl, hlt, hiff⟩
    · exact ⟨⟨fun _ => hI.card_le, fun _ => rfl⟩, fun _ => hI, fun hf => absurd hf (by simp)⟩
    · exact ⟨⟨fun hf => absurd hf (by simp), fun hle => absurd hlt (by omega)⟩,
        fun hf => absurd hf (by simp), fun _ => hiff⟩

/-- A run of `unmap` over the pages that a `map` has just mapped. -/
theorem alone_unmap_mapped (hmmu : k.Free .mmuLock) (hpmm : k.Free .pmmLock)
    (hun : s₀.Unmapped va (numPages size)) (hne : NoEmptyTables s₀ va (numPages size))
    (h : Mapping s₀ s va phys flags (numPages size)) :
    Alone c k (unmap va size) s fun _ s' => Restored s₀ s' := by
  refine Alone.mono (Alone.unmap (J := fun _ => False)
    (R := fun m s' => Remaining s₀ s' va m (numPages size) ∧ Overlay s₀ s' fun _ => False)
    hmmu hpmm (fun _ _ hR => hR.1.wf) ?_ ?_ ⟨.of_mapsRange h.le h.maps, h.overlay⟩)
    fun _ s' hor => ?_
  · intro m t t' hm hR hspec
    have h0 := hun.leaf h.overlay.wf₀ hm
    exact ⟨hR.1.step hm h.le h0 hspec, hR.2.unmapPage h0 (hne m hm).2 (hne m hm).1 hspec⟩
  · exact fun m t t' hm hR hspec => hR.1.no_hole hm hspec
  · rcases hor with ⟨hrem, hov⟩ | hF
    · exact hov.restored hrem.done
    · exact hF.elim

end GamingConsole
