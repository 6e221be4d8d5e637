/-
The pages of the newlib heap, one page more or less at a time.

`NewlibPages s n` says that exactly the first `n` pages of the window are mapped,
to data frames of their own; `Resized s s' n n'` what going from `n` to `n'`
pages changes: no page below both, and among the data frames only those behind
the pages that came or went.
-/
import GamingConsole.Newlib
import GamingConsole.DataFrames

namespace GamingConsole

open Space

variable {s s' s'' : Space} {n n' n'' : ℕ} {a : U64} {c : ℕ} {k : Kernel}

/-- Pages of the window. -/
def newlibMaxPages : ℕ := 0x38000

theorem toNat_newlibHeapBase : newlibHeapBase.toNat = 0x180000000 := rfl

/-- Page `i` of the window. -/
def newlibPage (i : ℕ) : Page := pageAt newlibHeapBase i

/-- The frame behind page `i`. -/
def newlibFrame (s : Space) (i : ℕ) : U64 := s.leaf (newlibPage i) &&& addrMask

theorem newlibPage_inj {i j : ℕ} (hi : i ≤ newlibMaxPages) (hj : j ≤ newlibMaxPages)
    (h : newlibPage i = newlibPage j) : i = j := by
  rw [newlibMaxPages] at hi hj
  exact pageAt_inj (by omega) (by omega) h

/-- Exactly the first `n` pages are mapped, each to a frame of its own. -/
structure NewlibPages (s : Space) (n : ℕ) : Prop where
  wf : s.WF
  le : n ≤ newlibMaxPages
  mapped : ∀ i < n, s.Mapped (newlibPage i)
  unmapped : ∀ i, n ≤ i → i < newlibMaxPages → s.leaf (newlibPage i) = 0
  data : ∀ i < n, s.Data (newlibFrame s i)
  inj : ∀ i < n, ∀ j < n, newlibFrame s i = newlibFrame s j → i = j

/-- From `n` pages to `n'`. -/
structure Resized (s s' : Space) (n n' : ℕ) : Prop where
  leaf : ∀ pg, (∀ i, min n n' ≤ i → i < max n n' → pg ≠ newlibPage i) → s'.leaf pg = s.leaf pg
  data : ∀ a, s'.Data a ↔ (s.Data a ∧ ¬ ∃ i, n' ≤ i ∧ i < n ∧ a = newlibFrame s i) ∨
    ∃ i, n ≤ i ∧ i < n' ∧ a = newlibFrame s' i

theorem Resized.refl (s : Space) (n : ℕ) : Resized s s n n := by
  refine ⟨fun _ _ => rfl, fun a => ⟨fun ha => Or.inl ⟨ha, ?_⟩, ?_⟩⟩
  · rintro ⟨i, h1, h2, -⟩
    omega
  · rintro (⟨ha, -⟩ | ⟨i, h1, h2, -⟩)
    · exact ha
    · omega

/-- A page below both ends keeps its frame. -/
theorem Resized.frame (h : Resized s s' n n') (hn : n ≤ newlibMaxPages) (hn' : n' ≤ newlibMaxPages)
    {i : ℕ} (hi : i < min n n') : newlibFrame s' i = newlibFrame s i := by
  have hi1 : i < n := lt_of_lt_of_le hi (min_le_left _ _)
  rw [newlibFrame, newlibFrame, h.leaf]
  intro j h1 h2 he
  have hj : j < newlibMaxPages := lt_of_lt_of_le h2 (max_le hn hn')
  have := newlibPage_inj (by omega) (by omega) he
  omega

/-- Two growths in a row. -/
theorem Resized.grow_trans (h : Resized s s' n n') (h' : Resized s' s'' n' n'') (h1 : n ≤ n')
    (h2 : n' ≤ n'') (hn : n'' ≤ newlibMaxPages) : Resized s s'' n n'' := by
  refine ⟨fun pg hpg => ?_, fun a => ?_⟩
  · rw [h'.leaf pg fun i hi1 hi2 => hpg i (by omega) (by omega),
      h.leaf pg fun i hi1 hi2 => hpg i (by omega) (by omega)]
  · have hframe : ∀ i < n', newlibFrame s'' i = newlibFrame s' i := fun i hi =>
      h'.frame (by omega) (by omega) (by omega)
    rw [h'.data, h.data]
    constructor
    · rintro (⟨⟨ha, -⟩ | ⟨i, hi1, hi2, rfl⟩, -⟩ | ⟨i, hi1, hi2, rfl⟩)
      · exact Or.inl ⟨ha, fun ⟨i, hi1, hi2, _⟩ => by omega⟩
      · exact Or.inr ⟨i, hi1, by omega, (hframe i hi2).symm⟩
      · exact Or.inr ⟨i, by omega, hi2, rfl⟩
    · rintro (⟨ha, -⟩ | ⟨i, hi1, hi2, rfl⟩)
      · exact Or.inl ⟨Or.inl ⟨ha, fun ⟨i, hi1, hi2, _⟩ => by omega⟩,
          fun ⟨i, hi1, hi2, _⟩ => by omega⟩
      · rcases Nat.lt_or_ge i n' with hlt | hge
        · exact Or.inl ⟨Or.inr ⟨i, hi1, hlt, hframe i hlt⟩, fun ⟨j, hj1, hj2, _⟩ => by omega⟩
        · exact Or.inr ⟨i, hge, hi2, rfl⟩

/-- Two retreats in a row. -/
theorem Resized.shrink_trans (h : Resized s s' n n') (h' : Resized s' s'' n' n'') (h1 : n' ≤ n)
    (h2 : n'' ≤ n') (hn : n ≤ newlibMaxPages) : Resized s s'' n n'' := by
  refine ⟨fun pg hpg => ?_, fun a => ?_⟩
  · rw [h'.leaf pg fun i hi1 hi2 => hpg i (by omega) (by omega),
      h.leaf pg fun i hi1 hi2 => hpg i (by omega) (by omega)]
  · have hframe : ∀ i < n', newlibFrame s' i = newlibFrame s i := fun i hi =>
      h.frame (by omega) (by omega) (by omega)
    rw [h'.data, h.data]
    constructor
    · rintro (⟨⟨ha, hna⟩ | ⟨i, hi1, hi2, -⟩, hnb⟩ | ⟨i, hi1, hi2, -⟩)
      · refine Or.inl ⟨ha, ?_⟩
        rintro ⟨i, hi1, hi2, rfl⟩
        rcases Nat.lt_or_ge i n' with hlt | hge
        · exact hnb ⟨i, hi1, hlt, (hframe i hlt).symm⟩
        · exact hna ⟨i, hge, hi2, rfl⟩
      · omega
      · omega
    · rintro (⟨ha, hna⟩ | ⟨i, hi1, hi2, -⟩)
      · refine Or.inl ⟨Or.inl ⟨ha, fun ⟨i, hi1, hi2, he⟩ => hna ⟨i, by omega, hi2, he⟩⟩, ?_⟩
        rintro ⟨i, hi1, hi2, rfl⟩
        exact hna ⟨i, hi1, by omega, hframe i hi2⟩
      · omega

/-- The end of a heap of `n` pages. -/
def newlibEnd (n : ℕ) : U64 := pageAddr newlibHeapBase n

theorem toNat_newlibEnd (hn : n ≤ newlibMaxPages) :
    (newlibEnd n).toNat = 0x180000000 + n * 4096 := by
  rw [newlibMaxPages] at hn
  rw [newlibEnd, pageAddr, toNat_add_mul_pageSize (by rw [toNat_newlibHeapBase]; omega),
    toNat_newlibHeapBase]

theorem newlibEnd_mono {m : ℕ} (hnm : n ≤ m) (hm : m ≤ newlibMaxPages) :
    (newlibEnd n).toNat ≤ (newlibEnd m).toNat := by
  rw [toNat_newlibEnd hm, toNat_newlibEnd (hnm.trans hm)]
  omega

theorem newlibEnd_succ (n : ℕ) : newlibEnd n + pageSize = newlibEnd (n + 1) := by
  rw [newlibEnd, newlibEnd, pageAddr, pageAddr, BitVec.ofNat_add, BitVec.add_mul, BitVec.add_assoc]
  rfl

theorem newlibEnd_pred (n : ℕ) : newlibEnd (n + 1) - pageSize = newlibEnd n := by
  rw [← newlibEnd_succ, BitVec.add_sub_cancel]

theorem pageAt_newlibEnd (n : ℕ) : pageAt (newlibEnd n) 0 = newlibPage n := by
  rw [pageAt, pageAddr_zero, newlibEnd]
  rfl

theorem numPages_pageSize : numPages pageSize = 1 := by
  rw [numPages_eq]
  rfl

/-- A call on the page after the last one works on no other. -/
theorem inRange_newlibEnd (n : ℕ) (pg : Page) :
    InRange (newlibEnd n) pageSize pg ↔ pg = newlibPage n := by
  rw [InRange, numPages_pageSize]
  constructor
  · rintro ⟨i, hi, rfl⟩
    rw [show i = 0 by omega, pageAt_newlibEnd]
  · rintro rfl
    exact ⟨0, by omega, (pageAt_newlibEnd n).symm⟩

/-! ### One page more -/

/-- The descriptor of a page mapped to a data frame names the frame. -/
theorem pageDesc_frame (h : s.WF) (ha : s.Data a) :
    pageDesc a pteNormalRw 0 &&& addrMask = a := by
  have hal := ha.1.aligned h.pmm
  have hlt := ha.1.lt h.pmm
  rw [pageDesc_and_addrMask (by rwa [pageAddr_zero]) (by rw [pageAddr_zero]; omega) (by decide),
    pageAddr_zero]

/-- The page after the last one has been mapped to a fresh frame. -/
theorem NewlibPages.grown (h : NewlibPages s n) (hn : n < newlibMaxPages)
    (hgiven : Given (· = a) s s') (hkept : Kept (InRange (newlibEnd n) pageSize) s' s'')
    (hmaps : MapsRange s' s'' (newlibEnd n) a pteNormalRw (numPages pageSize)) :
    NewlibPages s'' (n + 1) ∧ Resized s s'' n (n + 1) := by
  have hdata : ∀ b, s''.Data b ↔ s.Data b ∨ b = a := fun b =>
    (hkept.data b).trans (hgiven.data h.wf)
  have hleaf : ∀ pg, pg ≠ newlibPage n → s''.leaf pg = s.leaf pg := fun pg hpg => by
    rw [hkept.leaf pg (fun hin => hpg ((inRange_newlibEnd n pg).mp hin)), hgiven.tables.leaf]
  have hnew : s''.leaf (newlibPage n) = pageDesc a pteNormalRw 0 := by
    rw [numPages_pageSize] at hmaps
    rw [← pageAt_newlibEnd]
    exact hmaps.inside (by omega) 0 (by omega)
  -- the new page has the new frame, and the old ones keep theirs
  have hframe : newlibFrame s'' n = a := by
    rw [newlibFrame, hnew, pageDesc_frame hkept.wf ((hdata a).mpr (Or.inr rfl))]
  have hne : ∀ i, i ≤ newlibMaxPages → i ≠ n → newlibPage i ≠ newlibPage n := fun i hi hin he =>
    hin (newlibPage_inj hi (by omega) he)
  have hold : ∀ i < n, newlibFrame s'' i = newlibFrame s i := fun i hi => by
    rw [newlibFrame, newlibFrame, hleaf _ (hne i (by omega) (by omega))]
  -- a frame that was free is not under any page
  have hfresh : ∀ i < n, newlibFrame s i ≠ a := fun i hi he =>
    hgiven.fresh a rfl (he ▸ (h.data i hi).1)
  refine ⟨⟨hkept.wf, hn, fun i hi => ?_, fun i hi1 hi2 => ?_, fun i hi => ?_,
    fun i hi j hj he => ?_⟩, ⟨fun pg hpg => hleaf pg (hpg n (by omega) (by omega)), fun b => ?_⟩⟩
  · rcases Nat.lt_succ_iff_lt_or_eq.mp hi with hi | rfl
    · rw [Space.Mapped, hleaf _ (hne i (by omega) (by omega))]
      exact h.mapped i hi
    · rw [Space.Mapped, hnew]
      exact pageDesc_valid _ _ _
  · rw [hleaf _ (hne i (by omega) (by omega))]
    exact h.unmapped i (by omega) hi2
  · rcases Nat.lt_succ_iff_lt_or_eq.mp hi with hi | rfl
    · rw [hold i hi]
      exact (hdata _).mpr (Or.inl (h.data i hi))
    · rw [hframe]
      exact (hdata a).mpr (Or.inr rfl)
  · rcases Nat.lt_succ_iff_lt_or_eq.mp hi with hi | rfl <;>
      rcases Nat.lt_succ_iff_lt_or_eq.mp hj with hj | rfl
    · rw [hold i hi, hold j hj] at he
      exact h.inj i hi j hj he
    · rw [hold i hi, hframe] at he
      exact absurd he (hfresh i hi)
    · rw [hold j hj, hframe] at he
      exact absurd he.symm (hfresh j hj)
    · rfl
  · rw [hdata]
    constructor
    · rintro (hb | rfl)
      · refine Or.inl ⟨hb, ?_⟩
        rintro ⟨i, hi1, hi2, -⟩
        omega
      · exact Or.inr ⟨n, le_refl n, by omega, hframe.symm⟩
    · rintro (⟨hb, -⟩ | ⟨i, hi1, hi2, rfl⟩)
      · exact Or.inl hb
      · rw [show i = n by omega]
        exact Or.inr hframe

/-- The frame was given back after a `map` that failed. -/
theorem NewlibPages.not_grown (h : NewlibPages s n) (hgiven : Given (· = a) s s')
    (hkept : Kept (InRange (newlibEnd n) pageSize) s' s'') (hleaf : ∀ pg, s''.leaf pg = s'.leaf pg)
    {t : Space} (hdrop : Dropped a s'' t) : NewlibPages t n ∧ Resized s t n n := by
  have hleaf' : ∀ pg, t.leaf pg = s.leaf pg := fun pg => by
    rw [hdrop.tables.leaf, hleaf, hgiven.tables.leaf]
  -- the frame was no data before, and is none again
  have hdata : ∀ b, t.Data b ↔ s.Data b := fun b => by
    rw [hdrop.data, hkept.data, hgiven.data h.wf]
    constructor
    · rintro ⟨hb | rfl, hne⟩
      · exact hb
      · exact absurd rfl hne
    · refine fun hb => ⟨Or.inl hb, ?_⟩
      rintro rfl
      exact hgiven.fresh b rfl hb.1
  have hframe : ∀ i, newlibFrame t i = newlibFrame s i := fun i => by
    rw [newlibFrame, newlibFrame, hleaf']
  refine ⟨⟨hdrop.wf, h.le, fun i hi => ?_, fun i hi1 hi2 => ?_, fun i hi => ?_,
    fun i hi j hj he => ?_⟩, ⟨fun pg _ => hleaf' pg, fun b => ?_⟩⟩
  · rw [Space.Mapped, hleaf']
    exact h.mapped i hi
  · rw [hleaf']
    exact h.unmapped i hi1 hi2
  · rw [hframe, hdata]
    exact h.data i hi
  · rw [hframe, hframe] at he
    exact h.inj i hi j hj he
  · rw [hdata]
    constructor
    · refine fun hb => Or.inl ⟨hb, ?_⟩
      rintro ⟨i, hi1, hi2, -⟩
      omega
    · rintro (⟨hb, -⟩ | ⟨i, hi1, hi2, -⟩)
      · exact hb
      · omega

/-! ### One page less -/

/-- The last page has been unmapped and its frame given back. -/
theorem NewlibPages.shrunk (h : NewlibPages s (n + 1))
    (hkept : Kept (InRange (newlibEnd n) pageSize) s s') (hleaf : s'.leaf (newlibPage n) = 0)
    (hdrop : Dropped (newlibFrame s n) s' s'') :
    NewlibPages s'' n ∧ Resized s s'' (n + 1) n := by
  have hle := h.le
  -- the frames are distinct, and so only the last page loses its own
  have hdata : ∀ b, s''.Data b ↔ s.Data b ∧ b ≠ newlibFrame s n := fun b => by
    rw [hdrop.data, hkept.data]
  have hleaf' : ∀ pg, pg ≠ newlibPage n → s''.leaf pg = s.leaf pg := fun pg hpg => by
    rw [hdrop.tables.leaf, hkept.leaf pg (fun hin => hpg ((inRange_newlibEnd n pg).mp hin))]
  have hne : ∀ i, i ≤ newlibMaxPages → i ≠ n → newlibPage i ≠ newlibPage n := fun i hi hin he =>
    hin (newlibPage_inj hi (by omega) he)
  have hold : ∀ i < n, newlibFrame s'' i = newlibFrame s i := fun i hi => by
    rw [newlibFrame, newlibFrame, hleaf' _ (hne i (by omega) (by omega))]
  refine ⟨⟨hdrop.wf, by omega, fun i hi => ?_, fun i hi1 hi2 => ?_, fun i hi => ?_,
    fun i hi j hj he => ?_⟩, ⟨fun pg hpg => hleaf' pg (hpg n (by omega) (by omega)), fun b => ?_⟩⟩
  · rw [Space.Mapped, hleaf' _ (hne i (by omega) (by omega))]
    exact h.mapped i (by omega)
  · by_cases hin : i = n
    · rw [hin, hdrop.tables.leaf, hleaf]
    · rw [hleaf' _ (hne i (by omega) hin)]
      exact h.unmapped i (by omega) hi2
  · rw [hold i hi, hdata]
    refine ⟨h.data i (by omega), fun he => ?_⟩
    have := h.inj i (by omega) n (by omega) he
    omega
  · rw [hold i hi, hold j hj] at he
    exact h.inj i (by omega) j (by omega) he
  · rw [hdata]
    constructor
    · rintro ⟨hb, hne⟩
      refine Or.inl ⟨hb, ?_⟩
      rintro ⟨i, hi1, hi2, he⟩
      rw [show i = n by omega] at he
      exact hne he
    · rintro (⟨hb, hnone⟩ | ⟨i, hi1, hi2, -⟩)
      · exact ⟨hb, fun he => hnone ⟨n, le_refl n, by omega, he⟩⟩
      · omega

end GamingConsole
