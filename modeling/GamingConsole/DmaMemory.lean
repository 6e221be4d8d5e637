/-
The memory behind the DMA buffers.

The window has 256 pages.  `DmaMemory s rest own maps` says which data frames each of
the buffers owns, `rest` being everyone else's, and which of the window's pages it maps;
no page of the window is mapped by anyone else.  There is one lemma for each way in
which a step of `dma_alloc` or `dma_free` changes it.
-/
import GamingConsole.Dma
import GamingConsole.DataFrames
import GamingConsole.Library.Ownership

namespace GamingConsole

open Space Ownership

/-! ### The window -/

/-- The pages of the window. -/
def dmaPages : ℕ := 256

/-- The address of page `q` of the window. -/
def dmaAt (q : ℕ) : U64 := pageAddr dmaBase q

/-- Page `q` of the window. -/
def dmaPage (q : ℕ) : Page := pageAt dmaBase q

variable {q n f i : ℕ} {size va phys flags : U64}

theorem toNat_dmaAt (hq : q ≤ 2 * dmaPages) : (dmaAt q).toNat = 0x140000000 + q * 4096 := by
  have hbase : dmaBase.toNat = 0x140000000 := rfl
  rw [dmaPages] at hq
  rw [dmaAt, pageAddr, toNat_add_mul_pageSize (by rw [hbase]; omega), hbase]

theorem pageAt_dmaAt (f q : ℕ) : pageAt (dmaAt f) q = dmaPage (f + q) := by
  rw [pageAt, dmaAt, pageAddr_add, dmaPage, pageAt]

/-- The pages of a range in the window. -/
theorem inRange_dmaAt (hn : numPages size = n) (hf : f + n ≤ dmaPages) (hq : q < dmaPages) :
    InRange (dmaAt f) size (dmaPage q) ↔ f ≤ q ∧ q < f + n := by
  rw [InRange, hn]
  rw [dmaPages] at hf hq
  constructor
  · rintro ⟨p, hp, heq⟩
    rw [pageAt_dmaAt] at heq
    have := pageAt_inj (by omega) (by omega) heq
    omega
  · rintro ⟨h1, h2⟩
    refine ⟨q - f, by omega, ?_⟩
    rw [pageAt_dmaAt, Nat.add_sub_cancel' h1]

/-! ### Requests -/

theorem toNat_dmaPageCount (hsize : size ≤ dmaMaxSize) :
    (dmaPageCount size).toNat = (size.toNat + 4095) / 4096 := by
  have hle : size.toNat ≤ 0x100000 := hsize
  have hsub : size + pageSize - 1#64 = size + 4095#64 := by
    rw [pageSize]
    bv_omega
  rw [dmaPageCount, hsub, BitVec.toNat_udiv, BitVec.toNat_add, toNat_pageSize]
  show (size.toNat + 4095) % 2 ^ 64 / 4096 = _
  rw [Nat.mod_eq_of_lt (by omega)]

/-- A request is no larger than the window. -/
theorem dmaPageCount_le (hsize : size ≤ dmaMaxSize) : (dmaPageCount size).toNat ≤ dmaPages := by
  have hle : size.toNat ≤ 0x100000 := hsize
  rw [toNat_dmaPageCount hsize, dmaPages]
  omega

theorem toNat_dmaAlignedSize (hn : (dmaPageCount size).toNat ≤ dmaPages) :
    (dmaAlignedSize size).toNat = (dmaPageCount size).toNat * 4096 := by
  rw [dmaPages] at hn
  rw [dmaAlignedSize, BitVec.toNat_mul, toNat_pageSize]
  omega

theorem numPages_dmaAlignedSize (hn : (dmaPageCount size).toNat ≤ dmaPages) :
    numPages (dmaAlignedSize size) = (dmaPageCount size).toNat := by
  rw [numPages_eq, toNat_dmaAlignedSize hn, Nat.mul_div_cancel _ (by omega)]

/-- The end of a request that starts at page `f`. -/
theorem dmaAt_add (hn : (dmaPageCount size).toNat ≤ dmaPages) (f : ℕ) :
    dmaAt f + dmaAlignedSize size = dmaAt (f + (dmaPageCount size).toNat) := by
  have hbytes : dmaAlignedSize size = BitVec.ofNat 64 (dmaPageCount size).toNat * pageSize := by
    have hlt : (dmaPageCount size).toNat < 2 ^ 52 := lt_of_le_of_lt hn (by decide)
    exact BitVec.eq_of_toNat_eq ((toNat_dmaAlignedSize hn).trans (toNat_mul_pageSize hlt).symm)
  rw [dmaAt, dmaAt, ← pageAddr_add, hbytes]
  rfl

/-! ### Frames and pages -/

/-- Which data frames buffer `i` owns, and which pages of the window it maps, with what
descriptor. -/
structure DmaMemory (s : Space) (rest : U64 → Prop) (own : ℕ → U64 → Prop)
    (maps : ℕ → ℕ → U64 → Prop) : Prop where
  wf : s.WF
  frames : Ledger s.Data rest own
  inside : ∀ i q desc, maps i q desc → q < dmaPages
  leaf : ∀ i q desc, maps i q desc → s.leaf (dmaPage q) = desc
  hole : ∀ q < dmaPages, (∀ i desc, ¬ maps i q desc) → s.leaf (dmaPage q) = 0

variable {s s' : Space} {rest : U64 → Prop} {own : ℕ → U64 → Prop} {maps : ℕ → ℕ → U64 → Prop}
  {a : U64} {A : U64 → Prop} {R : Page → Prop}

namespace DmaMemory

/-- Buffer `i` is given its frames. -/
theorem given (h : DmaMemory s rest own maps) (hgiven : Given A s s') (hown : ∀ a, ¬ own i a) :
    DmaMemory s' rest (Function.update own i A) maps := by
  refine ⟨hgiven.wf, h.frames.update (fun a => ?_) fun a ha => Or.inr fun hd => ?_, h.inside,
    fun j q desc hm => ?_, fun q hq hno => ?_⟩
  · rw [hgiven.data h.wf, and_iff_left (hown a)]
  · exact hgiven.fresh a ha hd.1
  · rw [hgiven.tables.leaf]
    exact h.leaf j q desc hm
  · rw [hgiven.tables.leaf]
    exact h.hole q hq hno

/-- Buffer `i` gives a frame back. -/
theorem dropped (h : DmaMemory s rest own maps) (hdrop : Dropped a s s') (hown : own i a) :
    DmaMemory s' rest (Function.update own i fun b => own i b ∧ b ≠ a) maps := by
  refine ⟨hdrop.wf, h.frames.update (fun b => ?_) fun b hb => Or.inl hb.1, h.inside,
    fun j q desc hm => ?_, fun q hq hno => ?_⟩
  · rw [hdrop.data]
    constructor
    · rintro ⟨hb, hne⟩
      by_cases hob : own i b
      · exact Or.inr ⟨hob, hne⟩
      · exact Or.inl ⟨hb, hob⟩
    · rintro (⟨hb, hob⟩ | ⟨hob, hne⟩)
      · exact ⟨hb, fun he => hob (he ▸ hown)⟩
      · exact ⟨h.frames.used_of_own hob, hne⟩
  · rw [hdrop.tables.leaf]
    exact h.leaf j q desc hm
  · rw [hdrop.tables.leaf]
    exact h.hole q hq hno

/-- A step that has changed tables only. -/
theorem kept (h : DmaMemory s rest own maps) (hkept : Kept R s s')
    (hleaf : ∀ pg, s'.leaf pg = s.leaf pg) : DmaMemory s' rest own maps := by
  have hdata : s'.Data = s.Data := funext fun a => propext (hkept.data a)
  refine ⟨hkept.wf, ?_, h.inside, fun j q desc hm => ?_, fun q hq hno => ?_⟩
  · rw [hdata]
    exact h.frames
  · rw [hleaf]
    exact h.leaf j q desc hm
  · rw [hleaf]
    exact h.hole q hq hno

/-- The pages `f, …, f + n - 1`, mapped to a run of frames. -/
def runMaps (f n : ℕ) (phys flags : U64) (q : ℕ) (desc : U64) : Prop :=
  ∃ p < n, q = f + p ∧ desc = pageDesc phys flags p

/-- Buffer `i` maps its pages. -/
theorem mapped (h : DmaMemory s rest own maps) (hn : numPages size = n) (hf : f + n ≤ dmaPages)
    (hkept : Kept (InRange (dmaAt f) size) s s')
    (hmaps : MapsRange s s' (dmaAt f) phys flags (numPages size)) (hnone : ∀ q d, ¬ maps i q d)
    (hothers : ∀ j q d, maps j q d → ¬ (f ≤ q ∧ q < f + n)) :
    DmaMemory s' rest own (Function.update maps i (runMaps f n phys flags)) := by
  have hdata : s'.Data = s.Data := funext fun a => propext (hkept.data a)
  have hout : ∀ q < dmaPages, ¬ (f ≤ q ∧ q < f + n) → s'.leaf (dmaPage q) = s.leaf (dmaPage q) :=
    fun q hq hnot => hkept.leaf _ fun hin => hnot ((inRange_dmaAt hn hf hq).mp hin)
  refine ⟨hkept.wf, ?_, fun j q desc hm => ?_, fun j q desc hm => ?_, fun q hq hno => ?_⟩
  · rw [hdata]
    exact h.frames
  · by_cases hj : j = i
    · subst hj
      rw [Function.update_self] at hm
      obtain ⟨p, hp, rfl, -⟩ := hm
      omega
    · rw [Function.update_of_ne hj] at hm
      exact h.inside j q desc hm
  · by_cases hj : j = i
    · subst hj
      rw [Function.update_self] at hm
      obtain ⟨p, hp, rfl, rfl⟩ := hm
      rw [dmaPages] at hf
      rw [← pageAt_dmaAt]
      exact hmaps.inside (by omega) p (by omega)
    · rw [Function.update_of_ne hj] at hm
      rw [hout q (h.inside j q desc hm) (hothers j q desc hm)]
      exact h.leaf j q desc hm
  · -- a page that nobody maps now is not in the new range, and so was a hole before
    have hnot : ¬ (f ≤ q ∧ q < f + n) := by
      rintro ⟨h1, h2⟩
      have hself := hno i (pageDesc phys flags (q - f))
      rw [Function.update_self] at hself
      exact hself ⟨q - f, by omega, by omega, rfl⟩
    rw [hout q hq hnot]
    refine h.hole q hq fun j desc hm => ?_
    by_cases hj : j = i
    · subst hj
      exact hnone q desc hm
    · have hself := hno j desc
      rw [Function.update_of_ne hj] at hself
      exact hself hm

/-- Buffer `i` unmaps its pages. -/
theorem unmapped (h : DmaMemory s rest own maps) (hn : numPages size = n) (hf : f + n ≤ dmaPages)
    (hkept : Kept (InRange (dmaAt f) size) s s')
    (hclear : ∀ p < numPages size, s'.leaf (pageAt (dmaAt f) p) = 0)
    (hself : ∀ q d, maps i q d → f ≤ q ∧ q < f + n)
    (hothers : ∀ j, j ≠ i → ∀ q d, maps j q d → ¬ (f ≤ q ∧ q < f + n)) :
    DmaMemory s' rest own (Function.update maps i fun _ _ => False) := by
  have hdata : s'.Data = s.Data := funext fun a => propext (hkept.data a)
  have hout : ∀ q < dmaPages, ¬ (f ≤ q ∧ q < f + n) → s'.leaf (dmaPage q) = s.leaf (dmaPage q) :=
    fun q hq hnot => hkept.leaf _ fun hin => hnot ((inRange_dmaAt hn hf hq).mp hin)
  -- the mappings that stay are those of the other buffers
  have hold : ∀ {j q desc}, Function.update maps i (fun _ _ => False) j q desc →
      j ≠ i ∧ maps j q desc := by
    intro j q desc hm
    by_cases hj : j = i
    · rw [hj, Function.update_self] at hm
      exact hm.elim
    · rw [Function.update_of_ne hj] at hm
      exact ⟨hj, hm⟩
  refine ⟨hkept.wf, ?_, fun j q desc hm => ?_, fun j q desc hm => ?_, fun q hq hno => ?_⟩
  · rw [hdata]
    exact h.frames
  · exact h.inside j q desc (hold hm).2
  · obtain ⟨hj, hm⟩ := hold hm
    rw [hout q (h.inside j q desc hm) (hothers j hj q desc hm)]
    exact h.leaf j q desc hm
  · by_cases hin : f ≤ q ∧ q < f + n
    · have := hclear (q - f) (by rw [hn]; omega)
      rwa [pageAt_dmaAt, Nat.add_sub_cancel' hin.1] at this
    · rw [hout q hq hin]
      refine h.hole q hq fun j desc hm => ?_
      by_cases hj : j = i
      · subst hj
        exact hin (hself q desc hm)
      · have hnone := hno j desc
        rw [Function.update_of_ne hj] at hnone
        exact hnone hm

/-- No page of a range that nobody maps is mapped. -/
theorem unmapped_range (h : DmaMemory s rest own maps) (hn : numPages size = n)
    (hf : f + n ≤ dmaPages) (hothers : ∀ j q d, maps j q d → ¬ (f ≤ q ∧ q < f + n)) :
    s.Unmapped (dmaAt f) (numPages size) := by
  intro p hp hmapped
  rw [hn] at hp
  rw [pageAt_dmaAt] at hmapped
  refine ne_zero_of_valid hmapped (h.hole (f + p) (by omega) fun j desc hm => ?_)
  exact hothers j _ desc hm ⟨by omega, by omega⟩

end DmaMemory

end GamingConsole
