/-
What a step of the page-table code does, in terms of paths and frames.

The code changes the tables in three ways only:

* `Added` — a fresh frame becomes the table at a path that had none;
* `Removed` — an empty table leaves the tree and its frame is freed;
* `LeafSet` — the L3 descriptor of one page changes.

Each is a relation between two states that says everything later proofs need,
the frame accounting included; `Added.of_alloc`, `Removed.of_free` and
`LeafSet.of_store` produce them from the stores of the source.
-/
import GamingConsole.Space
import Mathlib.Data.Finset.Card

namespace GamingConsole

namespace Pmm

variable {p q : Pmm}

/-- Number of free frames. -/
def freeCount (p : Pmm) : ℕ :=
  ((Finset.range p.totalFrames.toNat).filter fun i => p.bit i = false).card

/-- Both allocators manage the same frames. -/
structure SameGeometry (p q : Pmm) : Prop where
  addr : q.bitmapAddr = p.bitmapAddr
  start : q.physMemStart = p.physMemStart
  total : q.totalFrames = p.totalFrames
  length : q.bitmap.length = p.bitmap.length

theorem SameGeometry.refl (p : Pmm) : SameGeometry p p := ⟨rfl, rfl, rfl, rfl⟩

theorem SameGeometry.trans {r : Pmm} (h : SameGeometry p q) (h' : SameGeometry q r) :
    SameGeometry p r :=
  ⟨h'.addr.trans h.addr, h'.start.trans h.start, h'.total.trans h.total,
    h'.length.trans h.length⟩

theorem sameGeometry_mark (p : Pmm) (i : ℕ) : SameGeometry p (p.mark i) :=
  ⟨rfl, rfl, rfl, WordBitmap.length_setBit _ _⟩

theorem sameGeometry_unmark (p : Pmm) (i : ℕ) : SameGeometry p (p.unmark i) :=
  ⟨rfl, rfl, rfl, WordBitmap.length_clearBit _ _⟩

theorem freeCount_mark (h : p.WF) {f : ℕ} (hf : f < p.totalFrames.toNat) (hb : p.bit f = false) :
    (p.mark f).freeCount + 1 = p.freeCount := by
  have hmem : f ∈ (Finset.range p.totalFrames.toNat).filter fun i => p.bit i = false :=
    Finset.mem_filter.mpr ⟨Finset.mem_range.mpr hf, hb⟩
  have herase : (Finset.range p.totalFrames.toNat).filter (fun i => (p.mark f).bit i = false)
      = ((Finset.range p.totalFrames.toNat).filter fun i => p.bit i = false).erase f := by
    ext i
    rw [Finset.mem_erase, Finset.mem_filter, Finset.mem_filter, bit_mark h hf]
    by_cases hi : i = f
    · simp [hi]
    · simp [hi]
  rw [freeCount, freeCount, show (p.mark f).totalFrames = p.totalFrames from rfl, herase]
  exact Finset.card_erase_add_one hmem

theorem freeCount_unmark (h : p.WF) {f : ℕ} (hf : f < p.totalFrames.toNat)
    (hb : p.bit f = true) : (p.unmark f).freeCount = p.freeCount + 1 := by
  have hmem : f ∉ (Finset.range p.totalFrames.toNat).filter fun i => p.bit i = false := by
    simp [hb]
  have hinsert : (Finset.range p.totalFrames.toNat).filter (fun i => (p.unmark f).bit i = false)
      = insert f ((Finset.range p.totalFrames.toNat).filter fun i => p.bit i = false) := by
    ext i
    rw [Finset.mem_insert, Finset.mem_filter, Finset.mem_filter, bit_unmark h hf]
    by_cases hi : i = f
    · simp [hi, hf]
    · simp [hi]
  rw [freeCount, freeCount, show (p.unmark f).totalFrames = p.totalFrames from rfl, hinsert]
  exact Finset.card_insert_of_notMem hmem

theorem freeCount_eq_zero_iff :
    p.freeCount = 0 ↔ ∀ i < p.totalFrames.toNat, p.bit i = true := by
  rw [freeCount, Finset.card_eq_zero, Finset.filter_eq_empty_iff]
  simp

/-- With the same geometry, the used frames determine the allocator. -/
theorem eq_of_used (hp : p.WF) (hq : q.WF) (hg : SameGeometry p q)
    (hpad : ∀ i, p.totalFrames.toNat ≤ i → q.bit i = p.bit i)
    (hused : ∀ a, q.Used a ↔ p.Used a) : q = p := by
  refine (ext_bit hg.addr.symm hg.start.symm hg.total.symm hg.length.symm fun i => ?_).symm
  by_cases hi : i < p.totalFrames.toNat
  · have hframe : q.frame i = p.frame i := by rw [frame, frame, hg.start]
    have hiff := hused (p.frame i)
    rw [used_frame_iff hp hi, ← hframe, used_frame_iff hq (by rw [hg.total]; exact hi)] at hiff
    exact (Bool.eq_iff_iff.mpr hiff).symm
  · exact (hpad i (by omega)).symm

end Pmm

namespace Space

variable {s s' s'' : Space} {p q : List (Fin 512)} {t c a : U64} {i : Fin 512} {pg : Page}

/-- The memory outside the managed frames' bits: same geometry, same padding. -/
structure SameFrames (s s' : Space) : Prop where
  geometry : s.pmm.SameGeometry s'.pmm
  padding : ∀ i, s.pmm.totalFrames.toNat ≤ i → s'.pmm.bit i = s.pmm.bit i
  root : s'.l1Table = s.l1Table

theorem SameFrames.refl (s : Space) : SameFrames s s :=
  ⟨Pmm.SameGeometry.refl _, fun _ _ => rfl, rfl⟩

theorem SameFrames.trans (h : SameFrames s s') (h' : SameFrames s' s'') : SameFrames s s'' :=
  ⟨h.geometry.trans h'.geometry,
    fun i hi => (h'.padding i (by rw [h.geometry.total]; exact hi)).trans (h.padding i hi),
    h'.root.trans h.root⟩

/-- The frame `c` became the table at `p`. -/
structure Added (s s' : Space) (p : List (Fin 512)) (c : U64) : Prop where
  wf : s'.WF
  frames : SameFrames s s'
  free : s.table p = none
  depth : p.length ≤ 2
  table : ∀ q, q.length ≤ 2 → s'.table q = if q = p then some c else s.table q
  leaf : ∀ pg, s'.leaf pg = s.leaf pg
  fresh : ¬ s.pmm.Used c
  used : ∀ a, s'.pmm.Used a ↔ s.pmm.Used a ∨ a = c
  count : s'.pmm.freeCount + 1 = s.pmm.freeCount

/-- The table `c` at `p` was taken out and freed. -/
structure Removed (s s' : Space) (p : List (Fin 512)) (c : U64) : Prop where
  wf : s'.WF
  frames : SameFrames s s'
  had : s.table p = some c
  depth : p.length ≤ 2
  table : ∀ q, q.length ≤ 2 → s'.table q = if q = p then none else s.table q
  leaf : ∀ pg, s'.leaf pg = s.leaf pg
  used : ∀ a, s'.pmm.Used a ↔ s.pmm.Used a ∧ a ≠ c
  count : s'.pmm.freeCount = s.pmm.freeCount + 1

/-- The descriptor of `pg` became `w`. -/
structure LeafSet (s s' : Space) (pg : Page) (w : U64) : Prop where
  wf : s'.WF
  pmm : s'.pmm = s.pmm
  root : s'.l1Table = s.l1Table
  table : ∀ q, q.length ≤ 2 → s'.table q = s.table q
  leaf : ∀ pg', s'.leaf pg' = if pg' = pg then w else s.leaf pg'

theorem LeafSet.frames {w : U64} (h : LeafSet s s' pg w) : SameFrames s s' :=
  ⟨by rw [h.pmm]; exact Pmm.SameGeometry.refl _, fun i _ => by rw [h.pmm], h.root⟩

theorem LeafSet.of_store {w : U64} (h : s.WF) (ht : s.table pg.l3Path = some t)
    (hw : w = 0 ∨ w &&& 3#64 = 3#64) : LeafSet s (s.store t pg.l3 w) pg w where
  wf := h.storeLeaf ht hw
  pmm := rfl
  root := rfl
  table := fun _ hq => table_storeLeaf h ht hq
  leaf := leaf_storeLeaf h ht

/-- The stores of `_get_or_alloc_table` on a fresh frame. -/
theorem Added.of_alloc (h : s.WF) {f : ℕ} (hf : f < s.pmm.totalFrames.toNat)
    (hb : s.pmm.bit f = false) (hq : q.length ≤ 1) (ht : s.table q = some t)
    (hnone : s.table (i :: q) = none) (hc : c = s.pmm.frame f) :
    Added s ((({ s with pmm := s.pmm.mark f } : Space).zero c).store t i (tableDesc c))
      (i :: q) c := by
  have hfresh : ¬ s.pmm.Used c := by
    rw [hc, Pmm.used_frame_iff h.pmm hf, hb]
    exact Bool.false_ne_true
  have hused : ∀ a, (s.pmm.mark f).Used a ↔ s.pmm.Used a ∨ a = c := by
    rw [hc]
    exact Pmm.used_mark_iff h.pmm hf
  have htree : ¬ s.IsTable c := fun hic => hfresh (h.used c hic)
  have hwf₁ : ({ s with pmm := s.pmm.mark f } : Space).WF :=
    h.of_sameTables (sameTables_pmm _) (h.pmm.mark hf) fun a ha =>
      (hused a).mpr (Or.inl (h.used a ha))
  have hsame : SameTables s (({ s with pmm := s.pmm.mark f } : Space).zero c) :=
    (sameTables_pmm _).trans
      (sameTables_zero (fun hic => htree ((sameTables_pmm _).isTable_iff.mp hic)))
  have hwf₂ : (({ s with pmm := s.pmm.mark f } : Space).zero c).WF :=
    hwf₁.zero fun hic => htree ((sameTables_pmm _).isTable_iff.mp hic)
  have hl : CanLink (({ s with pmm := s.pmm.mark f } : Space).zero c) q t i c := by
    refine ⟨hq, ?_, ?_, ?_, ?_, ?_⟩
    · rw [hsame.table (by omega), ht]
    · rw [hsame.table (by simpa using hq), hnone]
    · exact (hused c).mpr (Or.inr rfl)
    · exact fun hic => htree (hsame.isTable_iff.mp hic)
    · exact Function.update_self _ _ _
  refine ⟨hwf₂.link hl, ⟨Pmm.sameGeometry_mark _ _, fun j hj => ?_, rfl⟩, hnone, by simpa using hq,
    fun p hp => ?_, fun pg => ?_, hfresh, hused, Pmm.freeCount_mark h.pmm hf hb⟩
  · exact (Pmm.bit_mark h.pmm hf j).trans (if_neg (by omega))
  · rw [table_link hwf₂ hl hp, hsame.table hp]
  · rw [leaf_link hwf₂ hl, hsame.leaf]

/-- The stores of the code that drops an empty table. -/
theorem Removed.of_free (h : s.WF) (hu : CanUnlink s q t i c) :
    Removed s { s.store t i 0 with pmm := Pmm.freeFrame s.pmm c } (i :: q) c := by
  have hlen : (i :: q).length ≤ 2 := by simpa using hu.depth
  obtain ⟨f, hf, hc, hb, heq⟩ := Pmm.freeFrame_used h.pmm (h.table_used hlen hu.child)
  have hused : ∀ a, (s.pmm.unmark f).Used a ↔ s.pmm.Used a ∧ a ≠ c := by
    rw [hc]
    exact Pmm.used_unmark_iff h.pmm hf
  rw [heq]
  have hsame : SameTables (s.store t i 0) { s.store t i 0 with pmm := s.pmm.unmark f } :=
    sameTables_pmm _
  refine ⟨(h.unlink hu).of_sameTables hsame (h.pmm.unmark hf) fun a ha => ?_,
    ⟨Pmm.sameGeometry_unmark _ _, fun j hj => ?_, rfl⟩, hu.child, hlen, fun p hp => ?_,
    fun pg => ?_, hused, Pmm.freeCount_unmark h.pmm hf hb⟩
  · have ha' := (isTable_unlink h hu).mp ha
    exact (hused a).mpr ⟨h.used a ha'.1, ha'.2⟩
  · exact (Pmm.bit_unmark h.pmm hf j).trans (if_neg (by omega))
  · rw [hsame.table hp, table_unlink h hu hp]
  · rw [hsame.leaf, leaf_unlink h hu]

theorem Added.isTable_iff (h : Added s s' p c) : s'.IsTable a ↔ s.IsTable a ∨ a = c := by
  constructor
  · rintro ⟨q, hq, ha⟩
    rw [h.table q hq] at ha
    by_cases hqp : q = p
    · rw [if_pos hqp, Option.some_inj] at ha
      exact Or.inr ha.symm
    · rw [if_neg hqp] at ha
      exact Or.inl ⟨q, hq, ha⟩
  · rintro (⟨q, hq, ha⟩ | rfl)
    · refine ⟨q, hq, ?_⟩
      rw [h.table q hq, if_neg, ha]
      rintro rfl
      rw [h.free] at ha
      exact absurd ha (by simp)
    · exact ⟨p, h.depth, by rw [h.table p h.depth, if_pos rfl]⟩

theorem Removed.isTable_iff (hwf : s.WF) (h : Removed s s' p c) :
    s'.IsTable a ↔ s.IsTable a ∧ a ≠ c := by
  constructor
  · rintro ⟨q, hq, ha⟩
    rw [h.table q hq] at ha
    by_cases hqp : q = p
    · rw [if_pos hqp] at ha
      exact absurd ha (by simp)
    · rw [if_neg hqp] at ha
      refine ⟨⟨q, hq, ha⟩, ?_⟩
      rintro rfl
      exact hqp (hwf.table_inj hq h.depth ha h.had)
  · rintro ⟨⟨q, hq, ha⟩, hne⟩
    refine ⟨q, hq, ?_⟩
    rw [h.table q hq, if_neg, ha]
    rintro rfl
    rw [h.had, Option.some_inj] at ha
    exact hne ha.symm

theorem LeafSet.isTable_iff {w : U64} (h : LeafSet s s' pg w) : s'.IsTable a ↔ s.IsTable a :=
  exists_congr fun q => and_congr_right fun hq => by rw [h.table q hq]

/-! ### Empty tables -/

/-- The table at `p` exists and all its words are zero. -/
def EmptyTable (s : Space) (p : List (Fin 512)) : Prop :=
  ∃ t, s.table p = some t ∧ ∀ i, s.mem t i = 0

theorem emptyTable_l3_iff (ht : s.table pg.l3Path = some t) :
    s.EmptyTable pg.l3Path ↔ ∀ i, s.leaf { pg with l3 := i } = 0 := by
  have hleaf : ∀ i, s.leaf { pg with l3 := i } = s.mem t i := fun i => leaf_of_table ht
  constructor
  · rintro ⟨t', ht', hzero⟩ i
    rw [ht, Option.some_inj] at ht'
    rw [hleaf, ht', hzero]
  · exact fun hzero => ⟨t, ht, fun i => by rw [← hleaf, hzero]⟩

theorem WF.emptyTable_iff (h : s.WF) (hp : p.length ≤ 1) (ht : s.table p = some t) :
    s.EmptyTable p ↔ ∀ i, s.table (i :: p) = none := by
  constructor
  · rintro ⟨t', ht', hzero⟩ i
    rw [table_cons ht', hzero, nextTable_zero]
  · exact fun hnone => ⟨t, ht, fun i => h.mem_of_table_none hp ht (hnone i)⟩

theorem EmptyTable.table_isSome (h : s.EmptyTable p) : ∃ t, s.table p = some t := by
  obtain ⟨t, ht, -⟩ := h
  exact ⟨t, ht⟩

/-- An empty table was empty before, if none of its words was cleared. -/
theorem EmptyTable.of_le (he : s'.EmptyTable q) (h : s.WF) (h' : s'.WF) (hq : q.length ≤ 2)
    (htable : ∀ i, q.length ≤ 1 → s'.table (i :: q) = none → s.table (i :: q) = none)
    (hleaf : ∀ pg, pg.l3Path = q → s'.leaf pg = 0 → s.leaf pg = 0) (ht : s.table q = some t) :
    s.EmptyTable q := by
  obtain ⟨t', ht'⟩ := he.table_isSome
  by_cases hlen : q.length ≤ 1
  · rw [h.emptyTable_iff hlen ht]
    exact fun i => htable i hlen ((h'.emptyTable_iff hlen ht').mp he i)
  · obtain ⟨x, y, rfl⟩ : ∃ x y, q = [x, y] := List.length_eq_two.mp (by omega)
    have hpath : ∀ i, (⟨y, x, i⟩ : Page).l3Path = [x, y] := fun _ => rfl
    rw [← hpath 0, emptyTable_l3_iff (t := t) ht]
    rw [← hpath 0, emptyTable_l3_iff (t := t') ht'] at he
    exact fun i => hleaf _ rfl (he i)

/-- Same paths and same leaves, hence the same descriptors. -/
theorem sameTables_of (h : s.WF) (h' : s'.WF) (hroot : s'.l1Table = s.l1Table)
    (htable : ∀ q, q.length ≤ 2 → s'.table q = s.table q) (hleaf : ∀ pg, s'.leaf pg = s.leaf pg) :
    SameTables s s' := by
  refine ⟨hroot, fun a ha => funext fun i => ?_⟩
  obtain ⟨p, hp, hpa⟩ := ha
  have hpa' : s'.table p = some a := by rw [htable p hp, hpa]
  by_cases hlen : p.length ≤ 1
  · have hi := htable (i :: p) (by simpa using hlen)
    rcases hc : s.table (i :: p) with _ | c
    · rw [h.mem_of_table_none hlen hpa hc, h'.mem_of_table_none hlen hpa' (hi.trans hc)]
    · rw [h.mem_of_table_some hlen hpa hc, h'.mem_of_table_some hlen hpa' (hi.trans hc)]
  · -- an L3 table's words are leaves
    obtain ⟨x, y, rfl⟩ : ∃ x y, p = [x, y] := List.length_eq_two.mp (by omega)
    have := hleaf ⟨y, x, i⟩
    rwa [leaf_of_table (t := a) hpa', leaf_of_table (t := a) hpa] at this

end Space

end GamingConsole
