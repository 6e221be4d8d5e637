/-
The page tables in memory.

`Space` is the part of the kernel state that the frame allocator and the page
tables live in: the allocator's bitmap, the words of every frame, and the L1
table's address.  The tables are a tree of pointers three levels deep; a path
names a table by the indices that lead to it, the last one first, so `[]` is the
L1 table, `[i₁]` an L2 table and `[i₂, i₁]` an L3 table.

`Space.WF` is what every operation keeps: no table sits in two places, the
tables are used frames, and every word of a table is a descriptor the code
writes.  The lemmas below say what each single update does to the paths, to the
leaves and to `WF`; nothing above this file looks at the words again.
-/
import GamingConsole.PmmSpec
import GamingConsole.Library.PointerTree

namespace GamingConsole

open BitFields PointerTree

/-! ### Addresses and pages -/

/-- `ADDR_MASK`: the address field of a descriptor. -/
def addrMask : U64 := 0x0000FFFFFFFFF000#64

/-- `(va >> shift) & 0x1FF`, the index into one level of the tables. -/
def tableIndex (va : U64) (shift : ℕ) : Fin 512 :=
  ⟨((va >>> shift) &&& 0x1FF#64).toNat, by
    rw [show 0x1FF#64 = lowMask 64 9 from rfl, toNat_and_lowMask _ (by omega)]
    exact Nat.mod_lt _ (by omega)⟩

/-- `L1_INDEX`. -/
def l1Index (va : U64) : Fin 512 := tableIndex va 30

/-- `L2_INDEX`. -/
def l2Index (va : U64) : Fin 512 := tableIndex va 21

/-- `L3_INDEX`. -/
def l3Index (va : U64) : Fin 512 := tableIndex va 12

/-- A virtual page: the three indices its addresses are walked by. -/
structure Page where
  l1 : Fin 512
  l2 : Fin 512
  l3 : Fin 512
  deriving DecidableEq

/-- The page an address is walked as; the bits from 39 on play no part. -/
def pageOf (va : U64) : Page := ⟨l1Index va, l2Index va, l3Index va⟩

namespace Page

/-- The path of the L2 table the page is walked through. -/
def l2Path (pg : Page) : List (Fin 512) := [pg.l1]

/-- The path of the L3 table the page is walked through. -/
def l3Path (pg : Page) : List (Fin 512) := [pg.l2, pg.l1]

/-- The page's number. -/
def num (pg : Page) : ℕ := pg.l1 * 2 ^ 18 + pg.l2 * 2 ^ 9 + pg.l3

theorem num_inj {pg pg' : Page} (h : pg.num = pg'.num) : pg = pg' := by
  rcases pg with ⟨a, b, c⟩
  rcases pg' with ⟨a', b', c'⟩
  simp only [num] at h
  simp only [mk.injEq, Fin.ext_iff]
  omega

end Page

theorem tableIndex_val (va : U64) (shift : ℕ) :
    (tableIndex va shift : ℕ) = va.toNat / 2 ^ shift % 512 := by
  rw [tableIndex]
  exact toNat_ushiftRight_and_lowMask va shift (by omega : 9 ≤ 64)

theorem num_pageOf (va : U64) : (pageOf va).num = va.toNat / 4096 % 2 ^ 27 := by
  simp only [Page.num, pageOf, l1Index, l2Index, l3Index, tableIndex_val]
  omega

/-! ### Descriptors -/

/-- The table a descriptor names, if its valid bit is set. -/
def nextTable (desc : U64) : Option U64 :=
  if desc &&& 1#64 ≠ 0 then some (desc &&& addrMask) else none

/-- The descriptor of a table: valid bit and table-type bit. -/
def tableDesc (child : U64) : U64 := child ||| 3#64

@[simp] theorem nextTable_zero : nextTable 0 = none := by decide

theorem addrMask_eq : addrMask = lowMask 64 48 &&& ~~~lowMask 64 12 := by decide

theorem toNat_and_addrMask (x : U64) :
    (x &&& addrMask).toNat = x.toNat % 2 ^ 48 / 2 ^ 12 * 2 ^ 12 := by
  rw [addrMask_eq, ← BitVec.and_assoc, toNat_and_highMask _ (by omega),
    toNat_and_lowMask _ (by omega)]

/-- The address field of a descriptor made of a frame address and flag bits. -/
theorem or_and_addrMask {a f : U64} (ha : a.toNat % 4096 = 0) (hlt : a.toNat < 2 ^ 48)
    (hf : f.toNat < 4096) : (a ||| f) &&& addrMask = a := by
  apply BitVec.eq_of_toNat_eq
  rw [toNat_and_addrMask, toNat_or_of_low (n := 12) ha hf]
  omega

theorem tableDesc_and_three (c : U64) : tableDesc c &&& 3#64 = 3#64 := by
  rw [tableDesc]
  ext i hi
  simp only [BitVec.getElem_and, BitVec.getElem_or]
  cases (3#64)[i] <;> simp

theorem and_one_of_and_three {d : U64} (h : d &&& 3#64 = 3#64) : d &&& 1#64 ≠ 0 := by
  have h1 : d &&& 1#64 = (d &&& 3#64) &&& 1#64 := by
    rw [BitVec.and_assoc]
    rfl
  rw [h1, h]
  decide

theorem nextTable_of_valid {d : U64} (h : d &&& 3#64 = 3#64) :
    nextTable d = some (d &&& addrMask) := if_pos (and_one_of_and_three h)

theorem nextTable_tableDesc {c : U64} (ha : c.toNat % 4096 = 0) (hlt : c.toNat < 2 ^ 48) :
    nextTable (tableDesc c) = some c := by
  rw [nextTable_of_valid (tableDesc_and_three c), tableDesc, or_and_addrMask ha hlt (by decide)]

theorem ne_zero_of_valid {d : U64} (h : d &&& 3#64 = 3#64) : d ≠ 0 := by
  rintro rfl
  exact absurd h (by decide)

/-! ### The state -/

/-- Memory as the allocator and the page-table code see it.  `mem t i` is word
`i` of the frame at `t`. -/
structure Space where
  pmm : Pmm
  mem : U64 → Fin 512 → U64
  l1Table : U64

namespace Space

/-- The table at a path. -/
def table (s : Space) (p : List (Fin 512)) : Option U64 := walk nextTable s.mem s.l1Table p

/-- The L3 descriptor of a page, `0` when the page has no L3 table. -/
def leaf (s : Space) (pg : Page) : U64 :=
  PointerTree.leaf nextTable 0 s.mem s.l1Table pg.l3 pg.l3Path

/-- The frame at `a` is a page table. -/
def IsTable (s : Space) (a : U64) : Prop := ∃ p, p.length ≤ 2 ∧ s.table p = some a

/-- The page has a valid L3 descriptor. -/
def Mapped (s : Space) (pg : Page) : Prop := s.leaf pg &&& 3#64 = 3#64

/-- The words of a frame. -/
def zero (s : Space) (t : U64) : Space := { s with mem := Function.update s.mem t fun _ => 0 }

/-- Store one word. -/
def store (s : Space) (t : U64) (i : Fin 512) (w : U64) : Space :=
  { s with mem := write s.mem t i w }

/-- `_table_is_empty`. -/
@[irreducible] def tableIsEmpty (s : Space) (t : U64) : Bool := decide (∀ i, s.mem t i = 0)

/-- The invariant of the page tables. -/
structure WF (s : Space) : Prop where
  pmm : s.pmm.WF
  tree : IsTree nextTable s.mem s.l1Table 2
  used : ∀ a, s.IsTable a → s.pmm.Used a
  entry : ∀ p t i, p.length ≤ 1 → s.table p = some t →
    s.mem t i = 0 ∨ ∃ c, s.table (i :: p) = some c ∧ s.mem t i = tableDesc c
  leaf : ∀ pg, s.leaf pg = 0 ∨ s.Mapped pg

variable {s : Space} {p q : List (Fin 512)} {t c a : U64} {i : Fin 512} {pg : Page}

theorem tableIsEmpty_iff : s.tableIsEmpty t = true ↔ ∀ i, s.mem t i = 0 := by
  unfold tableIsEmpty
  exact decide_eq_true_iff

@[simp] theorem table_nil : s.table [] = some s.l1Table := rfl

theorem table_cons (h : s.table p = some t) : s.table (i :: p) = nextTable (s.mem t i) :=
  walk_cons h

theorem leaf_of_table (h : s.table pg.l3Path = some t) : s.leaf pg = s.mem t pg.l3 :=
  leaf_of_walk h

theorem leaf_of_no_table (h : s.table pg.l3Path = none) : s.leaf pg = 0 := leaf_of_walk_none h

theorem isTable_l1 : s.IsTable s.l1Table := ⟨[], by simp, rfl⟩

/-- A page with a descriptor has an L2 and an L3 table. -/
theorem tables_of_leaf_ne (h : s.leaf pg ≠ 0) :
    ∃ t₂ t₃, s.table pg.l2Path = some t₂ ∧ s.table pg.l3Path = some t₃ ∧
      s.leaf pg = s.mem t₃ pg.l3 := by
  obtain ⟨t₃, h3, hleaf⟩ := walk_isSome_of_leaf_ne h
  obtain ⟨t₂, h2, -⟩ := walk_cons_eq_some h3
  exact ⟨t₂, t₃, h2, h3, hleaf.symm⟩

theorem table_cons_eq_some (h : s.table (i :: p) = some c) :
    ∃ t, s.table p = some t ∧ nextTable (s.mem t i) = some c := walk_cons_eq_some h

theorem WF.table_inj (h : s.WF) (hp : p.length ≤ 2) (hq : q.length ≤ 2) (h1 : s.table p = some t)
    (h2 : s.table q = some t) : p = q := h.tree p q t hp hq h1 h2

theorem WF.table_used (h : s.WF) (hp : p.length ≤ 2) (ht : s.table p = some t) :
    s.pmm.Used t := h.used t ⟨p, hp, ht⟩

/-- A used frame's address fits in a descriptor. -/
theorem nextTable_tableDesc_of_used (h : s.pmm.WF) (hc : s.pmm.Used c) :
    nextTable (tableDesc c) = some c :=
  nextTable_tableDesc (hc.aligned h) (lt_trans (hc.lt h) (by decide))

/-- The word of a table that is not at the last level is zero or names the next
table. -/
theorem WF.mem_of_table_none (h : s.WF) (hp : p.length ≤ 1) (ht : s.table p = some t)
    (hn : s.table (i :: p) = none) : s.mem t i = 0 := by
  rcases h.entry p t i hp ht with h0 | ⟨c, hc, -⟩
  · exact h0
  · rw [hn] at hc
    exact absurd hc (by simp)

theorem WF.mem_of_table_some (h : s.WF) (hp : p.length ≤ 1) (ht : s.table p = some t)
    (hc : s.table (i :: p) = some c) : s.mem t i = tableDesc c := by
  rcases h.entry p t i hp ht with h0 | ⟨c', hc', hmem⟩
  · rw [table_cons ht, h0, nextTable_zero] at hc
    exact absurd hc (by simp)
  · rw [hc, Option.some_inj] at hc'
    rw [hmem, hc']

/-! ### Spaces that agree on the tables -/

/-- The words of the tables are the same in both. -/
structure SameTables (s s' : Space) : Prop where
  root : s'.l1Table = s.l1Table
  mem : ∀ a, s.IsTable a → s'.mem a = s.mem a

namespace SameTables

variable {s' : Space}

theorem table (h : SameTables s s') (hp : p.length ≤ 2) : s'.table p = s.table p := by
  rw [Space.table, Space.table, h.root]
  exact walk_congr (fun q n hq hn => h.mem n ⟨q, Nat.le_of_lt hq, hn⟩) p hp

theorem leaf (h : SameTables s s') (pg : Page) : s'.leaf pg = s.leaf pg := by
  rw [Space.leaf, Space.leaf, h.root]
  exact leaf_congr (d := 2) (fun q n hq hn => h.mem n ⟨q, hq, hn⟩) pg.l3 (le_refl 2)

theorem isTable_iff (h : SameTables s s') : s'.IsTable a ↔ s.IsTable a :=
  exists_congr fun _ => and_congr_right fun hp => by rw [h.table hp]

theorem trans {s'' : Space} (h : SameTables s s') (h' : SameTables s' s'') : SameTables s s'' :=
  ⟨h'.root.trans h.root, fun a ha => (h'.mem a (h.isTable_iff.mpr ha)).trans (h.mem a ha)⟩

end SameTables

theorem WF.of_sameTables {s' : Space} (h : s.WF) (hs : SameTables s s') (hpmm : s'.pmm.WF)
    (hused : ∀ a, s.IsTable a → s'.pmm.Used a) : s'.WF where
  pmm := hpmm
  tree := by
    have htree : IsTree nextTable s'.mem s.l1Table 2 := h.tree.congr fun p hp => by
      have := hs.table hp
      rwa [table, hs.root] at this
    rwa [← hs.root] at htree
  used := fun a ha => hused a (hs.isTable_iff.mp ha)
  entry := by
    intro p t i hp ht
    rw [hs.table (by omega)] at ht
    rw [hs.mem t ⟨p, by omega, ht⟩, hs.table (by simpa using hp)]
    exact h.entry p t i hp ht
  leaf := by
    intro pg
    rw [Mapped, hs.leaf]
    exact h.leaf pg

theorem sameTables_pmm (p : Pmm) : SameTables s { s with pmm := p } := ⟨rfl, fun _ _ => rfl⟩

theorem sameTables_zero (ht : ¬ s.IsTable t) : SameTables s (s.zero t) :=
  ⟨rfl, fun a ha => Function.update_of_ne (fun h : a = t => ht (h ▸ ha)) _ _⟩

theorem WF.zero (h : s.WF) (ht : ¬ s.IsTable t) : (s.zero t).WF :=
  h.of_sameTables (sameTables_zero ht) h.pmm h.used

/-! ### L3 descriptors -/

section StoreLeaf

variable {w : U64}

theorem table_storeLeaf (h : s.WF) (ht : s.table pg.l3Path = some t) (hp : p.length ≤ 2) :
    (s.store t pg.l3 w).table p = s.table p :=
  walk_write_leaf h.tree ht rfl p hp

theorem leaf_storeLeaf (h : s.WF) (ht : s.table pg.l3Path = some t) (pg' : Page) :
    (s.store t pg.l3 w).leaf pg' = if pg' = pg then w else s.leaf pg' := by
  have hpage : pg' = pg ↔ pg'.l3 = pg.l3 ∧ pg'.l3Path = pg.l3Path := by
    rcases pg with ⟨a, b, c⟩
    rcases pg' with ⟨a', b', c'⟩
    simp only [Page.mk.injEq, Page.l3Path, List.cons.injEq, and_true]
    tauto
  rw [leaf, store, leaf_write h.tree ht rfl pg'.l3 (le_refl 2), leaf]
  simp only [hpage]

theorem isTable_storeLeaf (h : s.WF) (ht : s.table pg.l3Path = some t) :
    (s.store t pg.l3 w).IsTable a ↔ s.IsTable a :=
  exists_congr fun _ => and_congr_right fun hp => by rw [table_storeLeaf h ht hp]

theorem WF.storeLeaf (h : s.WF) (ht : s.table pg.l3Path = some t)
    (hw : w = 0 ∨ w &&& 3#64 = 3#64) : (s.store t pg.l3 w).WF where
  pmm := h.pmm
  tree := h.tree.congr fun _ hp => table_storeLeaf h ht hp
  used := fun a ha => h.used a ((isTable_storeLeaf h ht).mp ha)
  entry := by
    intro p t' i hp ht'
    rw [table_storeLeaf h ht (by omega)] at ht'
    -- an L1 or L2 table is not the L3 table written to
    have hne : t' ≠ t := by
      rintro rfl
      have := congrArg List.length (h.table_inj (by omega) (le_refl 2) ht' ht)
      simp only [Page.l3Path, List.length_cons, List.length_nil] at this
      omega
    rw [table_storeLeaf h ht (by simpa using hp), store]
    dsimp only
    rw [write_of_ne hne]
    exact h.entry p t' i hp ht'
  leaf := by
    intro pg'
    rw [Mapped, leaf_storeLeaf h ht]
    by_cases hpg : pg' = pg
    · rw [if_pos hpg]
      exact hw
    · rw [if_neg hpg]
      exact h.leaf pg'

end StoreLeaf

/-! ### Hanging a table into the tree -/

/-- `c` is an empty used frame outside the tree, and slot `i` of the table `t`
at `q` is free. -/
structure CanLink (s : Space) (q : List (Fin 512)) (t : U64) (i : Fin 512) (c : U64) : Prop where
  depth : q.length ≤ 1
  parent : s.table q = some t
  free : s.table (i :: q) = none
  child_used : s.pmm.Used c
  child_fresh : ¬ s.IsTable c
  child_empty : s.mem c = fun _ => 0

section Link

theorem table_link (h : s.WF) (hl : CanLink s q t i c) (hp : p.length ≤ 2) :
    (s.store t i (tableDesc c)).table p = if p = i :: q then some c else s.table p := by
  refine walk_link h.tree hl.parent (by have := hl.depth; omega) ?_
    (nextTable_tableDesc_of_used h.pmm hl.child_used) (fun p hp hc => hl.child_fresh ⟨p, hp, hc⟩)
    (fun j => by rw [hl.child_empty, nextTable_zero]) p hp
  rw [← table_cons hl.parent]
  exact hl.free

theorem leaf_link (h : s.WF) (hl : CanLink s q t i c) (pg : Page) :
    (s.store t i (tableDesc c)).leaf pg = s.leaf pg := by
  refine PointerTree.leaf_link h.tree hl.parent (by have := hl.depth; omega) ?_
    (nextTable_tableDesc_of_used h.pmm hl.child_used) (fun p hp hc => hl.child_fresh ⟨p, hp, hc⟩)
    nextTable_zero (fun j => by rw [hl.child_empty]) pg.l3 rfl
  rw [← table_cons hl.parent]
  exact hl.free

theorem isTable_link (h : s.WF) (hl : CanLink s q t i c) :
    (s.store t i (tableDesc c)).IsTable a ↔ s.IsTable a ∨ a = c := by
  constructor
  · rintro ⟨p, hp, hpa⟩
    rw [table_link h hl hp] at hpa
    by_cases hpq : p = i :: q
    · rw [if_pos hpq, Option.some_inj] at hpa
      exact Or.inr hpa.symm
    · rw [if_neg hpq] at hpa
      exact Or.inl ⟨p, hp, hpa⟩
  · rintro (⟨p, hp, hpa⟩ | rfl)
    · refine ⟨p, hp, ?_⟩
      rw [table_link h hl hp, if_neg, hpa]
      rintro rfl
      rw [hl.free] at hpa
      exact absurd hpa (by simp)
    · have hlen : (i :: q).length ≤ 2 := by simpa using hl.depth
      exact ⟨i :: q, hlen, by rw [table_link h hl hlen, if_pos rfl]⟩

theorem WF.link (h : s.WF) (hl : CanLink s q t i c) : (s.store t i (tableDesc c)).WF where
  pmm := h.pmm
  tree := by
    refine h.tree.link hl.parent (by have := hl.depth; omega) ?_
      (nextTable_tableDesc_of_used h.pmm hl.child_used) (fun p hp hc => hl.child_fresh ⟨p, hp, hc⟩)
      (fun j => by rw [hl.child_empty, nextTable_zero])
    rw [← table_cons hl.parent]
    exact hl.free
  used := by
    intro a ha
    rcases (isTable_link h hl).mp ha with ha | rfl
    · exact h.used a ha
    · exact hl.child_used
  entry := by
    intro p t' j hp ht'
    have hlen : (j :: p).length ≤ 2 := by simpa using hp
    rw [table_link h hl (by omega)] at ht'
    -- a path through the new table, through the changed entry, or through neither
    by_cases hpq : p = i :: q
    · rw [if_pos hpq, Option.some_inj] at ht'
      subst ht'
      left
      have hct : c ≠ t := fun hc => hl.child_fresh ⟨q, by have := hl.depth; omega, hc ▸ hl.parent⟩
      rw [store]
      dsimp only
      rw [write_of_ne hct, hl.child_empty]
    · rw [if_neg hpq] at ht'
      rw [table_link h hl hlen, store]
      dsimp only
      rw [write_apply]
      by_cases hslot : t' = t ∧ j = i
      · obtain ⟨rfl, rfl⟩ := hslot
        have := h.table_inj (by omega) (by have := hl.depth; omega) ht' hl.parent
        subst this
        right
        exact ⟨c, by rw [if_pos rfl], by rw [if_pos ⟨rfl, rfl⟩]⟩
      · have hne : j :: p ≠ i :: q := by
          intro he
          obtain ⟨rfl, rfl⟩ := List.cons.inj he
          rw [hl.parent, Option.some_inj] at ht'
          exact hslot ⟨ht'.symm, rfl⟩
        rw [if_neg hslot, if_neg hne]
        exact h.entry p t' j hp ht'
  leaf := by
    intro pg
    rw [Mapped, leaf_link h hl]
    exact h.leaf pg

end Link

/-! ### Taking a table out of the tree -/

/-- Slot `i` of the table `t` at `q` names the empty table `c`. -/
structure CanUnlink (s : Space) (q : List (Fin 512)) (t : U64) (i : Fin 512) (c : U64) : Prop where
  depth : q.length ≤ 1
  parent : s.table q = some t
  child : s.table (i :: q) = some c
  child_empty : s.mem c = fun _ => 0

section Unlink

theorem table_unlink (h : s.WF) (hu : CanUnlink s q t i c) (hp : p.length ≤ 2) :
    (s.store t i 0).table p = if p = i :: q then none else s.table p := by
  refine walk_unlink (c := c) h.tree hu.parent (by have := hu.depth; omega) ?_ nextTable_zero
    (fun _ j => by rw [hu.child_empty, nextTable_zero]) p hp
  rw [← table_cons hu.parent]
  exact hu.child

theorem leaf_unlink (h : s.WF) (hu : CanUnlink s q t i c) (pg : Page) :
    (s.store t i 0).leaf pg = s.leaf pg := by
  refine PointerTree.leaf_unlink (c := c) h.tree hu.parent (by have := hu.depth; omega) ?_
    nextTable_zero nextTable_zero (fun j => by rw [hu.child_empty]) pg.l3 rfl
  rw [← table_cons hu.parent]
  exact hu.child

theorem isTable_unlink (h : s.WF) (hu : CanUnlink s q t i c) :
    (s.store t i 0).IsTable a ↔ s.IsTable a ∧ a ≠ c := by
  have hlen : (i :: q).length ≤ 2 := by simpa using hu.depth
  constructor
  · rintro ⟨p, hp, hpa⟩
    rw [table_unlink h hu hp] at hpa
    by_cases hpq : p = i :: q
    · rw [if_pos hpq] at hpa
      exact absurd hpa (by simp)
    · rw [if_neg hpq] at hpa
      refine ⟨⟨p, hp, hpa⟩, ?_⟩
      rintro rfl
      exact hpq (h.table_inj hp hlen hpa hu.child)
  · rintro ⟨⟨p, hp, hpa⟩, hne⟩
    refine ⟨p, hp, ?_⟩
    rw [table_unlink h hu hp, if_neg, hpa]
    rintro rfl
    rw [hu.child, Option.some_inj] at hpa
    exact hne hpa.symm

theorem WF.unlink (h : s.WF) (hu : CanUnlink s q t i c) : (s.store t i 0).WF where
  pmm := h.pmm
  tree := h.tree.of_sub fun p n hp hn => by
    have hwalk := table_unlink h hu hp
    rw [show (s.store t i 0).table p = some n from hn] at hwalk
    by_cases hpq : p = i :: q
    · rw [if_pos hpq] at hwalk
      exact absurd hwalk (by simp)
    · rw [if_neg hpq] at hwalk
      exact hwalk.symm
  used := fun a ha => h.used a ((isTable_unlink h hu).mp ha).1
  entry := by
    intro p t' j hp ht'
    have hlen : (j :: p).length ≤ 2 := by simpa using hp
    rw [table_unlink h hu (by omega)] at ht'
    -- no path goes through the unlinked table any more
    by_cases hpq : p = i :: q
    · rw [if_pos hpq] at ht'
      exact absurd ht' (by simp)
    · rw [if_neg hpq] at ht'
      rw [table_unlink h hu hlen, store]
      dsimp only
      rw [write_apply]
      by_cases hslot : t' = t ∧ j = i
      · left
        rw [if_pos hslot]
      · have hne : j :: p ≠ i :: q := by
          intro he
          obtain ⟨rfl, rfl⟩ := List.cons.inj he
          rw [hu.parent, Option.some_inj] at ht'
          exact hslot ⟨ht'.symm, rfl⟩
        rw [if_neg hslot, if_neg hne]
        exact h.entry p t' j hp ht'
  leaf := by
    intro pg
    rw [Mapped, leaf_unlink h hu]
    exact h.leaf pg

end Unlink

end Space

end GamingConsole
