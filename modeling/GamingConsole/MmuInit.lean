/-
The identity map that `mmu_init` builds.

`mmu_init` runs before there are other cores.  It sets up the allocator, takes a frame for
the L1 table, and calls `map` eight times without looking at the answers.  The writes to the system
registers (`MAIR_EL1`, `TCR_EL1`, `TTBR0_EL1`, `SCTLR_EL1`) choose what the walker does with
the tables and leave no trace in them; the last of them is `mmuActive`.

A page is known by its number here.  `Maps cover s` says which pages are mapped to
themselves and with which flags, and each call of `map` adds its range to `cover`.

* **`mmu_init_identity`** — after `mmu_init` every address below 2^39 translates as intended.
-/
import GamingConsole.DataFrames
import GamingConsole.MapRuns

namespace GamingConsole

open Space Prog BitFields

/-! ### `mmu_init` -/

/-- `PERIPHERAL_BASE`. -/
def peripheralBase : U64 := 0x1C00000000#64

/-- `LOCAL_PERIPHERAL_BASE`. -/
def localPeripheralBase : U64 := 0x107FFF8000#64

/-- `MAILBOX_BASE`. -/
def mailboxBase : U64 := 0x107c013880#64

/-- `SDIO0_BASE`. -/
def sdio0Base : U64 := 0x1000fff000#64

/-- `PINCTRL_BASE`. -/
def pinctrlBase : U64 := 0x107d504100#64

/-- `MAILBOX_PAGE_BASE`. -/
def mailboxPageBase : U64 := mailboxBase &&& ~~~0xFFF#64

/-- `PINCTRL_PAGE_BASE`. -/
def pinctrlPageBase : U64 := pinctrlBase &&& ~~~(pageSize - 1#64)

/-- A `map` of a range to itself, whatever it answers. -/
def mapIdentity (base size flags : U64) : KProg Unit := do
  let _ ← map base base size flags
  pure ()

/-- `MAIR_EL1`: the memory types that a descriptor can choose between. -/
def mair : U64 := 0xFF#64 <<< (0 * 8) ||| 0x00#64 <<< (1 * 8) ||| 0x44#64 <<< (2 * 8)

/-- The kernel before `mmu_init`, with its globals at their initial values. -/
def Kernel.reset (ram : U64 → Fin 512 → U64) (daif : ℕ → U64) : Kernel where
  space :=
    { pmm := { bitmapAddr := 0, physMemStart := 0, totalFrames := 0, bitmap := [] }
      mem := ram
      l1Table := 0 }
  var := fun
    | .bumpPtr | .heapEnd => 0
    | .currBrk | .currNewlibHeapEnd => newlibHeapBase
    | .dmaBumpPtr => dmaBase
  lock := fun _ => none
  mmuActive := false
  daif := daif
  errno := fun _ => 0

/-- The calls of `map` in `mmu_init`. -/
def mmuInitMaps (physMemStart : U64) : KProg Unit := do
  mapIdentity 0x00000000#64 0x00080000#64 pteNormalRw
  mapIdentity 0x00080000#64 (physMemStart - 0x80000#64) pteNormalRw
  mapIdentity physMemStart (physMemEnd - physMemStart) pteNormalRw
  mapIdentity peripheralBase 0x410000#64 pteDeviceRw
  mapIdentity localPeripheralBase 0x8000#64 pteDeviceRw
  mapIdentity mailboxPageBase pageSize pteDeviceRw
  mapIdentity sdio0Base pageSize pteDeviceRw
  mapIdentity pinctrlPageBase pageSize pteDeviceRw

/-- The frame at `t`, cleared, becomes the L1 table. -/
def Space.setL1 (s : Space) (t : U64) : Space := { s with l1Table := t }.zero t

/-- `mmu_init` on core `c`, for a kernel image that ends at `kernelEnd`; `none` where it
waits forever because there is no frame for the L1 table. -/
def mmuInit (c : ℕ) (kernelEnd : U64) (k : Kernel) : Option Kernel := do
  let k := (k.withLock .mmuLock none).withLock .pmmLock none
  let k := k.withSpace { k.space with pmm := Pmm.pmmInit kernelEnd }
  let (pageTableAddress, k) ← run (Kernel.perform c) allocFrame k
  if pageTableAddress = 0 then none
  else do
    let k := k.withSpace (k.space.setL1 pageTableAddress)
    let (_, k) ← run (Kernel.perform c) (mmuInitMaps k.space.pmm.physMemStart) k
    some { k with mmuActive := true }

/-! ### What is mapped -/

/-- The flags of page `n`, if it is mapped. -/
abbrev Cover : Type := ℕ → Option U64

/-- `count` more pages, from page `first` on. -/
def Cover.add (cover : Cover) (first count : ℕ) (flags : U64) : Cover :=
  fun n => if first ≤ n ∧ n < first + count then some flags else cover n

/-- The descriptor that maps page `n` to itself. -/
def selfDesc (flags : U64) (n : ℕ) : U64 := BitVec.ofNat 64 (n * 4096) ||| flags ||| 3#64

/-- Page `n`, where it is mapped, is mapped to itself. -/
def Maps (cover : Cover) (s : Space) : Prop :=
  ∀ pg : Page, s.leaf pg = (cover pg.num).elim 0 fun flags => selfDesc flags pg.num

/-- The pages that `mmu_init` maps. -/
def identityCover : Cover := fun n =>
  if n < 0x3F800 then some pteNormalRw
  else if 0x1C00000 ≤ n ∧ n < 0x1C00410 ∨ 0x107FFF8 ≤ n ∧ n < 0x1080000 ∨ n = 0x107C013 ∨
    n = 0x1000FFF ∨ n = 0x107D504 then some pteDeviceRw
  else none

/-- The memory type of an L3 descriptor: the byte of `MAIR_EL1` that its `AttrIndx` names. -/
def memoryType (desc : U64) : U64 := (mair >>> (8 * ((desc >>> 2) &&& 7#64).toNat)) &&& 0xFF#64

/-- Normal memory, cacheable. -/
def normalMemory : U64 := 0xFF#64

/-- Device-nGnRnE. -/
def deviceMemory : U64 := 0x00#64

/-- The bytes of a window. -/
def InWindow (base size a : U64) : Prop :=
  base.toNat ≤ a.toNat ∧ a.toNat < base.toNat + size.toNat

/-- RAM. -/
def IsRam (a : U64) : Prop := InWindow 0 physMemEnd a

/-- The registers that the kernel reads and writes. -/
def IsDevice (a : U64) : Prop :=
  InWindow peripheralBase 0x410000#64 a ∨ InWindow localPeripheralBase 0x8000#64 a ∨
    a.toNat / 4096 = mailboxBase.toNat / 4096 ∨ a.toNat / 4096 = sdio0Base.toNat / 4096 ∨
    a.toNat / 4096 = pinctrlBase.toNat / 4096

instance (base size a : U64) : Decidable (InWindow base size a) :=
  inferInstanceAs (Decidable (_ ∧ _))

instance (a : U64) : Decidable (IsRam a) := inferInstanceAs (Decidable (InWindow _ _ _))

instance (a : U64) : Decidable (IsDevice a) := inferInstanceAs (Decidable (_ ∨ _))

/-- The paths of the L2 tables, and of the L3 tables of the devices. -/
def devicePaths : List (List (Fin 512)) :=
  [[0], [112], [65], [64], [0, 112], [1, 112], [2, 112], [511, 65], [480, 65], [490, 65], [7, 64]]

/-- The paths of the tables that these pages are walked through: 4 L2 tables and 515 L3
tables. -/
def identityPaths : Finset (List (Fin 512)) :=
  ((List.range 508).map (fun i => [Fin.ofNat 512 i, 0]) ++ devicePaths).toFinset

/-! ### The tables that this takes -/

theorem mem_identityPaths_of_device {p : List (Fin 512)} (h : p ∈ devicePaths) :
    p ∈ identityPaths := List.mem_toFinset.mpr (List.mem_append_right _ h)

/-- A page is given by its number's digits. -/
theorem Page.paths_eq {pg : Page} {i j : Fin 512}
    (h : (j : ℕ) * 2 ^ 18 + i * 2 ^ 9 ≤ pg.num ∧ pg.num < j * 2 ^ 18 + i * 2 ^ 9 + 2 ^ 9) :
    pg.l2Path = [j] ∧ pg.l3Path = [i, j] := by
  rcases pg with ⟨l1, l2, l3⟩
  have hi := i.isLt
  have hj := j.isLt
  have h1 := l1.isLt
  have h2 := l2.isLt
  have h3 := l3.isLt
  simp only [num] at h
  have hl1 : l1 = j := Fin.ext (by omega)
  have hl2 : l2 = i := Fin.ext (by omega)
  rw [l2Path, l3Path, hl1, hl2]
  exact ⟨rfl, rfl⟩

theorem mem_identityPaths {pg : Page} (h : identityCover pg.num ≠ none) :
    pg.l2Path ∈ identityPaths ∧ pg.l3Path ∈ identityPaths := by
  have hdevice : ∀ i j : Fin 512, [j] ∈ devicePaths → [i, j] ∈ devicePaths →
      (j : ℕ) * 2 ^ 18 + i * 2 ^ 9 ≤ pg.num ∧ pg.num < j * 2 ^ 18 + i * 2 ^ 9 + 2 ^ 9 →
      pg.l2Path ∈ identityPaths ∧ pg.l3Path ∈ identityPaths := by
    intro i j hj hij hnum
    obtain ⟨h2, h3⟩ := Page.paths_eq hnum
    rw [h2, h3]
    exact ⟨mem_identityPaths_of_device hj, mem_identityPaths_of_device hij⟩
  unfold identityCover at h
  split at h
  · -- the RAM ends where the 508th L3 table does
    rename_i hram
    obtain ⟨h2, h3⟩ := @Page.paths_eq pg (Fin.ofNat 512 (pg.num / 512)) 0
      (by simp only [Fin.val_ofNat, Fin.val_zero]; omega)
    rw [h2, h3]
    refine ⟨mem_identityPaths_of_device (by simp [devicePaths]), ?_⟩
    refine List.mem_toFinset.mpr (List.mem_append_left _ (List.mem_map.mpr ⟨_, ?_, rfl⟩))
    rw [List.mem_range]
    omega
  · split at h
    · rename_i hdev
      rcases hdev with hdev | hdev | hdev | hdev | hdev
      · -- the RP1 block spreads over three L3 tables
        have hthird : pg.num < 0x1C00200 ∨ 0x1C00200 ≤ pg.num ∧ pg.num < 0x1C00400 ∨
            0x1C00400 ≤ pg.num := by omega
        rcases hthird with hlt | hlt | hlt
        · exact hdevice 0 112 (by decide) (by decide) (by norm_num; omega)
        · exact hdevice 1 112 (by decide) (by decide) (by norm_num; omega)
        · exact hdevice 2 112 (by decide) (by decide) (by norm_num; omega)
      · exact hdevice 511 65 (by decide) (by decide) (by norm_num; omega)
      · exact hdevice 480 65 (by decide) (by decide) (by norm_num; omega)
      · exact hdevice 7 64 (by decide) (by decide) (by norm_num; omega)
      · exact hdevice 490 65 (by decide) (by decide) (by norm_num; omega)
    · exact absurd rfl h

theorem card_identityPaths_le : identityPaths.card ≤ 519 := by
  refine (List.toFinset_card_le _).trans ?_
  rw [List.length_append, List.length_map, List.length_range]
  exact le_of_eq rfl

theorem length_of_mem_identityPaths {p : List (Fin 512)} (h : p ∈ identityPaths) :
    p.length ≤ 2 := by
  rcases List.mem_append.mp (List.mem_toFinset.mp h) with h | h
  · obtain ⟨i, -, rfl⟩ := List.mem_map.mp h
    simp
  · have hall : ∀ q ∈ devicePaths, q.length ≤ 2 := by decide
    exact hall p h

/-! ### The calls of `map` -/

/-- The memory between two of the calls. -/
structure Identity (cover : Cover) (s : Space) : Prop where
  wf : s.WF
  maps : Maps cover s
  budget : Budget s identityPaths 0

variable {c spare : ℕ} {k : Kernel} {s : Space} {cover : Cover} {base size flags : U64}

/-- One call maps its range and nothing else, and takes no more frames than planned. -/
theorem alone_mapIdentity (h : Identity cover s ∧ Budget s identityPaths spare)
    (hmmu : k.Free .mmuLock)
    (hpmm : k.Free .pmmLock) (hbase : base.toNat % 4096 = 0)
    (hfits : base.toNat + size.toNat ≤ 2 ^ 39)
    (hcover : ∀ i < size.toNat / 4096, identityCover (base.toNat / 4096 + i) ≠ none) :
    Alone c k (mapIdentity base size flags) s fun _ s' =>
      Identity (cover.add (base.toNat / 4096) (size.toNat / 4096) flags) s' ∧
        Budget s' identityPaths spare := by
  obtain ⟨h, hspare⟩ := h
  have hnum : ∀ i < size.toNat / 4096, (pageAt base i).num = base.toNat / 4096 + i := by
    intro i hi
    rw [num_pageAt]
    omega
  have hpaths : ∀ i < numPages size,
      (pageAt base i).l2Path ∈ identityPaths ∧ (pageAt base i).l3Path ∈ identityPaths := by
    intro i hi
    rw [numPages_eq] at hi
    refine mem_identityPaths ?_
    rw [hnum i hi]
    exact hcover i hi
  have hmap := (@alone_map _ base base flags size c k h.wf hmmu
    hpmm).and (alone_map_budget h.wf hmmu hpmm hspare (fun _ => length_of_mem_identityPaths)
      hpaths)
  refine hmap.bind fun done s' hs' => Alone.pure ?_
  obtain ⟨⟨hwf, hmaps⟩, hdone, hbudget⟩ := hs'
  have hmaps := hmaps hdone
  rw [numPages_eq] at hmaps
  refine ⟨⟨hwf, fun pg => ?_, hbudget.mono (Nat.zero_le _)⟩, hbudget⟩
  rw [Cover.add]
  by_cases hin : base.toNat / 4096 ≤ pg.num ∧ pg.num < base.toNat / 4096 + size.toNat / 4096
  · -- page number `n` is the page `n - base / 4096` of the range
    have hpg : pg = pageAt base (pg.num - base.toNat / 4096) := by
      refine Page.num_inj ?_
      rw [hnum _ (by omega)]
      omega
    have hdesc : pageAddr base (pg.num - base.toNat / 4096) = BitVec.ofNat 64 (pg.num * 4096) := by
      have haddr : (pageAddr base (pg.num - base.toNat / 4096)).toNat
          = base.toNat + (pg.num - base.toNat / 4096) * 4096 := toNat_add_mul_pageSize (by omega)
      apply BitVec.eq_of_toNat_eq
      rw [haddr, BitVec.toNat_ofNat]
      omega
    have hleaf := hmaps.inside (by omega) (pg.num - base.toNat / 4096) (by omega)
    rw [← hpg, pageDesc, hdesc] at hleaf
    rw [if_pos hin, hleaf]
    rfl
  · rw [if_neg hin, ← h.maps pg]
    refine hmaps.outside pg fun i hi he => hin ?_
    rw [he, hnum i hi]
    omega

/-- The three ranges of RAM meet, wherever the bitmap ends. -/
theorem cover_mmuInitMaps {start : ℕ} (hal : start % 4096 = 0) (hlow : 0x80000 ≤ start)
    (hend : start ≤ 0x3F800000) :
    ((((((((Cover.add (fun _ => none) 0 0x80 pteNormalRw).add 0x80 ((start - 0x80000) / 4096)
      pteNormalRw).add (start / 4096) ((0x3F800000 - start) / 4096) pteNormalRw).add 0x1C00000
      0x410 pteDeviceRw).add 0x107FFF8 8 pteDeviceRw).add 0x107C013 1 pteDeviceRw).add 0x1000FFF
      1 pteDeviceRw).add 0x107D504 1 pteDeviceRw) = identityCover := by
  funext n
  simp only [Cover.add, identityCover]
  split_ifs <;> first | rfl | omega

theorem alone_mmuInitMaps {physMemStart : U64}
    (h : Identity (fun _ => none) s ∧ Budget s identityPaths spare) (hmmu : k.Free .mmuLock)
    (hpmm : k.Free .pmmLock) (hal : physMemStart.toNat % 4096 = 0)
    (hlow : 0x80000 ≤ physMemStart.toNat) (hend : physMemStart.toNat ≤ 0x3F800000) :
    Alone c k (mmuInitMaps physMemStart) s fun _ s' =>
      Identity identityCover s' ∧ Budget s' identityPaths spare := by
  -- the lengths of the second and the third range
  have hkernel : (physMemStart - 0x80000#64).toNat = physMemStart.toNat - 0x80000 := by
    rw [BitVec.toNat_sub_of_le (by rw [BitVec.le_def]; exact hlow)]
    rfl
  have hfree : (physMemEnd - physMemStart).toNat = 0x3F800000 - physMemStart.toNat := by
    rw [BitVec.toNat_sub_of_le (by rw [BitVec.le_def]; exact hend)]
    rfl
  have hram : ∀ n, n < 0x3F800 → identityCover n ≠ none := by
    intro n hn
    rw [identityCover, if_pos hn]
    simp
  have hdevice : ∀ n, 0x1C00000 ≤ n ∧ n < 0x1C00410 ∨ 0x107FFF8 ≤ n ∧ n < 0x1080000 ∨
      n = 0x107C013 ∨ n = 0x1000FFF ∨ n = 0x107D504 → identityCover n ≠ none := by
    intro n hn
    rw [identityCover]
    split
    · simp
    · simp
  -- RAM: below the image, the image and its bitmap, and what is free
  refine (alone_mapIdentity h hmmu hpmm rfl (by decide) fun i hi => hram _ ?_).bind fun _ s h => ?_
  · change i < 0x80 at hi
    change 0 + i < 0x3F800
    omega
  refine (alone_mapIdentity h hmmu hpmm rfl ?_ fun i hi => hram _ ?_).bind fun _ s h => ?_
  · rw [hkernel]
    change 0x80000 + _ ≤ _
    omega
  · rw [hkernel] at hi
    change 0x80 + i < 0x3F800
    omega
  refine (alone_mapIdentity h hmmu hpmm hal ?_ fun i hi => hram _ ?_).bind fun _ s h => ?_
  · rw [hfree]
    omega
  · rw [hfree] at hi
    omega
  -- the devices, one range each
  refine (alone_mapIdentity h hmmu hpmm rfl (by decide) fun i hi => hdevice _ ?_).bind
    fun _ s h => ?_
  · change i < 0x410 at hi
    change 0x1C00000 ≤ 0x1C00000 + i ∧ 0x1C00000 + i < 0x1C00410 ∨ _
    omega
  refine (alone_mapIdentity h hmmu hpmm rfl (by decide) fun i hi => hdevice _ ?_).bind
    fun _ s h => ?_
  · change i < 0x8 at hi
    change _ ∨ 0x107FFF8 ≤ 0x107FFF8 + i ∧ 0x107FFF8 + i < 0x1080000 ∨ _
    omega
  refine (alone_mapIdentity h hmmu hpmm rfl (by decide) fun i hi => hdevice _ ?_).bind
    fun _ s h => ?_
  · change i < 1 at hi
    change _ ∨ _ ∨ 0x107C013 + i = 0x107C013 ∨ _
    omega
  refine (alone_mapIdentity h hmmu hpmm rfl (by decide) fun i hi => hdevice _ ?_).bind
    fun _ s h => ?_
  · change i < 1 at hi
    change _ ∨ _ ∨ _ ∨ 0x1000FFF + i = 0x1000FFF ∨ _
    omega
  refine (alone_mapIdentity h hmmu hpmm rfl (by decide) fun i hi => hdevice _ ?_).mono
    fun _ s h => ?_
  · change i < 1 at hi
    change _ ∨ _ ∨ _ ∨ _ ∨ 0x107D504 + i = 0x107D504
    omega
  obtain ⟨h, hspare⟩ := h
  have hmaps := h.maps
  rw [hkernel, hfree] at hmaps
  refine ⟨⟨h.wf, fun pg => ?_, h.budget⟩, hspare⟩
  rw [← cover_mmuInitMaps hal hlow hend]
  exact hmaps pg

/-! ### The state after `mmu_init` -/

theorem Pmm.freeCount_pmmInit (image : Pmm.KernelImage) :
    (Pmm.pmmInit image.kernelEnd).freeCount = (Pmm.pmmInit image.kernelEnd).totalFrames.toNat := by
  rw [freeCount, Finset.filter_true_of_mem, Finset.card_range]
  intro i hi
  rw [Finset.mem_range] at hi
  rw [bit_pmmInit, decide_eq_false (by omega), Bool.false_and]

theorem Space.setL1_empty (s : Space) (t : U64) (i : Fin 512) : (s.setL1 t).mem t i = 0 := by
  show Function.update s.mem t (fun _ => 0) t i = 0
  rw [Function.update_self]

/-- An empty L1 table maps nothing, and its frame is taken from the others. -/
theorem identity_of_alloc {image : Pmm.KernelImage} {r : U64} {s' : Space}
    (hframes : 520 + spare ≤ (Pmm.pmmInit image.kernelEnd).totalFrames.toNat)
    (hpmm : s.pmm = Pmm.pmmInit image.kernelEnd) (hspec : AllocSpec s r s') :
    r ≠ 0 ∧ s'.pmm.physMemStart = s.pmm.physMemStart ∧
      Identity (fun _ => none) (s'.setL1 r) ∧ Budget (s'.setL1 r) identityPaths spare := by
  have hwf : s.pmm.WF := hpmm ▸ Pmm.pmmInit_wf image
  have hcount : 520 + spare ≤ s.pmm.freeCount := by
    rw [hpmm, Pmm.freeCount_pmmInit]
    exact hframes
  cases hspec with
  | none h => omega
  | some f hf hb =>
    have hspare : Budget (({ s with pmm := s.pmm.mark f } : Space).setL1 (s.pmm.frame f))
        identityPaths spare := by
      have hmark := Pmm.freeCount_mark hwf hf hb
      have hcard := (Finset.card_filter_le identityPaths fun q =>
        (({ s with pmm := s.pmm.mark f } : Space).setL1 (s.pmm.frame f)).table q
          = none).trans card_identityPaths_le
      show _ + spare ≤ (s.pmm.mark f).freeCount
      rw [missing]
      omega
    refine ⟨Pmm.frame_ne_zero hwf hf, rfl, ⟨?_, fun pg => ?_, ?_⟩, hspare⟩
    · exact Space.wf_of_empty (hwf.mark hf) ((Pmm.used_mark_iff hwf hf _).mpr (Or.inr rfl))
        (Space.setL1_empty _ _)
    · exact Space.leaf_of_empty (Space.setL1_empty _ _) pg
    · exact hspare.mono (Nat.zero_le _)

/-- What `mmu_init` leaves, with `spare` frames that it did not need. -/
structure AfterMmuInit (spare : ℕ) (k k' : Kernel) : Prop where
  identity : Identity identityCover k'.space
  spare : Budget k'.space identityPaths spare
  mmuFree : k'.lock .mmuLock = none
  pmmFree : k'.lock .pmmLock = none
  locks : ∀ l, l ≠ .mmuLock → l ≠ .pmmLock → k'.lock l = k.lock l
  vars : k'.var = k.var

/-- `mmu_init` returns, and the identity map is all there is. -/
theorem mmuInit_identity {image : Pmm.KernelImage} (c : ℕ) (k : Kernel)
    (hal : image.kernelEnd.toNat % 4096 = 0) (hlow : 0x80000 ≤ image.kernelEnd.toNat)
    (hframes : 520 + spare ≤ (Pmm.pmmInit image.kernelEnd).totalFrames.toNat) :
    ∃ k', mmuInit c image.kernelEnd k = some k' ∧ AfterMmuInit spare k k' := by
  -- where `pmm_init` puts the first managed frame
  obtain ⟨a, m, start, t, ha, -, hs, -, hstart, -, -, -, hend, -, -⟩ :=
    Pmm.pmmInit_geometry image
  have hbase : 0x80000 ≤ a := by
    have hlt := image.kernelEnd.isLt
    rw [ha, toNat_roundUp_pageSize]
    omega
  rw [toNat_physMemEnd] at hend
  let k₀ : Kernel := (k.withLock .mmuLock none).withLock .pmmLock none
  let k₁ : Kernel := k₀.withSpace { k₀.space with pmm := Pmm.pmmInit image.kernelEnd }
  have hmmu : k₁.lock .mmuLock = none := by simp [k₁, k₀, Kernel.withLock]
  have hpmm : k₁.lock .pmmLock = none := by simp [k₁, k₀, Kernel.withLock]
  obtain ⟨r, s', hrun, hspec⟩ :=
    (alone_allocFrame (c := c) (s := k₁.space) (Pmm.pmmInit_wf image) fun _ => hpmm).run_eq
  obtain ⟨hr, hgeo, hid⟩ := identity_of_alloc hframes rfl hspec
  have hstart' : (s'.setL1 r).pmm.physMemStart.toNat = start := by
    rw [← hstart]
    exact congrArg BitVec.toNat hgeo
  obtain ⟨u, s'', hrun', hid', hspare⟩ := (@alone_mmuInitMaps c spare (k₁.withSpace (s'.setL1 r))
    _ _ hid (fun _ => hmmu) (fun _ => hpmm) (by rw [hstart', hs]; omega)
    (by rw [hstart', hs]; omega) (by rw [hstart']; exact hend)).run_eq
  have hlocks : ∀ l, l ≠ .mmuLock → l ≠ .pmmLock → k₁.lock l = k.lock l := by
    intro l hl hl'
    exact (Function.update_of_ne hl' _ _).trans (Function.update_of_ne hl _ _)
  refine ⟨{ k₁.withSpace s'' with mmuActive := true }, ?_, hid', hspare, hmmu, hpmm, hlocks, rfl⟩
  rw [mmuInit]
  show (run (Kernel.perform c) allocFrame k₁).bind _ = _
  rw [hrun, Option.bind_some]
  dsimp only
  rw [if_neg hr]
  exact congrArg (fun o => o.bind fun x => some { x.2 with mmuActive := true }) hrun'

theorem mmuInit_totalFrames {kernelEnd : U64} (h : mmuInit c kernelEnd k = some k') :
    k'.space.pmm.totalFrames = (Pmm.pmmInit kernelEnd).totalFrames := by
  rw [mmuInit] at h
  obtain ⟨⟨r, k₁⟩, hrun, h⟩ := Option.bind_eq_some_iff.mp h
  dsimp only at h
  by_cases hr : r = 0
  · rw [if_pos hr] at h
    exact absurd h nofun
  · rw [if_neg hr] at h
    obtain ⟨⟨u, k₂⟩, hrun', h⟩ := Option.bind_eq_some_iff.mp h
    rw [← Option.some.inj h]
    exact (run_totalFrames hrun').trans (run_totalFrames hrun)

/-! ### Every address -/

theorem selfDesc_eq_pageDesc (flags : U64) (n : ℕ) : selfDesc flags n = pageDesc 0#64 flags n := by
  have haddr : pageAddr 0#64 n = BitVec.ofNat 64 (n * 4096) := by
    apply BitVec.eq_of_toNat_eq
    rw [pageAddr, BitVec.zero_add, BitVec.toNat_mul, BitVec.toNat_ofNat, BitVec.toNat_ofNat,
      toNat_pageSize]
    omega
  rw [selfDesc, pageDesc, haddr]

/-- A page that maps to itself. -/
theorem Maps.translation_of_some (h : Maps cover s) {a : U64} (ha : a.toNat < 2 ^ 39)
    (hcover : cover (a.toNat / 4096) = some flags) (hflags : (flags ||| 3#64).toNat < 4096) :
    s.translation a = a := by
  have hnum : (pageOf a).num = a.toNat / 4096 := by
    rw [num_pageOf]
    omega
  have hpage : pageAt 0#64 (a.toNat / 4096) = pageOf a := by
    refine Page.num_inj ?_
    rw [num_pageAt, hnum]
    show (0 + _) % _ = _
    omega
  have hleaf := h (pageOf a)
  rw [hnum, hcover] at hleaf
  have htrans := @Space.translation_of_leaf _ 0#64 0#64 _ a.toNat rfl rfl
    (by show 0 + _ < _; omega) hflags (by rw [hpage, ← selfDesc_eq_pageDesc]; exact hleaf)
  rwa [BitVec.zero_add, BitVec.ofNat_toNat, BitVec.setWidth_eq] at htrans

theorem Maps.translation_of_none (h : Maps cover s) {a : U64} (ha : a.toNat < 2 ^ 39)
    (hcover : cover (a.toNat / 4096) = none) : s.translation a = ~~~0#64 := by
  have hnum : (pageOf a).num = a.toNat / 4096 := by
    rw [num_pageOf]
    omega
  have hleaf := h (pageOf a)
  rw [hnum, hcover, Option.elim_none] at hleaf
  rw [Space.translation, hleaf, if_neg (by decide)]
  rfl

/-- The flags choose the memory type, whatever the page. -/
theorem memoryType_selfDesc {n : ℕ} (hflags : (flags ||| 3#64).toNat < 4096) :
    memoryType (selfDesc flags n) =
      (mair >>> (8 * ((flags ||| 3#64).toNat / 4 % 8))) &&& 0xFF#64 := by
  have hindex : ((selfDesc flags n >>> 2) &&& 7#64).toNat = (flags ||| 3#64).toNat / 4 % 8 := by
    have hmask : 7#64 = lowMask 64 3 := rfl
    have hpage : (BitVec.ofNat 64 (n * 4096)).toNat % 4096 = 0 := by
      rw [BitVec.toNat_ofNat]
      omega
    rw [hmask, toNat_and_lowMask _ (by omega), BitVec.toNat_ushiftRight, Nat.shiftRight_eq_div_pow,
      selfDesc, BitVec.or_assoc, toNat_or_of_low (n := 12) hpage hflags]
    omega
  rw [memoryType, hindex]

theorem identityCover_of_isRam {a : U64} (h : IsRam a) :
    identityCover (a.toNat / 4096) = some pteNormalRw := by
  have hlt : a.toNat < 0 + 0x3F800000 := h.2
  rw [identityCover, if_pos (by omega)]

theorem identityCover_of_isDevice {a : U64} (h : IsDevice a) :
    identityCover (a.toNat / 4096) = some pteDeviceRw := by
  have hpage : 0x1C00000 ≤ a.toNat / 4096 ∧ a.toNat / 4096 < 0x1C00410 ∨
      0x107FFF8 ≤ a.toNat / 4096 ∧ a.toNat / 4096 < 0x1080000 ∨ a.toNat / 4096 = 0x107C013 ∨
      a.toNat / 4096 = 0x1000FFF ∨ a.toNat / 4096 = 0x107D504 := by
    rcases h with ⟨hle, hlt⟩ | ⟨hle, hlt⟩ | h | h | h
    · change 0x1C00000000 ≤ _ at hle
      change _ < 0x1C00000000 + 0x410000 at hlt
      omega
    · change 0x107FFF8000 ≤ _ at hle
      change _ < 0x107FFF8000 + 0x8000 at hlt
      omega
    · exact Or.inr (Or.inr (Or.inl h))
    · exact Or.inr (Or.inr (Or.inr (Or.inl h)))
    · exact Or.inr (Or.inr (Or.inr (Or.inr h)))
  rw [identityCover, if_neg (by omega), if_pos hpage]

theorem identityCover_of_neither {a : U64} (h : ¬ (IsRam a ∨ IsDevice a)) :
    identityCover (a.toNat / 4096) = none := by
  rw [identityCover, if_neg, if_neg]
  · intro hpage
    refine h (Or.inr ?_)
    rcases hpage with hp | hp | hp | hp | hp
    · refine Or.inl ⟨?_, ?_⟩
      · show 0x1C00000000 ≤ a.toNat
        omega
      · show a.toNat < 0x1C00000000 + 0x410000
        omega
    · refine Or.inr (Or.inl ⟨?_, ?_⟩)
      · show 0x107FFF8000 ≤ a.toNat
        omega
      · show a.toNat < 0x107FFF8000 + 0x8000
        omega
    · exact Or.inr (Or.inr (Or.inl hp))
    · exact Or.inr (Or.inr (Or.inr (Or.inl hp)))
    · exact Or.inr (Or.inr (Or.inr (Or.inr hp)))
  · intro hlt
    refine h (Or.inl ⟨Nat.zero_le _, ?_⟩)
    show a.toNat < 0 + 0x3F800000
    omega

/-- **`mmu_init` builds the intended identity map, and nothing more.**  The frames that it
takes are one L1, 4 L2 and 515 L3 tables. -/
theorem mmu_init_identity (image : Pmm.KernelImage) (c : ℕ) (k : Kernel)
    (hal : image.kernelEnd.toNat % 4096 = 0) (hlow : 0x80000 ≤ image.kernelEnd.toNat)
    (hframes : 520 ≤ (Pmm.pmmInit image.kernelEnd).totalFrames.toNat) :
    ∃ k', mmuInit c image.kernelEnd k = some k' ∧
      (∀ a : U64, a.toNat < 2 ^ 39 →
        run (Kernel.perform c) (translate a) k' =
            some (if IsRam a ∨ IsDevice a then a else ~~~0#64, k') ∧
          (IsRam a → memoryType (k'.space.leaf (pageOf a)) = normalMemory) ∧
          (IsDevice a → memoryType (k'.space.leaf (pageOf a)) = deviceMemory)) ∧
      ∀ t, k'.space.IsTable t → ∀ off < 4096, IsRam (t + BitVec.ofNat 64 off) := by
  obtain ⟨k', hrun, hafter⟩ := @mmuInit_identity 0 image c k hal hlow hframes
  have hid := hafter.identity
  have hmmu := hafter.mmuFree
  refine ⟨k', hrun, fun a ha => ?_, fun t ht off hoff => ⟨Nat.zero_le _, ?_⟩⟩
  · have hleaf := hid.maps (pageOf a)
    have hnum : (pageOf a).num = a.toNat / 4096 := by
      rw [num_pageOf]
      omega
    rw [hnum] at hleaf
    refine ⟨?_, fun hram => ?_, fun hdev => ?_⟩
    · rw [run_translate hid.wf (fun _ => hmmu)]
      by_cases hram : IsRam a
      · rw [if_pos (Or.inl hram), hid.maps.translation_of_some ha (identityCover_of_isRam hram)
          (by decide)]
      · by_cases hdev : IsDevice a
        · rw [if_pos (Or.inr hdev), hid.maps.translation_of_some ha
            (identityCover_of_isDevice hdev) (by decide)]
        · have hneither : ¬ (IsRam a ∨ IsDevice a) := fun h => h.elim hram hdev
          rw [if_neg hneither,
            hid.maps.translation_of_none ha (identityCover_of_neither hneither)]
    · rw [hleaf, identityCover_of_isRam hram, Option.elim_some,
        memoryType_selfDesc (by decide)]
      decide
    · rw [hleaf, identityCover_of_isDevice hdev, Option.elim_some,
        memoryType_selfDesc (by decide)]
      decide
  · -- the tables are frames of the allocator, which manages RAM
    have hused := hid.wf.used t ht
    have hlt := hused.lt hid.wf.pmm
    have hal := hused.aligned hid.wf.pmm
    rw [BitVec.toNat_add, BitVec.toNat_ofNat]
    show _ < 0 + 0x3F800000
    omega

/-- An image that ends at 1 MiB. -/
theorem mmu_init_identity_image : ∃ k',
    mmuInit 0 0x100000#64 (Kernel.reset (fun _ _ => 0) fun _ => 0) = some k' ∧
      run (Kernel.perform 0) (translate 0x107c013880#64) k' = some (0x107c013880#64, k') := by
  obtain ⟨k', hrun, haddr, -⟩ := mmu_init_identity ⟨0x100000#64, by decide⟩ 0
    (Kernel.reset (fun _ _ => 0) fun _ => 0) (by decide) (by decide) (by decide)
  have hmailbox := (haddr 0x107c013880#64 (by decide)).1
  rw [if_pos (Or.inr (by decide))] at hmailbox
  exact ⟨k', hrun, hmailbox⟩

end GamingConsole
