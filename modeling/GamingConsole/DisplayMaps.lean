/-
The address space under changes of resolution.

`set_resolution` unmaps the pages of the last framebuffer and maps those of the new one to
themselves, and looks neither at what `map` answers nor at where the framebuffers lie.

`SpaceSound earlier fb s` is what the driver relies on: framebuffer and RAM translate to
themselves, and a page that only earlier framebuffers had is not mapped.  A change of
resolution keeps this exactly where

* the tables that the new pages lack fit into the frames that are left, and
* the pages that the last framebuffer shares with RAM are among the new ones (`Follows`).

* **`spaceSound_adopt_iff`** — one change, from the state in which `map` is called;
* **`modes_sound_iff`** — any run of changes after `mmu_init`, with anything that the rest of
  the kernel does in between.
-/
import GamingConsole.Display
import GamingConsole.MmuInit

namespace GamingConsole

open Prog Space

variable {k k' : Kernel} {c : ℕ} {held : List (U64 × U64)} {rest : U64 → Prop}
  {s s' s₁ s₂ s₃ : Space}
  {fb last new : Framebuffer} {earlier : List Framebuffer} {pg : Page}

/-! ### Framebuffers -/

/-- The pages of the framebuffer. -/
def Framebuffer.Covers (fb : Framebuffer) (pg : Page) : Prop := InRange fb.addr fb.alignedSize pg

/-- The pages of RAM. -/
def InRam (pg : Page) : Prop := pg.num < 0x3F800

/-- The framebuffer starts on a page, and its pages are below those of the DMA window. -/
structure Framebuffer.Placed (fb : Framebuffer) : Prop where
  aligned : fb.base.toNat % 4096 = 0
  below : fb.BelowDma

namespace Framebuffer

theorem toNat_addr (fb : Framebuffer) : fb.addr.toNat = fb.base.toNat :=
  BitVec.toNat_setWidth_of_le (by decide)

theorem toNat_alignedSize (fb : Framebuffer) :
    fb.alignedSize.toNat = (fb.size.toNat + 4095) / 4096 * 4096 := by
  have hsize : (fb.size.setWidth 64).toNat = fb.size.toNat :=
    BitVec.toNat_setWidth_of_le (by decide)
  have hsub : fb.size.setWidth 64 + pageSize - 1#64 = fb.size.setWidth 64 + 4095#64 := by
    rw [pageSize]
    bv_omega
  have hlt := fb.size.isLt
  have hsum : (fb.size.setWidth 64 + 4095#64).toNat = fb.size.toNat + 4095 := by
    rw [BitVec.toNat_add, hsize]
    show (fb.size.toNat + 4095) % 2 ^ 64 = _
    omega
  rw [alignedSize, BitVec.toNat_mul, BitVec.toNat_udiv, hsub, hsum, toNat_pageSize]
  omega

theorem numPages_alignedSize (fb : Framebuffer) :
    numPages fb.alignedSize = (fb.size.toNat + 4095) / 4096 := by
  rw [numPages_eq, toNat_alignedSize, Nat.mul_div_cancel _ (by omega)]

namespace Placed

theorem of_size (haligned : fb.base.toNat % 4096 = 0)
    (hbelow : fb.base.toNat / 4096 + (fb.size.toNat + 4095) / 4096 ≤ 0x140000) : fb.Placed := by
  refine ⟨haligned, ?_⟩
  rwa [BelowDma, numPages_alignedSize]

/-- The numbers of its pages. -/
theorem covers_iff (h : fb.Placed) : fb.Covers pg ↔ fb.base.toNat / 4096 ≤ pg.num ∧
    pg.num < fb.base.toNat / 4096 + (fb.size.toNat + 4095) / 4096 := by
  have hbelow := h.below
  rw [BelowDma, numPages_alignedSize] at hbelow
  have hnum : ∀ i < (fb.size.toNat + 4095) / 4096,
      (pageAt fb.addr i).num = fb.base.toNat / 4096 + i := by
    intro i hi
    rw [num_pageAt, toNat_addr]
    omega
  rw [Covers, InRange, numPages_alignedSize]
  constructor
  · rintro ⟨i, hi, rfl⟩
    rw [hnum i hi]
    omega
  · intro hpg
    refine ⟨pg.num - fb.base.toNat / 4096, by omega, Page.num_inj ?_⟩
    rw [hnum _ (by omega)]
    omega

theorem apart (h : fb.Placed) (hpg : fb.Covers pg) : ¬ InDmaWindow pg :=
  fun hin => h.below.apart hin hpg

/-- Byte `off` of the framebuffer. -/
theorem toNat_byte (h : fb.Placed) {off : ℕ} (hoff : off < fb.alignedSize.toNat) :
    (fb.addr + BitVec.ofNat 64 off).toNat = fb.base.toNat + off := by
  have hbelow := h.below
  rw [BelowDma, numPages_alignedSize] at hbelow
  rw [toNat_alignedSize] at hoff
  rw [BitVec.toNat_add, BitVec.toNat_ofNat, toNat_addr]
  omega

/-- The byte is on a page of the framebuffer. -/
theorem covers_byte (h : fb.Placed) {off : ℕ} (hoff : off < fb.alignedSize.toNat) :
    fb.Covers (pageOf (fb.addr + BitVec.ofNat 64 off)) := by
  have hbelow := h.below
  have hal := h.aligned
  rw [BelowDma, numPages_alignedSize] at hbelow
  rw [h.covers_iff, num_pageOf, h.toNat_byte hoff]
  rw [toNat_alignedSize] at hoff
  omega

end Placed

end Framebuffer

theorem InRam.apart (h : InRam pg) : ¬ InDmaWindow pg := by
  rintro ⟨q, hq, rfl⟩
  have hbase : dmaBase.toNat = 0x140000000 := rfl
  rw [InRam, dmaPage, num_pageAt, hbase] at h
  rw [dmaPages] at hq
  omega

/-! ### What the driver relies on -/

/-- The framebuffer and RAM translate to themselves, and pages that only earlier framebuffers
had are not mapped. -/
structure SpaceSound (earlier : List Framebuffer) (fb : Framebuffer) (s : Space) : Prop where
  framebuffer : ∀ off < fb.size.toNat,
    s.translation (fb.addr + BitVec.ofNat 64 off) = fb.addr + BitVec.ofNat 64 off
  stale : ∀ e ∈ earlier, ∀ pg, e.Covers pg → ¬ fb.Covers pg → ¬ InRam pg → ¬ s.Mapped pg
  ram : ∀ a, IsRam a → s.translation a = a

theorem Space.translation_congr {a : U64} (h : s'.leaf (pageOf a) = s.leaf (pageOf a)) :
    s'.translation a = s.translation a := by
  rw [Space.translation, Space.translation, h]

theorem Space.mapped_of_translation {a b : U64} (h : s.translation a = b) (hb : b ≠ ~~~0) :
    s.Mapped (pageOf a) := by
  by_contra hnot
  rw [Space.Mapped] at hnot
  rw [Space.translation, if_neg hnot] at h
  exact hb h.symm

theorem IsRam.lt {a : U64} (h : IsRam a) : a.toNat < 0x3F800000 := by
  have hlt : a.toNat < 0 + 0x3F800000 := h.2
  omega

theorem IsRam.inRam {a : U64} (h : IsRam a) : InRam (pageOf a) := by
  have hlt := h.lt
  rw [InRam, num_pageOf]
  omega

namespace SpaceSound

/-- Nothing else is looked at. -/
theorem congr (h : SpaceSound earlier fb s) (hfb : fb.Placed)
    (hleaf : ∀ pg, (InRam pg ∨ ∃ e ∈ fb :: earlier, e.Covers pg) → s'.leaf pg = s.leaf pg) :
    SpaceSound earlier fb s' := by
  refine ⟨fun off hoff => ?_, fun e he pg hpg hnot hram => ?_, fun a ha => ?_⟩
  · have hin : off < fb.alignedSize.toNat := by
      rw [Framebuffer.toNat_alignedSize]
      omega
    rw [Space.translation_congr
      (hleaf _ (Or.inr ⟨fb, List.mem_cons_self, hfb.covers_byte hin⟩))]
    exact h.framebuffer off hoff
  · have hold := h.stale e he pg hpg hnot hram
    rw [Space.Mapped] at hold ⊢
    rwa [hleaf pg (Or.inr ⟨e, List.mem_cons_of_mem _ he, hpg⟩)]
  · rw [Space.translation_congr (hleaf _ (Or.inl ha.inRam))]
    exact h.ram a ha

/-- What happens in the DMA window is none of it. -/
theorem of_window (h : SpaceSound earlier fb s) (hplaced : ∀ e ∈ fb :: earlier, e.Placed)
    (hleaf : ∀ pg, ¬ InDmaWindow pg → s'.leaf pg = s.leaf pg) : SpaceSound earlier fb s' := by
  refine h.congr (hplaced fb List.mem_cons_self) fun pg hpg => hleaf pg ?_
  rcases hpg with hram | ⟨e, he, hcover⟩
  · exact hram.apart
  · exact (hplaced e he).apart hcover

/-- A call that adopts nothing has the same framebuffer before and after. -/
theorem again (h : SpaceSound earlier fb s) : SpaceSound (fb :: earlier) fb s := by
  refine ⟨h.framebuffer, fun e he pg hpg hnot hram => ?_, h.ram⟩
  rcases List.mem_cons.mp he with rfl | he
  · exact absurd hpg hnot
  · exact h.stale e he pg hpg hnot hram

theorem mapped_of_covers (h : SpaceSound earlier fb s) (hfb : fb.Placed) (hpg : fb.Covers pg) :
    s.Mapped pg := by
  have hbelow := hfb.below
  have hal := hfb.aligned
  rw [Framebuffer.BelowDma, Framebuffer.numPages_alignedSize] at hbelow
  rw [hfb.covers_iff] at hpg
  -- the first byte of the page belongs to the framebuffer itself
  have hoff : (pg.num - fb.base.toNat / 4096) * 4096 < fb.size.toNat := by omega
  have hin : (pg.num - fb.base.toNat / 4096) * 4096 < fb.alignedSize.toNat := by
    rw [Framebuffer.toNat_alignedSize]
    omega
  have hbyte := hfb.toNat_byte hin
  have hpage :
      pageOf (fb.addr + BitVec.ofNat 64 ((pg.num - fb.base.toNat / 4096) * 4096)) = pg := by
    refine Page.num_inj ?_
    rw [num_pageOf, hbyte]
    omega
  rw [← hpage]
  refine Space.mapped_of_translation (h.framebuffer _ hoff) fun hones => ?_
  have hval : (~~~0 : U64).toNat = 2 ^ 64 - 1 := rfl
  rw [hones, hval] at hbyte
  omega

theorem mapped_of_inRam (h : SpaceSound earlier fb s) (hpg : InRam pg) : s.Mapped pg := by
  rw [InRam] at hpg
  have hval : (BitVec.ofNat 64 (pg.num * 4096)).toNat = pg.num * 4096 := by
    rw [BitVec.toNat_ofNat]
    omega
  have hram : IsRam (BitVec.ofNat 64 (pg.num * 4096)) := by
    refine ⟨Nat.zero_le _, ?_⟩
    rw [hval]
    show _ < 0 + 0x3F800000
    omega
  have hpage : pageOf (BitVec.ofNat 64 (pg.num * 4096)) = pg := by
    refine Page.num_inj ?_
    rw [num_pageOf, hval]
    omega
  rw [← hpage]
  refine Space.mapped_of_translation (h.ram _ hram) fun hones => ?_
  have hbad : (~~~0 : U64).toNat = 2 ^ 64 - 1 := rfl
  rw [hones, hbad] at hval
  omega

end SpaceSound

/-! ### One change of resolution -/

/-- What the pages of `last` must be for `new` to take its place.  The pages that are unmapped
are mapped again where RAM has them too; at base zero nothing is unmapped. -/
structure Framebuffer.Follows (last new : Framebuffer) : Prop where
  ram : last.base ≠ 0 → ∀ pg, InRam pg → last.Covers pg → new.Covers pg
  rest : last.base = 0 → ∀ pg, ¬ InRam pg → last.Covers pg → new.Covers pg

/-- What `unmapLast` does to a framebuffer whose pages are mapped. -/
structure LastUnmapped (last : Framebuffer) (s s' : Space) : Prop where
  wf : s'.WF
  kept : ∀ pg, last.base = 0 ∨ ¬ last.Covers pg → s'.leaf pg = s.leaf pg
  cleared : last.base ≠ 0 → ∀ pg, last.Covers pg → s'.leaf pg = 0

theorem alone_unmapLast (h : s.WF) (hmmu : k.Free .mmuLock) (hpmm : k.Free .pmmLock)
    (hlast : last.Placed) (hmapped : ∀ pg, last.Covers pg → s.Mapped pg) :
    Alone c k (unmapLast last) s fun _ s' => LastUnmapped last s s' := by
  have hpages : numPages last.alignedSize ≤ 2 ^ 27 := by
    have hbelow := hlast.below
    rw [Framebuffer.BelowDma] at hbelow
    omega
  rw [unmapLast]
  split
  · rename_i hbase
    refine Alone.mono (alone_unmap_kept h hmmu hpmm hpages fun i hi => hmapped _ ⟨i, hi, rfl⟩)
      fun _ s' hs' => ⟨hs'.1.wf, fun pg hpg => ?_, fun _ pg hpg => ?_⟩
    · exact hs'.1.leaf pg (hpg.resolve_left hbase)
    · obtain ⟨i, hi, rfl⟩ := hpg
      exact hs'.2 i hi
  · rename_i hbase
    exact Alone.pure ⟨h, fun _ _ => rfl, fun hne => absurd hne hbase⟩

/-- The tables that the new pages lack fit into the frames that are left. -/
def Framebuffer.Fits (new : Framebuffer) (s : Space) : Prop :=
  (newTables s new.addr (numPages new.alignedSize)).card ≤ s.pmm.freeCount

/-- What the `map` of `set_resolution` does, whatever is mapped already. -/
structure NewMapped (new : Framebuffer) (s s' : Space) : Prop where
  maps : new.Fits s →
    MapsRange s s' new.addr new.addr pteNormalNcRw (numPages new.alignedSize)
  hole : ¬ new.Fits s → ∃ pg, new.Covers pg ∧ s'.leaf pg = 0

theorem alone_map_new (h : s.WF) (hmmu : k.Free .mmuLock) (hpmm : k.Free .pmmLock) :
    Alone c k (map new.addr new.addr new.alignedSize pteNormalNcRw) s fun _ s' =>
      NewMapped new s s' := by
  refine Alone.mono (alone_map_iff h hmmu hpmm) fun done s' hs' => ?_
  obtain ⟨hdone, hmaps, hhole⟩ := hs'
  refine ⟨fun hfits => hmaps (hdone.mpr hfits), fun hfull => ?_⟩
  obtain ⟨i, hi, hleaf⟩ := hhole (Bool.eq_false_iff.mpr fun ht => hfull (hdone.mp ht))
  exact ⟨_, ⟨i, hi, rfl⟩, hleaf⟩

theorem NewMapped.outside (h : NewMapped new s s') (hfits : new.Fits s) (hpg : ¬ new.Covers pg) :
    s'.leaf pg = s.leaf pg :=
  (h.maps hfits).outside pg fun i hi heq => hpg ⟨i, hi, heq⟩

theorem NewMapped.mapped (h : NewMapped new s s') (hnew : new.Placed) (hfits : new.Fits s)
    (hpg : new.Covers pg) : s'.Mapped pg := by
  have hbelow := hnew.below
  rw [Framebuffer.BelowDma] at hbelow
  obtain ⟨i, hi, rfl⟩ := hpg
  rw [Space.Mapped, (h.maps hfits).inside (by omega) i hi]
  exact pageDesc_valid _ _ i

/-- Every byte on the new pages translates to itself. -/
theorem NewMapped.translation (h : NewMapped new s s') (hnew : new.Placed) (hfits : new.Fits s)
    {off : ℕ} (hoff : off < new.alignedSize.toNat) :
    s'.translation (new.addr + BitVec.ofNat 64 off) = new.addr + BitVec.ofNat 64 off := by
  have hbelow := hnew.below
  have hal := hnew.aligned
  rw [← new.toNat_addr] at hal
  rw [Framebuffer.BelowDma, Framebuffer.numPages_alignedSize] at hbelow
  have haddr := new.toNat_addr
  have hsize := new.toNat_alignedSize
  exact (h.maps hfits).translation hal hal (by omega) (by omega) (by omega) (by decide) hoff

/-- **One change of resolution**, from the state in which `unmap` is called. -/
theorem spaceSound_adopt_iff (h : SpaceSound earlier last s₁) (hlast : last.Placed)
    (hnew : new.Placed) (hun : LastUnmapped last s₁ s₂) (hmap : NewMapped new s₂ s₃) :
    SpaceSound (last :: earlier) new s₃ ↔ new.Fits s₂ ∧ last.Follows new := by
  have hunmapped : ∀ {s : Space} {pg : Page}, s.leaf pg = 0 → ¬ s.Mapped pg := by
    intro s pg hleaf hmapped
    exact ne_zero_of_valid hmapped hleaf
  constructor
  · intro hsound
    have hfits : new.Fits s₂ := by
      by_contra hfull
      obtain ⟨pg, hpg, hleaf⟩ := hmap.hole hfull
      exact hunmapped hleaf (hsound.mapped_of_covers hnew hpg)
    refine ⟨hfits, fun hbase pg hram hpg => ?_, fun hbase pg hram hpg => ?_⟩
    · by_contra hnot
      have hleaf := (hmap.outside hfits hnot).trans (hun.cleared hbase pg hpg)
      exact hunmapped hleaf (hsound.mapped_of_inRam hram)
    · by_contra hnot
      have hleaf := (hmap.outside hfits hnot).trans (hun.kept pg (Or.inl hbase))
      refine hsound.stale last List.mem_cons_self pg hpg hnot hram ?_
      rw [Space.Mapped, hleaf]
      exact h.mapped_of_covers hlast hpg
  · rintro ⟨hfits, hfollows⟩
    refine ⟨fun off hoff => ?_, fun e he pg hpg hnot hram => ?_, fun a ha => ?_⟩
    · refine hmap.translation hnew hfits ?_
      rw [Framebuffer.toNat_alignedSize]
      omega
    · have hleaf := hmap.outside hfits hnot
      -- the pages of the last framebuffer were cleared just now, the older ones before
      by_cases hcover : last.Covers pg
      · by_cases hbase : last.base = 0
        · exact absurd (hfollows.rest hbase pg hram hcover) hnot
        · exact hunmapped (hleaf.trans (hun.cleared hbase pg hcover))
      · rcases List.mem_cons.mp he with rfl | he
        · exact absurd hpg hcover
        · have hold := h.stale e he pg hpg hcover hram
          rw [Space.Mapped] at hold ⊢
          rwa [hleaf, hun.kept pg (Or.inr hcover)]
    · by_cases hcover : new.Covers (pageOf a)
      · -- the byte is one of the new framebuffer's
        have hlt := ha.lt
        have hrange := hnew.covers_iff.mp hcover
        have hal := hnew.aligned
        rw [num_pageOf] at hrange
        have hoff : a.toNat - new.base.toNat < new.alignedSize.toNat := by
          rw [Framebuffer.toNat_alignedSize]
          omega
        have hbyte := hnew.toNat_byte hoff
        have heq : new.addr + BitVec.ofNat 64 (a.toNat - new.base.toNat) = a := by
          apply BitVec.eq_of_toNat_eq
          rw [hbyte]
          omega
        have htrans := hmap.translation hnew hfits hoff
        rwa [heq] at htrans
      · have hkept : last.base = 0 ∨ ¬ last.Covers (pageOf a) := by
          by_contra hboth
          rw [not_or, not_not] at hboth
          exact hcover (hfollows.ram hboth.1 _ ha.inRam hboth.2)
        rw [Space.translation_congr ((hmap.outside hfits hcover).trans (hun.kept _ hkept))]
        exact h.ram a ha

/-! ### A call of `set_resolution` -/

/-- How a call can end: nothing is adopted, or there is a new framebuffer. -/
inductive ModeOutcome (c : ℕ) (last : Framebuffer) (words : ℕ → U32) (k k' : Kernel) :
    Framebuffer → Prop
  | same (hnone : words 1 = mboxResponseSuccess → ∀ p k₁,
        run (Kernel.perform c) (dmaAlloc 152#64) k = some (p, k₁) → p = 0)
      (hleaf : ∀ pg, ¬ InDmaWindow pg → k'.space.leaf pg = k.space.leaf pg) :
      ModeOutcome c last words k k' last
  | adopted (p : U64) (k₁ : Kernel) (s₂ s₃ : Space)
      (halloc : run (Kernel.perform c) (dmaAlloc 152#64) k = some (p, k₁)) (hp : p ≠ 0)
      (hok : words 1 = mboxResponseSuccess)
      (hbefore : ∀ pg, ¬ InDmaWindow pg → k₁.space.leaf pg = k.space.leaf pg)
      (hunmap : run (Kernel.perform c) (unmapLast last) k₁ = some ((), k₁.withSpace s₂))
      (hun : LastUnmapped last k₁.space s₂) (hmap : NewMapped (.ofWords words) s₂ s₃)
      (hafter : ∀ pg, ¬ InDmaWindow pg → k'.space.leaf pg = s₃.leaf pg) :
      ModeOutcome c last words k k' (.ofWords words)

/-- The parts of a call. -/
theorem setResolution_cases {width height : U32} {vc : VideoCore} (h : DmaHeld k held rest)
    (hrun : run (Kernel.perform c) (setResolution width height vc last) k = some (fb, k')) :
    ∃ p k₁, run (Kernel.perform c) (dmaAlloc 152#64) k = some (p, k₁) ∧
      ((vc (setResolutionRequest width height) 1 = mboxResponseSuccess → p = 0) ∧
          fb = last ∧ k' = k₁ ∨
        p ≠ 0 ∧ vc (setResolutionRequest width height) 1 = mboxResponseSuccess ∧
          DmaHeld k₁ ((p, 152#64) :: held) rest ∧
          fb = .ofWords (vc (setResolutionRequest width height)) ∧
          ∃ k₂ k₃ done, run (Kernel.perform c) (unmapLast last) k₁ = some ((), k₂) ∧
            run (Kernel.perform c) (map fb.addr fb.addr fb.alignedSize pteNormalNcRw) k₂ =
              some (done, k₃) ∧
            run (Kernel.perform c) (dmaFree p 152#64) k₃ = some ((), k')) := by
  obtain ⟨p, k₁, halloc, hrest⟩ := run_bind_eq_some (p := dmaAlloc 152#64) hrun
  refine ⟨p, k₁, halloc, ?_⟩
  by_cases hp : p = 0
  · rw [if_pos hp] at hrest
    obtain ⟨rfl, rfl⟩ := Prod.mk.inj (Option.some.inj hrest)
    exact Or.inl ⟨fun _ => hp, rfl, rfl⟩
  · obtain ⟨r, k₁', halloc', -, hheld⟩ := h.alloc 152#64 c
    rw [halloc, Option.some_inj, Prod.mk.injEq] at halloc'
    obtain ⟨rfl, rfl⟩ := halloc'
    -- the request has a buffer, and the answer decides the rest
    have hheld₁ := (hheld.resolve_left fun hnone => hp hnone.1).2
    rw [if_neg hp] at hrest
    obtain ⟨words, k₁', hsend, hrest⟩ := run_bind_eq_some hrest
    rw [run_sendCommand hheld₁, Option.some_inj, Prod.mk.injEq] at hsend
    obtain ⟨rfl, rfl⟩ := hsend
    by_cases hok : vc (setResolutionRequest width height) 1 = mboxResponseSuccess
    · rw [if_neg (not_not.mpr hok)] at hrest
      obtain ⟨new, k₃, hadopt, hrest⟩ := run_bind_eq_some hrest
      obtain ⟨⟨⟩, k₄, hfree, hrest⟩ := run_bind_eq_some hrest
      obtain ⟨rfl, rfl⟩ := Prod.mk.inj (Option.some.inj hrest)
      obtain ⟨⟨⟩, k₂, hunmap, hrest⟩ := run_bind_eq_some (p := unmapLast last) hadopt
      obtain ⟨done, k₃', hmap, hrest⟩ := run_bind_eq_some hrest
      obtain ⟨rfl, rfl⟩ := Prod.mk.inj (Option.some.inj hrest)
      exact Or.inr ⟨hp, hok, hheld₁, rfl, k₂, k₃', done, hunmap, hmap, hfree⟩
    · rw [if_pos hok] at hrest
      obtain ⟨rfl, rfl⟩ := Prod.mk.inj (Option.some.inj hrest)
      exact Or.inl ⟨fun hok' => absurd hok' hok, rfl, rfl⟩

theorem setResolution_outcome {width height : U32} {vc : VideoCore} (h : DmaHeld k held rest)
    (hplaced : ∀ e ∈ last :: earlier, e.Placed) (hsound : SpaceSound earlier last k.space)
    (hnew : vc (setResolutionRequest width height) 1 = mboxResponseSuccess →
      (Framebuffer.ofWords (vc (setResolutionRequest width height))).Placed)
    (hrun : run (Kernel.perform c) (setResolution width height vc last) k = some (fb, k')) :
    ModeOutcome c last (vc (setResolutionRequest width height)) k k' fb := by
  have hlast := hplaced last List.mem_cons_self
  obtain ⟨p, k₁, halloc, hcases⟩ := setResolution_cases h hrun
  have hleaf : ∀ pg, ¬ InDmaWindow pg → k₁.space.leaf pg = k.space.leaf pg :=
    fun pg hpg => h.alloc_leaf (show (dmaPageCount 152#64).toNat ≤ dmaPages by decide) halloc hpg
  rcases hcases with ⟨hnone, rfl, rfl⟩ | ⟨hp, hok, hheld, rfl, k₂, k₃, done, hunmap, hmap, hfree⟩
  · refine .same (fun hok p' k₁' halloc' => ?_) hleaf
    rw [halloc, Option.some_inj, Prod.mk.injEq] at halloc'
    rw [← halloc'.1]
    exact hnone hok
  · obtain ⟨hwf, -, hmmu, hpmm⟩ := hheld.idle
    have hmapped : ∀ pg, last.Covers pg → k₁.space.Mapped pg := fun pg hpg =>
      (hsound.of_window hplaced hleaf).mapped_of_covers hlast hpg
    -- the buffer is still there after the pages have been moved
    obtain ⟨k₃', hadopt, hheld₃, -⟩ :=
      run_adoptFramebuffer (c := c) hheld (Or.inr hlast.below) (hnew hok).below
    obtain ⟨⟨⟩, k₂', hunmap', hrest⟩ := run_bind_eq_some (p := unmapLast last) hadopt
    rw [hunmap, Option.some_inj, Prod.mk.injEq] at hunmap'
    obtain ⟨-, rfl⟩ := hunmap'
    obtain ⟨done', k₃'', hmap', hrest⟩ := run_bind_eq_some hrest
    rw [hmap, Option.some_inj, Prod.mk.injEq] at hmap'
    obtain ⟨-, rfl⟩ := hmap'
    obtain ⟨-, rfl⟩ := Prod.mk.inj (Option.some.inj hrest)
    obtain ⟨s₂, rfl, hun⟩ := (alone_unmapLast (c := c) hwf hmmu hpmm hlast hmapped).of_run hunmap
    obtain ⟨s₃, rfl, hmapNew⟩ :=
      (@alone_map_new (k₁.withSpace s₂) c s₂ _ hun.wf hmmu hpmm).of_run hmap
    exact .adopted p k₁ s₂ s₃ halloc hp hok hleaf hunmap hun hmapNew
      fun pg hpg => hheld₃.free_leaf List.mem_cons_self hfree hpg

/-! ### Runs -/

/-- The driver, with the framebuffers that it had before. -/
structure Modes extends Display where
  earlier : List Framebuffer

/-- A call of `set_resolution`, or what the rest of the kernel has done since the last one. -/
inductive ModeEvent
  | setResolution (width height : U32) (vc : VideoCore)
  | others (k : Kernel)

namespace Modes

/-- One event. -/
def step (c : ℕ) (m : Modes) : ModeEvent → Option Modes
  | .setResolution width height vc =>
    (m.toDisplay.call c (.setResolution width height vc)).map fun d => ⟨d, m.fb :: m.earlier⟩
  | .others k => some ⟨⟨k, m.fb⟩, m.earlier⟩

/-- The rest of the kernel leaves the DMA window alone, RAM and the framebuffers.  It may take
any frames, and map anything elsewhere. -/
structure LeftAlone (m : Modes) (k : Kernel) : Prop where
  dma : DmaUntouched m.kernel k
  leaf : ∀ pg, (InRam pg ∨ ∃ e ∈ m.fb :: m.earlier, e.Covers pg) →
    k.space.leaf pg = m.kernel.space.leaf pg

/-- What may happen: successes of VideoCore with a framebuffer on pages below the DMA window. -/
def Allows (m : Modes) : ModeEvent → Prop
  | .setResolution width height vc =>
    vc (setResolutionRequest width height) 1 = mboxResponseSuccess →
      (Framebuffer.ofWords (vc (setResolutionRequest width height))).Placed
  | .others k => m.LeftAlone k

/-- Where `set_resolution` comes to its `map`, the new framebuffer fits and can take the place
of the last one. -/
def Fitting (c : ℕ) (m : Modes) : ModeEvent → Prop
  | .setResolution width height vc =>
    let new := Framebuffer.ofWords (vc (setResolutionRequest width height))
    vc (setResolutionRequest width height) 1 = mboxResponseSuccess →
      ∀ p k₁ k₂, run (Kernel.perform c) (dmaAlloc 152#64) m.kernel = some (p, k₁) → p ≠ 0 →
        run (Kernel.perform c) (unmapLast m.fb) k₁ = some ((), k₂) →
          new.Fits k₂.space ∧ m.fb.Follows new
  | .others _ => True

/-- The address space is what the driver relies on. -/
def Sound (m : Modes) : Prop := SpaceSound m.earlier m.fb m.kernel.space

end Modes

/-- Between events. -/
structure ModesInv (m : Modes) : Prop where
  dma : ∃ held rest, DmaHeld m.kernel held rest
  placed : ∀ e ∈ m.fb :: m.earlier, e.Placed

variable {m m' : Modes} {e : ModeEvent}

theorem ModesInv.displayInv (h : ModesInv m) : DisplayInv m.toDisplay :=
  ⟨h.dma, Or.inr (h.placed m.fb List.mem_cons_self).below⟩

theorem run_setResolution_of_call {width height : U32} {vc : VideoCore} {d d' : Display}
    (h : d.call c (.setResolution width height vc) = some d') :
    run (Kernel.perform c) (setResolution width height vc d.fb) d.kernel =
      some (d'.fb, d'.kernel) := by
  obtain ⟨⟨fb, k'⟩, hrun, rfl⟩ := Option.map_eq_some_iff.mp h
  exact hrun

/-- Every event that may happen can, and leaves the buffers in order. -/
theorem ModesInv.step (h : ModesInv m) (hallow : m.Allows e) :
    ∃ m', m.step c e = some m' ∧ ModesInv m' := by
  cases e with
  | setResolution width height vc =>
    have hbelow : (DisplayCall.setResolution width height vc).ReportsBelowDma :=
      fun hok => (hallow hok).below
    obtain ⟨d', hcall, hd', -⟩ := h.displayInv.call (c := c) hbelow
    refine ⟨⟨d', m.fb :: m.earlier⟩, ?_, hd'.held, ?_⟩
    · rw [Modes.step, hcall]
      rfl
    · obtain ⟨held, rest, hheld⟩ := h.dma
      obtain ⟨_, _, -, hcases⟩ := setResolution_cases hheld (run_setResolution_of_call hcall)
      intro e he
      rcases List.mem_cons.mp he with rfl | he
      · show d'.fb.Placed
        rcases hcases with ⟨-, heq, -⟩ | ⟨-, hok, -, heq, -⟩
        · rw [heq]
          exact h.placed m.fb List.mem_cons_self
        · rw [heq]
          exact hallow hok
      · exact h.placed e he
  | others k =>
    obtain ⟨held, rest, hheld⟩ := h.dma
    obtain ⟨rest', hheld', -⟩ := hheld.others hallow.dma
    exact ⟨⟨⟨k, m.fb⟩, m.earlier⟩, rfl, ⟨held, rest', hheld'⟩, h.placed⟩

/-- One event keeps the address space sound if and only if it is fitting. -/
theorem ModesInv.sound_iff (h : ModesInv m) (hsound : m.Sound) (hallow : m.Allows e)
    (hstep : m.step c e = some m') : m'.Sound ↔ m.Fitting c e := by
  cases e with
  | setResolution width height vc =>
    obtain ⟨held, rest, hheld⟩ := h.dma
    obtain ⟨d', hcall, rfl⟩ := Option.map_eq_some_iff.mp hstep
    have hrun := run_setResolution_of_call hcall
    have hplaced' : ∀ e ∈ d'.fb :: m.fb :: m.earlier, e.Placed := by
      obtain ⟨m₁, hstep₁, hinv⟩ := h.step (c := c) hallow
      rw [hstep, Option.some_inj] at hstep₁
      rw [← hstep₁] at hinv
      exact hinv.placed
    have houtcome := setResolution_outcome hheld h.placed hsound hallow hrun
    show SpaceSound (m.fb :: m.earlier) d'.fb d'.kernel.space ↔ _
    generalize d'.fb = fb at houtcome hplaced'
    cases houtcome with
    | same hnone hleaf =>
      refine iff_of_true (hsound.of_window h.placed hleaf).again fun hok p k₁ k₂ halloc hp => ?_
      exact absurd (hnone hok p k₁ halloc) hp
    | adopted p k₁ s₂ s₃ halloc hp hok hbefore hunmap hun hmap hafter =>
      -- only what the adoption does to the old and the new buffer can break it
      have hadopt := spaceSound_adopt_iff (hsound.of_window h.placed hbefore)
        (h.placed m.fb List.mem_cons_self) (hallow hok) hun hmap
      constructor
      · intro hsound' _ p' k₁' k₂ halloc' _ hunmap'
        rw [halloc, Option.some_inj, Prod.mk.injEq] at halloc'
        obtain ⟨rfl, rfl⟩ := halloc'
        rw [hunmap, Option.some_inj, Prod.mk.injEq] at hunmap'
        obtain ⟨-, rfl⟩ := hunmap'
        exact hadopt.mp (hsound'.of_window hplaced' fun pg hpg => (hafter pg hpg).symm)
      · intro hfitting
        exact (hadopt.mpr (hfitting hok p k₁ _ halloc hp hunmap)).of_window hplaced' hafter
  | others k =>
    obtain rfl := Option.some_inj.mp hstep
    exact iff_of_true (hsound.congr (h.placed m.fb List.mem_cons_self) hallow.leaf) trivial

/-! ### After `mmu_init` -/

/-- The driver before the first framebuffer. -/
def Modes.start (k : Kernel) : Modes := ⟨⟨k, .unset⟩, []⟩

theorem placed_unset : Framebuffer.unset.Placed := ⟨rfl, show 0 + 0 ≤ _ by omega⟩

/-- The DMA window is no part of the identity map. -/
theorem leaf_dmaPage (h : Maps identityCover s) {q : ℕ} (hq : q < dmaPages) :
    s.leaf (dmaPage q) = 0 := by
  have hbase : dmaBase.toNat = 0x140000000 := rfl
  rw [dmaPages] at hq
  have hnum : (dmaPage q).num = 0x140000 + q := by
    rw [dmaPage, num_pageAt, hbase]
    omega
  rw [h, hnum, identityCover, if_neg (by omega), if_neg (by omega)]
  rfl

variable {spare : ℕ} {ram : U64 → Fin 512 → U64} {daif : ℕ → U64}

theorem AfterMmuInit.dmaHeld (h : AfterMmuInit spare (Kernel.reset ram daif) k) :
    DmaHeld k [] k.space.Data := by
  have hlock : k.lock .dmaLock = none := h.locks .dmaLock (by decide) (by decide)
  have hbump : k.var .dmaBumpPtr = dmaBase := by
    rw [h.vars]
    rfl
  exact DmaHeld.of_unused (DmaInv.of_unused h.identity.wf rfl (fun _ => hlock) (fun _ => h.mmuFree)
    (fun _ => h.pmmFree) hbump fun q hq => leaf_dmaPage h.identity.maps hq) rfl

theorem AfterMmuInit.modesInv (h : AfterMmuInit spare (Kernel.reset ram daif) k) :
    ModesInv (.start k) := by
  refine ⟨⟨_, _, h.dmaHeld⟩, fun e he => ?_⟩
  rw [List.mem_singleton.mp he]
  exact placed_unset

theorem AfterMmuInit.sound (h : AfterMmuInit spare (Kernel.reset ram daif) k) :
    (Modes.start k).Sound := by
  refine ⟨fun off hoff => absurd hoff (Nat.not_lt_zero off), fun e he => absurd he List.not_mem_nil,
    fun a ha => ?_⟩
  have hlt := ha.lt
  exact h.identity.maps.translation_of_some (by omega) (identityCover_of_isRam ha) (by decide)

/-- **Changes of resolution after `mmu_init` keep the address space sound if and only if each
of them is fitting.** -/
theorem modes_sound_iff (image : Pmm.KernelImage) (hal : image.kernelEnd.toNat % 4096 = 0)
    (hlow : 0x80000 ≤ image.kernelEnd.toNat)
    (hframes : 520 ≤ (Pmm.pmmInit image.kernelEnd).totalFrames.toNat)
    (hboot : mmuInit c image.kernelEnd (Kernel.reset ram daif) = some k) (es : List ModeEvent)
    (hallow : Machine.Permits (Modes.step c) Modes.Allows es (.start k)) :
    (∃ m', Machine.runEvents (Modes.step c) es (.start k) = some m') ∧
      (Machine.Along (Modes.step c) (fun _ _ m' => m'.Sound) es (.start k) ↔
        Machine.Permits (Modes.step c) (Modes.Fitting c) es (.start k)) := by
  obtain ⟨k', hrun, hafter⟩ := @mmuInit_identity 0 image c (Kernel.reset ram daif) hal hlow hframes
  rw [hboot, Option.some_inj] at hrun
  rw [← hrun] at hafter
  have hstep : ∀ m e, ModesInv m → m.Allows e → ∃ m', m.step c e = some m' ∧ ModesInv m' :=
    fun m e hm he => hm.step he
  refine ⟨Machine.exists_runEvents hstep hafter.modesInv hallow, ?_⟩
  exact Machine.along_iff_permits hstep
    (fun m e m' hm hsound he hstep => hm.sound_iff hsound he hstep)
    (fun _ _ _ _ _ _ _ hsound => hsound) hafter.modesInv hafter.sound hallow

/-! ### Changes that are planned for -/

/-- VideoCore answers with the framebuffer `fb`. -/
def answering (fb : Framebuffer) : VideoCore := fun _ i =>
  match i with
  | 1 => mboxResponseSuccess
  | 17 => fb.width
  | 18 => fb.height
  | 31 => fb.base
  | 32 => fb.size
  | 36 => fb.pitch
  | _ => 0

/-- The first `top` pages of the window are gone, and there are frames for the tables at `Q` and
`r` pages more. -/
structure Planned (Q : Finset (List (Fin 512))) (top r : ℕ) (k : Kernel) : Prop where
  wf : k.space.WF
  mmuFree : k.Free .mmuLock
  pmmFree : k.Free .pmmLock
  bump : k.var .dmaBumpPtr = dmaAt top
  budget : Budget k.space Q r

/-- The plan has the tables of the window's next page. -/
structure Provides (Q : Finset (List (Fin 512))) (top : ℕ) : Prop where
  depth : ∀ q ∈ Q, q.length ≤ 2
  room : top < dmaPages
  window : (dmaPage top).l2Path ∈ Q ∧ (dmaPage top).l3Path ∈ Q

variable {Q : Finset (List (Fin 512))} {top r : ℕ}

/-- The plan has the tables of the framebuffer. -/
def Framebuffer.PlannedIn (fb : Framebuffer) (Q : Finset (List (Fin 512))) : Prop :=
  ∀ i < numPages fb.alignedSize, (pageAt fb.addr i).l2Path ∈ Q ∧ (pageAt fb.addr i).l3Path ∈ Q

/-- A framebuffer of one page. -/
theorem Framebuffer.PlannedIn.of_page (hpage : (fb.size.toNat + 4095) / 4096 = 1)
    (hQ : (pageAt fb.addr 0).l2Path ∈ Q ∧ (pageAt fb.addr 0).l3Path ∈ Q) : fb.PlannedIn Q := by
  intro i hi
  rw [numPages_alignedSize, hpage] at hi
  obtain rfl := Nat.lt_one_iff.mp hi
  exact hQ

namespace Planned

/-- A request gets its buffer, and what is planned besides is still there. -/
theorem alloc (h : Planned Q top (r + 1) k) (hQ : Provides Q top) (hheld : DmaHeld k held rest) :
    ∃ k₁, run (Kernel.perform c) (dmaAlloc 152#64) k = some (dmaAt top, k₁) ∧ dmaAt top ≠ 0 ∧
      Planned Q (top + 1) r k₁ := by
  have hpages : dmaPageCount 152#64 = 1 := by decide
  obtain ⟨k₁, hrun, hbump, hbudget⟩ :=
    hheld.alloc_budget (c := c) h.bump hQ.room hpages h.budget hQ.depth hQ.window
  have hne : dmaAt top ≠ 0 := by
    intro hzero
    have hroom := hQ.room
    have hnat : (dmaAt top).toNat = 0 := congrArg BitVec.toNat hzero
    rw [toNat_dmaAt (by omega)] at hnat
    omega
  obtain ⟨p, k₁', hrun', -, hheld₁⟩ := hheld.alloc 152#64 c
  rw [hrun, Option.some_inj, Prod.mk.injEq] at hrun'
  obtain ⟨rfl, rfl⟩ := hrun'
  obtain ⟨hwf, -, hmmu, hpmm⟩ := (hheld₁.resolve_left fun hnone => hne hnone.1).2.idle
  exact ⟨k₁, hrun, hne, hwf, hmmu, hpmm, hbump, hbudget⟩

theorem unmapLast (h : Planned Q top r k) (hdepth : ∀ q ∈ Q, q.length ≤ 2)
    (hrun : run (Kernel.perform c) (unmapLast last) k = some ((), k')) : Planned Q top r k' := by
  have halone : Alone c k (GamingConsole.unmapLast last) k.space fun _ s' =>
      s'.WF ∧ Budget s' Q r := by
    rw [GamingConsole.unmapLast]
    split
    · exact alone_unmap_budget h.wf h.mmuFree h.pmmFree h.budget hdepth
    · exact Alone.pure ⟨h.wf, h.budget⟩
  obtain ⟨s', rfl, hwf, hbudget⟩ := halone.of_run hrun
  exact ⟨hwf, h.mmuFree, h.pmmFree, h.bump, hbudget⟩

theorem map {done : Bool} (h : Planned Q top r k) (hdepth : ∀ q ∈ Q, q.length ≤ 2)
    (hnew : new.PlannedIn Q) (hrun : run (Kernel.perform c)
      (map new.addr new.addr new.alignedSize pteNormalNcRw) k = some (done, k')) :
    Planned Q top r k' := by
  obtain ⟨s', rfl, hs'⟩ := ((alone_map h.wf h.mmuFree h.pmmFree).and
    (alone_map_budget h.wf h.mmuFree h.pmmFree h.budget hdepth hnew)).of_run hrun
  exact ⟨hs'.1.1, h.mmuFree, h.pmmFree, h.bump, hs'.2.2⟩

/-- A change of resolution that is planned for is made, and is fitting. -/
theorem setResolution {width height : U32} {vc : VideoCore}
    (h : Planned Q top (r + 1) m.kernel) (hQ : Provides Q top) (hinv : ModesInv m)
    (hinv' : ModesInv m') (hstep : m.step c (.setResolution width height vc) = some m')
    (hok : vc (setResolutionRequest width height) 1 = mboxResponseSuccess)
    (hnew : Framebuffer.PlannedIn (.ofWords (vc (setResolutionRequest width height))) Q)
    (hfollows : m.fb.Follows (.ofWords (vc (setResolutionRequest width height)))) :
    m.Fitting c (.setResolution width height vc) ∧
      m'.fb = .ofWords (vc (setResolutionRequest width height)) ∧
      Planned Q (top + 1) r m'.kernel := by
  obtain ⟨held, rest, hheld⟩ := hinv.dma
  obtain ⟨d', hcall, rfl⟩ := Option.map_eq_some_iff.mp hstep
  obtain ⟨k₁, halloc, hne, hplan₁⟩ := h.alloc (c := c) hQ hheld
  obtain ⟨p, k₁', halloc', hcases⟩ := setResolution_cases hheld (run_setResolution_of_call hcall)
  rw [halloc, Option.some_inj, Prod.mk.injEq] at halloc'
  obtain ⟨rfl, rfl⟩ := halloc'
  rcases hcases with ⟨hnone, -⟩ | ⟨-, -, hheld₁, hfb, k₂, k₃, done, hunmap, hmap, hfree⟩
  · exact absurd (hnone hok) hne
  · have hplan₂ := hplan₁.unmapLast hQ.depth hunmap
    refine ⟨fun _ p k₁' k₂' halloc' _ hunmap' => ⟨?_, hfollows⟩, hfb, ?_⟩
    · rw [halloc, Option.some_inj, Prod.mk.injEq] at halloc'
      obtain ⟨rfl, rfl⟩ := halloc'
      rw [hunmap, Option.some_inj, Prod.mk.injEq] at hunmap'
      obtain ⟨-, rfl⟩ := hunmap'
      exact hplan₂.budget.newTables_le hnew
    · -- neither `map` nor `dma_free` takes a frame that is planned for
      rw [hfb] at hmap
      have hplan₃ := hplan₂.map hQ.depth hnew hmap
      obtain ⟨s', hk', hbudget⟩ := (alone_dmaFree_budget hplan₃.wf hplan₃.mmuFree hplan₃.pmmFree
        hplan₃.budget hQ.depth).of_run hfree
      obtain ⟨held', rest', hheld'⟩ := hinv'.dma
      obtain ⟨hwf, -, hmmu, hpmm⟩ := hheld'.idle
      refine ⟨hwf, hmmu, hpmm, ?_, ?_⟩
      · show d'.kernel.var .dmaBumpPtr = _
        rw [hk']
        exact hplan₃.bump
      · show Budget d'.kernel.space Q r
        rw [hk']
        exact hbudget

end Planned

/-- After `mmu_init` the window is empty, and what it has not needed is there. -/
theorem AfterMmuInit.planned (h : AfterMmuInit spare (Kernel.reset ram daif) k)
    (hspare : Q.card + r ≤ spare) : Planned Q 0 r k := by
  have hbump : k.var .dmaBumpPtr = dmaAt 0 := by
    rw [h.vars]
    rfl
  have hfree : spare ≤ k.space.pmm.freeCount := (Nat.le_add_left _ _).trans h.spare
  exact ⟨h.identity.wf, fun _ => h.mmuFree, fun _ => h.pmmFree, hbump,
    .of_card (hspare.trans hfree)⟩

/-- Nothing has to be unmapped before the first framebuffer. -/
theorem unset_follows : Framebuffer.unset.Follows new := by
  refine ⟨fun hbase => absurd rfl hbase, fun _ pg _ hcover => ?_⟩
  rw [placed_unset.covers_iff] at hcover
  change 0 ≤ pg.num ∧ pg.num < 0 + 0 at hcover
  omega

/-- A mode of a single cell, in the page behind RAM. -/
def cellMode : Framebuffer :=
  { base := 0x3F800000, size := 256, pitch := 32, width := 8, height := 8 }

theorem cellMode_placed : cellMode.Placed := .of_size (by decide) (by decide)

/-- A larger mode on the page after it. -/
def nextMode : Framebuffer :=
  { base := 0x3F801000, size := 1024, pitch := 64, width := 16, height := 16 }

theorem nextMode_placed : nextMode.Placed := .of_size (by decide) (by decide)

/-- The tables of the window's first pages, and those of the two modes. -/
def modePaths : Finset (List (Fin 512)) :=
  {(dmaPage 0).l2Path, (dmaPage 0).l3Path, (pageOf cellMode.addr).l2Path,
    (pageOf cellMode.addr).l3Path}

theorem cellMode_planned : cellMode.PlannedIn modePaths := .of_page (by decide) (by decide)

theorem nextMode_planned : nextMode.PlannedIn modePaths := .of_page (by decide) (by decide)

theorem cellMode_follows : cellMode.Follows new := by
  refine ⟨fun _ pg hram hcover => ?_, fun hbase => absurd hbase (by decide)⟩
  rw [cellMode_placed.covers_iff] at hcover
  rw [InRam] at hram
  have hfirst : cellMode.base.toNat / 4096 = 0x3F800 := rfl
  omega

/-- The mode is set and then changed. -/
theorem modes_sound_nextMode : ∃ k m',
    mmuInit 0 0x100000#64 (Kernel.reset (fun _ _ => 0) fun _ => 0) = some k ∧
      Machine.runEvents (Modes.step 0) [.setResolution 8 8 (answering cellMode),
        .setResolution 16 16 (answering nextMode)] (.start k) = some m' ∧
      m'.fb = nextMode ∧
      Machine.Along (Modes.step 0) (fun _ _ m' => m'.Sound)
        [.setResolution 8 8 (answering cellMode), .setResolution 16 16 (answering nextMode)]
        (.start k) := by
  obtain ⟨k, hboot, hafter⟩ := @mmuInit_identity 6 ⟨0x100000#64, by decide⟩ 0
    (Kernel.reset (fun _ _ => 0) fun _ => 0) (by decide) (by decide) (by decide)
  have hinv := hafter.modesInv
  have hplan : Planned modePaths 0 2 k := hafter.planned (by decide)
  have hfirst : ∀ m : Modes, m.Allows (.setResolution 8 8 (answering cellMode)) :=
    fun _ _ => cellMode_placed
  have hsecond : ∀ m : Modes, m.Allows (.setResolution 16 16 (answering nextMode)) :=
    fun _ _ => nextMode_placed
  obtain ⟨m₁, hstep₁, hinv₁⟩ := hinv.step (c := 0) (hfirst _)
  obtain ⟨m₂, hstep₂, hinv₂⟩ := hinv₁.step (c := 0) (hsecond _)
  obtain ⟨hfit₁, hfb₁, hplan₁⟩ := hplan.setResolution (m := .start k)
    ⟨by decide, by decide, by decide⟩ hinv hinv₁ hstep₁ rfl cellMode_planned unset_follows
  obtain ⟨hfit₂, hfb₂, -⟩ := hplan₁.setResolution ⟨by decide, by decide, by decide⟩ hinv₁ hinv₂
    hstep₂ rfl nextMode_planned (hfb₁ ▸ cellMode_follows)
  refine ⟨k, m₂, hboot, ?_, hfb₂, (modes_sound_iff ⟨0x100000#64, by decide⟩ (by decide) (by decide)
    (by decide) hboot _ ?_).2.mpr ?_⟩
  · rw [Machine.runEvents_cons hstep₁, Machine.runEvents_cons hstep₂]
    rfl
  · exact ⟨hfirst _, fun _ _ => ⟨hsecond _, fun _ _ => trivial⟩⟩
  · refine ⟨hfit₁, fun m hm => ?_⟩
    rw [hstep₁, Option.some_inj] at hm
    rw [← hm]
    exact ⟨hfit₂, fun _ _ => trivial⟩

/-- A mode with 1.25 GiB of pixels. -/
def hugeMode : Framebuffer :=
  { base := 0x40000000, size := 0x50000000, pitch := 0x10000, width := 0x4000, height := 0x5000 }

theorem hugeMode_placed : hugeMode.Placed := .of_size (by decide) (by decide)

/-- It takes 640 L3 tables. -/
theorem le_totalFrames_of_hugeMode (h : s.WF) (hmapped : ∀ pg, hugeMode.Covers pg → s.Mapped pg) :
    640 ≤ s.pmm.totalFrames.toNat := by
  have hnum : ∀ i < 640, (pageAt 0#64 (0x40000 + 512 * i)).num = 0x40000 + 512 * i := by
    intro i hi
    rw [num_pageAt]
    show (0 + _) % 2 ^ 27 = _
    omega
  refine le_totalFrames_of_mapped h (fun i => pageAt 0#64 (0x40000 + 512 * i))
    (fun i hi j hj hpath => ?_) fun i hi => hmapped _ ?_
  · have hi' := hnum i hi
    have hj' := hnum j hj
    injection hpath with h2 h1
    injection h1 with h1 _
    have hlow := (pageAt 0#64 (0x40000 + 512 * i)).l3.isLt
    have hlow' := (pageAt 0#64 (0x40000 + 512 * j)).l3.isLt
    rw [Page.num, h2, h1] at hi'
    rw [Page.num] at hj'
    omega
  · rw [hugeMode_placed.covers_iff, hnum i hi]
    change 0x40000 ≤ _ ∧ _ < 0x40000 + 0x50000
    omega

/-- **Where the frames run out, the driver takes a framebuffer whose pages are not mapped.** -/
theorem frames_run_out : ¬ ∀ (image : Pmm.KernelImage) (k : Kernel) (es : List ModeEvent),
    image.kernelEnd.toNat % 4096 = 0 → 0x80000 ≤ image.kernelEnd.toNat →
    520 ≤ (Pmm.pmmInit image.kernelEnd).totalFrames.toNat →
    mmuInit 0 image.kernelEnd (Kernel.reset (fun _ _ => 0) fun _ => 0) = some k →
    Machine.Permits (Modes.step 0) Modes.Allows es (.start k) →
    Machine.Along (Modes.step 0) (fun _ _ m' => m'.Sound) es (.start k) := by
  intro hall
  let image : Pmm.KernelImage := ⟨0x3F5A7000#64, by decide⟩
  have htotal : (Pmm.pmmInit image.kernelEnd).totalFrames.toNat = 600 := by decide
  obtain ⟨k, hboot, hafter⟩ := @mmuInit_identity 3 image 0
    (Kernel.reset (fun _ _ => 0) fun _ => 0) (by decide) (by decide) (by rw [htotal]; decide)
  have hallow : (Modes.start k).Allows (.setResolution 0 0 (answering hugeMode)) :=
    fun _ => hugeMode_placed
  obtain ⟨m', hstep, -⟩ := hafter.modesInv.step (c := 0) hallow
  have hsound := (hall image k [.setResolution 0 0 (answering hugeMode)] (by decide) (by decide)
    (by rw [htotal]; decide) hboot ⟨hallow, fun _ _ => trivial⟩ m' hstep).1
  have hfitting := (hafter.modesInv.sound_iff hafter.sound hallow hstep).mp hsound
  -- the call has got its buffer, so `map` had all the frames that it needs
  have hplan : Planned {[5], [0, 5]} 0 1 k := hafter.planned (by decide)
  obtain ⟨k₁, halloc, -⟩ := hplan.alloc (c := 0) ⟨by decide, by decide, by decide⟩ hafter.dmaHeld
  have hfits : hugeMode.Fits k₁.space := (hfitting rfl _ k₁ k₁ halloc (by decide) rfl).1
  obtain ⟨r, k₁', halloc', -, hheld⟩ := hafter.dmaHeld.alloc 152#64 0
  rw [halloc, Option.some_inj, Prod.mk.injEq] at halloc'
  obtain ⟨rfl, rfl⟩ := halloc'
  obtain ⟨hwf, -, hmmu, hpmm⟩ := (hheld.resolve_left fun h => absurd h.1 (by decide)).2.idle
  obtain ⟨done, s₃, hmap, hnew⟩ := (@alone_map_new k₁ 0 k₁.space hugeMode hwf hmmu hpmm).run_eq
  have hframes := le_totalFrames_of_hugeMode (hnew.maps hfits).wf fun pg hpg =>
    hnew.mapped hugeMode_placed hfits hpg
  have hsame : s₃.pmm.totalFrames = (Pmm.pmmInit image.kernelEnd).totalFrames :=
    (run_totalFrames hmap).trans ((run_totalFrames halloc).trans (mmuInit_totalFrames hboot))
  rw [hsame, htotal] at hframes
  omega

end GamingConsole
