/-
The display driver (`display.cpp`).

A request lies in a DMA buffer of its own: it is allocated, handed to VideoCore, read back
and freed again (`withBuffer`).  What VideoCore answers is a parameter.  The buffer is not
freed where the answer is not a success, which is where the calls lose it.

`set_resolution` moves a mapping in between, from the pages of the last framebuffer to those
of the new one; while both lie below the DMA window, it touches no buffer.

* `DmaHeld.kept` — what only changes tables and pages outside of the window;
* **`display_balanced_iff`** — in any run of calls, the buffers are after each call what they
  were before it if and only if VideoCore answers every request that gets a buffer with a
  success.
-/
import GamingConsole.DmaAlone
import GamingConsole.Library.Along
import GamingConsole.MapRuns
import GamingConsole.Render

namespace GamingConsole

open Prog Space

/-! ### Requests -/

/-- `MBOX_RESPONSE_SUCCESS`. -/
def mboxResponseSuccess : U32 := 0x80000000

/-- `MBOX_TAG_LAST`. -/
def mboxTagLast : U32 := 0

/-- What VideoCore makes of the words of a request. -/
abbrev VideoCore : Type := List U32 → ℕ → U32

/-- `_send_command`.  The address that goes to the mailbox is the physical one; the answer
is in the same words. -/
def Display.sendCommand (vc : VideoCore) (words : U64) (request : List U32) : KProg (ℕ → U32) := do
  let _ ← translate words
  pure (vc request)

/-- The frame of the three functions below: `body` is what they do with a success, `failed`
what is left where they return early. -/
def withBuffer {α : Type} (vc : VideoCore) (size : U64) (request : List U32) (failed : α)
    (body : (ℕ → U32) → KProg α) : KProg α := do
  let buf ← dmaAlloc size
  if buf = 0 then pure failed
  else do
    let words ← Display.sendCommand vc buf request
    -- no `dma_free` on this way out
    if words 1 ≠ mboxResponseSuccess then pure failed
    else do
      let r ← body words
      dmaFree buf size
      pure r

/-- The request of `display_init`. -/
def displayInitRequest : List U32 := [28, 0, 0x00000001, 4, 0, 0, mboxTagLast]

/-- `display_init`. -/
def displayInit (vc : VideoCore) : KProg Unit :=
  withBuffer vc 32#64 displayInitRequest () fun _ => pure ()

/-- The request of `get_resolution`. -/
def getResolutionRequest : List U32 := [32, 0, 0x00040003, 8, 0, 0, 0, mboxTagLast]

/-- `get_resolution`. -/
def getResolution (vc : VideoCore) : KProg Unit :=
  withBuffer vc 32#64 getResolutionRequest () fun _ => pure ()

/-- The request of `set_resolution`. -/
def setResolutionRequest (width height : U32) : List U32 :=
  [152, 0,
    0x00048001, 0, 0,
    0x00048003, 8, 8, width, height,
    0x00048005, 4, 4, 32,
    0x00048004, 8, 8, width, height,
    0x00048006, 4, 4, 1,
    0x00048009, 8, 8, 0, 0,
    0x00040001, 8, 4, 4096, 0,
    0x00040008, 4, 0, 0,
    mboxTagLast]

/-- The framebuffer that the answer describes. -/
def Framebuffer.ofWords (words : ℕ → U32) : Framebuffer where
  base := words 31
  size := words 32
  pitch := words 36
  width := words 17
  height := words 18

/-- `framebuffer_base`, as an address. -/
def Framebuffer.addr (fb : Framebuffer) : U64 := fb.base.setWidth 64

/-- `fb_aligned_size`: the bytes of the framebuffer's pages. -/
def Framebuffer.alignedSize (fb : Framebuffer) : U64 :=
  (fb.size.setWidth 64 + pageSize - 1#64) / pageSize * pageSize

/-- The first framebuffer has none before it. -/
def unmapLast (fb : Framebuffer) : KProg Unit :=
  if fb.base ≠ 0 then unmap fb.addr fb.alignedSize else pure ()

/-- What `set_resolution` does with the answer: the last framebuffer's pages are unmapped and
the new one's mapped, whatever `map` says. -/
def adoptFramebuffer (fb : Framebuffer) (words : ℕ → U32) : KProg Framebuffer := do
  unmapLast fb
  let new := Framebuffer.ofWords words
  let _ ← map new.addr new.addr new.alignedSize pteNormalNcRw
  pure new

/-- `set_resolution`, with the globals `framebuffer_base` to `framebuffer_height` before and
after. -/
def setResolution (width height : U32) (vc : VideoCore) (fb : Framebuffer) : KProg Framebuffer :=
  withBuffer vc 152#64 (setResolutionRequest width height) fb (adoptFramebuffer fb)

/-! ### Runs -/

/-- A call of the driver, with VideoCore's answer to it. -/
inductive DisplayCall
  | displayInit (vc : VideoCore)
  | getResolution (vc : VideoCore)
  | setResolution (width height : U32) (vc : VideoCore)

/-- The kernel and the globals of the driver. -/
structure Display where
  kernel : Kernel
  fb : Framebuffer

/-- The globals before the first framebuffer. -/
def Framebuffer.unset : Framebuffer := { base := 0, size := 0, pitch := 0, width := 0, height := 0 }

namespace Display

/-- One call, on core `c`. -/
def call (c : ℕ) (d : Display) : DisplayCall → Option Display
  | .displayInit vc =>
    (run (Kernel.perform c) (GamingConsole.displayInit vc) d.kernel).map fun r => ⟨r.2, d.fb⟩
  | .getResolution vc =>
    (run (Kernel.perform c) (GamingConsole.getResolution vc) d.kernel).map fun r => ⟨r.2, d.fb⟩
  | .setResolution width height vc =>
    (run (Kernel.perform c) (GamingConsole.setResolution width height vc d.fb) d.kernel).map
      fun r => ⟨r.2, r.1⟩

/-- Calls one after the other. -/
def runCalls (c : ℕ) (calls : List DisplayCall) (d : Display) : Option Display :=
  Machine.runEvents (call c) calls d

end Display

namespace DisplayCall

/-- The bytes that the call asks `dma_alloc` for. -/
def size : DisplayCall → U64
  | .displayInit _ | .getResolution _ => 32#64
  | .setResolution _ _ _ => 152#64

/-- The words of VideoCore's answer. -/
def words : DisplayCall → ℕ → U32
  | .displayInit vc => vc displayInitRequest
  | .getResolution vc => vc getResolutionRequest
  | .setResolution width height vc => vc (setResolutionRequest width height)

/-- VideoCore has processed the request. -/
def Succeeds (call : DisplayCall) : Prop := call.words 1 = mboxResponseSuccess

end DisplayCall

variable {k k' : Kernel} {c : ℕ} {held : List (U64 × U64)} {rest : U64 → Prop} {s s' : Space}
  {R : Page → Prop} {fb : Framebuffer} {words : ℕ → U32} {d d' : Display}

/-! ### The mapping of the framebuffer -/

/-- The pages of the framebuffer are below those of the DMA window. -/
def Framebuffer.BelowDma (fb : Framebuffer) : Prop :=
  fb.base.toNat / 4096 + numPages fb.alignedSize ≤ 0x140000

/-- The blocks have the frames they had. -/
def FramesKept (held : List (U64 × U64)) (k k' : Kernel) : Prop :=
  ∀ block ∈ held, ∀ f, BlockFrame k'.space block f ↔ BlockFrame k.space block f

theorem FramesKept.trans {k₁ : Kernel} (h : FramesKept held k k₁) (h' : FramesKept held k₁ k') :
    FramesKept held k k' := fun block hmem f => (h' block hmem f).trans (h block hmem f)

/-- What changes tables and pages outside of the DMA window leaves its buffers alone. -/
theorem DmaHeld.kept (h : DmaHeld k held rest) (hkept : Kept R k.space s')
    (hR : ∀ pg, InDmaWindow pg → ¬ R pg) :
    DmaHeld (k.withSpace s') held rest ∧ FramesKept held k (k.withSpace s') := by
  have huntouched : DmaUntouched k (k.withSpace s') := by
    obtain ⟨w, rfl, -, hw⟩ := h
    exact ⟨Kept.elsewhere hkept hR, rfl, hw.inv.dmaFree, hw.inv.mmuFree, hw.inv.pmmFree⟩
  obtain ⟨rest', hheld', hframes⟩ := h.others huntouched
  -- the data frames are the same, and so are the blocks': nobody else's have changed
  have hrest : rest' = rest := by
    funext f
    refine propext ⟨fun hf => ?_, fun hf => ?_⟩
    · have hdata := (hkept.data f).mp (hheld'.data_iff.mpr (Or.inl hf))
      rcases h.data_iff.mp hdata with hrest | ⟨block, hmem, hblock⟩
      · exact hrest
      · exact absurd hf (hheld'.not_rest hmem ((hframes block hmem f).mpr hblock))
    · have hdata := (hkept.data f).mpr (h.data_iff.mpr (Or.inl hf))
      rcases hheld'.data_iff.mp hdata with hrest | ⟨block, hmem, hblock⟩
      · exact hrest
      · exact absurd hf (h.not_rest hmem ((hframes block hmem f).mp hblock))
  rw [← hrest]
  exact ⟨hheld', hframes⟩

theorem Framebuffer.BelowDma.apart (h : fb.BelowDma) {pg : Page} (hpg : InDmaWindow pg) :
    ¬ InRange fb.addr fb.alignedSize pg := by
  rintro ⟨i, hi, rfl⟩
  obtain ⟨q, hq, heq⟩ := hpg
  have hnum := congrArg Page.num heq
  have haddr : fb.addr.toNat = fb.base.toNat := BitVec.toNat_setWidth_of_le (by decide)
  have hbase : dmaBase.toNat = 0x140000000 := rfl
  rw [Framebuffer.BelowDma] at h
  rw [dmaPages] at hq
  rw [dmaPage, num_pageAt, num_pageAt, haddr, hbase] at hnum
  omega

/-- The pages that `set_resolution` may change. -/
def MovedPages (fb : Framebuffer) (words : ℕ → U32) (pg : Page) : Prop :=
  fb.base ≠ 0 ∧ InRange fb.addr fb.alignedSize pg ∨
    InRange (Framebuffer.ofWords words).addr (Framebuffer.ofWords words).alignedSize pg

theorem alone_adoptFramebuffer (h : s.WF) (hmmu : k.Free .mmuLock) (hpmm : k.Free .pmmLock) :
    Alone c k (adoptFramebuffer fb words) s fun r s' =>
      r = Framebuffer.ofWords words ∧ Kept (MovedPages fb words) s s' := by
  have hunmap : Alone c k (unmapLast fb) s fun _ s' => Kept (MovedPages fb words) s s' := by
    rw [unmapLast]
    split
    · rename_i hbase
      refine Alone.mono (alone_unmap_inside h hmmu hpmm) fun _ s' hs' => ?_
      exact hs'.mono fun pg hpg => Or.inl ⟨hbase, hpg⟩
    · exact Alone.pure (.refl h)
  refine Alone.bind hunmap fun _ s₁ h₁ => ?_
  refine Alone.bind (alone_map_inside h₁.wf hmmu hpmm) fun _ s₂ h₂ => Alone.pure ⟨rfl, ?_⟩
  exact h₁.trans (h₂.mono fun pg hpg => Or.inr hpg)

/-! ### The buffer of a request -/

/-- How a request can end: it has got no buffer, it has kept it, or it has given it back. -/
inductive BufferOutcome (c : ℕ) (size : U64) (succeeds : Prop) (held : List (U64 × U64))
    (rest : U64 → Prop) (k k' : Kernel) : Prop
  | none (halloc : run (Kernel.perform c) (dmaAlloc size) k = some (0, k'))
      (hheld : DmaHeld k' held rest) (hframes : FramesKept held k k')
  | kept (p : U64) (halloc : run (Kernel.perform c) (dmaAlloc size) k = some (p, k')) (hp : p ≠ 0)
      (hfailed : ¬ succeeds) (hheld : DmaHeld k' ((p, size) :: held) rest)
  | freed (p : U64) (k₁ : Kernel)
      (halloc : run (Kernel.perform c) (dmaAlloc size) k = some (p, k₁)) (hp : p ≠ 0)
      (hok : succeeds) (hheld : DmaHeld k' held rest) (hframes : FramesKept held k k')

theorem run_sendCommand {vc : VideoCore} {p : U64} {request : List U32} (h : DmaHeld k held rest) :
    run (Kernel.perform c) (Display.sendCommand vc p request) k = some (vc request, k) := by
  obtain ⟨w, rfl, -, hw⟩ := h
  exact run_bind_of_run (run_translate hw.inv.memory.wf hw.inv.mmuFree p)

/-- The frame of a request, around a body that leaves the buffers alone. -/
theorem run_withBuffer {α : Type} (vc : VideoCore) (size : U64) (request : List U32) (failed : α)
    (body : (ℕ → U32) → KProg α) (Q : α → Prop) (h : DmaHeld k held rest)
    (hbody : vc request 1 = mboxResponseSuccess → ∀ (k₁ : Kernel) (blocks : List (U64 × U64)),
      DmaHeld k₁ blocks rest →
      ∃ r k₂, run (Kernel.perform c) (body (vc request)) k₁ = some (r, k₂) ∧
        DmaHeld k₂ blocks rest ∧ FramesKept blocks k₁ k₂ ∧ Q r) (hfailed : Q failed) :
    ∃ r k', run (Kernel.perform c) (withBuffer vc size request failed body) k = some (r, k') ∧
      BufferOutcome c size (vc request 1 = mboxResponseSuccess) held rest k k' ∧ Q r := by
  obtain ⟨p, k₁, halloc, hframes₁, hheld⟩ := h.alloc size c
  rcases hheld with ⟨rfl, hheld⟩ | ⟨hp, hheld⟩
  · refine ⟨failed, k₁, ?_, .none halloc hheld hframes₁, hfailed⟩
    exact run_bind_of_run halloc
  · have hsend : run (Kernel.perform c) (Display.sendCommand vc p request) k₁ =
        some (vc request, k₁) := run_sendCommand hheld
    by_cases hok : vc request 1 = mboxResponseSuccess
    · obtain ⟨r, k₂, hrun, hheld₂, hframes₂, hQ⟩ := hbody hok k₁ _ hheld
      obtain ⟨k₃, hfree, hheld₃, hgone⟩ := @DmaHeld.free k₂ [] held rest p size hheld₂ c
      -- the request's own buffer is one of the blocks, and goes last
      have hframes₂' : FramesKept held k₁ k₂ :=
        fun block hmem => hframes₂ block (List.mem_cons_of_mem _ hmem)
      have hframes := (FramesKept.trans hframes₁ hframes₂').trans hgone.others
      refine ⟨r, k₃, ?_, .freed p k₁ halloc hp hok hheld₃ hframes, hQ⟩
      refine (run_bind_of_run halloc).trans ?_
      rw [if_neg hp]
      refine (run_bind_of_run hsend).trans ?_
      rw [if_neg (not_not.mpr hok)]
      refine (run_bind_of_run hrun).trans ?_
      exact run_bind_of_run hfree
    · refine ⟨failed, k₁, ?_, .kept p halloc hp hok hheld, hfailed⟩
      refine (run_bind_of_run halloc).trans ?_
      rw [if_neg hp]
      refine (run_bind_of_run hsend).trans ?_
      rw [if_pos hok]
      rfl

/-! ### The buffers before and after -/

/-- The mapped pages of the DMA window, the frames behind them and all frames in use that are
no tables are the same. -/
structure SameBuffers (k k' : Kernel) : Prop where
  mapped : ∀ q < dmaPages, k'.space.Mapped (dmaPage q) ↔ k.space.Mapped (dmaPage q)
  behind : ∀ f, BehindWindow k'.space f ↔ BehindWindow k.space f
  data : ∀ f, k'.space.Data f ↔ k.space.Data f

/-- What is behind the window are the frames of the blocks. -/
theorem DmaHeld.behindWindow_iff (h : DmaHeld k held rest) {f : U64} :
    BehindWindow k.space f ↔ ∃ block ∈ held, BlockFrame k.space block f := by
  constructor
  · rintro ⟨q, hq, hmapped, rfl⟩
    obtain ⟨block, hmem, p, hp, haddr⟩ := (h.mapped_iff hq).mp hmapped
    exact ⟨block, hmem, p, hp, by rw [haddr]⟩
  · rintro ⟨block, hmem, hf⟩
    exact h.behind hmem hf

/-- Where the held blocks are the same, and their frames, so are the buffers. -/
theorem DmaHeld.sameBuffers (h : DmaHeld k held rest) (h' : DmaHeld k' held rest)
    (hframes : FramesKept held k k') : SameBuffers k k' := by
  have hblocks : ∀ f, (∃ block ∈ held, BlockFrame k'.space block f) ↔
      ∃ block ∈ held, BlockFrame k.space block f := fun f =>
    exists_congr fun block => and_congr_right fun hmem => hframes block hmem f
  refine ⟨fun q hq => (h'.mapped_iff hq).trans (h.mapped_iff hq).symm, fun f => ?_, fun f => ?_⟩
  · rw [h'.behindWindow_iff, h.behindWindow_iff]
    exact hblocks f
  · rw [h'.data_iff, h.data_iff]
    exact or_congr_right (hblocks f)

/-- A block that has come to the held ones maps pages that were not mapped before. -/
theorem DmaHeld.not_sameBuffers {p n : U64} (h : DmaHeld k held rest)
    (h' : DmaHeld k' ((p, n) :: held) rest) : ¬ SameBuffers k k' := by
  intro hsame
  obtain ⟨q, -, rfl, hfits, hpos, -⟩ := h'.block List.mem_cons_self
  have hmapped : k'.space.Mapped (dmaPage q) :=
    (h'.mapped_iff (by omega)).mpr ⟨_, List.mem_cons_self, 0, hpos, by
      rw [pageAddr, BitVec.zero_mul, BitVec.add_zero]⟩
  obtain ⟨block, hmem, j, hj, haddr⟩ :=
    (h.mapped_iff (by omega)).mp ((hsame.mapped q (by omega)).mp hmapped)
  -- the old block and the new one would have the page in common
  obtain ⟨q', -, hva, hfits', -⟩ := h'.block (List.mem_cons_of_mem _ hmem)
  rw [hva, dmaAt, dmaAt, pageAddr_add] at haddr
  have hj' : q' + j ≤ dmaPages := by omega
  have hq := dmaAt_inj (by omega) hj' haddr
  have hv : (dmaAt q).toNat = 0x140000000 + q * 4096 := toNat_dmaAt (by omega)
  have hv' : block.1.toNat = 0x140000000 + q' * 4096 := by rw [hva, toNat_dmaAt (by omega)]
  have hin : (dmaAt q).toNat < (dmaAt q).toNat + (dmaPageCount n).toNat * 4096 := by omega
  have hin' : block.1.toNat ≤ (dmaAt q).toNat ∧
      (dmaAt q).toNat < block.1.toNat + (dmaPageCount block.2).toNat * 4096 := by
    rw [hv, hv', hq]
    omega
  have heq : (dmaAt q, n) = block :=
    h'.apart List.mem_cons_self (List.mem_cons_of_mem _ hmem) ⟨le_refl _, hin⟩ hin'
  refine (List.nodup_cons.mp h'.nodup).1 ?_
  rw [heq]
  exact List.mem_map_of_mem hmem

namespace BufferOutcome

variable {size : U64} {succeeds : Prop}

theorem exists_held (ho : BufferOutcome c size succeeds held rest k k') :
    ∃ held' rest', DmaHeld k' held' rest' := by
  cases ho with
  | none _ hheld => exact ⟨_, _, hheld⟩
  | kept _ _ _ _ hheld => exact ⟨_, _, hheld⟩
  | freed _ _ _ _ _ hheld => exact ⟨_, _, hheld⟩

/-- The buffers are the same unless one was obtained and the answer is no success. -/
theorem sameBuffers_iff (ho : BufferOutcome c size succeeds held rest k k')
    (h : DmaHeld k held rest) : SameBuffers k k' ↔
      ((∃ p k₁, run (Kernel.perform c) (dmaAlloc size) k = some (p, k₁) ∧ p ≠ 0) → succeeds) := by
  cases ho with
  | none halloc hheld hframes =>
    refine iff_of_true (h.sameBuffers hheld hframes) ?_
    rintro ⟨p, k₁, hrun, hp⟩
    rw [halloc, Option.some_inj, Prod.mk.injEq] at hrun
    exact absurd hrun.1.symm hp
  | kept p halloc hp hfailed hheld =>
    exact iff_of_false (h.not_sameBuffers hheld) fun hall => hfailed (hall ⟨p, _, halloc, hp⟩)
  | freed p k₁ halloc hp hok hheld hframes =>
    exact iff_of_true (h.sameBuffers hheld hframes) fun _ => hok

end BufferOutcome

/-! ### Any run -/

namespace DisplayCall

/-- `dma_alloc` has a buffer for the call. -/
def Obtains (c : ℕ) (d : Display) (call : DisplayCall) : Prop :=
  ∃ p k', run (Kernel.perform c) (dmaAlloc call.size) d.kernel = some (p, k') ∧ p ≠ 0

/-- The framebuffer of a success lies below the DMA window. -/
def ReportsBelowDma : DisplayCall → Prop
  | .setResolution width height vc =>
    vc (setResolutionRequest width height) 1 = mboxResponseSuccess →
      (Framebuffer.ofWords (vc (setResolutionRequest width height))).BelowDma
  | _ => True

end DisplayCall

/-- Between calls: some blocks are held, and the framebuffer lies below the window. -/
structure DisplayInv (d : Display) : Prop where
  held : ∃ held rest, DmaHeld d.kernel held rest
  below : d.fb.base = 0 ∨ d.fb.BelowDma

theorem run_adoptFramebuffer (h : DmaHeld k held rest) (hlast : fb.base = 0 ∨ fb.BelowDma)
    (hnew : (Framebuffer.ofWords words).BelowDma) : ∃ k',
      run (Kernel.perform c) (adoptFramebuffer fb words) k = some (.ofWords words, k') ∧
        DmaHeld k' held rest ∧ FramesKept held k k' := by
  have halone : Alone c k (adoptFramebuffer fb words) k.space fun r s' =>
      r = Framebuffer.ofWords words ∧ Kept (MovedPages fb words) k.space s' := by
    obtain ⟨w, rfl, -, hw⟩ := h
    exact alone_adoptFramebuffer hw.inv.memory.wf hw.inv.mmuFree hw.inv.pmmFree
  obtain ⟨_, s', hrun, rfl, hkept⟩ := halone.run_eq
  refine ⟨_, hrun, h.kept hkept fun pg hpg => ?_⟩
  rintro (⟨hbase, hin⟩ | hin)
  · exact (hlast.resolve_left hbase).apart hpg hin
  · exact hnew.apart hpg hin

/-- One call. -/
theorem DisplayInv.call (h : DisplayInv d) {call : DisplayCall} (hbelow : call.ReportsBelowDma) :
    ∃ d', d.call c call = some d' ∧ DisplayInv d' ∧
      (SameBuffers d.kernel d'.kernel ↔ (call.Obtains c d → call.Succeeds)) := by
  obtain ⟨held, rest, hheld⟩ := h.held
  -- the two requests that only ask leave the framebuffer as it is
  have hquery : ∀ request vc, ∃ k',
      run (Kernel.perform c) (withBuffer vc 32#64 request () fun _ => pure ()) d.kernel =
        some ((), k') ∧
      BufferOutcome c 32#64 (vc request 1 = mboxResponseSuccess) held rest d.kernel k' := by
    intro request vc
    obtain ⟨⟨⟩, k', hrun, ho, -⟩ := run_withBuffer (c := c) vc 32#64 request ()
      (fun _ => pure ()) (fun _ => True) hheld
      (fun _ k₁ blocks hk => ⟨(), k₁, rfl, hk, fun _ _ _ => Iff.rfl, trivial⟩) trivial
    exact ⟨k', hrun, ho⟩
  rcases call with vc | vc | ⟨width, height, vc⟩
  · obtain ⟨k', hrun, ho⟩ := hquery displayInitRequest vc
    refine ⟨⟨k', d.fb⟩, ?_, ⟨ho.exists_held, h.below⟩, ho.sameBuffers_iff hheld⟩
    exact congrArg (Option.map fun r : Unit × Kernel => (⟨r.2, d.fb⟩ : Display)) hrun
  · obtain ⟨k', hrun, ho⟩ := hquery getResolutionRequest vc
    refine ⟨⟨k', d.fb⟩, ?_, ⟨ho.exists_held, h.below⟩, ho.sameBuffers_iff hheld⟩
    exact congrArg (Option.map fun r : Unit × Kernel => (⟨r.2, d.fb⟩ : Display)) hrun
  · obtain ⟨fb', k', hrun, ho, hfb⟩ := run_withBuffer (c := c) vc 152#64
      (setResolutionRequest width height) d.fb (adoptFramebuffer d.fb)
      (fun fb => fb.base = 0 ∨ fb.BelowDma) hheld
      (fun hok k₁ blocks hk => by
        obtain ⟨k₂, hrun, hk₂, hframes⟩ := run_adoptFramebuffer (c := c) hk h.below (hbelow hok)
        exact ⟨_, k₂, hrun, hk₂, hframes, Or.inr (hbelow hok)⟩) h.below
    refine ⟨⟨k', fb'⟩, ?_, ⟨ho.exists_held, hfb⟩, ho.sameBuffers_iff hheld⟩
    exact congrArg (Option.map fun r : Framebuffer × Kernel => (⟨r.2, r.1⟩ : Display)) hrun

/-- After each call the buffers are those before it. -/
def Display.Balanced (c : ℕ) (calls : List DisplayCall) (d : Display) : Prop :=
  Machine.Along (Display.call c) (fun d _ d' => SameBuffers d.kernel d'.kernel) calls d

/-- Every request that gets a buffer is answered with a success. -/
def Display.Answered (c : ℕ) (calls : List DisplayCall) (d : Display) : Prop :=
  Machine.Permits (Display.call c) (fun d call => call.Obtains c d → call.Succeeds) calls d

/-- **A run of calls loses no buffer if and only if every request that gets one is answered
with a success.** -/
theorem display_balanced_iff (calls : List DisplayCall) (hd : DisplayInv d)
    (hbelow : ∀ call ∈ calls, call.ReportsBelowDma) :
    (∃ d', d.runCalls c calls = some d') ∧ (d.Balanced c calls ↔ d.Answered c calls) := by
  have hstep : ∀ (d : Display) (call : DisplayCall), DisplayInv d → call.ReportsBelowDma →
      ∃ d', d.call c call = some d' ∧ DisplayInv d' := by
    intro d call hd hbelow
    obtain ⟨d', hcall, hd', -⟩ := hd.call (c := c) hbelow
    exact ⟨d', hcall, hd'⟩
  have hG : Machine.Permits (Display.call c) (fun _ call => call.ReportsBelowDma) calls d :=
    Machine.permits_of_forall fun call hmem _ => hbelow call hmem
  refine ⟨Machine.exists_runEvents hstep hd hG, ?_⟩
  refine Machine.along_iff_permits (J := fun _ => True) hstep ?_ (fun _ _ _ _ _ _ _ _ => trivial)
    hd trivial hG
  intro d call d' hd _ hbelow hcall
  obtain ⟨d₁, hcall₁, -, hsame⟩ := hd.call (c := c) hbelow
  rw [hcall, Option.some_inj] at hcall₁
  rw [hcall₁]
  exact hsame

theorem displayInv_boot (board : Board) : DisplayInv ⟨board.kernel, .unset⟩ :=
  ⟨⟨[], board.space.Data, dmaHeld_boot board⟩, Or.inl rfl⟩

/-- VideoCore accepts both requests. -/
theorem display_balanced_boot : Display.Balanced 0
    [.displayInit fun _ _ => mboxResponseSuccess, .getResolution fun _ _ => mboxResponseSuccess]
    ⟨fiveFrames.kernel, .unset⟩ := by
  refine (display_balanced_iff _ (displayInv_boot fiveFrames) ?_).2.mpr ?_
  · intro call hmem
    simp only [List.mem_cons, List.not_mem_nil, or_false] at hmem
    rcases hmem with rfl | rfl
    · trivial
    · trivial
  · exact ⟨fun _ => rfl, fun _ _ => ⟨fun _ => rfl, fun _ _ => trivial⟩⟩

/-- Requests that VideoCore refuses keep their buffer. -/
theorem refused_request_leaks :
    ¬ ∀ calls, Display.Balanced 0 calls ⟨fiveFrames.kernel, .unset⟩ := by
  intro hall
  have hinv := displayInv_boot fiveFrames
  let refused : DisplayCall := .displayInit fun _ _ => 0
  obtain ⟨d₁, hcall, -, hsame⟩ := @DisplayInv.call 0
      ⟨fiveFrames.kernel, .unset⟩ hinv refused trivial
  obtain ⟨p, k', hrun, hp⟩ := exists_run (c := 0) (k := fiveFrames.kernel) (p := dmaAlloc 32#64)
    (fun p _ => p != 0) (by decide +kernel)
  have hsucceeds : refused.Succeeds :=
    hsame.mp (hall [refused] d₁ hcall).1 ⟨p, k', hrun, bne_iff_ne.mp hp⟩
  exact absurd hsucceeds (show (0 : U32) ≠ mboxResponseSuccess by decide)

end GamingConsole
