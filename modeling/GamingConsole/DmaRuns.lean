/-
`dma_alloc` and `dma_free` on any number of cores.

The two calls are followed step by step from one assertion of `DmaSteps` to the next
(`safe_alloc`, `safe_free`); no step of another core, and nothing the rest of the
kernel may do, changes what a core knows (`AtWork.stable`).

* **`dma_exclusive`** — in every reachable state the buffers are apart, live buffers
  are mapped to consecutive frames of their own, and every frame and page is accounted for.
-/
import GamingConsole.DmaSteps
import GamingConsole.Runs

namespace GamingConsole

open Space Prog Ownership Interleaving Relation

variable {w w' : DmaWorld} {c i n : ℕ} {b : DmaBuffer} {size va phys : U64} {α β : Type}

/-! ### What others leave alone -/

/-- Every event may happen. -/
def anyEvent : ℕ → DmaEvent → DmaWorld → Prop := fun _ _ _ => True

/-- What core `c` expects of the others. -/
abbrev DmaRely (c : ℕ) : DmaWorld → DmaWorld → Prop := relyOf dmaSystem DmaInv DmaFoot c

/-- `p` is safe on core `c`, and ends in `Q`. -/
abbrev DmaSafe (c : ℕ) (Q : α → DmaWorld → Prop) (p : Prog DmaEvent DmaEvent.Answer α)
    (w : DmaWorld) : Prop :=
  Safe (DmaRely c) (guarOf DmaInv DmaFoot c) (actOf dmaSystem anyEvent c) Q p w

/-- Whatever the others do, the work and the buffers of core `c` stay as they are. -/
theorem DmaRely.same (h : DmaRely c w w') :
    w'.work c = w.work c ∧ ∀ i b, b.core = c → (w'.buf i = some b ↔ w.buf i = some b) := by
  rcases h.2 with ⟨u, hu, hfoot⟩ | hothers
  · exact hfoot.apart c hu.symm
  · cases hothers
    exact ⟨rfl, fun _ _ _ => Iff.rfl⟩

theorem AtRest.stable : Stable (DmaRely c) (AtRest c) := by
  intro w w' h hrely
  obtain ⟨-, hbuf⟩ := DmaRely.same hrely
  exact ⟨hrely.1, fun j a ha hca hla => h.2 j a ((hbuf j a hca).mp ha) hca hla⟩

theorem AtWork.stable : Stable (DmaRely c) (AtWork c i b) := by
  intro w w' h hrely
  obtain ⟨hwork, hbuf⟩ := DmaRely.same hrely
  exact ⟨hrely.1, hwork.trans h.work, (hbuf i b h.core).mpr h.slot, h.core, h.busy,
    fun j a hji ha hca hla => h.others j a hji ((hbuf j a hca).mp ha) hca hla⟩

theorem isDmaFrame_iff {a : U64} : IsDmaFrame w a ↔ ∃ i, (slotOwns ∘ w.buf) i a := by
  constructor
  · rintro ⟨i, b, hslot, ha⟩
    refine ⟨i, ?_⟩
    rw [Function.comp_apply, hslot]
    exact ha
  · rintro ⟨i, ha⟩
    rw [Function.comp_apply] at ha
    rcases hslot : w.buf i with _ | b
    · rw [hslot] at ha
      exact ha.elim
    · rw [hslot] at ha
      exact ⟨i, b, hslot, ha⟩

/-- The rest of the kernel keeps the invariant. -/
theorem DmaInv.others (h : DmaInv w) (ho : DmaOthers w w') : DmaInv w' := by
  cases ho with
  | mk k' hspace hbump hdma hmmu hpmm =>
    refine ⟨hdma, hmmu, hpmm, ?_, ⟨hspace.wf, ⟨fun a => ?_, fun i a ha hr => ?_, ?_⟩,
      h.memory.inside, fun i q desc hm => ?_, fun q hq hno => ?_⟩, h.placed, h.fresh⟩
    · obtain ⟨top, leaked, htop, hvar, hledger⟩ := h.window
      exact ⟨top, leaked, htop, hbump.trans hvar, hledger⟩
    · rw [← isDmaFrame_iff]
      constructor
      · intro ha
        by_cases hd : IsDmaFrame w a
        · exact Or.inr hd
        · exact Or.inl ⟨ha, hd⟩
      · rintro (⟨ha, -⟩ | hd)
        · exact ha
        · obtain ⟨i, hi⟩ := isDmaFrame_iff.mp hd
          exact hspace.data a hd (h.memory.frames.used_of_own hi)
    · exact hr.2 (isDmaFrame_iff.mpr ⟨i, ha⟩)
    · exact h.memory.frames.unique
    · exact (hspace.leaf _ ⟨q, h.memory.inside i q desc hm, rfl⟩).trans (h.memory.leaf i q desc hm)
    · exact (hspace.leaf _ ⟨q, hq, rfl⟩).trans (h.memory.hole q hq hno)

/-! ### The calls, step by step -/

/-- One event, from a stable assertion. -/
theorem DmaSafe.step {P : DmaWorld → Prop} {Q : α → DmaWorld → Prop} {e : DmaEvent}
    {f : e.Answer → Prog DmaEvent DmaEvent.Answer α} (hP : P w) (hstable : Stable (DmaRely c) P)
    (h : ∀ w, P w → ∀ r w', DmaWorld.perform c e w = some (r, w') →
      DmaInv w' ∧ DmaFoot c w w' ∧ DmaSafe c Q (f r) w') :
    DmaSafe c Q (Prog.perform e >>= f) w :=
  Safe.step hP hstable fun w hw r w' hact =>
    ⟨⟨(h w hw r w' hact.2).1, (h w hw r w' hact.2).2.1⟩, (h w hw r w' hact.2).2.2⟩

/-- A step of a call, then the rest of it. -/
theorem interp_step (e : DmaAction) (f : e.Answer → DmaProg α) :
    (dma e >>= f).interp dmaEvent = dmaEvent e >>= fun r => (f r).interp dmaEvent := rfl

/-- A core that is done with a buffer of which nothing is left. -/
theorem AtWork.rest (h : AtWork c i b w) (hover : b.Over) : AtRest c w := by
  refine ⟨h.inv, fun j a ha hca hla => ?_⟩
  by_cases hji : j = i
  · rw [hji, h.slot] at ha
    obtain rfl := Option.some.inj ha
    exact hover
  · exact h.others j a hji ha hca hla

/-- The loop that frees the frames of a buffer. -/
theorem safe_freeFrames (n : ℕ) : ∀ (b : DmaBuffer) (w : DmaWorld), AtWork c i b w →
    b.mapped = false → b.next + n = b.pages →
    DmaSafe c (fun _ w => ∃ b', AtWork c i b' w ∧ b'.Over ∧ b'.va = b.va ∧ b'.pages = b.pages)
      ((dmaFreeFrames b.phys n b.next).interp dmaEvent) w := by
  induction n with
  | zero =>
    intro b w h hmapped hn
    exact Safe.ret h AtWork.stable fun w h => ⟨b, h, ⟨hn, hmapped⟩, rfl, rfl⟩
  | succ n ih =>
    intro b w h hmapped hn
    rw [dmaFreeFrames, interp_step]
    refine DmaSafe.step h AtWork.stable fun w h r w' hact => ?_
    obtain ⟨hfoot, hwork⟩ := h.freeFrame (by omega) hact
    have hrest := ih b.freed w' hwork hmapped (by
      show b.next + 1 + n = b.pages
      omega)
    exact ⟨hwork.inv, hfoot, hrest⟩

/-- `_dma_reclaim_va` at the end of a `dma_alloc` that fails. -/
theorem safe_reclaim {Q : U64 → DmaWorld → Prop} (h : AtWork c i b w) (hover : b.Over)
    (hn : (dmaPageCount size).toNat = b.pages) (hQ : ∀ w, AtRest c w → Q 0 w) :
    DmaSafe c Q ((do
      dma (.reclaim b.va size)
      pure 0 : DmaProg U64).interp dmaEvent) w := by
  rw [interp_step]
  refine DmaSafe.step h AtWork.stable fun w h r w' hact => ?_
  obtain ⟨hfoot, hrest⟩ := h.reclaim hover hn hact
  exact ⟨hrest.1, hfoot, Safe.ret hrest AtRest.stable hQ⟩

/-- What `dma_alloc` returns with: nothing, or a mapped buffer. -/
def AllocDone (c : ℕ) (va : U64) (w : DmaWorld) : Prop :=
  va = 0 ∧ AtRest c w ∨ ∃ i b, AtWork c i b w ∧ b.va = va ∧ b.mapped = true ∧ b.next = 0 ∧
    0 < b.pages

/-- **`dma_alloc`**: `Q` holds when it returns, if it does with nothing and with a mapped
buffer of the size asked for. -/
theorem safe_allocSteps_of {Q : U64 → DmaWorld → Prop} (h : AtRest c w)
    (hn : (dmaPageCount size).toNat ≤ dmaPages) (hnone : ∀ w, AtRest c w → Q 0 w)
    (hsome : ∀ i b w, AtWork c i b w → b.mapped = true → b.next = 0 → 0 < b.pages →
      b.pages = (dmaPageCount size).toNat → Q b.va w) :
    DmaSafe c Q ((dmaAllocSteps size).interp dmaEvent) w := by
  rw [dmaAllocSteps, interp_step]
  refine DmaSafe.step h AtRest.stable fun w h r w' hact => ?_
  obtain ⟨hfoot, ⟨rfl, hrest⟩ | ⟨va, i, rfl, hwork⟩⟩ := h.reserve hn hact
  · exact ⟨hrest.1, hfoot, Safe.ret hrest AtRest.stable hnone⟩
  refine ⟨hwork.inv, hfoot, ?_⟩
  dsimp only
  rw [interp_step]
  refine DmaSafe.step hwork AtWork.stable fun w h phys w' hact => ?_
  obtain ⟨hfoot, ⟨hzero, hwork⟩ | ⟨hne, hpos, hwork⟩⟩ := h.allocFrames ⟨rfl, rfl⟩ rfl hact
  · rw [if_pos hzero]
    refine ⟨hwork.inv, hfoot, ?_⟩
    exact safe_reclaim (b := reservedBuffer c va (dmaPageCount size).toNat) hwork
      ⟨rfl, rfl⟩ rfl hnone
  refine ⟨hwork.inv, hfoot, ?_⟩
  rw [if_neg hne, interp_step]
  refine DmaSafe.step hwork AtWork.stable fun w h done w' hact => ?_
  obtain ⟨hfoot, hwork⟩ := h.map rfl rfl hact
  refine ⟨hwork.inv, hfoot, ?_⟩
  cases done with
  | true =>
    rw [if_pos rfl]
    exact Safe.ret hwork AtWork.stable fun w h => hsome i _ w h rfl rfl hpos rfl
  | false =>
    rw [if_neg (by simp), interp_bind]
    refine Safe.bind (safe_freeFrames _ _ _ hwork rfl (Nat.zero_add _)) fun _ w h => ?_
    obtain ⟨b', hwork, hover, hva, hpages⟩ := h
    change b'.va = va at hva
    rw [← hva]
    exact safe_reclaim hwork hover hpages.symm hnone

theorem safe_allocSteps (h : AtRest c w) (hn : (dmaPageCount size).toNat ≤ dmaPages) :
    DmaSafe c (AllocDone c) ((dmaAllocSteps size).interp dmaEvent) w :=
  safe_allocSteps_of h hn (fun _ h => Or.inl ⟨rfl, h⟩) fun i b _ h hmapped hnext hpos _ =>
    Or.inr ⟨i, b, h, rfl, hmapped, hnext, hpos⟩

/-- The address of a buffer is not `nullptr`. -/
theorem DmaBuffer.Placed.va_ne_zero (h : b.Placed) : b.va ≠ 0 := by
  intro hzero
  have hfits := h.fits
  have heq := h.va_eq
  rw [hzero] at heq
  have hnat := congrArg BitVec.toNat heq
  have hnone : (0 : U64).toNat = 0 := rfl
  rw [toNat_dmaAt (by omega), hnone] at hnat
  omega

/-- Its frames lie in RAM, so its translation is one. -/
theorem DmaBuffer.Placed.phys_ne (h : b.Placed) : b.phys ≠ ~~~0 := by
  intro heq
  have hbelow := h.below
  rw [heq] at hbelow
  exact absurd (Nat.le_trans (Nat.le_add_right _ _) hbelow) (by decide)

/-- A call of `dma_alloc`, after which the core holds what was returned. -/
theorem safe_alloc (h : AtRest c w) (hsize : size ≤ dmaMaxSize) :
    DmaSafe c (fun _ w => AtRest c w) (DmaCall.alloc size).prog w := by
  refine Safe.bind (safe_allocSteps h (dmaPageCount_le hsize)) fun va w hdone => ?_
  rcases hdone with ⟨rfl, hrest⟩ | ⟨i, b, hwork, rfl, hmapped, hnext, hpos⟩
  · rw [if_pos rfl]
    exact Safe.ret hrest AtRest.stable fun _ h => h
  · rw [if_neg (hwork.inv.placed i b hwork.slot).va_ne_zero]
    refine Safe.perform hwork AtWork.stable (fun _ => AtRest.stable) fun w h r w' hact => ?_
    obtain ⟨hfoot, hrest⟩ := h.hold hmapped hnext hpos hact.2
    exact ⟨⟨hrest.1, hfoot⟩, hrest⟩

/-- **`dma_free`** of a buffer that the core holds. -/
theorem safe_free (h : AtRest c w) (hslot : w.buf i = some b) (hcore : b.core = c)
    (hlive : b.live = true) (hn : (dmaPageCount size).toNat = b.pages) :
    DmaSafe c (fun _ w => AtRest c w) (DmaCall.free i b.va size).prog w := by
  have hstable : Stable (DmaRely c) fun w => AtRest c w ∧ w.buf i = some b := by
    intro w w' h hrely
    exact ⟨AtRest.stable _ _ h.1 hrely, ((DmaRely.same hrely).2 i b hcore).mpr h.2⟩
  refine DmaSafe.step ⟨h, hslot⟩ hstable fun w h r w' hact => ?_
  obtain ⟨hmapped, hnext, hpos⟩ := (h.1.1.placed i b h.2).live hlive
  obtain ⟨hfoot, hwork⟩ := h.1.letGo h.2 hcore hact
  refine ⟨hwork.inv, hfoot, ?_⟩
  rw [dmaFreeSteps, interp_step]
  refine DmaSafe.step hwork AtWork.stable fun w h phys w' hact => ?_
  obtain ⟨rfl, rfl⟩ := h.translate hmapped hpos hact
  refine ⟨h.inv, .refl c w', ?_⟩
  rw [if_neg (h.inv.placed i _ h.slot).phys_ne, interp_step]
  refine DmaSafe.step h AtWork.stable fun w h r w' hact => ?_
  obtain ⟨hfoot, hwork⟩ := h.unmap hmapped hn hact
  refine ⟨hwork.inv, hfoot, ?_⟩
  rw [hn, ← hnext]
  refine (safe_freeFrames _ _ _ hwork rfl ?_).mono (fun _ _ h => h) fun _ w h => ?_
  · show b.next + b.pages = b.pages
    rw [hnext, Nat.zero_add]
  · obtain ⟨b', hwork, hover, -⟩ := h
    exact hwork.rest hover

/-! ### All cores -/

/-- The cores, and what each has still to run. -/
abbrev DmaCores : Type := Interleaving.Config ℕ DmaEvent DmaEvent.Answer DmaWorld

/-- No buffer has been reserved yet. -/
def DmaWorld.boot (b : Board) : DmaWorld :=
  { kernel := b.kernel
    buf := fun _ => none
    count := 0
    work := fun _ => 0
    rest := b.space.Data }

/-- All cores idle. -/
def DmaCores.boot (b : Board) : DmaCores := { shared := .boot b, threads := fun _ => none }

/-- Nothing of the window is reserved or mapped. -/
theorem DmaInv.of_unused {k : Kernel} {rest : U64 → Prop} (hwf : k.space.WF)
    (hrest : rest = k.space.Data) (hdma : k.Free .dmaLock) (hmmu : k.Free .mmuLock)
    (hpmm : k.Free .pmmLock) (hbump : k.var .dmaBumpPtr = dmaBase)
    (hhole : ∀ q < dmaPages, k.space.leaf (dmaPage q) = 0) :
    DmaInv { kernel := k, buf := fun _ => none, count := 0, work := fun _ => 0, rest := rest } := by
  have hzero : dmaAt 0 = dmaBase := pageAddr_zero _
  refine ⟨hdma, hmmu, hpmm, ⟨0, fun _ => False, Nat.zero_le _, hbump.trans hzero.symm,
    ⟨fun q => ?_, fun _ _ h => h.elim, fun _ _ _ h => h.elim⟩⟩,
    ⟨hwf, ⟨fun a => ?_, fun _ _ h => h.elim,
    fun _ _ _ h => h.elim⟩, fun _ _ _ h => h.elim, fun _ _ _ h => h.elim, fun q hq _ => hhole q hq⟩,
    fun _ _ h => absurd h nofun, fun _ _ => rfl⟩
  · refine iff_of_false (Nat.not_lt_zero q) ?_
    rintro (hF | ⟨_, hF⟩)
    · exact hF
    · exact hF
  · rw [hrest]
    refine ⟨Or.inl, ?_⟩
    rintro (ha | ⟨_, hF⟩)
    · exact ha
    · exact hF.elim

theorem dmaInv_boot (board : Board) : DmaInv (DmaWorld.boot board) := by
  have hwf : board.space.WF := Space.wf_boot (Pmm.pmmInit_wf board.image).allocFrame board.used_boot
  exact DmaInv.of_unused (k := board.kernel) hwf rfl (fun _ => rfl) (fun _ => rfl)
    (fun _ => rfl) rfl
    fun _ _ => Space.leaf_of_empty Space.boot_empty _

/-- In every reachable state the invariant holds and every core is safe. -/
theorem DmaCores.reach_safe {board : Board} {x : DmaCores}
    (h : Interleaving.Reach dmaSystem anyEvent (DmaCores.boot board) x) :
    DmaInv x.shared ∧ ∀ c, ThreadSafe dmaSystem anyEvent DmaInv DmaFoot AtRest x c := by
  refine Interleaving.Reach.safe (fun _ => AtRest.stable) (fun _ _ hinv ho => hinv.others ho)
    (fun c call w _ hrest hallowed => ?_) h (dmaInv_boot board) fun c =>
      ⟨dmaInv_boot board, fun _ _ ha => absurd ha nofun⟩
  cases call with
  | alloc size => exact safe_alloc hrest hallowed
  | free i ptr size =>
    obtain ⟨b, hslot, hcore, hlive, rfl, hn⟩ := hallowed
    exact safe_free hrest hslot hcore hlive hn

/-! ### What holds in every reachable state -/

/-- The bytes of a buffer's range of addresses. -/
def DmaBuffer.Reaches (b : DmaBuffer) (v : ℕ) : Prop :=
  b.va.toNat ≤ v ∧ v < b.va.toNat + b.pages * 4096

/-- The frame behind page `p` of a buffer, by its translation. -/
def DmaWorld.frame (w : DmaWorld) (b : DmaBuffer) (p : ℕ) : U64 :=
  w.space.translation (pageAddr b.va p)

/-- What is claimed of a state.  The buffers are those that are held, being set up or
being freed; `live` are those that `dma_alloc` has returned and that have not been given
to `dma_free`.  `DmaBuffer.Owns` are the frames that a buffer still has: all of them while it is
mapped, none once it is over. -/
structure DmaSound (x : DmaCores) : Prop where
  apart : ∀ i j a b, i ≠ j → x.shared.buf i = some a → x.shared.buf j = some b →
    ∀ v, a.Reaches v → ¬ b.Reaches v
  inside : ∀ i b, x.shared.buf i = some b → ∀ v, b.Reaches v →
    dmaBase.toNat ≤ v ∧ v < (x.shared.kernel.var .dmaBumpPtr).toNat
  bump_le : (x.shared.kernel.var .dmaBumpPtr).toNat ≤ dmaBase.toNat + dmaMaxSize.toNat
  consecutive : ∀ i b, x.shared.buf i = some b → b.live = true → ∀ off < b.pages * 4096,
    x.shared.space.translation (b.va + BitVec.ofNat 64 off) =
      x.shared.space.translation b.va + BitVec.ofNat 64 off
  frames : ∀ i b, x.shared.buf i = some b → b.live = true → ∀ p < b.pages,
    x.shared.space.pmm.Used (x.shared.frame b p) ∧ b.Owns (x.shared.frame b p)
  frames_apart : ∀ i j a b, i ≠ j → x.shared.buf i = some a → x.shared.buf j = some b →
    ∀ f, a.Owns f → ¬ b.Owns f
  /-- A core outside of calls has nothing left of the buffers it does not hold. -/
  returned : ∀ c, x.threads c = none ∨ x.threads c = some (.ret ()) → ∀ i b,
    x.shared.buf i = some b → b.core = c → b.live = false → (∀ f, ¬ b.Owns f) ∧ b.mapped = false
  mapped_iff : ∀ q < dmaPages, x.shared.space.Mapped (dmaPage q) ↔
    ∃ i b, x.shared.buf i = some b ∧ b.mapped = true ∧ b.Covers q
  /-- Every data frame in use is a buffer's or somebody else's, and not both. -/
  data_iff : ∀ f, x.shared.space.Data f ↔ x.shared.rest f ∨ IsDmaFrame x.shared f
  rest_apart : ∀ f, IsDmaFrame x.shared f → ¬ x.shared.rest f
  /-- No step of `dma_alloc` or `dma_free` takes a frame of somebody else's, or leaves
  them one. -/
  rest_kept : ∀ c e r w', DmaWorld.perform c e x.shared = some (r, w') → w'.rest = x.shared.rest
  /-- Exactly the frames that leave a buffer go back. -/
  freed_iff : ∀ c e k r w', x.threads c = some (.vis e k) →
    DmaWorld.perform c e x.shared = some (r, w') → ∀ f,
    x.shared.space.Data f ∧ ¬ w'.space.pmm.Used f ↔ IsDmaFrame x.shared f ∧ ¬ IsDmaFrame w' f

theorem DmaBuffer.Placed.toNat_va (h : b.Placed) : b.va.toNat = 0x140000000 + b.first * 4096 := by
  have hfits := h.fits
  have heq := congrArg BitVec.toNat h.va_eq
  rwa [toNat_dmaAt (by omega)] at heq

/-- An address in the range of a buffer is in one of its pages. -/
theorem DmaBuffer.Placed.covers_of_reaches {v : ℕ} (h : b.Placed) (hv : b.Reaches v) :
    b.Covers ((v - 0x140000000) / 4096) ∧ 0x140000000 ≤ v := by
  obtain ⟨h1, h2⟩ := hv
  have hva := h.toNat_va
  rw [DmaBuffer.Covers]
  omega

theorem DmaInv.owns_apart (h : DmaInv w) {j : ℕ} {a : DmaBuffer} {f : U64}
    (hi : w.buf i = some a) (hj : w.buf j = some b) (ha : a.Owns f) (hb : b.Owns f) : i = j := by
  refine h.memory.frames.unique i j f ?_ ?_
  · rw [Function.comp_apply, hi]
    exact ha
  · rw [Function.comp_apply, hj]
    exact hb

theorem DmaInv.data_of_owns (h : DmaInv w) (hslot : w.buf i = some b) {f : U64} (hf : b.Owns f) :
    w.space.Data f := by
  refine h.memory.frames.used_of_own (i := i) ?_
  rw [Function.comp_apply, hslot]
  exact hf

theorem DmaInv.data_iff (h : DmaInv w) {f : U64} : w.space.Data f ↔ w.rest f ∨ IsDmaFrame w f := by
  rw [isDmaFrame_iff]
  exact h.memory.frames.used_iff f

theorem DmaInv.rest_apart (h : DmaInv w) {f : U64} (hf : IsDmaFrame w f) : ¬ w.rest f := by
  obtain ⟨i, hi⟩ := isDmaFrame_iff.mp hf
  exact h.memory.frames.not_rest i f hi

theorem DmaInv.isDmaFrame_iff_data (h : DmaInv w) {f : U64} :
    IsDmaFrame w f ↔ w.space.Data f ∧ ¬ w.rest f := by
  refine ⟨fun hf => ⟨h.data_iff.mpr (Or.inr hf), h.rest_apart hf⟩, ?_⟩
  rintro ⟨hdata, hrest⟩
  exact (h.data_iff.mp hdata).resolve_left hrest

/-- The pages of a buffer are below the pointer. -/
theorem DmaInv.inside (h : DmaInv w) (hslot : w.buf i = some b) {v : ℕ} (hv : b.Reaches v) :
    dmaBase.toNat ≤ v ∧ v < (w.kernel.var .dmaBumpPtr).toNat := by
  obtain ⟨top, leaked, htop, hbump, hledger⟩ := h.window
  obtain ⟨hcovers, hbase⟩ := (h.placed i b hslot).covers_of_reaches hv
  have hbelow : (v - 0x140000000) / 4096 < top := by
    refine hledger.used_of_own (i := i) ?_
    rw [Function.comp_apply, hslot]
    exact hcovers
  refine ⟨hbase, ?_⟩
  rw [hbump, toNat_dmaAt (by omega)]
  omega

theorem DmaInv.bump_le (h : DmaInv w) :
    (w.kernel.var .dmaBumpPtr).toNat ≤ dmaBase.toNat + dmaMaxSize.toNat := by
  obtain ⟨top, leaked, htop, hbump, -⟩ := h.window
  have hend : dmaBase.toNat + dmaMaxSize.toNat = 0x140000000 + 256 * 4096 := rfl
  rw [hbump, toNat_dmaAt (by omega), hend]
  rw [dmaPages] at htop
  omega

/-- The frame behind a page of a held buffer is one of its run. -/
theorem DmaInv.frame_eq (h : DmaInv w) (hslot : w.buf i = some b) (hlive : b.live = true) {p : ℕ}
    (hp : p < b.pages) : w.frame b p = pageAddr b.phys p ∧ b.Owns (w.frame b p) := by
  obtain ⟨hmapped, hnext, -⟩ := (h.placed i b hslot).live hlive
  have hoff : BitVec.ofNat 64 p * pageSize = BitVec.ofNat 64 (p * 4096) := by
    rw [pageSize, ← BitVec.ofNat_mul]
  have hframe : w.frame b p = pageAddr b.phys p := by
    rw [DmaWorld.frame, pageAddr, pageAddr, hoff]
    exact h.translation hslot hmapped (by omega)
  exact ⟨hframe, p, by omega, hp, hframe⟩

/-- Exactly the pages of the mapped buffers are mapped. -/
theorem DmaInv.mapped_iff (h : DmaInv w) {q : ℕ} (hq : q < dmaPages) :
    w.space.Mapped (dmaPage q) ↔ ∃ i b, w.buf i = some b ∧ b.mapped = true ∧ b.Covers q := by
  constructor
  · intro hmapped
    by_contra hno
    refine ne_zero_of_valid hmapped (h.memory.hole q hq fun i desc hm => hno ?_)
    rw [Function.comp_apply] at hm
    rcases hslot : w.buf i with _ | b
    · rw [hslot] at hm
      exact hm.elim
    · rw [hslot] at hm
      exact ⟨i, b, hslot, hm.1, hm.covers⟩
  · rintro ⟨i, b, hslot, hmapped, hfirst, hlast⟩
    have hleaf := h.leaf hslot hmapped (p := q - b.first) (by omega)
    rw [Nat.add_sub_cancel' hfirst] at hleaf
    rw [Space.Mapped, hleaf]
    exact pageDesc_valid _ _ _

/-- Only the rest of the kernel changes what it has. -/
theorem DmaWorld.perform_rest {e : DmaEvent} {r : e.Answer}
    (h : DmaWorld.perform c e w = some (r, w')) : w'.rest = w.rest := by
  cases e with
  | step e =>
    rw [DmaWorld.perform, Option.map_eq_some_iff] at h
    obtain ⟨⟨r', k'⟩, -, heq⟩ := h
    obtain ⟨rfl, rfl⟩ := Prod.mk.inj heq
    cases e with
    | reserve alignedSize => cases r' <;> rfl
    | _ => rfl
  | hold va =>
    obtain ⟨-, rfl⟩ := Prod.mk.inj (Option.some.inj h)
    rfl
  | letGo i =>
    obtain ⟨-, rfl⟩ := Prod.mk.inj (Option.some.inj h)
    rfl

/-- **DMA buffers are exclusive**, whatever the cores do and in whatever order: no two of
them have an address or a frame in common, what is held is mapped to consecutive frames, and
a call that fails or frees leaves nothing behind. -/
theorem dma_exclusive {board : Board} {x : DmaCores}
    (h : Interleaving.Reach dmaSystem anyEvent (DmaCores.boot board) x) : DmaSound x := by
  obtain ⟨hinv, hsafe⟩ := DmaCores.reach_safe h
  constructor
  case apart =>
    intro i j a b hij hi hj v ha hb
    exact hij (hinv.apart hi hj ((hinv.placed i a hi).covers_of_reaches ha).1
      ((hinv.placed j b hj).covers_of_reaches hb).1)
  case inside => exact fun i b hslot v hv => hinv.inside hslot hv
  case bump_le => exact hinv.bump_le
  case consecutive =>
    intro i b hslot hlive off hoff
    obtain ⟨hmapped, -, hpos⟩ := (hinv.placed i b hslot).live hlive
    rw [hinv.translation hslot hmapped hoff, hinv.translation_va hslot hmapped hpos]
  case frames =>
    intro i b hslot hlive p hp
    obtain ⟨-, howns⟩ := hinv.frame_eq hslot hlive hp
    exact ⟨(hinv.data_of_owns hslot howns).1, howns⟩
  case frames_apart => exact fun i j a b hij hi hj f ha hb => hij (hinv.owns_apart hi hj ha hb)
  case returned =>
    intro c hthread i b hslot hcore hlive
    -- a core that has returned is at rest, as an idle one is
    have hrest : AtRest c x.shared := by
      have hc := hsafe c
      rw [ThreadSafe] at hc
      rcases hthread with hnone | hret
      · rwa [hnone] at hc
      · rw [hret] at hc
        exact hc _ ReflTransGen.refl
    obtain ⟨hspent, hunmapped⟩ := hrest.2 i b hslot hcore hlive
    refine ⟨fun f hf => ?_, hunmapped⟩
    rwa [DmaBuffer.owns_spent hspent] at hf
  case mapped_iff => exact fun q hq => hinv.mapped_iff hq
  case data_iff => exact fun f => hinv.data_iff
  case rest_apart => exact fun f hf => hinv.rest_apart hf
  case rest_kept => exact fun c e r w' hact => DmaWorld.perform_rest hact
  case freed_iff =>
    intro c e k r w' hthread hact f
    have hc := hsafe c
    rw [ThreadSafe, hthread] at hc
    obtain ⟨⟨hinv', hfoot⟩, -⟩ := hc _ ReflTransGen.refl r w' ⟨trivial, hact⟩
    have hrest := DmaWorld.perform_rest hact
    rw [hinv.isDmaFrame_iff_data, hinv'.isDmaFrame_iff_data, hrest]
    constructor
    · rintro ⟨hdata, hfree⟩
      have hgone : ¬ w'.space.Data f := fun hd => hfree hd.1
      refine ⟨⟨hdata, fun hr => hgone ?_⟩, fun hd => hgone hd.1⟩
      rw [hinv'.data_iff, hrest]
      exact Or.inl hr
    · rintro ⟨⟨hdata, hr⟩, hgone⟩
      exact ⟨hdata, hfoot.freed f hdata fun hd => hgone ⟨hd, hr⟩⟩

/-- A whole `dma_alloc` on an idle core, which `calls` lists with its size. -/
def DmaWorld.callAlloc (w : DmaWorld) (call : ℕ × U64) : Option DmaWorld :=
  if call.2 ≤ dmaMaxSize then
    (run (DmaWorld.perform call.1) (DmaCall.alloc call.2).prog w).map Prod.snd
  else none

theorem DmaCores.reach_allocs {calls : List (ℕ × U64)} {w : DmaWorld} :
    ∀ {x : DmaCores}, (∀ c, x.threads c = none) →
      calls.foldlM DmaWorld.callAlloc x.shared = some w →
      Interleaving.Reach dmaSystem anyEvent x { x with shared := w } := by
  induction calls with
  | nil =>
    intro x _ h
    obtain rfl := Option.some.inj h
    exact .refl
  | cons call calls ih =>
    intro x hidle h
    rw [List.foldlM_cons] at h
    obtain ⟨w₁, hcall, hrest⟩ := Option.bind_eq_some_iff.mp h
    rw [DmaWorld.callAlloc] at hcall
    split at hcall
    case isTrue hsize =>
      obtain ⟨⟨_, _⟩, hrun, rfl⟩ := Option.map_eq_some_iff.mp hcall
      have hadmits : Interleaving.Admits dmaSystem anyEvent call.1 (DmaWorld.perform call.1) :=
        fun _ _ _ _ hact => ⟨trivial, hact⟩
      have hallowed : dmaSystem.allowed call.1 (.alloc call.2) x.shared := hsize
      have hstep := Interleaving.Reach.call hadmits (hidle _) hallowed hrun
      exact hstep.trans (ih (x := { x with shared := _ }) hidle hrest)
    case isFalse => exact absurd hcall (by simp)

/-- The buffer in a slot is held, with so many pages. -/
def DmaWorld.holds (w : DmaWorld) (i pages : ℕ) : Bool :=
  (w.buf i).any fun b => b.live && b.pages == pages

/-- A board with eight frames. -/
def eightFrames : Board := .ofKernelEnd 0x3F7F7000#64 (by decide) (by decide)

/-- Two pages are held by core 0, and one by core 1. -/
theorem dma_exclusive_two_buffers : ∃ x : DmaCores,
    x.shared.holds 0 2 = true ∧ x.shared.holds 1 1 = true ∧ DmaSound x := by
  have hplay : (([(0, 0x2000#64), (1, 0x1000#64)].foldlM DmaWorld.callAlloc
      (DmaWorld.boot eightFrames)).any fun w => w.holds 0 2 && w.holds 1 1) = true := by
    decide +kernel
  obtain ⟨w, hw, hP⟩ := (Option.any_eq_true _ _).mp hplay
  obtain ⟨h0, h1⟩ := Bool.and_eq_true_iff.mp hP
  exact ⟨{ DmaCores.boot eightFrames with shared := w }, h0, h1,
    dma_exclusive (DmaCores.reach_allocs (fun _ => rfl) hw)⟩

end GamingConsole
