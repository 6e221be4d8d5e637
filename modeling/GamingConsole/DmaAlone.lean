/-
`dma_alloc` and `dma_free` as calls that nobody interrupts.

A core that is left alone runs the steps of a call one after the other, so a call of the
kernel (`run_interp`) does what the same call does among other cores, and everything said
of its steps in `DmaSteps` and `DmaRuns` holds for it.

* `DmaHeld k held rest` — between calls: the blocks that are held, each with the size it
  was asked for, and the data frames of everyone else;
* `DmaHeld.alloc`, `DmaHeld.free` — the two calls;
* `DmaHeld.others` — what the rest of the kernel may do in between.
-/
import GamingConsole.DmaRuns

namespace GamingConsole

open Space Prog Ownership Interleaving Relation

variable {w w' : DmaWorld} {c i : ℕ} {b : DmaBuffer} {k k' : Kernel} {size va : U64} {α : Type}

/-! ### Calls that are left alone -/

/-- Between calls every step can be taken. -/
theorem DmaInv.can_step (h : DmaInv w) (c : ℕ) (e : DmaAction) :
    ∃ r k', run (Kernel.perform c) e.prog w.kernel = some (r, k') := by
  have halone : ∀ {β : Type} {p : KProg β} {P : β → Space → Prop},
      Alone c w.kernel p w.kernel.space P →
      ∃ r k', run (Kernel.perform c) p w.kernel = some (r, k') := by
    intro β p P hp
    obtain ⟨r, s', hrun, -⟩ := hp.run_eq
    exact ⟨r, _, hrun⟩
  have hwf := h.memory.wf
  cases e with
  | reserve alignedSize =>
    have hrun := run_dmaReserve (c := c) h.dmaFree alignedSize
    by_cases hfull : w.kernel.var .dmaBumpPtr + alignedSize > dmaBase + dmaMaxSize
    · rw [if_pos hfull] at hrun
      exact ⟨_, _, hrun⟩
    · rw [if_neg hfull] at hrun
      exact ⟨_, _, hrun⟩
  | allocFrames count => exact halone (alone_allocFrames_given hwf h.pmmFree)
  | map va phys size => exact halone (alone_map hwf h.mmuFree h.pmmFree)
  | freeFrame addr => exact halone (alone_freeFrame h.pmmFree)
  | reclaim va size => exact ⟨_, _, run_dmaReclaimVa h.dmaFree va size⟩
  | translate va => exact halone (alone_translate hwf h.mmuFree va)
  | unmap va size => exact halone (alone_unmap hwf h.mmuFree h.pmmFree)

theorem DmaWorld.after_kernel (w : DmaWorld) (c : ℕ) (k : Kernel) (e : DmaAction) (r : e.Answer) :
    (w.after c k e r).kernel = k := by
  cases e with
  | reserve alignedSize => cases r <;> rfl
  | _ => rfl

/-- What a step does to the record of the buffers it also does to the kernel. -/
theorem run_interp {p : DmaProg α} {a : α}
    (h : run (DmaWorld.perform c) (p.interp dmaEvent) w = some (a, w')) :
    run (Kernel.perform c) (p.interp DmaAction.prog) w.kernel = some (a, w'.kernel) := by
  induction p generalizing w with
  | ret a =>
    obtain ⟨rfl, rfl⟩ := Prod.mk.inj (Option.some.inj h)
    rfl
  | vis e k ih =>
    obtain ⟨r, w₁, hact, hrest⟩ := run_bind_eq_some (p := dmaEvent e) h
    rw [dmaEvent, run_perform] at hact
    obtain ⟨k₁, hrun, hafter⟩ := DmaWorld.run_of_step hact
    have hkernel : w₁.kernel = k₁ := by rw [← hafter, DmaWorld.after_kernel]
    refine (run_bind_of_run (p := e.prog) hrun).trans ?_
    rw [← hkernel]
    exact ih r hrest

/-- What every step keeps, a call keeps. -/
theorem run_interp_keeps {P : DmaWorld → Prop} {p : DmaProg α} {a : α}
    (hstep : ∀ e w r w', DmaWorld.perform c (.step e) w = some (r, w') → P w → P w')
    (h : run (DmaWorld.perform c) (p.interp dmaEvent) w = some (a, w')) (hw : P w) : P w' := by
  induction p generalizing w with
  | ret a =>
    obtain ⟨rfl, rfl⟩ := Prod.mk.inj (Option.some.inj h)
    exact hw
  | vis e k ih =>
    obtain ⟨r, w₁, hact, hrest⟩ := run_bind_eq_some (p := dmaEvent e) h
    rw [dmaEvent, run_perform] at hact
    exact ih r hrest (hstep e w r w₁ hact hw)

/-- A call that is safe among other cores runs to its end when it is left alone. -/
theorem DmaSafe.run_alone {Q : α → DmaWorld → Prop} {p : Prog DmaEvent DmaEvent.Answer α}
    (hinv : DmaInv w) (hp : DmaSafe c Q p w) :
    ∃ a w', run (DmaWorld.perform c) p w = some (a, w') ∧ Q a w' ∧
      ReflTransGen (DmaFoot c) w w' := by
  have hcan : ∀ (e : DmaEvent) (s : DmaWorld), DmaInv s →
      ∃ r s', DmaWorld.perform c e s = some (r, s') := by
    intro e s hs
    cases e with
    | step e =>
      obtain ⟨r, k', hrun⟩ := hs.can_step c e
      refine ⟨r, s.after c k' e r, ?_⟩
      rw [DmaWorld.perform, hrun]
      rfl
    | hold va => exact ⟨_, _, rfl⟩
    | letGo i => exact ⟨_, _, rfl⟩
  obtain ⟨a, w', hrun, hQ, hpath⟩ := Safe.yields (H := DmaWorld.perform c) hp hinv
    (fun e s r s' hact => ⟨trivial, hact⟩) hcan fun _ _ hguar => hguar.1
  exact ⟨a, w', hrun, hQ, hpath.lift id fun _ _ hstep => hstep.1.2⟩

/-! ### Which buffers there are -/

/-- Core `c` holds none of its own buffers, all others are held by core `c + 1`. -/
def BufferAside (c : ℕ) (w : DmaWorld) : Prop :=
  ∀ i b, w.buf i = some b → b.core = c ∧ b.live = false ∨ b.core = c + 1

/-- A step changes no buffer's core, and holds none. -/
theorem BufferAside.step {e : DmaAction} {r : e.Answer}
    (hact : DmaWorld.perform c (.step e) w = some (r, w'))
    (h : BufferAside c w) : BufferAside c w' := by
  obtain ⟨k', -, rfl⟩ := DmaWorld.run_of_step hact
  -- most steps edit the buffer that the core works on
  have hedit : ∀ f : DmaBuffer → DmaBuffer, (∀ b, (f b).core = b.core ∧ (f b).live = b.live) →
      BufferAside c (w.edit c k' f) := by
    intro f hf j a ha
    change Function.update w.buf (w.work c) ((w.buf (w.work c)).map f) j = some a at ha
    by_cases hj : j = w.work c
    · rw [hj, Function.update_self] at ha
      obtain ⟨b, hslot, rfl⟩ := Option.map_eq_some_iff.mp ha
      rw [(hf b).1, (hf b).2]
      exact h _ b hslot
    · exact h j a ((Function.update_of_ne hj _ w.buf).symm.trans ha)
  cases e with
  | reserve alignedSize =>
    cases r with
    | none => exact h
    | some va =>
      intro j a ha
      change Function.update w.buf w.count _ j = some a at ha
      by_cases hj : j = w.count
      · rw [hj, Function.update_self] at ha
        obtain rfl := Option.some.inj ha
        exact Or.inl ⟨rfl, rfl⟩
      · exact h j a ((Function.update_of_ne hj _ w.buf).symm.trans ha)
  | allocFrames count =>
    refine hedit _ fun b => ?_
    by_cases hr : r = 0
    · rw [if_pos hr]
      exact ⟨rfl, rfl⟩
    · rw [if_neg hr]
      exact ⟨rfl, rfl⟩
  | map va phys size => exact hedit _ fun b => ⟨rfl, rfl⟩
  | freeFrame addr => exact hedit _ fun b => ⟨rfl, rfl⟩
  | unmap va size => exact hedit _ fun b => ⟨rfl, rfl⟩
  | translate va => exact h
  | reclaim va size =>
    intro j a ha
    change Function.update w.buf (w.work c) none j = some a at ha
    by_cases hj : j = w.work c
    · rw [hj, Function.update_self] at ha
      cases ha
    · exact h j a ((Function.update_of_ne hj _ w.buf).symm.trans ha)

/-- Whatever a core does, the buffers of others stay as they are. -/
theorem kept_aside {d : ℕ} (hpath : ReflTransGen (DmaFoot c) w w') (hd : d ≠ c) (i : ℕ)
    (hcore : b.core = d) : w'.buf i = some b ↔ w.buf i = some b := by
  induction hpath with
  | refl => exact Iff.rfl
  | tail _ hstep ih => exact ((hstep.apart d hd).2 i b hcore).trans ih

/-- The record with other cores written to it. -/
def DmaWorld.recore (w : DmaWorld) (core : ℕ → DmaBuffer → ℕ) : DmaWorld :=
  { w with buf := fun i => (w.buf i).map fun b => { b with core := core i b } }

theorem DmaWorld.recore_eq_some {core : ℕ → DmaBuffer → ℕ} :
    (w.recore core).buf i = some b ↔ ∃ a, w.buf i = some a ∧ b = { a with core := core i a } := by
  refine Option.map_eq_some_iff.trans (exists_congr fun a => and_congr_right fun _ => ?_)
  exact eq_comm

/-- Which core has a buffer makes no difference to its pages and frames. -/
theorem DmaInv.recore (h : DmaInv w) (core : ℕ → DmaBuffer → ℕ) : DmaInv (w.recore core) := by
  have hcovers : slotCovers ∘ (w.recore core).buf = slotCovers ∘ w.buf := by
    funext j
    show slotCovers ((w.buf j).map _) = slotCovers (w.buf j)
    cases w.buf j <;> rfl
  have howns : slotOwns ∘ (w.recore core).buf = slotOwns ∘ w.buf := by
    funext j
    show slotOwns ((w.buf j).map _) = slotOwns (w.buf j)
    cases w.buf j <;> rfl
  have hmaps : slotMaps ∘ (w.recore core).buf = slotMaps ∘ w.buf := by
    funext j
    show slotMaps ((w.buf j).map _) = slotMaps (w.buf j)
    cases w.buf j <;> rfl
  refine ⟨h.dmaFree, h.mmuFree, h.pmmFree, ?_, ?_, fun j a ha => ?_, fun j hj => ?_⟩
  · rw [hcovers]
    exact h.window
  · rw [howns, hmaps]
    exact h.memory
  · obtain ⟨b, hslot, rfl⟩ := DmaWorld.recore_eq_some.mp ha
    have hplaced := h.placed j b hslot
    exact ⟨hplaced.va_eq, hplaced.fits, hplaced.aligned, hplaced.below, hplaced.live⟩
  · show (w.buf j).map _ = none
    rw [h.fresh j hj]
    rfl

/-! ### What is held between calls -/

/-- The buffers that are held are the blocks of the list, and nothing is left of the
others. -/
structure DmaWorld.Holds (w : DmaWorld) (held : List (U64 × U64)) : Prop where
  inv : DmaInv w
  spent : ∀ i b, w.buf i = some b → b.live = false → b.Over
  listed : ∀ i b, w.buf i = some b → b.live = true →
    ∃ n, (b.va, n) ∈ held ∧ (dmaPageCount n).toNat = b.pages
  buffer : ∀ p n, (p, n) ∈ held → ∃ i b, w.buf i = some b ∧ b.live = true ∧ b.va = p ∧
    (dmaPageCount n).toNat = b.pages
  nodup : (held.map Prod.fst).Nodup

/-- Between calls: the blocks that are held, and the data frames of everyone else. -/
def DmaHeld (k : Kernel) (held : List (U64 × U64)) (rest : U64 → Prop) : Prop :=
  ∃ w : DmaWorld, w.kernel = k ∧ w.rest = rest ∧ w.Holds held

variable {held l₁ l₂ : List (U64 × U64)} {rest : U64 → Prop} {f : U64}

theorem DmaWorld.Holds.recore (h : w.Holds held) (core : ℕ → DmaBuffer → ℕ) :
    (w.recore core).Holds held := by
  refine ⟨h.inv.recore core, fun i a ha hlive => ?_, fun i a ha hlive => ?_, fun p n hmem => ?_,
    h.nodup⟩
  · obtain ⟨b, hslot, rfl⟩ := recore_eq_some.mp ha
    exact h.spent i b hslot hlive
  · obtain ⟨b, hslot, rfl⟩ := recore_eq_some.mp ha
    exact h.listed i b hslot hlive
  · obtain ⟨i, b, hslot, hlive, hva, hn⟩ := h.buffer p n hmem
    exact ⟨i, _, recore_eq_some.mpr ⟨b, hslot, rfl⟩, hlive, hva, hn⟩

/-- Two held buffers at one address are the same one. -/
theorem DmaInv.live_unique (h : DmaInv w) {j : ℕ} {a : DmaBuffer} (hi : w.buf i = some b)
    (hj : w.buf j = some a) (hpos : 0 < b.pages) (hpos' : 0 < a.pages) (hva : b.va = a.va) :
    i = j := by
  have hfirst : a.first = b.first := by rw [DmaBuffer.first, DmaBuffer.first, hva]
  exact h.apart hi hj (q := b.first) ⟨le_refl _, by omega⟩ ⟨by omega, by omega⟩

/-- The blocks of the list are held by core `c + 1`. -/
structure HeldAside (c : ℕ) (held : List (U64 × U64)) (w : DmaWorld) : Prop where
  spent : ∀ i b, w.buf i = some b → b.core = c + 1 → b.live = false → b.Over
  listed : ∀ i b, w.buf i = some b → b.core = c + 1 → b.live = true →
    ∃ n, (b.va, n) ∈ held ∧ (dmaPageCount n).toNat = b.pages
  buffer : ∀ p n, (p, n) ∈ held → ∃ i b, w.buf i = some b ∧ b.core = c + 1 ∧ b.live = true ∧
    b.va = p ∧ (dmaPageCount n).toNat = b.pages
  nodup : (held.map Prod.fst).Nodup

theorem HeldAside.of_path (h : HeldAside c held w) (hpath : ReflTransGen (DmaFoot c) w w') :
    HeldAside c held w' := by
  have hkept : ∀ i b, b.core = c + 1 → (w'.buf i = some b ↔ w.buf i = some b) :=
    fun i b hcore => kept_aside hpath (Nat.succ_ne_self c) i hcore
  refine ⟨fun i b hslot hcore => h.spent i b ((hkept i b hcore).mp hslot) hcore,
    fun i b hslot hcore => h.listed i b ((hkept i b hcore).mp hslot) hcore, fun p n hmem => ?_,
    h.nodup⟩
  obtain ⟨i, b, hslot, hcore, hrest⟩ := h.buffer p n hmem
  exact ⟨i, b, (hkept i b hcore).mpr hslot, hcore, hrest⟩

/-- Before a call of core `c` about the block at `p`, what else is held is put down as
another core's. -/
theorem DmaWorld.Holds.setAside (h : w.Holds held) (c : ℕ) (p : U64) : ∃ w₀ : DmaWorld,
    w₀.kernel = w.kernel ∧ w₀.rest = w.rest ∧ w₀.Holds held ∧
      ∀ i a, w₀.buf i = some a → a.core = if a.live = true ∧ a.va ≠ p then c + 1 else c := by
  refine ⟨w.recore fun _ b => if b.live = true ∧ b.va ≠ p then c + 1 else c, rfl, rfl,
    h.recore _, fun i a ha => ?_⟩
  obtain ⟨b, -, rfl⟩ := DmaWorld.recore_eq_some.mp ha
  rfl

/-- A call that is over and has kept no buffer. -/
theorem HeldAside.returned (h : HeldAside c held w) (haside : BufferAside c w)
    (hrest : AtRest c w) :
    w.Holds held := by
  refine ⟨hrest.1, fun i b hslot hlive => ?_, fun i b hslot hlive => ?_, fun p n hmem => ?_,
    h.nodup⟩
  · rcases haside i b hslot with ⟨hcore, -⟩ | hcore
    · exact hrest.2 i b hslot hcore hlive
    · exact h.spent i b hslot hcore hlive
  · rcases haside i b hslot with ⟨-, hdead⟩ | hcore
    · exact absurd (hlive.symm.trans hdead) nofun
    · exact h.listed i b hslot hcore hlive
  · obtain ⟨i, b, hslot, -, hrest⟩ := h.buffer p n hmem
    exact ⟨i, b, hslot, hrest⟩

/-- A call that has returned a buffer, which is held from then on. -/
theorem HeldAside.hold (h : HeldAside c held w) (haside : BufferAside c w) (hwork : AtWork c i b w)
    (hmapped : b.mapped = true) (hnext : b.next = 0) (hpos : 0 < b.pages)
    (hn : b.pages = (dmaPageCount size).toNat) :
    DmaWorld.Holds { w with buf := Function.update w.buf i (some { b with live := true }) }
      ((b.va, size) :: held) := by
  have hinv := hwork.inv.withLive hwork.slot true fun _ => ⟨hmapped, hnext, hpos⟩
  have hother : ∀ j a, j ≠ i → (Function.update w.buf i (some { b with live := true }) j = some a ↔
      w.buf j = some a) := by
    intro j a hji
    rw [Function.update_of_ne hji]
  have hself : Function.update w.buf i (some { b with live := true }) i =
      some { b with live := true } := Function.update_self _ _ _
  refine ⟨hinv, fun j a ha hlive => ?_, fun j a ha hlive => ?_, fun p n hmem => ?_, ?_⟩
  · by_cases hji : j = i
    · rw [hji] at ha
      obtain rfl := Option.some.inj (hself.symm.trans ha)
      exact absurd hlive nofun
    · have hslot := (hother j a hji).mp ha
      rcases haside j a hslot with ⟨hcore, -⟩ | hcore
      · exact hwork.others j a hji hslot hcore hlive
      · exact h.spent j a hslot hcore hlive
  · by_cases hji : j = i
    · rw [hji] at ha
      obtain rfl := Option.some.inj (hself.symm.trans ha)
      exact ⟨size, List.mem_cons_self, hn.symm⟩
    · have hslot := (hother j a hji).mp ha
      rcases haside j a hslot with ⟨-, hdead⟩ | hcore
      · exact absurd (hlive.symm.trans hdead) nofun
      · obtain ⟨n, hmem, hpages⟩ := h.listed j a hslot hcore hlive
        exact ⟨n, List.mem_cons_of_mem _ hmem, hpages⟩
  · rcases List.mem_cons.mp hmem with heq | hmem
    · obtain ⟨rfl, rfl⟩ := Prod.mk.inj heq
      exact ⟨i, _, hself, rfl, rfl, hn.symm⟩
    · obtain ⟨j, a, hslot, hcore, hlive, hva, hpages⟩ := h.buffer p n hmem
      have hji : j ≠ i := by
        rintro rfl
        rw [hwork.slot] at hslot
        obtain rfl := Option.some.inj hslot
        exact absurd (hlive.symm.trans hwork.busy) nofun
      exact ⟨j, a, (hother j a hji).mpr hslot, hlive, hva, hpages⟩
  · -- the address is new: a held buffer that starts there would be this one
    rw [List.map_cons, List.nodup_cons]
    refine ⟨fun hmem => ?_, h.nodup⟩
    obtain ⟨⟨p, n⟩, hmem, hp⟩ := List.mem_map.mp hmem
    obtain ⟨j, a, hslot, -, hlive, hva, -⟩ := h.buffer p n hmem
    have hpos' := ((hwork.inv.placed j a hslot).live hlive).2.2
    obtain rfl := hwork.inv.live_unique hwork.slot hslot hpos hpos' (hp.symm.trans hva.symm)
    rw [hwork.slot] at hslot
    obtain rfl := Option.some.inj hslot
    exact absurd (hlive.symm.trans hwork.busy) nofun

/-- Before a `dma_alloc`. -/
theorem DmaWorld.Holds.setAside_all (h : w.Holds held) (c : ℕ) : ∃ w₀ : DmaWorld,
    w₀.kernel = w.kernel ∧ w₀.rest = w.rest ∧ AtRest c w₀ ∧ BufferAside c w₀ ∧
    HeldAside c held w₀ := by
  obtain ⟨w₀, hkernel, hrest, hw, hcore⟩ := h.setAside c 0
  have hlive : ∀ i a, w₀.buf i = some a → a.live = true → a.core = c + 1 := by
    intro i a hslot hlive
    rw [hcore i a hslot, if_pos ⟨hlive, (hw.inv.placed i a hslot).va_ne_zero⟩]
  refine ⟨w₀, hkernel, hrest, ⟨hw.inv, fun i a hslot _ => hw.spent i a hslot⟩, fun i a hslot => ?_,
    fun i a hslot _ => hw.spent i a hslot, fun i a hslot _ => hw.listed i a hslot,
    fun q n hmem => ?_,
    hw.nodup⟩
  · by_cases hl : a.live = true
    · exact Or.inr (hlive i a hslot hl)
    · exact Or.inl ⟨by rw [hcore i a hslot, if_neg fun hand => hl hand.1], Bool.eq_false_iff.mpr hl⟩
  · obtain ⟨i, a, hslot, hl, hrest⟩ := hw.buffer q n hmem
    exact ⟨i, a, hslot, hlive i a hslot hl, hl, hrest⟩

/-- Before a `dma_free`. -/
theorem DmaWorld.Holds.setAside_but {p n : U64} (h : w.Holds (l₁ ++ (p, n) :: l₂)) (c : ℕ) :
    ∃ (w₀ : DmaWorld) (i : ℕ) (b : DmaBuffer), w₀.kernel = w.kernel ∧ w₀.rest = w.rest ∧
      AtRest c w₀ ∧ w₀.buf i = some b ∧ b.core = c ∧ b.live = true ∧ b.va = p ∧
      (dmaPageCount n).toNat = b.pages ∧ HeldAside c (l₁ ++ l₂) w₀ ∧
      ∀ j a, w₀.buf j = some a → j ≠ i → a.core = c ∧ a.live = false ∨ a.core = c + 1 := by
  obtain ⟨w₀, hkernel, hrest, hw, hcore⟩ := h.setAside c p
  obtain ⟨i, b, hslot, hlive, hva, hn⟩ :=
    hw.buffer p n (List.mem_append_right _ List.mem_cons_self)
  have hnodup := hw.nodup
  rw [List.map_append, List.map_cons] at hnodup
  have hperm := List.perm_middle.nodup hnodup
  rw [List.nodup_cons, ← List.map_append] at hperm
  refine ⟨w₀, i, b, hkernel, hrest, ⟨hw.inv, fun j a ha _ => hw.spent j a ha⟩, hslot,
    ?_, hlive, hva,
    hn, ⟨fun j a ha _ => hw.spent j a ha, fun j a ha hc hl => ?_, fun q m hmem => ?_, hperm.2⟩,
    fun j a ha hji => ?_⟩
  · rw [hcore i b hslot, if_neg fun hand => hand.2 hva]
  · obtain ⟨m, hmem, hm⟩ := hw.listed j a ha hl
    refine ⟨m, ?_, hm⟩
    rcases List.mem_append.mp hmem with hmem | hmem
    · exact List.mem_append_left _ hmem
    · rcases List.mem_cons.mp hmem with heq | hmem
      · -- the block itself is the core's own
        rw [hcore j a ha, if_neg fun hand => hand.2 (Prod.mk.inj heq).1] at hc
        exact absurd hc (Nat.succ_ne_self c).symm
      · exact List.mem_append_right _ hmem
  · have hmem' : (q, m) ∈ l₁ ++ (p, n) :: l₂ := by
      rcases List.mem_append.mp hmem with hmem | hmem
      · exact List.mem_append_left _ hmem
      · exact List.mem_append_right _ (List.mem_cons_of_mem _ hmem)
    obtain ⟨j, a, ha, hl, rfl, hm⟩ := hw.buffer q m hmem'
    have hne : a.va ≠ p := by
      rintro rfl
      exact hperm.1 (List.mem_map.mpr ⟨_, hmem, rfl⟩)
    exact ⟨j, a, ha, by rw [hcore j a ha, if_pos ⟨hl, hne⟩], hl, rfl, hm⟩
  · by_cases hl : a.live = true
    · have hne : a.va ≠ p := fun heq => hji
        (hw.inv.live_unique hslot ha ((hw.inv.placed i b hslot).live hlive).2.2
          ((hw.inv.placed j a ha).live hl).2.2 (hva.trans heq.symm)).symm
      exact Or.inr (by rw [hcore j a ha, if_pos ⟨hl, hne⟩])
    · exact Or.inl ⟨by rw [hcore j a ha, if_neg fun hand => hl hand.1], Bool.eq_false_iff.mpr hl⟩

/-! ### The frames of a block -/

/-- The frames behind the pages of a block. -/
def BlockFrame (s : Space) (block : U64 × U64) (f : U64) : Prop :=
  ∃ p < (dmaPageCount block.2).toNat, f = s.translation (pageAddr block.1 p)

theorem DmaInv.blockFrame_iff {n : U64} (h : DmaInv w) (hslot : w.buf i = some b)
    (hlive : b.live = true) (hn : (dmaPageCount n).toNat = b.pages) :
    BlockFrame w.space (b.va, n) f ↔ b.Owns f := by
  obtain ⟨-, hnext, -⟩ := (h.placed i b hslot).live hlive
  constructor
  · rintro ⟨p, hp, rfl⟩
    exact (h.frame_eq hslot hlive (hn ▸ hp)).2
  · rintro ⟨p, -, hp, rfl⟩
    exact ⟨p, hn.symm ▸ hp, (h.frame_eq hslot hlive hp).1.symm⟩

namespace DmaWorld.Holds

theorem isDmaFrame_iff (h : w.Holds held) :
    IsDmaFrame w f ↔ ∃ block ∈ held, BlockFrame w.space block f := by
  constructor
  · rintro ⟨i, b, hslot, howns⟩
    by_cases hlive : b.live = true
    · obtain ⟨n, hmem, hn⟩ := h.listed i b hslot hlive
      exact ⟨_, hmem, (h.inv.blockFrame_iff hslot hlive hn).mpr howns⟩
    · have hover := h.spent i b hslot (Bool.eq_false_iff.mpr hlive)
      rw [DmaBuffer.owns_spent hover.1] at howns
      exact howns.elim
  · rintro ⟨⟨p, n⟩, hmem, hf⟩
    obtain ⟨i, b, hslot, hlive, rfl, hn⟩ := h.buffer p n hmem
    exact ⟨i, b, hslot, (h.inv.blockFrame_iff hslot hlive hn).mp hf⟩

theorem frames_apart (h : w.Holds held) {x y : U64 × U64} (hx : x ∈ held) (hy : y ∈ held)
    (hfx : BlockFrame w.space x f) (hfy : BlockFrame w.space y f) : x = y := by
  obtain ⟨p, n⟩ := x
  obtain ⟨q, m⟩ := y
  obtain ⟨i, a, hi, halive, rfl, hn⟩ := h.buffer p n hx
  obtain ⟨j, b, hj, hblive, rfl, hm⟩ := h.buffer q m hy
  have hij := h.inv.owns_apart hi hj ((h.inv.blockFrame_iff hi halive hn).mp hfx)
    ((h.inv.blockFrame_iff hj hblive hm).mp hfy)
  rw [hij, hj] at hi
  obtain rfl := Option.some.inj hi
  exact List.inj_on_of_nodup_map h.nodup hx hy rfl

end DmaWorld.Holds

namespace DmaHeld

/-- Every data frame belongs to a block or to somebody else. -/
theorem data_iff (h : DmaHeld k held rest) :
    k.space.Data f ↔ rest f ∨ ∃ block ∈ held, BlockFrame k.space block f := by
  obtain ⟨w, rfl, rfl, hw⟩ := h
  rw [← DmaWorld.space, hw.inv.data_iff, hw.isDmaFrame_iff]

theorem not_rest (h : DmaHeld k held rest) {block : U64 × U64} (hmem : block ∈ held)
    (hf : BlockFrame k.space block f) : ¬ rest f := by
  obtain ⟨w, rfl, rfl, hw⟩ := h
  exact hw.inv.rest_apart (hw.isDmaFrame_iff.mpr ⟨block, hmem, hf⟩)

/-- No two blocks have a frame in common. -/
theorem frames_apart (h : DmaHeld k held rest) {x y : U64 × U64} (hx : x ∈ held) (hy : y ∈ held)
    (hfx : BlockFrame k.space x f) (hfy : BlockFrame k.space y f) : x = y := by
  obtain ⟨w, rfl, rfl, hw⟩ := h
  exact hw.frames_apart hx hy hfx hfy

theorem nodup (h : DmaHeld k held rest) : (held.map Prod.fst).Nodup := by
  obtain ⟨w, rfl, rfl, hw⟩ := h
  exact hw.nodup

end DmaHeld

/-- `dma_alloc` has returned the block: its frames are new. -/
structure Obtained (s s' : Space) (held : List (U64 × U64)) (block : U64 × U64) : Prop where
  fresh : ∀ f, BlockFrame s' block f → ¬ s.Data f
  data : ∀ f, s'.Data f ↔ s.Data f ∨ BlockFrame s' block f
  others : ∀ other ∈ held, ∀ f, BlockFrame s' other f ↔ BlockFrame s other f

/-- `dma_free` has been given the block: its frames, and no others, have gone back. -/
structure Returned (s s' : Space) (held : List (U64 × U64)) (block : U64 × U64) : Prop where
  had : ∀ f, BlockFrame s block f → s.Data f
  free : ∀ f, s'.pmm.Used f → s.pmm.Used f ∧ ¬ BlockFrame s block f
  data : ∀ f, s'.Data f ↔ s.Data f ∧ ¬ BlockFrame s block f
  others : ∀ other ∈ held, ∀ f, BlockFrame s' other f ↔ BlockFrame s other f

theorem DmaHeld.obtained {block : U64 × U64} (h : DmaHeld k held rest)
    (h' : DmaHeld k' (block :: held) rest)
    (hothers : ∀ other ∈ held, ∀ f, BlockFrame k'.space other f ↔ BlockFrame k.space other f) :
    Obtained k.space k'.space held block := by
  have hnew : block ∉ held := fun hmem =>
    (List.nodup_cons.mp h'.nodup).1 (List.mem_map_of_mem hmem)
  refine ⟨fun f hf hdata => ?_, fun f => ?_, hothers⟩
  · rcases h.data_iff.mp hdata with hrest | ⟨other, hmem, hother⟩
    · exact h'.not_rest List.mem_cons_self hf hrest
    · have heq := h'.frames_apart (List.mem_cons_of_mem _ hmem) List.mem_cons_self
        ((hothers other hmem f).mpr hother) hf
      exact hnew (heq ▸ hmem)
  · rw [h.data_iff, h'.data_iff, or_assoc]
    refine or_congr_right ⟨?_, ?_⟩
    · rintro ⟨other, hmem, hf⟩
      rcases List.mem_cons.mp hmem with rfl | hmem
      · exact Or.inr hf
      · exact Or.inl ⟨other, hmem, (hothers other hmem f).mp hf⟩
    · rintro (⟨other, hmem, hf⟩ | hf)
      · exact ⟨other, List.mem_cons_of_mem _ hmem, (hothers other hmem f).mpr hf⟩
      · exact ⟨block, List.mem_cons_self, hf⟩

theorem DmaHeld.gone {block : U64 × U64} (h : DmaHeld k (l₁ ++ block :: l₂) rest)
    (h' : DmaHeld k' (l₁ ++ l₂) rest)
    (hfree : ∀ f, k'.space.pmm.Used f → k.space.pmm.Used f ∧ ¬ BlockFrame k.space block f)
    (hothers : ∀ other ∈ l₁ ++ l₂, ∀ f, BlockFrame k'.space other f ↔ BlockFrame k.space other f) :
    Returned k.space k'.space (l₁ ++ l₂) block := by
  have hmid : block ∈ l₁ ++ block :: l₂ := List.mem_append_right _ List.mem_cons_self
  have hmem_iff : ∀ x, x ∈ l₁ ++ block :: l₂ ↔ x = block ∨ x ∈ l₁ ++ l₂ := by
    intro x
    rw [List.perm_middle.mem_iff, List.mem_cons]
  refine ⟨fun f hf => h.data_iff.mpr (Or.inr ⟨block, hmid, hf⟩), hfree, fun f => ?_, hothers⟩
  constructor
  · intro hdata
    refine ⟨h.data_iff.mpr ?_, (hfree f hdata.1).2⟩
    refine (h'.data_iff.mp hdata).imp_right ?_
    rintro ⟨other, hmem, hf⟩
    exact ⟨other, (hmem_iff other).mpr (Or.inr hmem), (hothers other hmem f).mp hf⟩
  · rintro ⟨hdata, hnot⟩
    refine h'.data_iff.mpr ((h.data_iff.mp hdata).imp_right ?_)
    rintro ⟨other, hmem, hf⟩
    rcases (hmem_iff other).mp hmem with rfl | hmem
    · exact absurd hf hnot
    · exact ⟨other, hmem, (hothers other hmem f).mpr hf⟩

/-! ### `dma_alloc` and `dma_free` -/

/-- The frames of the blocks that a call is not about. -/
theorem HeldAside.blockFrame_iff (h : HeldAside c held w) (hinv : DmaInv w) (hinv' : DmaInv w')
    (hpath : ReflTransGen (DmaFoot c) w w') {block : U64 × U64} (hmem : block ∈ held) :
    BlockFrame w'.space block f ↔ BlockFrame w.space block f := by
  obtain ⟨p, n⟩ := block
  obtain ⟨i, b, hslot, hcore, hlive, rfl, hn⟩ := h.buffer p n hmem
  have hslot' := (kept_aside hpath (Nat.succ_ne_self c) i hcore).mpr hslot
  rw [hinv.blockFrame_iff hslot hlive hn, hinv'.blockFrame_iff hslot' hlive hn]

/-- `dma_alloc` of at most as many pages as the window has. -/
theorem DmaHeld.alloc_small (h : DmaHeld k held rest) (hn : (dmaPageCount size).toNat ≤ dmaPages)
    (c : ℕ) : ∃ r k', run (Kernel.perform c) (dmaAlloc size) k = some (r, k') ∧
      (∀ other ∈ held, ∀ f, BlockFrame k'.space other f ↔ BlockFrame k.space other f) ∧
      (r = 0 ∧ DmaHeld k' held rest ∨ r ≠ 0 ∧ DmaHeld k' ((r, size) :: held) rest) := by
  obtain ⟨w, rfl, rfl, hw⟩ := h
  obtain ⟨w₀, hkernel, hrest, hidle, haside₀, hheld₀⟩ := hw.setAside_all c
  let Q : U64 → DmaWorld → Prop := fun r w' => r = 0 ∧ AtRest c w' ∨
    ∃ i b, r = b.va ∧ AtWork c i b w' ∧ b.mapped = true ∧ b.next = 0 ∧ 0 < b.pages ∧
      b.pages = (dmaPageCount size).toNat
  have hsafe : DmaSafe c Q ((dmaAllocSteps size).interp dmaEvent) w₀ :=
    safe_allocSteps_of hidle hn (fun _ h => Or.inl ⟨rfl, h⟩)
      fun i b _ h hmapped hnext hpos hpages => Or.inr ⟨i, b, rfl, h, hmapped, hnext, hpos, hpages⟩
  obtain ⟨r, w', hrun, hQ, hpath⟩ := hsafe.run_alone hidle.1
  have haside := run_interp_keeps (fun e w r w' => BufferAside.step) hrun haside₀
  have hsame : w'.rest = w₀.rest := run_interp_keeps (P := fun w => w.rest = w₀.rest)
    (fun e w r w' hact heq => (DmaWorld.perform_rest hact).trans heq) hrun rfl
  have hheld := hheld₀.of_path hpath
  have hinv' : DmaInv w' := by
    rcases hQ with ⟨-, hidle'⟩ | ⟨_, _, -, hwork, -⟩
    · exact hidle'.1
    · exact hwork.inv
  have hkrun := run_interp hrun
  rw [hkernel] at hkrun
  refine ⟨r, w'.kernel, hkrun, fun other hmem f => ?_, ?_⟩
  · rw [← hkernel]
    exact hheld₀.blockFrame_iff hidle.1 hinv' hpath hmem
  rcases hQ with ⟨rfl, hidle'⟩ | ⟨i, b, rfl, hwork, hmapped, hnext, hpos, hpages⟩
  · exact Or.inl ⟨rfl, w', rfl, hsame.trans hrest, hheld.returned haside hidle'⟩
  · exact Or.inr ⟨(hwork.inv.placed i b hwork.slot).va_ne_zero,
      { w' with buf := Function.update w'.buf i (some { b with live := true }) }, rfl,
      hsame.trans hrest, hheld.hold haside hwork hmapped hnext hpos hpages⟩

theorem Kernel.withVar_withVar (k : Kernel) (x : Var) (v v' : U64) :
    (k.withVar x v).withVar x v' = k.withVar x v' := by
  show ({ k with var := _ } : Kernel) = _
  rw [Kernel.withVar, Function.update_idem, Kernel.withVar]

/-- A request for more pages than there are: either the window refuses it or, where the sum
in that check wraps, no run of frames is found and the pages are given back. -/
theorem DmaHeld.alloc_large (h : DmaHeld k held rest) (hn : dmaPages < (dmaPageCount size).toNat)
    (c : ℕ) : run (Kernel.perform c) (dmaAlloc size) k = some (0, k) := by
  obtain ⟨w, rfl, rfl, hw⟩ := h
  have hinv := hw.inv
  have hreserve := run_dmaReserve (c := c) hinv.dmaFree (dmaAlignedSize size)
  have hcount : (dmaPageCount size).toNat < 2 ^ 52 := by
    rw [dmaPageCount, BitVec.toNat_udiv, toNat_pageSize]
    omega
  have hbytes : (dmaAlignedSize size).toNat = (dmaPageCount size).toNat * 4096 := by
    rw [dmaAlignedSize, BitVec.toNat_mul, toNat_pageSize]
    omega
  by_cases hfull : w.kernel.var .dmaBumpPtr + dmaAlignedSize size > dmaBase + dmaMaxSize
  · rw [if_pos hfull] at hreserve
    refine (run_bind_of_run hreserve).trans ?_
    rfl
  · rw [if_neg hfull] at hreserve
    refine (run_bind_of_run hreserve).trans ?_
    -- the sum has wrapped, so the frames asked for are more than all of RAM
    have hmany : 0x3F800000 < (dmaPageCount size).toNat * 4096 := by
      have hbump := hinv.bump_le
      have hbase : dmaBase.toNat ≤ (w.kernel.var .dmaBumpPtr).toNat := by
        obtain ⟨top, leaked, htop, hvar, -⟩ := hinv.window
        have hzero : dmaBase.toNat = 0x140000000 := rfl
        rw [hvar, toNat_dmaAt (by omega), hzero]
        omega
      have hle := BitVec.le_def.mp (BitVec.not_lt.mp hfull)
      have hlimit : (dmaBase + dmaMaxSize).toNat = 0x140100000 := rfl
      have hend : dmaBase.toNat + dmaMaxSize.toNat = 0x140100000 := rfl
      have hzero : dmaBase.toNat = 0x140000000 := rfl
      rw [BitVec.toNat_add, hbytes, hlimit] at hle
      rw [dmaPages] at hn
      omega
    set k₁ := w.kernel.withVar .dmaBumpPtr (w.kernel.var .dmaBumpPtr + dmaAlignedSize size)
    have hframes : run (Kernel.perform c) (GamingConsole.allocFrames (dmaPageCount size)) k₁ =
        some (0, k₁) := by
      have halone : Alone c k₁ (GamingConsole.allocFrames (dmaPageCount size)) k₁.space _ :=
        alone_allocFrames_given hinv.memory.wf hinv.pmmFree
      obtain ⟨r, s', hrun, ⟨rfl, rfl⟩ | ⟨-, -, hbelow, -⟩⟩ := halone.run_eq
      · exact hrun
      · omega
    refine (run_bind_of_run hframes).trans ?_
    show run (Kernel.perform c) (dmaReclaimVa (w.kernel.var .dmaBumpPtr) size >>=
      fun _ => pure 0) k₁ = _
    have hreclaim := run_dmaReclaimVa (c := c) (k := k₁) hinv.dmaFree
      (w.kernel.var .dmaBumpPtr) size
    refine (run_bind_of_run hreclaim).trans ?_
    have hback : k₁.withVar .dmaBumpPtr (w.kernel.var .dmaBumpPtr) = w.kernel :=
      (Kernel.withVar_withVar _ _ _ _).trans (Kernel.withVar_eq_self _ _)
    rw [if_pos Kernel.withVar_self, hback]
    rfl

/-- **`dma_alloc`**, of any size: it returns a block of its own, or nothing and has changed
nothing that is anyone's. -/
theorem DmaHeld.alloc (h : DmaHeld k held rest) (size : U64) (c : ℕ) :
    ∃ r k', run (Kernel.perform c) (dmaAlloc size) k = some (r, k') ∧
      (∀ other ∈ held, ∀ f, BlockFrame k'.space other f ↔ BlockFrame k.space other f) ∧
      (r = 0 ∧ DmaHeld k' held rest ∨ r ≠ 0 ∧ DmaHeld k' ((r, size) :: held) rest) := by
  by_cases hn : (dmaPageCount size).toNat ≤ dmaPages
  · exact h.alloc_small hn c
  · exact ⟨0, k, h.alloc_large (by omega) c, fun _ _ _ => Iff.rfl, Or.inl ⟨rfl, h⟩⟩

/-! ### `dma_free` -/

/-- Giving up a buffer is no step of the kernel. -/
theorem DmaWorld.perform_letGo (hslot : w.buf i = some b) :
    DmaWorld.perform c (.letGo i) w = some ((), { w with
      buf := Function.update w.buf i (some { b with live := false })
      work := Function.update w.work c i }) := by
  have hself : Function.update w.work c i c = i := Function.update_self c i w.work
  rw [DmaWorld.perform, DmaWorld.edit]
  simp only [hself, hslot]
  rfl

/-- Frames are freed and none taken. -/
theorem alone_freeFrames_used {phys : U64} (hk : k.Free .pmmLock) : ∀ (n i : ℕ) (s : Space),
    s.pmm.WF → Alone c k ((dmaFreeFrames phys n i).interp DmaAction.prog) s fun _ s' =>
      ∀ a, s'.pmm.Used a → s.pmm.Used a ∧ ∀ j, i ≤ j → j < i + n → a ≠ pageAddr phys j := by
  intro n
  induction n with
  | zero => exact fun i s hs => Alone.pure fun a ha => ⟨ha, fun j _ _ => by omega⟩
  | succ n ih =>
    intro i s hs
    refine Alone.bind (alone_freeFrame hk) fun _ s₁ hs₁ => ?_
    rw [hs₁]
    refine Alone.mono (ih (i + 1) _ (hs.freeFrame _)) fun _ s' hs' a ha => ?_
    obtain ⟨hused, hrest⟩ := hs' a ha
    obtain ⟨hused, hne⟩ := (Pmm.used_freeFrame_iff hs _ a).mp hused
    refine ⟨hused, fun j h1 h2 => ?_⟩
    by_cases hji : j = i
    · rw [hji]
      exact hne
    · exact hrest j (by omega) (by omega)

theorem Pruned.used {s s' : Space} {p : List (Fin 512)} {a : U64} (h : Pruned s s' p)
    (ha : s'.pmm.Used a) : s.pmm.Used a := by
  rcases h with ⟨-, r, hr⟩ | ⟨-, rfl⟩
  · exact ((hr.used a).mp ha).1
  · exact ha

theorem UnmapPageSpec.used {s s' : Space} {pg : Page} {found : Bool} {a : U64}
    (h : UnmapPageSpec s pg found s') (ha : s'.pmm.Used a) : s.pmm.Used a := by
  cases h with
  | hole => exact ha
  | cleared _ _ hset h3 h2 =>
    rw [← hset.pmm]
    exact h3.used (h2.used ha)

/-- `unmap` takes no frame. -/
theorem alone_unmap_used {s : Space} (hs : s.WF) (hmmu : k.Free .mmuLock) (hpmm : k.Free .pmmLock) :
    Alone c k (unmap va size) s fun _ s' => s'.WF ∧ ∀ a, s'.pmm.Used a → s.pmm.Used a := by
  have hstep : ∀ {s₁ s₂ : Space} {pg : Page} {found : Bool},
      (s₁.WF ∧ ∀ a, s₁.pmm.Used a → s.pmm.Used a) → UnmapPageSpec s₁ pg found s₂ →
        s₂.WF ∧ ∀ a, s₂.pmm.Used a → s.pmm.Used a :=
    fun h hspec => ⟨hspec.wf h.1, fun a ha => h.2 a (hspec.used ha)⟩
  refine Alone.mono (Alone.unmap (R := fun _ s' => s'.WF ∧ ∀ a, s'.pmm.Used a → s.pmm.Used a)
    (J := fun s' => s'.WF ∧ ∀ a, s'.pmm.Used a → s.pmm.Used a) hmmu hpmm (fun _ _ h => h.1)
    (fun _ _ _ _ h hspec => hstep h hspec) (fun _ _ _ _ h hspec => hstep h hspec)
    ⟨hs, fun _ ha => ha⟩) fun _ _ h => h.elim id id

/-- After `dma_free` no frame of the run is in use, and none has been taken. -/
theorem alone_dmaFree_used {s : Space} (hs : s.WF) (hmmu : k.Free .mmuLock) (hpmm : k.Free .pmmLock)
    (hva : s.translation va ≠ ~~~0) : Alone c k (dmaFree va size) s fun _ s' =>
      ∀ a, s'.pmm.Used a → s.pmm.Used a ∧
        ∀ p < (dmaPageCount size).toNat, a ≠ pageAddr (s.translation va) p := by
  refine Alone.bind (alone_translate hs hmmu va) fun phys s₁ h₁ => ?_
  obtain ⟨rfl, rfl⟩ := h₁
  simp only [Prog.bind, if_neg hva]
  refine Alone.bind (alone_unmap_used hs hmmu hpmm) fun _ s₂ hs₂ => ?_
  refine Alone.mono (alone_freeFrames_used hpmm _ 0 s₂ hs₂.1.pmm) fun _ s' hs' a ha => ?_
  obtain ⟨hused, hne⟩ := hs' a ha
  exact ⟨hs₂.2 a hused, fun p hp => hne p (Nat.zero_le p) (by omega)⟩

/-- **`dma_free`** of a block that is held: it is gone, and its frames are free. -/
theorem DmaHeld.free {p n : U64} (h : DmaHeld k (l₁ ++ (p, n) :: l₂) rest) (c : ℕ) :
    ∃ k', run (Kernel.perform c) (dmaFree p n) k = some ((), k') ∧ DmaHeld k' (l₁ ++ l₂) rest ∧
      Returned k.space k'.space (l₁ ++ l₂) (p, n) := by
  have hheld := h
  obtain ⟨w, rfl, rfl, hw⟩ := h
  obtain ⟨w₀, i, b, hkernel, hrest, hidle, hslot, hcore, hlive, rfl, hn, hheld₀, hothers⟩ :=
    hw.setAside_but c
  obtain ⟨⟨⟩, w', hrun, hidle', hpath⟩ := (safe_free hidle hslot hcore hlive hn).run_alone hidle.1
  obtain ⟨_, w₁, hgo, hrun⟩ := run_bind_eq_some hrun
  rw [run_perform, DmaWorld.perform_letGo hslot, Option.some_inj, Prod.mk.injEq] at hgo
  obtain ⟨-, rfl⟩ := hgo
  -- the others are untouched, step by step
  have haside := run_interp_keeps (fun e w r w' => BufferAside.step) hrun fun j a ha => by
    by_cases hji : j = i
    · rw [hji] at ha
      obtain rfl := Option.some.inj ((Function.update_self i _ w₀.buf).symm.trans ha)
      exact Or.inl ⟨hcore, rfl⟩
    · exact hothers j a ((Function.update_of_ne hji _ w₀.buf).symm.trans ha) hji
  have hsame : w'.rest = w₀.rest := run_interp_keeps (P := fun w => w.rest = w₀.rest)
    (fun e w r w' hact heq => (DmaWorld.perform_rest hact).trans heq) hrun rfl
  have hinterp := run_interp hrun
  have hkrun : run (Kernel.perform c) (dmaFree b.va n) w.kernel = some ((), w'.kernel) := by
    rw [← hkernel]
    exact hinterp
  have hheld' : DmaHeld w'.kernel (l₁ ++ l₂) w.rest :=
    ⟨w', rfl, hsame.trans hrest, (hheld₀.of_path hpath).returned haside hidle'⟩
  refine ⟨w'.kernel, hkrun, hheld', hheld.gone hheld' (fun f hused => ?_) fun other hmem f => ?_⟩
  · obtain ⟨hmapped, -, hpos⟩ := (hidle.1.placed i b hslot).live hlive
    -- the frames are found again through the page table
    have htrans : w.kernel.space.translation b.va = b.phys := by
      rw [← hkernel]
      exact hidle.1.translation_va hslot hmapped hpos
    have hinv := hw.inv
    have halone : Alone c w.kernel (dmaFree b.va n) w.kernel.space _ :=
      alone_dmaFree_used hinv.memory.wf hinv.mmuFree hinv.pmmFree
        (htrans ▸ (hidle.1.placed i b hslot).phys_ne)
    obtain ⟨_, s', hrun', hfree⟩ := halone.run_eq
    rw [hkrun, Option.some_inj, Prod.mk.injEq] at hrun'
    rw [hrun'.2] at hused
    obtain ⟨hwas, hne⟩ := hfree f hused
    refine ⟨hwas, ?_⟩
    rintro ⟨p, hp, rfl⟩
    have hframe := (hidle.1.frame_eq hslot hlive (hn ▸ hp)).1
    rw [DmaWorld.frame, DmaWorld.space, hkernel, ← htrans] at hframe
    exact hne p hp hframe
  · have hkept := hheld₀.blockFrame_iff (f := f) hidle.1 hidle'.1 hpath hmem
    rwa [DmaWorld.space, DmaWorld.space, hkernel] at hkept

/-! ### What holds of blocks that are held -/

/-- A request that is met is no larger than its pages. -/
theorem toNat_le_of_dmaPageCount {n : U64} (hpos : 0 < (dmaPageCount n).toNat) :
    0 < n.toNat ∧ n.toNat ≤ (dmaPageCount n).toNat * 4096 ∧
      (dmaPageCount n).toNat * 4096 < n.toNat + 4096 := by
  have hsub : n + pageSize - 1#64 = n + 4095#64 := by
    rw [pageSize]
    bv_omega
  have hcount : (dmaPageCount n).toNat = (n.toNat + 4095) % 2 ^ 64 / 4096 := by
    rw [dmaPageCount, hsub, BitVec.toNat_udiv, BitVec.toNat_add]
    rfl
  have hlt := n.isLt
  omega

namespace DmaHeld

/-- A block lies in the window, and behind it is a run of frames. -/
theorem block {p n : U64} (h : DmaHeld k held rest) (hmem : (p, n) ∈ held) :
    ∃ (q : ℕ) (phys : U64), p = dmaAt q ∧ q + (dmaPageCount n).toNat ≤ dmaPages ∧
      0 < (dmaPageCount n).toNat ∧ phys.toNat % 4096 = 0 ∧
      phys.toNat + (dmaPageCount n).toNat * 4096 ≤ 0x3F800000 ∧
      ∀ off < (dmaPageCount n).toNat * 4096,
        k.space.translation (p + BitVec.ofNat 64 off) = phys + BitVec.ofNat 64 off := by
  obtain ⟨w, rfl, rfl, hw⟩ := h
  obtain ⟨i, b, hslot, hlive, rfl, hn⟩ := hw.buffer p n hmem
  have hplaced := hw.inv.placed i b hslot
  obtain ⟨hmapped, -, hpos⟩ := hplaced.live hlive
  rw [hn]
  exact ⟨b.first, b.phys, hplaced.va_eq, hplaced.fits, hpos, hplaced.aligned, hplaced.below,
    fun off hoff => hw.inv.translation hslot hmapped hoff⟩

/-- No two blocks have an address in common. -/
theorem apart {x y : U64 × U64} (h : DmaHeld k held rest) (hx : x ∈ held) (hy : y ∈ held) {v : ℕ}
    (hvx : x.1.toNat ≤ v ∧ v < x.1.toNat + (dmaPageCount x.2).toNat * 4096)
    (hvy : y.1.toNat ≤ v ∧ v < y.1.toNat + (dmaPageCount y.2).toNat * 4096) : x = y := by
  obtain ⟨w, rfl, rfl, hw⟩ := h
  obtain ⟨p, n⟩ := x
  obtain ⟨q, m⟩ := y
  obtain ⟨i, a, hi, -, rfl, hn⟩ := hw.buffer p n hx
  obtain ⟨j, b, hj, -, rfl, hm⟩ := hw.buffer q m hy
  rw [hn] at hvx
  rw [hm] at hvy
  have hij := hw.inv.apart hi hj ((hw.inv.placed i a hi).covers_of_reaches hvx).1
    ((hw.inv.placed j b hj).covers_of_reaches hvy).1
  rw [hij, hj] at hi
  obtain rfl := Option.some.inj hi
  exact List.inj_on_of_nodup_map hw.nodup hx hy rfl

/-- Exactly the pages of the blocks are mapped. -/
theorem mapped_iff (h : DmaHeld k held rest) {q : ℕ} (hq : q < dmaPages) :
    k.space.Mapped (dmaPage q) ↔ ∃ block ∈ held, ∃ p < (dmaPageCount block.2).toNat,
      dmaAt q = pageAddr block.1 p := by
  obtain ⟨w, rfl, rfl, hw⟩ := h
  refine (hw.inv.mapped_iff hq).trans ⟨?_, ?_⟩
  · rintro ⟨i, b, hslot, hmapped, hfirst, hlast⟩
    have hlive : b.live = true := by
      by_contra hdead
      have hover := hw.spent i b hslot (Bool.eq_false_iff.mpr hdead)
      exact absurd (hmapped.symm.trans hover.2) nofun
    obtain ⟨n, hmem, hn⟩ := hw.listed i b hslot hlive
    refine ⟨_, hmem, q - b.first, by rw [hn]; omega, ?_⟩
    rw [(hw.inv.placed i b hslot).va_eq, dmaAt, dmaAt, pageAddr_add, Nat.add_sub_cancel' hfirst]
  · rintro ⟨⟨p, n⟩, hmem, j, hj, heq⟩
    obtain ⟨i, b, hslot, hlive, rfl, hn⟩ := hw.buffer p n hmem
    have hplaced := hw.inv.placed i b hslot
    have hfits := hplaced.fits
    have hpage : q = b.first + j := by
      rw [hplaced.va_eq, dmaAt, dmaAt, pageAddr_add] at heq
      exact dmaAt_inj (by omega) (by rw [hn] at hj; omega) heq
    exact ⟨i, b, hslot, (hplaced.live hlive).1, by omega, by rw [hn] at hj; omega⟩

theorem perm {held' : List (U64 × U64)} (h : DmaHeld k held rest) (hperm : held.Perm held') :
    DmaHeld k held' rest := by
  obtain ⟨w, rfl, rfl, hw⟩ := h
  refine ⟨w, rfl, rfl, hw.inv, hw.spent, fun i b hslot hlive => ?_, fun p n hmem => ?_,
    (hperm.map Prod.fst).nodup hw.nodup⟩
  · obtain ⟨n, hmem, hn⟩ := hw.listed i b hslot hlive
    exact ⟨n, hperm.mem_iff.mp hmem, hn⟩
  · exact hw.buffer p n (hperm.mem_iff.mpr hmem)

/-- There are no more blocks than the window has pages. -/
theorem length_le (h : DmaHeld k held rest) : held.length ≤ dmaPages := by
  have hsub : held.map Prod.fst ⊆ (List.range dmaPages).map dmaAt := by
    intro p hp
    obtain ⟨⟨p, n⟩, hmem, rfl⟩ := List.mem_map.mp hp
    obtain ⟨q, phys, rfl, hfits, hpos, -⟩ := h.block hmem
    exact List.mem_map_of_mem (List.mem_range.mpr (by omega))
  have hle := (List.subperm_of_subset h.nodup hsub).length_le
  rwa [List.length_map, List.length_map, List.length_range] at hle

end DmaHeld

/-! ### The rest of the kernel -/

/-- The frames behind the mapped pages of the window. -/
def BehindWindow (s : Space) (f : U64) : Prop :=
  ∃ q < dmaPages, s.Mapped (dmaPage q) ∧ f = s.translation (dmaAt q)

/-- The window is left alone, and its locks are free again. -/
structure DmaUntouched (k k' : Kernel) : Prop where
  space : Elsewhere InDmaWindow (BehindWindow k.space) k.space k'.space
  bump : k'.var .dmaBumpPtr = k.var .dmaBumpPtr
  dmaFree : k'.Free .dmaLock
  mmuFree : k'.Free .mmuLock
  pmmFree : k'.Free .pmmLock

theorem DmaHeld.behind (h : DmaHeld k held rest) {block : U64 × U64} (hmem : block ∈ held)
    (hf : BlockFrame k.space block f) : BehindWindow k.space f := by
  obtain ⟨p, hp, rfl⟩ := hf
  obtain ⟨q, phys, hva, hfits, -⟩ := h.block hmem
  have haddr : dmaAt (q + p) = pageAddr block.1 p := by
    rw [hva, dmaAt, dmaAt, pageAddr_add]
  refine ⟨q + p, by omega, (h.mapped_iff (by omega)).mpr ⟨block, hmem, p, hp, haddr⟩, ?_⟩
  rw [haddr]

/-- **The rest of the kernel** takes no block from its owner. -/
theorem DmaHeld.others (h : DmaHeld k held rest) (ho : DmaUntouched k k') :
    ∃ rest', DmaHeld k' held rest' ∧
      ∀ block ∈ held, ∀ f, BlockFrame k'.space block f ↔ BlockFrame k.space block f := by
  have hbehind : ∀ {block f}, block ∈ held → BlockFrame k.space block f → BehindWindow k.space f :=
    fun hmem hf => h.behind hmem hf
  obtain ⟨w, rfl, rfl, hw⟩ := h
  have hframe : ∀ f, IsDmaFrame w f → BehindWindow w.kernel.space f := by
    intro f hf
    obtain ⟨block, hmem, hbf⟩ := hw.isDmaFrame_iff.mp hf
    exact hbehind hmem hbf
  have hstep : DmaOthers w _ := .mk k' ⟨ho.space.wf, ho.space.leaf,
    fun a ha => ho.space.data a (hframe a ha)⟩ ho.bump ho.dmaFree ho.mmuFree ho.pmmFree
  have hinv' := hw.inv.others hstep
  refine ⟨_, ⟨_, rfl, rfl, hinv', hw.spent, hw.listed, hw.buffer, hw.nodup⟩, ?_⟩
  rintro ⟨p, n⟩ hmem f
  obtain ⟨i, b, hslot, hlive, rfl, hn⟩ := hw.buffer p n hmem
  rw [← DmaWorld.space, hw.inv.blockFrame_iff hslot hlive hn]
  exact hinv'.blockFrame_iff hslot hlive hn

/-- Where no buffer has been reserved, none is held. -/
theorem DmaHeld.of_unused (h : DmaInv w) (hbuf : w.buf = fun _ => none) :
    DmaHeld w.kernel [] w.rest := by
  refine ⟨w, rfl, rfl, h, fun _ _ ha => ?_, fun _ _ ha => ?_, fun _ _ ha => ?_, List.nodup_nil⟩
  · rw [hbuf] at ha
    exact absurd ha nofun
  · rw [hbuf] at ha
    exact absurd ha nofun
  · exact absurd ha List.not_mem_nil

/-- At boot nothing is held. -/
theorem dmaHeld_boot (board : Board) : DmaHeld board.kernel [] board.space.Data :=
  DmaHeld.of_unused (dmaInv_boot board) rfl

/-! ### The pages outside of the window -/

/-- Nobody is in one of the allocators. -/
theorem DmaHeld.idle (h : DmaHeld k held rest) :
    k.space.WF ∧ k.Free .dmaLock ∧ k.Free .mmuLock ∧ k.Free .pmmLock := by
  obtain ⟨w, rfl, -, hw⟩ := h
  exact ⟨hw.inv.memory.wf, hw.inv.dmaFree, hw.inv.mmuFree, hw.inv.pmmFree⟩

/-- Where the next request starts. -/
theorem DmaHeld.bump (h : DmaHeld k held rest) :
    ∃ top ≤ dmaPages, k.var .dmaBumpPtr = dmaAt top := by
  obtain ⟨w, rfl, -, hw⟩ := h
  obtain ⟨top, -, htop, hbump, -⟩ := hw.inv.window
  exact ⟨top, htop, hbump⟩

/-- The pages of a request that fits. -/
theorem inDmaWindow_of_inRange {top : ℕ} {pg : Page}
    (hfit : top + (dmaPageCount size).toNat ≤ dmaPages)
    (hpg : InRange (dmaAt top) (dmaAlignedSize size) pg) : InDmaWindow pg := by
  obtain ⟨i, hi, rfl⟩ := hpg
  rw [numPages_dmaAlignedSize (by omega)] at hi
  exact ⟨top + i, by omega, pageAt_dmaAt top i⟩

theorem alone_freeFrames_tables {phys : U64} (hk : k.Free .pmmLock) : ∀ (n i : ℕ) (s : Space),
    Alone c k ((dmaFreeFrames phys n i).interp DmaAction.prog) s fun _ s' => SameTables s s' := by
  intro n
  induction n with
  | zero => exact fun i s => Alone.pure ⟨rfl, fun _ _ => rfl⟩
  | succ n ih =>
    intro i s
    refine Alone.bind (alone_freeFrame hk) fun _ s₁ hs₁ => ?_
    rw [hs₁]
    exact Alone.mono (ih (i + 1) _) fun _ s' hs' => (sameTables_pmm _).trans hs'

/-- `dma_free` of a block that is held changes no page outside of the window. -/
theorem DmaHeld.free_leaf {p n : U64} (h : DmaHeld k held rest) (hmem : (p, n) ∈ held)
    (hrun : run (Kernel.perform c) (dmaFree p n) k = some ((), k')) {pg : Page}
    (hpg : ¬ InDmaWindow pg) : k'.space.leaf pg = k.space.leaf pg := by
  obtain ⟨q, phys, rfl, hfit, -⟩ := h.block hmem
  obtain ⟨hwf, -, hmmu, hpmm⟩ := h.idle
  have halone : Alone c k (dmaFree (dmaAt q) n) k.space fun _ s' =>
      ∀ pg, ¬ InDmaWindow pg → s'.leaf pg = k.space.leaf pg := by
    refine Alone.bind (alone_translate hwf hmmu (dmaAt q)) fun phys s₁ h₁ => ?_
    obtain ⟨rfl, -⟩ := h₁
    by_cases hphys : phys = ~~~0
    · simp only [Prog.bind, if_pos hphys]
      exact Alone.pure fun _ _ => rfl
    · simp only [Prog.bind, if_neg hphys]
      refine Alone.bind (alone_unmap_inside hwf hmmu hpmm) fun _ s₂ h₂ => ?_
      refine Alone.mono (alone_freeFrames_tables hpmm _ 0 s₂) fun _ s' hs' pg hpg => ?_
      rw [hs'.leaf, h₂.leaf pg fun hin => hpg (inDmaWindow_of_inRange hfit hin)]
  obtain ⟨s', rfl, hs'⟩ := halone.of_run hrun
  exact hs' pg hpg

/-- `dma_alloc` changes no page outside of the window. -/
theorem DmaHeld.alloc_leaf {r : U64} (h : DmaHeld k held rest)
    (hn : (dmaPageCount size).toNat ≤ dmaPages)
    (hrun : run (Kernel.perform c) (dmaAlloc size) k = some (r, k')) {pg : Page}
    (hpg : ¬ InDmaWindow pg) : k'.space.leaf pg = k.space.leaf pg := by
  obtain ⟨hwf, hdma, hmmu, hpmm⟩ := h.idle
  obtain ⟨top, htop, hbump⟩ := h.bump
  have hreserve := run_dmaReserve (c := c) hdma (dmaAlignedSize size)
  obtain ⟨reserved, k₁, hrun₁, hrest⟩ := run_bind_eq_some
      (p := dmaReserve (dmaAlignedSize size)) hrun
  rw [hreserve, hbump, dmaAt_add hn] at hrun₁
  by_cases hfull : dmaAt (top + (dmaPageCount size).toNat) > dmaBase + dmaMaxSize
  · rw [if_pos hfull, Option.some_inj, Prod.mk.injEq] at hrun₁
    obtain ⟨rfl, rfl⟩ := hrun₁
    obtain ⟨rfl, rfl⟩ := Prod.mk.inj (Option.some.inj hrest)
    rfl
  · rw [if_neg hfull, Option.some_inj, Prod.mk.injEq] at hrun₁
    obtain ⟨rfl, rfl⟩ := hrun₁
    have hfit := fits_of_not_full htop hn hfull
    set k₁ := k.withVar .dmaBumpPtr (dmaAt (top + (dmaPageCount size).toNat))
    -- the error paths give back the addresses only
    have hreclaim : ∀ s', (∀ pg, ¬ InDmaWindow pg → s'.leaf pg = k.space.leaf pg) →
        Yields (Kernel.perform c) (dmaReclaimVa (dmaAt top) size >>= fun _ => pure (0 : U64))
          (k₁.withSpace s') fun _ k' => ∀ pg, ¬ InDmaWindow pg →
            k'.space.leaf pg = k.space.leaf pg := by
      intro s' hs'
      have hrun := run_dmaReclaimVa (c := c) (k := k₁.withSpace s') hdma (dmaAt top) size
      exact ⟨0, _, (run_bind_of_run hrun).trans rfl, hs'⟩
    refine Yields.of_run (Q := fun _ k' => ∀ pg, ¬ InDmaWindow pg →
      k'.space.leaf pg = k.space.leaf pg) ?_ hrest pg hpg
    have hframes : Alone c k₁ (GamingConsole.allocFrames (dmaPageCount size)) k.space _ :=
      alone_allocFrames_given hwf hpmm
    refine Yields.bind hframes fun phys k₂ h₂ => ?_
    obtain ⟨s₂, rfl, ⟨rfl, rfl⟩ | ⟨hphys, -, -, hgiven⟩⟩ := h₂
    · exact hreclaim _ fun _ _ => rfl
    · simp only [Prog.bind, if_neg hphys]
      have hmap : Alone c k₁
          (GamingConsole.map (dmaAt top) phys (dmaAlignedSize size) pteNormalNcRw)
          s₂ _ := alone_map_inside hgiven.wf hmmu hpmm
      refine Yields.bind hmap fun mapped k₃ h₃ => ?_
      obtain ⟨s₃, rfl, hkept⟩ := h₃
      have hleaf : ∀ pg, ¬ InDmaWindow pg → s₃.leaf pg = k.space.leaf pg := fun pg hpg =>
        (hkept.leaf pg fun hin => hpg (inDmaWindow_of_inRange hfit hin)).trans
          (hgiven.tables.leaf pg)
      -- `map` has kept to its range, done or not
      cases mapped with
      | true => exact ⟨_, _, rfl, hleaf⟩
      | false =>
        show Yields _ ((dmaFreeFrames phys _ 0 >>= fun _ => dma (.reclaim (dmaAt top) size) >>=
          fun _ => pure (0 : U64)).interp DmaAction.prog) _ _
        rw [interp_bind]
        have hfree : Alone c k₁ ((dmaFreeFrames phys _ 0).interp DmaAction.prog) s₃ _ :=
          alone_freeFrames_tables (show k₁.Free .pmmLock from hpmm) (dmaPageCount size).toNat 0 s₃
        refine Yields.bind hfree fun _ k₄ h₄ => ?_
        obtain ⟨s₄, rfl, hsame⟩ := h₄
        exact hreclaim _ fun pg hpg => (hsame.leaf pg).trans (hleaf pg hpg)

theorem alone_freeFrames_budget {phys : U64} (hk : k.Free .pmmLock)
    (hQ : ∀ q ∈ Q, q.length ≤ 2) : ∀ (n i : ℕ) (s : Space), s.pmm.WF → Budget s Q r →
      Alone c k ((dmaFreeFrames phys n i).interp DmaAction.prog) s fun _ s' => Budget s' Q r := by
  intro n
  induction n with
  | zero => exact fun i s _ h => Alone.pure h
  | succ n ih =>
    intro i s hwf h
    refine Alone.bind (alone_freeFrame hk) fun _ s₁ hs₁ => ?_
    rw [hs₁]
    exact ih (i + 1) _ (hwf.freeFrame _) (h.freeFrame hwf hQ _)

/-- `dma_free` leaves what is planned possible. -/
theorem alone_dmaFree_budget {s : Space} (hwf : s.WF) (hmmu : k.Free .mmuLock)
    (hpmm : k.Free .pmmLock) (h : Budget s Q r) (hQ : ∀ q ∈ Q, q.length ≤ 2) :
    Alone c k (dmaFree va size) s fun _ s' => Budget s' Q r := by
  refine Alone.bind (alone_translate hwf hmmu va) fun phys s₁ h₁ => ?_
  obtain ⟨rfl, -⟩ := h₁
  by_cases hphys : phys = ~~~0
  · simp only [Prog.bind, if_pos hphys]
    exact Alone.pure h
  · simp only [Prog.bind, if_neg hphys]
    refine Alone.bind (alone_unmap_budget hwf hmmu hpmm h hQ) fun _ s₂ h₂ => ?_
    exact alone_freeFrames_budget hpmm hQ _ 0 s₂ h₂.1.pmm h₂.2

/-- A request for one page, where the window has one and there are frames for all that is
planned. -/
theorem DmaHeld.alloc_budget {top : ℕ} (h : DmaHeld k held rest)
    (hbump : k.var .dmaBumpPtr = dmaAt top) (htop : top < dmaPages) (hone : dmaPageCount size = 1)
    (hb : Budget k.space Q (r + 1)) (hQ : ∀ q ∈ Q, q.length ≤ 2)
    (hpage : (dmaPage top).l2Path ∈ Q ∧ (dmaPage top).l3Path ∈ Q) :
    ∃ k', run (Kernel.perform c) (dmaAlloc size) k = some (dmaAt top, k') ∧
      k'.var .dmaBumpPtr = dmaAt (top + 1) ∧ Budget k'.space Q r := by
  obtain ⟨hwf, hdma, hmmu, hpmm⟩ := h.idle
  have hn : (dmaPageCount size).toNat = 1 := by
    rw [hone]
    rfl
  have hsmall : (dmaPageCount size).toNat ≤ dmaPages := by
    rw [hn]
    decide
  have hreserve := run_dmaReserve (c := c) hdma (dmaAlignedSize size)
  have hroom : ¬ dmaAt (top + (dmaPageCount size).toNat) > dmaBase + dmaMaxSize := by
    have hlimit : (dmaBase + dmaMaxSize).toNat = 0x140000000 + dmaPages * 4096 := rfl
    refine BitVec.not_lt.mpr (BitVec.le_def.mpr ?_)
    rw [toNat_dmaAt (by omega), hlimit, hn]
    omega
  rw [hbump, dmaAt_add hsmall, if_neg hroom] at hreserve
  set k₁ := k.withVar .dmaBumpPtr (dmaAt (top + (dmaPageCount size).toNat))
  have hmmu₁ : k₁.Free .mmuLock := hmmu
  have hpmm₁ : k₁.Free .pmmLock := hpmm
  -- the data frame
  have hframes : Alone c k₁ (GamingConsole.allocFrames (dmaPageCount size)) k₁.space fun p s' =>
      p ≠ 0 ∧ s'.WF ∧ Budget s' Q r := by
    rw [hone]
    refine Alone.mono ((alone_allocFrames_one hpmm₁).and (alone_allocFrames_given hwf hpmm₁))
      fun p s' hs' => ?_
    obtain ⟨hp, hb'⟩ := hb.alloc hs'.1 hwf hQ
    exact ⟨hp, (hs'.2.resolve_left fun hnone => hp hnone.1).2.2.2.wf, hb'⟩
  obtain ⟨p, s₂, hrun₂, hp, hwf₂, hb₂⟩ := hframes.run_eq
  -- the page of the window
  have hmap : Alone c (k₁.withSpace s₂)
      (GamingConsole.map (dmaAt top) p (dmaAlignedSize size) pteNormalNcRw) s₂ fun done s' =>
        done = true ∧ Budget s' Q r := by
    refine alone_map_budget hwf₂ hmmu₁ hpmm₁ hb₂ hQ fun i hi => ?_
    rw [numPages_dmaAlignedSize hsmall, hn, Nat.lt_one_iff] at hi
    rw [hi, pageAt_dmaAt]
    exact hpage
  obtain ⟨_, s₃, hrun₃, rfl, hb₃⟩ := hmap.run_eq
  refine ⟨(k₁.withSpace s₂).withSpace s₃, ?_, ?_, hb₃⟩
  case refine_2 =>
    show Function.update k.var .dmaBumpPtr (dmaAt (top + (dmaPageCount size).toNat))
      .dmaBumpPtr = _
    rw [Function.update_self, hn]
  refine (run_bind_of_run hreserve).trans ?_
  refine (run_bind_of_run hrun₂).trans ?_
  simp only [Prog.bind, if_neg hp]
  exact (run_bind_of_run hrun₃).trans rfl

end GamingConsole
