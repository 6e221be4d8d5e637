/-
The page-table code running alone.

`Alone c k p s P` says that core `c`, running `p` without interruption from
memory `s`, returns with a result and a memory that satisfy `P`, everything else
being as in `k` again.  Each function of `mmu.cpp` gets one lemma that says what
it can do in terms of `Added`, `Removed` and `LeafSet`; loops get a rule that
asks for an invariant.
-/
import GamingConsole.Mmu
import GamingConsole.TableSteps

namespace GamingConsole

open Prog Space PointerTree

/-- A complete run of `p` on core `c`, from memory `s` to a memory in `P`. -/
def Alone {α : Type} (c : ℕ) (k : Kernel) (p : KProg α) (s : Space) (P : α → Space → Prop) : Prop :=
  Yields (Kernel.perform c) p (k.withSpace s) fun a k' => ∃ s', k' = k.withSpace s' ∧ P a s'

namespace Alone

variable {α β : Type} {c : ℕ} {k : Kernel} {s s' : Space} {P Q : α → Space → Prop} {p : KProg α}

theorem pure {a : α} (h : P a s) : Alone c k (pure a) s P := Yields.ret ⟨s, rfl, h⟩

theorem bind {f : α → KProg β} {Q : β → Space → Prop} (hp : Alone c k p s P)
    (hf : ∀ a s', P a s' → Alone c k (f a) s' Q) : Alone c k (p >>= f) s Q := by
  refine Yields.bind hp fun a k' h => ?_
  obtain ⟨s', rfl, ha⟩ := h
  exact hf a s' ha

theorem mono (hp : Alone c k p s P) (h : ∀ a s', P a s' → Q a s') : Alone c k p s Q := by
  refine Yields.mono hp fun a k' hk => ?_
  obtain ⟨s', hs', ha⟩ := hk
  exact ⟨s', hs', h a s' ha⟩

/-- A run has one outcome. -/
theorem and (hp : Alone c k p s P) (hp' : Alone c k p s Q) :
    Alone c k p s fun a s' => P a s' ∧ Q a s' := by
  obtain ⟨a, k', hrun, s', rfl, ha⟩ := hp
  obtain ⟨s'', heq, ha'⟩ := hp'.of_run hrun
  have hs : s' = s'' := congrArg Kernel.space heq
  rw [← hs] at ha'
  exact ⟨a, _, hrun, s', rfl, ha, ha'⟩

theorem step {e : Action} {f : e.Answer → KProg β} {Q : β → Space → Prop} {r : e.Answer}
    (hact : Kernel.perform c e (k.withSpace s) = some (r, k.withSpace s'))
    (hf : Alone c k (f r) s' Q) : Alone c k (act e >>= f) s Q := Yields.step hact hf

theorem perform {e : Action} {P : e.Answer → Space → Prop} {r : e.Answer}
    (hact : Kernel.perform c e (k.withSpace s) = some (r, k.withSpace s')) (h : P r s') :
    Alone c k (act e) s P := Yields.perform hact ⟨s', rfl, h⟩

theorem critical {l : Lock} (hfree : k.Free l) (hp : Alone c (k.entered c l) p s P) :
    Alone c k (critical l p) s P := by
  have hfree' : (k.withSpace s).Free l := hfree
  have hent : (k.withSpace s).entered c l = (k.entered c l).withSpace s := by
    rw [Kernel.entered, Kernel.entered]
    cases hm : k.mmuActive <;> simp [hm] <;> rfl
  obtain ⟨a, k', hrun, s', rfl, ha⟩ := hp
  refine ⟨a, k.withSpace s', ?_, s', rfl, ha⟩
  rw [← hent] at hrun
  exact Kernel.run_critical hfree' hrun (Kernel.spinUnlock_entered hfree)

/-- Read an `Alone` fact back as a run. -/
theorem run_eq (hp : Alone c k p k.space P) :
    ∃ a s', run (Kernel.perform c) p k = some (a, k.withSpace s') ∧ P a s' := by
  obtain ⟨a, k', hrun, s', rfl, ha⟩ := hp
  exact ⟨a, s', hrun, ha⟩

end Alone

variable {c : ℕ} {k : Kernel} {s s' : Space} {p q : List (Fin 512)} {t a : U64} {i : Fin 512}
  {pg : Page}

/-! ### Frames -/

/-- What `alloc_frame` can do: nothing is free, or frame `f` is marked. -/
inductive AllocSpec (s : Space) : U64 → Space → Prop where
  | none (h : s.pmm.freeCount = 0) : AllocSpec s 0 s
  | some (f : ℕ) (hf : f < s.pmm.totalFrames.toNat) (hb : s.pmm.bit f = false) :
      AllocSpec s (s.pmm.frame f) { s with pmm := s.pmm.mark f }

theorem alone_allocFrame (h : s.pmm.WF) (hk : k.Free .pmmLock) :
    Alone c k allocFrame s (AllocSpec s) := by
  refine Alone.critical hk (Alone.perform rfl ?_)
  show AllocSpec s (Pmm.allocFrame s.pmm).1 { s with pmm := (Pmm.allocFrame s.pmm).2 }
  rcases Pmm.allocFrame_cases h with ⟨hall, heq⟩ | ⟨f, hf, hb, -, heq⟩
  · rw [heq]
    exact .none (Pmm.freeCount_eq_zero_iff.mpr hall)
  · rw [heq]
    exact .some f hf hb

theorem alone_freeFrame (hk : k.Free .pmmLock) :
    Alone c k (freeFrame a) s fun _ s' => s' = { s with pmm := Pmm.freeFrame s.pmm a } := by
  rw [freeFrame]
  refine Alone.step (r := s.pmm.inRange a) rfl ?_
  by_cases hr : s.pmm.inRange a = true
  · rw [if_pos hr]
    exact Alone.critical hk (Alone.perform rfl rfl)
  · rw [if_neg hr]
    refine Alone.pure ?_
    rw [Pmm.freeFrame, if_neg hr]

/-! ### Tables -/

/-- `r` is the table at `p` in `s'`, found there or just added. -/
def Ensured (s s' : Space) (p : List (Fin 512)) (r : U64) : Prop :=
  s.table p = some r ∧ s' = s ∨ Added s s' p r

theorem Ensured.wf (he : Ensured s s' p a) (h : s.WF) : s'.WF := by
  rcases he with ⟨-, rfl⟩ | he
  · exact h
  · exact he.wf

theorem Ensured.table_self (he : Ensured s s' p a) : s'.table p = some a := by
  rcases he with ⟨ht, rfl⟩ | he
  · exact ht
  · rw [he.table p he.depth, if_pos rfl]

theorem Ensured.table_mono (he : Ensured s s' p a) (hq : q.length ≤ 2) (ht : s.table q = some t) :
    s'.table q = some t := by
  rcases he with ⟨-, rfl⟩ | he
  · exact ht
  · rw [he.table q hq, if_neg, ht]
    rintro rfl
    rw [he.free] at ht
    exact absurd ht (by simp)

theorem Ensured.leaf (he : Ensured s s' p a) (pg : Page) : s'.leaf pg = s.leaf pg := by
  rcases he with ⟨-, rfl⟩ | he
  · rfl
  · exact he.leaf pg

theorem Ensured.ne_zero (he : Ensured s s' p a) (h : s.WF) (hp : p.length ≤ 2) : a ≠ 0 :=
  ((he.wf h).table_used hp he.table_self).ne_zero (he.wf h).pmm

/-- What `_get_or_alloc_table` can do for the table at `p`. -/
inductive GetOrAllocSpec (s : Space) (p : List (Fin 512)) : U64 → Space → Prop where
  | table {r : U64} {s' : Space} (he : Ensured s s' p r) : GetOrAllocSpec s p r s'
  | outOfFrames (hnone : s.table p = none) (hfull : s.pmm.freeCount = 0) : GetOrAllocSpec s p 0 s

theorem alone_getOrAllocTable (h : s.WF) (hk : k.Free .pmmLock) (hq : q.length ≤ 1)
    (ht : s.table q = some t) :
    Alone c k (getOrAllocTable t i) s (GetOrAllocSpec s (i :: q)) := by
  rw [getOrAllocTable]
  refine Alone.step (r := s.mem t i) rfl ?_
  have htable : s.table (i :: q) = nextTable (s.mem t i) := table_cons ht
  by_cases hvalid : s.mem t i &&& 1#64 ≠ 0
  · rw [if_pos hvalid]
    rw [nextTable, if_pos hvalid] at htable
    exact Alone.pure (.table (Or.inl ⟨htable, rfl⟩))
  · rw [if_neg hvalid]
    rw [nextTable, if_neg hvalid] at htable
    refine Alone.bind (alone_allocFrame h.pmm hk) fun child s₁ halloc => ?_
    cases halloc with
    | none hfull =>
      rw [if_pos rfl]
      exact Alone.pure (.outOfFrames htable hfull)
    | some f hf hb =>
      rw [if_neg (Pmm.frame_ne_zero h.pmm hf)]
      refine Alone.step (r := ()) rfl (Alone.step (r := ()) rfl (Alone.pure (.table (Or.inr ?_))))
      exact Added.of_alloc h hf hb hq ht htable rfl

/-- The empty table at `p` is gone, or the table at `p` is not empty. -/
def Pruned (s s' : Space) (p : List (Fin 512)) : Prop :=
  s.EmptyTable p ∧ (∃ r, Removed s s' p r) ∨ ¬ s.EmptyTable p ∧ s' = s

theorem Pruned.wf (hp : Pruned s s' p) (h : s.WF) : s'.WF := by
  rcases hp with ⟨-, r, hr⟩ | ⟨-, rfl⟩
  · exact hr.wf
  · exact h

theorem Pruned.leaf (hp : Pruned s s' p) (pg : Page) : s'.leaf pg = s.leaf pg := by
  rcases hp with ⟨-, r, hr⟩ | ⟨-, rfl⟩
  · exact hr.leaf pg
  · rfl

theorem Pruned.frames (hp : Pruned s s' p) : SameFrames s s' := by
  rcases hp with ⟨-, r, hr⟩ | ⟨-, rfl⟩
  · exact hr.frames
  · exact SameFrames.refl _

theorem Pruned.table_of_ne (hp : Pruned s s' p) (hq : q.length ≤ 2) (hne : q ≠ p) :
    s'.table q = s.table q := by
  rcases hp with ⟨-, r, hr⟩ | ⟨-, rfl⟩
  · rw [hr.table q hq, if_neg hne]
  · rfl

theorem alone_freeIfEmpty (h : s.WF) (hk : k.Free .pmmLock) (hq : q.length ≤ 1)
    (ht : s.table q = some t) (ha : s.table (i :: q) = some a) :
    Alone c k (freeIfEmpty t i a) s fun _ s' => Pruned s s' (i :: q) := by
  have hiff : s.tableIsEmpty a = true ↔ s.EmptyTable (i :: q) := by
    rw [tableIsEmpty_iff]
    constructor
    · exact fun hzero => ⟨a, ha, hzero⟩
    · rintro ⟨b, hb, hzero⟩
      rw [ha, Option.some_inj] at hb
      rwa [hb]
  rw [freeIfEmpty]
  refine Alone.step (r := s.tableIsEmpty a) rfl ?_
  by_cases hempty : s.tableIsEmpty a = true
  · rw [if_pos hempty]
    obtain ⟨b, hb, hzero⟩ := hiff.mp hempty
    rw [ha, Option.some_inj] at hb
    subst hb
    refine Alone.step (r := ()) rfl (Alone.mono (alone_freeFrame hk) fun _ s' hs' => ?_)
    rw [hs']
    exact Or.inl ⟨hiff.mp hempty, a, Removed.of_free h ⟨hq, ht, ha, funext hzero⟩⟩
  · rw [if_neg hempty]
    exact Alone.pure (Or.inr ⟨fun he => hempty (hiff.mpr he), rfl⟩)

/-! ### Pages -/

/-- What one iteration of the loop of `map` can do. -/
inductive MapPageSpec (s : Space) (pg : Page) (desc : U64) : Bool → Space → Prop where
  | mapped {t₂ t₃ : U64} {s₁ s₂ s' : Space} (h2 : Ensured s s₁ pg.l2Path t₂)
      (h3 : Ensured s₁ s₂ pg.l3Path t₃) (hset : LeafSet s₂ s' pg desc) :
      MapPageSpec s pg desc true s'
  | noL2 (hnone : s.table pg.l2Path = none) (hfull : s.pmm.freeCount = 0) :
      MapPageSpec s pg desc false s
  | noL3 {t₂ : U64} {s₁ : Space} (h2 : Ensured s s₁ pg.l2Path t₂)
      (hnone : s₁.table pg.l3Path = none) (hfull : s₁.pmm.freeCount = 0) :
      MapPageSpec s pg desc false s₁

theorem alone_mapPage (h : s.WF) (hk : k.Free .pmmLock) (va phys flags : U64) :
    Alone c k (mapPage va phys flags) s
      (MapPageSpec s (pageOf va) (phys ||| flags ||| 3#64)) := by
  rw [mapPage]
  refine Alone.step (r := s.l1Table) rfl ?_
  refine Alone.bind (alone_getOrAllocTable (q := []) h hk (by simp) rfl) fun l2Table s₁ hl2 => ?_
  cases hl2 with
  | outOfFrames hnone hfull =>
    rw [if_pos rfl]
    exact Alone.pure (.noL2 hnone hfull)
  | table h2 =>
    rw [if_neg (h2.ne_zero h (by simp))]
    have hwf₁ := h2.wf h
    refine Alone.bind (alone_getOrAllocTable (q := [l1Index va]) hwf₁ hk (by simp)
      h2.table_self) fun l3Table s₂ hl3 => ?_
    cases hl3 with
    | outOfFrames hnone hfull =>
      rw [if_pos rfl]
      exact Alone.pure (.noL3 h2 hnone hfull)
    | table h3 =>
      rw [if_neg (h3.ne_zero hwf₁ (by simp))]
      refine Alone.step (r := ()) rfl (Alone.pure ?_)
      exact .mapped h2 h3 (LeafSet.of_store (h3.wf hwf₁) h3.table_self
        (Or.inr (tableDesc_and_three (phys ||| flags))))

/-- What one iteration of the loop of `_unmap_locked` can do. -/
inductive UnmapPageSpec (s : Space) (pg : Page) : Bool → Space → Prop where
  | hole (hnone : s.table pg.l3Path = none) : UnmapPageSpec s pg false s
  | cleared {t₂ t₃ : U64} {s₁ s₂ s' : Space} (ht2 : s.table pg.l2Path = some t₂)
      (ht3 : s.table pg.l3Path = some t₃) (hset : LeafSet s s₁ pg 0)
      (h3 : Pruned s₁ s₂ pg.l3Path) (h2 : Pruned s₂ s' pg.l2Path) : UnmapPageSpec s pg true s'

/-- A word whose low bits are not those of a table descriptor names no table. -/
theorem table_of_invalid (h : s.WF) (hp : p.length ≤ 1) (ht : s.table p = some t)
    (hv : s.mem t i &&& 3#64 ≠ 3#64) : s.table (i :: p) = none := by
  rcases hr : s.table (i :: p) with _ | r
  · rfl
  · refine absurd ?_ hv
    rw [h.mem_of_table_some hp ht hr]
    exact tableDesc_and_three r

theorem table_of_valid (ht : s.table p = some t) (hv : s.mem t i &&& 3#64 = 3#64) :
    s.table (i :: p) = some (s.mem t i &&& addrMask) := by
  rw [table_cons ht, nextTable_of_valid hv]

theorem alone_unmapPage (h : s.WF) (hk : k.Free .pmmLock) (va : U64) :
    Alone c k (unmapPage va) s (UnmapPageSpec s (pageOf va)) := by
  rw [unmapPage]
  refine Alone.step (r := s.l1Table) rfl (Alone.step (r := s.mem s.l1Table (l1Index va)) rfl ?_)
  by_cases hv1 : s.mem s.l1Table (l1Index va) &&& 3#64 = 3#64
  · rw [if_neg (not_not_intro hv1)]
    have ht2 : s.table [l1Index va] = some _ := table_of_valid (p := []) rfl hv1
    refine Alone.step (r := s.mem _ (l2Index va)) rfl ?_
    by_cases hv2 : s.mem (s.mem s.l1Table (l1Index va) &&& addrMask) (l2Index va) &&& 3#64 = 3#64
    · rw [if_neg (not_not_intro hv2)]
      have ht3 : s.table (pageOf va).l3Path = some _ := table_of_valid ht2 hv2
      refine Alone.step (r := ()) rfl ?_
      have hset := LeafSet.of_store (w := 0) h ht3 (Or.inl rfl)
      refine Alone.bind (alone_freeIfEmpty (q := [l1Index va]) hset.wf hk (by simp)
        ((hset.table _ (by simp)).trans ht2) ((hset.table _ (by simp)).trans ht3))
        fun _ s₂ h3 => ?_
      have ht2' : s₂.table [l1Index va] = some _ :=
        (h3.table_of_ne (by simp) (by simp)).trans ((hset.table _ (by simp)).trans ht2)
      refine Alone.bind (alone_freeIfEmpty (q := []) (h3.wf hset.wf) hk (by simp) ?_ ht2')
        fun _ s₃ h2 => Alone.pure (.cleared ht2 ht3 hset h3 h2)
      rw [table_nil, h3.frames.root]
      rfl
    · rw [if_pos hv2]
      exact Alone.pure (.hole (table_of_invalid h (by simp) ht2 hv2))
  · rw [if_pos hv1]
    exact Alone.pure (.hole (walk_cons_eq_none (table_of_invalid (p := []) h (by simp) rfl hv1)))

theorem alone_tlbiPages (va : U64) : ∀ n i : ℕ,
    Alone c k (tlbiPages va n i) s fun _ s' => s' = s := by
  intro n
  induction n with
  | zero => exact fun i => Alone.pure rfl
  | succ n ih => exact fun i => Alone.step (r := ()) rfl (ih (i + 1))

/-! ### `translate` -/

/-- What `translate` answers: the frame of the page's descriptor and the offset
in the page, or all ones. -/
def Space.translation (s : Space) (virt : U64) : U64 :=
  if s.leaf (pageOf virt) &&& 3#64 = 3#64 then
    (s.leaf (pageOf virt) &&& addrMask) ||| (virt &&& 0xFFF#64)
  else ~~~0

theorem alone_translateLocked (h : s.WF) (virt : U64) :
    Alone c k (translateLocked virt) s fun r s' => s' = s ∧ r = s.translation virt := by
  have hnone : s.table (pageOf virt).l3Path = none → ~~~0 = s.translation virt := by
    intro hn
    rw [Space.translation, leaf_of_no_table hn, if_neg (by decide)]
  rw [translateLocked]
  refine Alone.step (r := s.l1Table) rfl (Alone.step (r := s.mem s.l1Table (l1Index virt)) rfl ?_)
  by_cases hv1 : s.mem s.l1Table (l1Index virt) &&& 3#64 = 3#64
  · rw [if_neg (not_not_intro hv1)]
    have ht2 : s.table [l1Index virt] = some _ := table_of_valid (p := []) rfl hv1
    refine Alone.step (r := s.mem _ (l2Index virt)) rfl ?_
    by_cases hv2 : s.mem (s.mem s.l1Table (l1Index virt) &&& addrMask) (l2Index virt) &&& 3#64
        = 3#64
    · rw [if_neg (not_not_intro hv2)]
      have ht3 : s.table (pageOf virt).l3Path = some _ := table_of_valid ht2 hv2
      refine Alone.step (r := s.mem _ (l3Index virt)) rfl ?_
      have hleaf : s.leaf (pageOf virt) = s.mem _ (l3Index virt) := leaf_of_table ht3
      rw [Space.translation, hleaf]
      split
      · rename_i hv3
        exact Alone.pure ⟨rfl, (if_neg hv3).symm⟩
      · rename_i hv3
        exact Alone.pure ⟨rfl, (if_pos (not_not.mp hv3)).symm⟩
    · rw [if_pos hv2]
      exact Alone.pure ⟨rfl, hnone (table_of_invalid h (by simp) ht2 hv2)⟩
  · rw [if_pos hv1]
    exact Alone.pure ⟨rfl,
      hnone (walk_cons_eq_none (table_of_invalid (p := []) h (by simp) rfl hv1))⟩

theorem alone_translate (h : s.WF) (hk : k.Free .mmuLock) (virt : U64) :
    Alone c k (translate virt) s fun r s' => s' = s ∧ r = s.translation virt :=
  Alone.critical hk (alone_translateLocked h virt)

end GamingConsole
