/-
Runs of `_sbrk` calls.

Between two calls the rest of the kernel may do anything that leaves the heap's pages,
their frames and the two variables alone (`NewlibOthers`).

* `NewlibReach.inv` — the heap of a reachable state has some number of pages, and its
  break lies in them;
* **`newlib_heap_sound`** — no target below the heap's base: the heap, its mapping and
  the frames stay in step;
* **`sbrk_exact_iff`** — a call does what its exact target asks for exactly where the
  target is not negative.
-/
import GamingConsole.NewlibHeap
import GamingConsole.Runs

namespace GamingConsole

open Space Prog

variable {b : Board} {k k' : Kernel} {c n : ℕ} {incr p : U64} {ok : ℤ → Prop}

/-! ### Reachable states -/

/-- The page is in the window. -/
def InNewlibWindow (pg : Page) : Prop := ∃ i < newlibMaxPages, pg = newlibPage i

/-- The frame is behind a page of the heap. -/
def IsNewlibFrame (s : Space) (a : U64) : Prop :=
  ∃ i < newlibMaxPages, s.Mapped (newlibPage i) ∧ a = newlibFrame s i

/-- What may happen between two calls. -/
structure NewlibOthers (k k' : Kernel) : Prop where
  space : Elsewhere InNewlibWindow (IsNewlibFrame k.space) k.space k'.space
  currBrk : k'.var .currBrk = k.var .currBrk
  heapEnd : k'.var .currNewlibHeapEnd = k.var .currNewlibHeapEnd
  newlibFree : k'.Free .newlibLock
  mmuFree : k'.Free .mmuLock
  pmmFree : k'.Free .pmmLock

/-- The states that calls whose exact target is `ok` lead to. -/
inductive NewlibReach (b : Board) (ok : ℤ → Prop) : Kernel → Prop where
  | boot : NewlibReach b ok b.kernel
  | sbrk {k k' : Kernel} (c : ℕ) (incr : U64) {p : U64} (hreach : NewlibReach b ok k)
      (hok : ok (sbrkTarget k incr)) (hrun : run (Kernel.perform c) (sbrk incr) k = some (p, k')) :
      NewlibReach b ok k'
  | others {k k' : Kernel} (hreach : NewlibReach b ok k) (hothers : NewlibOthers k k') :
      NewlibReach b ok k'

theorem Board.newlibInv (b : Board) : NewlibInv b.kernel 0 := by
  have hspace : b.kernel.space = b.space := rfl
  have hwf : b.space.WF := Space.wf_boot (Pmm.pmmInit_wf b.image).allocFrame b.used_boot
  refine ⟨⟨⟨hwf, Nat.zero_le _, ?_, fun i _ _ => ?_, ?_, ?_⟩, rfl⟩, le_refl _,
    le_refl _, ?_, ?_, ?_⟩
  · exact fun i hi => absurd hi (Nat.not_lt_zero i)
  · rw [hspace]
    exact Space.leaf_of_empty Space.boot_empty _
  · exact fun i hi => absurd hi (Nat.not_lt_zero i)
  · exact fun i hi => absurd hi (Nat.not_lt_zero i)
  · exact fun _ => rfl
  · exact fun _ => rfl
  · exact fun _ => rfl

/-- Others leave the heap as it is. -/
theorem NewlibInv.others (h : NewlibInv k n) (ho : NewlibOthers k k') : NewlibInv k' n := by
  have hle := h.ends.pages.le
  have hleaf : ∀ i < newlibMaxPages, k'.space.leaf (newlibPage i) = k.space.leaf (newlibPage i) :=
    fun i hi => ho.space.leaf _ ⟨i, hi, rfl⟩
  have hframe : ∀ i < n, newlibFrame k'.space i = newlibFrame k.space i := fun i hi => by
    rw [newlibFrame, newlibFrame, hleaf i (by omega)]
  refine ⟨⟨⟨ho.space.wf, hle, fun i hi => ?_, fun i hi1 hi2 => ?_, fun i hi => ?_,
    fun i hi j hj he => ?_⟩, ho.heapEnd.trans h.ends.heapEnd⟩, ?_, ?_, ho.newlibFree, ho.mmuFree,
    ho.pmmFree⟩
  · rw [Space.Mapped, hleaf i (by omega)]
    exact h.ends.pages.mapped i hi
  · rw [hleaf i hi2]
    exact h.ends.pages.unmapped i hi1 hi2
  · rw [hframe i hi]
    exact ho.space.data _ ⟨i, by omega, h.ends.pages.mapped i hi, rfl⟩ (h.ends.pages.data i hi)
  · rw [hframe i hi, hframe j hj] at he
    exact h.ends.pages.inj i hi j hj he
  · rw [ho.currBrk]
    exact h.base
  · rw [ho.currBrk]
    exact h.brk_le

/-- The heap after a call. -/
theorem SbrkSpec.inv (h : SbrkSpec c incr n k p k') (hinv : NewlibInv k n) :
    ∃ m, NewlibInv k' m ∧ Resized k.space k'.space n m := by
  cases h with
  | rejected _ _ _ hvar hspace hcontrol =>
    refine ⟨n, hinv.of_sameControl hcontrol ⟨?_, ?_⟩ ?_ ?_, ?_⟩
    · rw [hspace]
      exact hinv.ends.pages
    · rw [hvar]
      exact hinv.ends.heapEnd
    · rw [hvar]
      exact hinv.base
    · rw [hvar]
      exact hinv.brk_le
    · rw [hspace]
      exact .refl _ n
  | moved m _ _ _ hinv' hres => exact ⟨m, hinv', hres⟩
  | starved m _ _ _ _ hinv' _ hres => exact ⟨m, hinv', hres⟩

/-- **The invariant of the runs whose targets are not negative.** -/
theorem NewlibReach.inv (hnonneg : ∀ t, ok t → 0 ≤ t) (h : NewlibReach b ok k) :
    ∃ n, NewlibInv k n := by
  induction h with
  | boot => exact ⟨0, b.newlibInv⟩
  | sbrk c incr _ hok hrun ih =>
    obtain ⟨n, hinv⟩ := ih
    obtain ⟨m, hm, -⟩ := ((yields_sbrk hinv (hnonneg _ hok)).of_run hrun).inv hinv
    exact ⟨m, hm⟩
  | others _ ho ih =>
    obtain ⟨n, hinv⟩ := ih
    exact ⟨n, hinv.others ho⟩

/-! ### Mapping and frames in step -/

/-- The heap of a state. -/
structure NewlibSound (k : Kernel) : Prop where
  base : newlibHeapBase.toNat ≤ (k.var .currBrk).toNat
  brk_le : (k.var .currBrk).toNat ≤ (k.var .currNewlibHeapEnd).toNat
  end_le : (k.var .currNewlibHeapEnd).toNat ≤ newlibHeapBase.toNat + newlibHeapMaxSize.toNat
  aligned : (k.var .currNewlibHeapEnd).toNat % 4096 = 0
  mapped_iff : ∀ i < newlibMaxPages, k.space.Mapped (newlibPage i) ↔
    newlibHeapBase.toNat + i * 4096 < (k.var .currNewlibHeapEnd).toNat
  used : ∀ a, IsNewlibFrame k.space a → k.space.pmm.Used a
  distinct : ∀ i < newlibMaxPages, ∀ j < newlibMaxPages, k.space.Mapped (newlibPage i) →
    k.space.Mapped (newlibPage j) → newlibFrame k.space i = newlibFrame k.space j → i = j

/-- What a call does to the heap.  The frames that are not page tables change by exactly
those behind the pages that went and those behind the pages that came. -/
structure SbrkKeeps (k : Kernel) (p : U64) (k' : Kernel) : Prop where
  failed : p = sbrkFailed → k'.var .currBrk = k.var .currBrk
  below : ∀ i, newlibHeapBase.toNat + i * 4096 < (k.var .currBrk).toNat →
    newlibHeapBase.toNat + i * 4096 < (k'.var .currBrk).toNat →
    newlibFrame k'.space i = newlibFrame k.space i
  frames : ∀ a, k'.space.Data a ↔
    (k.space.Data a ∧ ¬ ∃ i < newlibMaxPages, k.space.Mapped (newlibPage i) ∧
      ¬ k'.space.Mapped (newlibPage i) ∧ a = newlibFrame k.space i) ∨
    ∃ i < newlibMaxPages, ¬ k.space.Mapped (newlibPage i) ∧ k'.space.Mapped (newlibPage i) ∧
      a = newlibFrame k'.space i

/-- A page of the window is mapped exactly if it is one of the heap's. -/
theorem NewlibPages.mapped_iff {s : Space} (h : NewlibPages s n) {i : ℕ} (hi : i < newlibMaxPages) :
    s.Mapped (newlibPage i) ↔ i < n := by
  refine ⟨fun hm => ?_, h.mapped i⟩
  by_contra hge
  exact ne_zero_of_valid hm (h.unmapped i (Nat.not_lt.mp hge) hi)

theorem NewlibInv.sound (h : NewlibInv k n) : NewlibSound k := by
  have hle := h.ends.pages.le
  have hend : (k.var .currNewlibHeapEnd).toNat = 0x180000000 + n * 4096 := by
    rw [h.ends.heapEnd, toNat_newlibEnd hle]
  have hbrk := h.brk_le
  have hbase : newlibHeapBase.toNat = 0x180000000 := rfl
  have hmax : newlibHeapMaxSize.toNat = 0x38000000 := rfl
  have hiff := fun i (hi : i < newlibMaxPages) => h.ends.pages.mapped_iff hi
  rw [toNat_newlibEnd hle] at hbrk
  refine ⟨h.base, by omega, ?_, by omega, fun i hi => ?_, ?_, fun i hi j hj h1 h2 he => ?_⟩
  · rw [newlibMaxPages] at hle
    omega
  · rw [hiff i hi]
    omega
  · rintro a ⟨i, hi, hmapped, rfl⟩
    exact (h.ends.pages.data i ((hiff i hi).mp hmapped)).1
  · exact h.ends.pages.inj i ((hiff i hi).mp h1) j ((hiff j hj).mp h2) he

theorem NewlibInv.brk_ne_failed (h : NewlibInv k n) : k.var .currBrk ≠ sbrkFailed := by
  intro he
  have htop := h.brk_toNat_le
  rw [he] at htop
  exact absurd htop (by decide)

theorem SbrkSpec.keeps (h : SbrkSpec c incr n k p k') (hinv : NewlibInv k n) :
    SbrkKeeps k p k' := by
  obtain ⟨m, hinv', hres⟩ := h.inv hinv
  have hn := hinv.ends.pages.le
  have hm := hinv'.ends.pages.le
  have hiff := fun i (hi : i < newlibMaxPages) => hinv.ends.pages.mapped_iff hi
  have hiff' := fun i (hi : i < newlibMaxPages) => hinv'.ends.pages.mapped_iff hi
  refine ⟨fun hp => ?_, fun i h1 h2 => ?_, fun a => ?_⟩
  · cases h with
    | rejected _ _ _ hvar => rw [hvar]
    | moved _ _ hbrk => exact absurd (hbrk.symm.trans hp) hinv.brk_ne_failed
    | starved _ _ _ _ hbrk => exact hbrk
  · have hbrk := hinv.brk_le
    have hbrk' := hinv'.brk_le
    rw [toNat_newlibEnd hn] at hbrk
    rw [toNat_newlibEnd hm] at hbrk'
    rw [toNat_newlibHeapBase] at h1 h2
    exact hres.frame hn hm (by omega)
  · rw [hres.data]
    refine or_congr (and_congr_right fun _ => not_congr ?_) ?_
    · constructor
      · rintro ⟨i, h1, h2, rfl⟩
        have hi : i < newlibMaxPages := by omega
        exact ⟨i, hi, (hiff i hi).mpr h2, fun hmap => by have := (hiff' i hi).mp hmap; omega, rfl⟩
      · rintro ⟨i, hi, h1, h2, rfl⟩
        exact ⟨i, Nat.not_lt.mp fun hlt => h2 ((hiff' i hi).mpr hlt), (hiff i hi).mp h1, rfl⟩
    · constructor
      · rintro ⟨i, h1, h2, rfl⟩
        have hi : i < newlibMaxPages := by omega
        exact ⟨i, hi, fun hmap => by have := (hiff i hi).mp hmap; omega, (hiff' i hi).mpr h2, rfl⟩
      · rintro ⟨i, hi, h1, h2, rfl⟩
        exact ⟨i, Nat.not_lt.mp fun hlt => h1 ((hiff i hi).mpr hlt), (hiff' i hi).mp h2, rfl⟩

/-- **The newlib heap.**  While no call asks for a target below the heap's base, every
reachable heap is sound, and every further such call returns and keeps the frames in step
with the pages. -/
theorem newlib_heap_sound (h : NewlibReach b (newlibHeapBase.toNat ≤ ·) k) : NewlibSound k ∧
    ∀ c incr, newlibHeapBase.toNat ≤ sbrkTarget k incr →
      Yields (Kernel.perform c) (sbrk incr) k (SbrkKeeps k) := by
  obtain ⟨n, hinv⟩ := h.inv fun t ht => le_trans (Int.natCast_nonneg _) ht
  refine ⟨hinv.sound, fun c incr htarget => ?_⟩
  exact (yields_sbrk hinv (le_trans (Int.natCast_nonneg _) htarget)).mono fun _ _ hspec =>
    hspec.keeps hinv

/-- The heap of one page that a first request of 4096 bytes leaves. -/
theorem newlib_heap_sound_page : ∃ k, k.var .currBrk = newlibHeapBase + 0x1000#64 ∧
    k.space.Mapped (newlibPage 0) ∧ NewlibSound k := by
  have hrun : (run (Kernel.perform 0) (sbrk 0x1000#64) fiveFrames.kernel).any (fun x =>
      x.2.var .currBrk = newlibHeapBase + 0x1000#64 ∧
        x.2.space.leaf (newlibPage 0) &&& 3#64 = 3#64) = true := by
    decide +kernel
  obtain ⟨⟨p, k⟩, hk, hP⟩ := (Option.any_eq_true _ _).mp hrun
  obtain ⟨hbrk, hmapped⟩ := of_decide_eq_true hP
  have hreach : NewlibReach fiveFrames (newlibHeapBase.toNat ≤ ·) k :=
    .sbrk 0 0x1000#64 .boot (by decide) hk
  exact ⟨k, hbrk, hmapped, (newlib_heap_sound hreach).1⟩

/-! ### Which requests are accepted -/

/-- What a call should do, by its exact target: turn down what is outside the window, and
otherwise move the break there if there are frames for it. -/
def SbrkExact (c : ℕ) (incr : U64) (k : Kernel) (p : U64) (k' : Kernel) : Prop :=
  if sbrkTarget k incr < newlibHeapBase.toNat ∨
      newlibHeapBase.toNat + newlibHeapMaxSize.toNat < sbrkTarget k incr then
    p = sbrkFailed ∧ k'.errno c = enomem ∧ k'.var .currBrk = k.var .currBrk ∧
      k'.var .currNewlibHeapEnd = k.var .currNewlibHeapEnd ∧ k'.space = k.space
  else
    FramesSuffice k (newlibPagesTo (k.var .currNewlibHeapEnd).toNat) (sbrkTarget k incr) →
      p = k.var .currBrk ∧ ((k'.var .currBrk).toNat : ℤ) = sbrkTarget k incr

theorem SbrkSpec.exact (h : SbrkSpec c incr n k p k') (hinv : NewlibInv k n) :
    SbrkExact c incr k p k' := by
  have hbase : newlibHeapBase.toNat = 0x180000000 := rfl
  have hmax : newlibHeapMaxSize.toNat = 0x38000000 := rfl
  have hpages : newlibPagesTo (k.var .currNewlibHeapEnd).toNat = n := by
    rw [hinv.ends.heapEnd, toNat_newlibEnd hinv.ends.pages.le, newlibPagesTo]
    omega
  rw [SbrkExact, hpages, hbase, hmax]
  cases h with
  | rejected hout hp herrno hvar hspace =>
    rw [newlibTop] at hout
    rw [if_pos (by omega), hvar]
    exact ⟨hp, herrno, rfl, rfl, hspace⟩
  | moved m hin hp hbrk =>
    rw [newlibTop] at hin
    rw [if_neg (by omega)]
    exact fun _ => ⟨hp, hbrk⟩
  | starved m hin _ _ _ _ _ _ hfew =>
    rw [newlibTop] at hin
    rw [if_neg (by omega)]
    exact fun hsuffice => absurd hsuffice hfew

/-- A request to shrink that gets past the check of `_free_sbrk` answers the old break, if
it returns at all. -/
theorem sbrk_eq_currBrk (hne : incr ≠ 0) (hneg : incr.slt 0 = true)
    (hpast : ¬ k.var .currBrk + incr < newlibHeapBase)
    (hrun : run (Kernel.perform c) (sbrk incr) k = some (p, k')) : p = k.var .currBrk := by
  rw [sbrk] at hrun
  obtain ⟨flags, k₁, hlock, hrun⟩ := run_bind_eq_some hrun
  have hvar : k₁.var = k.var := by
    rw [act, run_perform] at hlock
    change k.spinLock c .newlibLock = _ at hlock
    rw [Kernel.spinLock] at hlock
    split at hlock
    · split at hlock <;> cases hlock
      rfl
    · cases hlock
      rfl
  rw [if_neg hne, if_pos hneg] at hrun
  obtain ⟨prevBrk, k₂, hget, hrun⟩ := run_bind_eq_some hrun
  rw [act, run_perform] at hget
  cases hget
  rw [freeSbrk, Prog.bind_assoc'] at hrun
  obtain ⟨currBrk, k₃, hget, hrun⟩ := run_bind_eq_some hrun
  rw [act, run_perform] at hget
  cases hget
  rw [hvar] at hrun
  dsimp only at hrun
  rw [if_neg hpast, Prog.bind_assoc'] at hrun
  obtain ⟨-, k₄, -, hrun⟩ := run_bind_eq_some hrun
  rw [Prog.bind_assoc'] at hrun
  obtain ⟨-, k₅, -, hrun⟩ := run_bind_eq_some hrun
  rw [Prog.pure_bind', if_pos rfl] at hrun
  obtain ⟨-, k₆, -, hrun⟩ := run_bind_eq_some hrun
  cases hrun
  rfl

/-- A negative target wraps to an address far above the heap's base. -/
theorem NewlibInv.past_of_neg (h : NewlibInv k n) (hneg : sbrkTarget k incr < 0) :
    incr ≠ 0 ∧ incr.slt 0 = true ∧ ¬ k.var .currBrk + incr < newlibHeapBase := by
  have hbase := h.base
  have htop := h.brk_toNat_le
  have hlt : incr.toInt < 0 := by
    rw [sbrkTarget] at hneg
    omega
  have hslt : incr.slt 0 = true := BitVec.slt_iff_toInt_lt.mpr hlt
  refine ⟨?_, hslt, ?_⟩
  · rintro rfl
    exact absurd hlt (by decide)
  · intro hpast
    have hsmall : (k.var .currBrk + incr).toNat < 0x180000000 := hpast
    have hword := incr.isLt
    have hlow := BitVec.le_toInt incr
    rw [sbrkTarget, BitVec.toInt_eq_toNat_cond] at hneg
    rw [BitVec.toInt_eq_toNat_cond] at hlow
    rw [BitVec.toNat_add] at hsmall
    split at hneg <;> omega

/-- **`_sbrk` accepts exactly the requests that stay in the window**, where the exact target
is not negative. -/
theorem sbrk_exact_iff (h : NewlibReach b (0 ≤ ·) k) (c : ℕ) (incr : U64) :
    Yields (Kernel.perform c) (sbrk incr) k (SbrkExact c incr k) ↔ 0 ≤ sbrkTarget k incr := by
  obtain ⟨n, hinv⟩ := h.inv fun _ ht => ht
  constructor
  · rintro ⟨p, k', hrun, hexact⟩
    by_contra hneg
    rw [not_le] at hneg
    obtain ⟨hne, hslt, hpast⟩ := hinv.past_of_neg hneg
    rw [SbrkExact, if_pos (Or.inl (lt_of_lt_of_le hneg (Int.natCast_nonneg _)))] at hexact
    exact hinv.brk_ne_failed ((sbrk_eq_currBrk hne hslt hpast hrun).symm.trans hexact.1)
  · exact fun h0 => (yields_sbrk hinv h0).mono fun _ _ hspec => hspec.exact hinv

/-- A first request of 4096 bytes. -/
theorem sbrk_exact_page : Yields (Kernel.perform 0) (sbrk 0x1000#64) fiveFrames.kernel
    (SbrkExact 0 0x1000#64 fiveFrames.kernel) :=
  (sbrk_exact_iff .boot 0 0x1000#64).mpr (by decide)

/-- A first request of -2⁶³ bytes is accepted, and moves the break past 2⁶³. -/
theorem not_sbrk_exact : ∃ k', run (Kernel.perform 0) (sbrk 0x8000000000000000#64)
      fiveFrames.kernel = some (newlibHeapBase, k') ∧
    k'.var .currBrk = 0x8000000180000000#64 ∧
    sbrkTarget fiveFrames.kernel 0x8000000000000000#64 < newlibHeapBase.toNat ∧
    ¬ Yields (Kernel.perform 0) (sbrk 0x8000000000000000#64) fiveFrames.kernel
      (SbrkExact 0 0x8000000000000000#64 fiveFrames.kernel) := by
  have hrun : (run (Kernel.perform 0) (sbrk 0x8000000000000000#64) fiveFrames.kernel).any (fun x =>
      x.1 = newlibHeapBase ∧ x.2.var .currBrk = 0x8000000180000000#64) = true := by
    decide +kernel
  have htarget : sbrkTarget fiveFrames.kernel 0x8000000000000000#64 < newlibHeapBase.toNat := by
    decide
  obtain ⟨⟨p, k'⟩, hk, hP⟩ := (Option.any_eq_true _ _).mp hrun
  obtain ⟨rfl, hbrk⟩ := of_decide_eq_true hP
  refine ⟨k', hk, hbrk, htarget, fun hyields => ?_⟩
  have hexact := hyields.of_run hk
  rw [SbrkExact, if_pos (Or.inl htarget)] at hexact
  exact absurd hexact.1 (by decide)

end GamingConsole
