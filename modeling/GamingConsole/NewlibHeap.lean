/-
`_sbrk` alone: what each of its loops and the whole call do to the newlib heap.

* `yields_sbrkLoop`, `yields_freeSbrkLoop` — the loops end, and move the heap's
  end to what was asked for or as far as the frames go;
* `yields_sbrk` — the whole call, by the exact target of the break.
-/
import GamingConsole.NewlibPages
import Mathlib.Order.Interval.Finset.Nat
import Mathlib.Data.Finset.Union

namespace GamingConsole

open Space Prog

variable {c : ℕ} {k k' k'' : Kernel} {n m : ℕ} {r : U64}

/-- Locks and interrupt masks are as before. -/
structure SameControl (k k' : Kernel) : Prop where
  lock : k'.lock = k.lock
  mmuActive : k'.mmuActive = k.mmuActive
  daif : k'.daif = k.daif

theorem SameControl.refl (k : Kernel) : SameControl k k := ⟨rfl, rfl, rfl⟩

theorem SameControl.free (h : SameControl k k') {l : Lock} (hk : k.Free l) : k'.Free l := by
  intro hm
  rw [h.mmuActive] at hm
  rw [h.lock]
  exact hk hm

/-- The heap has `n` pages. -/
structure NewlibEnds (k : Kernel) (n : ℕ) : Prop where
  pages : NewlibPages k.space n
  heapEnd : k.var .currNewlibHeapEnd = newlibEnd n

/-- The paths of the tables of pages `n, …, m - 1`. -/
def newlibPaths (n m : ℕ) : Finset (List (Fin 512)) :=
  (Finset.Ico n m).biUnion fun i => {(newlibPage i).l2Path, (newlibPage i).l3Path}

theorem newlibPaths_length {q : List (Fin 512)} (hq : q ∈ newlibPaths n m) : q.length ≤ 2 := by
  obtain ⟨i, -, hi⟩ := Finset.mem_biUnion.mp hq
  rw [Finset.mem_insert, Finset.mem_singleton] at hi
  rcases hi with rfl | rfl <;> simp [Page.l2Path, Page.l3Path]

theorem mem_newlibPaths {i : ℕ} (h1 : n ≤ i) (h2 : i < m) :
    (newlibPage i).l2Path ∈ newlibPaths n m ∧ (newlibPage i).l3Path ∈ newlibPaths n m := by
  have hi := Finset.mem_Ico.mpr ⟨h1, h2⟩
  exact ⟨Finset.mem_biUnion.mpr ⟨i, hi, by simp⟩, Finset.mem_biUnion.mpr ⟨i, hi, by simp⟩⟩

/-! ### Growing -/

/-- What the growth loop achieves, from a heap of `n` pages. -/
structure SbrkGrow (c : ℕ) (r : U64) (n : ℕ) (k : Kernel) (grown : Bool) (k' : Kernel) : Prop where
  control : SameControl k k'
  var : ∀ x, x ≠ .currNewlibHeapEnd → k'.var x = k.var x
  ends : ∃ n', n ≤ n' ∧ NewlibEnds k' n' ∧ Resized k.space k'.space n n' ∧
    (grown = true → r.toNat ≤ (newlibEnd n').toNat)
  errno : grown = false → k'.errno c = enomem
  fed : ∀ Q m, (∀ q ∈ Q, q.length ≤ 2) →
    (∀ i, n ≤ i → i < m → (newlibPage i).l2Path ∈ Q ∧ (newlibPage i).l3Path ∈ Q) →
    r.toNat ≤ (newlibEnd m).toNat → m ≤ newlibMaxPages → Budget k.space Q (m - n) → grown = true

/-- The rest of the loop, after it has added a page. -/
theorem SbrkGrow.cons {s' : Space} {grown : Bool} (hres : Resized k.space s' n (n + 1))
    (hbudget : ∀ Q m, (∀ q ∈ Q, q.length ≤ 2) →
      (∀ i, n ≤ i → i < m → (newlibPage i).l2Path ∈ Q ∧ (newlibPage i).l3Path ∈ Q) →
      r.toNat ≤ (newlibEnd m).toNat → m ≤ newlibMaxPages → Budget k.space Q (m - n) →
      Budget s' Q (m - (n + 1)))
    (h : SbrkGrow c r (n + 1) ((k.withSpace s').withVar .currNewlibHeapEnd (newlibEnd (n + 1)))
      grown k') : SbrkGrow c r n k grown k' where
  control := ⟨h.control.lock, h.control.mmuActive, h.control.daif⟩
  var := fun x hx => (h.var x hx).trans (Kernel.withVar_of_ne hx)
  ends := by
    obtain ⟨n', hn', hends, hres', hr⟩ := h.ends
    exact ⟨n', by omega, hends, hres.grow_trans hres' (by omega) hn' hends.pages.le, hr⟩
  errno := h.errno
  fed := fun Q m hQ hpaths hr hm hb =>
    h.fed Q m hQ (fun i h1 h2 => hpaths i (by omega) h2) hr hm (hbudget Q m hQ hpaths hr hm hb)

/-- The loop stops with the pages it found. -/
theorem SbrkGrow.stop {grown : Bool} {s' : Space} (errno : ℕ → ℕ) (hends : NewlibEnds k n)
    (hpages : NewlibPages s' n) (hres : Resized k.space s' n n)
    (hr : grown = true → r.toNat ≤ (newlibEnd n).toNat)
    (herrno : grown = false → errno c = enomem)
    (hfed : ∀ Q m, (∀ q ∈ Q, q.length ≤ 2) →
      (∀ i, n ≤ i → i < m → (newlibPage i).l2Path ∈ Q ∧ (newlibPage i).l3Path ∈ Q) →
      r.toNat ≤ (newlibEnd m).toNat → m ≤ newlibMaxPages → Budget k.space Q (m - n) →
      grown = true) :
    SbrkGrow c r n k grown { k.withSpace s' with errno := errno } where
  control := ⟨rfl, rfl, rfl⟩
  var := fun _ _ => rfl
  ends := ⟨n, le_refl n, ⟨hpages, hends.heapEnd⟩, hres, hr⟩
  errno := herrno
  fed := hfed

/-- Below the target there is a page to add. -/
theorem lt_of_newlibEnd_lt (hn : n ≤ newlibMaxPages) (hm : m ≤ newlibMaxPages)
    (hlt : newlibEnd n < r) (hr : r.toNat ≤ (newlibEnd m).toNat) : n < m := by
  have h1 := BitVec.lt_def.mp hlt
  rw [toNat_newlibEnd hn] at h1
  rw [toNat_newlibEnd hm] at hr
  omega

/-- `Q` has the tables of the pages from `n` to `m`, and there are frames for all of it. -/
structure Feeds (s : Space) (r : U64) (n m : ℕ) (Q : Finset (List (Fin 512))) : Prop where
  depth : ∀ q ∈ Q, q.length ≤ 2
  paths : ∀ i, n ≤ i → i < m → (newlibPage i).l2Path ∈ Q ∧ (newlibPage i).l3Path ∈ Q
  target : r.toNat ≤ (newlibEnd m).toNat
  inside : m ≤ newlibMaxPages
  budget : Budget s Q (m - n)

section Page

variable {s s₁ : Space} {a : U64} {Q : Finset (List (Fin 512))}

theorem Feeds.lt (h : Feeds s r n m Q) (hn : n ≤ newlibMaxPages) (hlt : newlibEnd n < r) : n < m :=
  lt_of_newlibEnd_lt hn h.inside hlt h.target

/-- The frame of the next page is paid for, and so is the rest. -/
theorem Feeds.frame (h : Feeds s r n m Q) (hn : n ≤ newlibMaxPages) (hlt : newlibEnd n < r)
    (hwf : s.WF) (hspec : AllocSpec s a s₁) : a ≠ 0 ∧ Budget s₁ Q (m - (n + 1)) := by
  have hnm := h.lt hn hlt
  have hbudget := h.budget
  rw [show m - n = m - (n + 1) + 1 by omega] at hbudget
  exact hbudget.alloc hspec hwf h.depth

/-- The page behind the end is not mapped, and so `map` meets no old leaf. -/
theorem unmapped_newlibEnd (hpages : NewlibPages s n) (hn : n < newlibMaxPages)
    (hgiven : Given (· = a) s s₁) : s₁.Unmapped (newlibEnd n) (numPages pageSize) := by
  rw [numPages_pageSize]
  intro i hi
  rw [show i = 0 by omega, pageAt_newlibEnd]
  refine fun hmap => ne_zero_of_valid hmap ?_
  rw [hgiven.tables.leaf]
  exact hpages.unmapped n (le_refl n) hn

/-- Its tables are paid for too. -/
theorem Feeds.map (h : Feeds s r n m Q) (hn : n ≤ newlibMaxPages) (hlt : newlibEnd n < r)
    (hwf : s.WF) (hspec : AllocSpec s a s₁) (hwf₁ : s₁.WF) (hmmu : k.Free .mmuLock)
    (hpmm : k.Free .pmmLock) :
    Alone c k (map (newlibEnd n) a pageSize pteNormalRw) s₁ fun done s' =>
      done = true ∧ Budget s' Q (m - (n + 1)) := by
  refine alone_map_budget hwf₁ hmmu hpmm (h.frame hn hlt hwf hspec).2 h.depth fun i hi => ?_
  rw [numPages_pageSize] at hi
  rw [show i = 0 by omega, pageAt_newlibEnd]
  exact h.paths n (le_refl n) (h.lt hn hlt)

/-- `map` of the page behind the end, with a frame that was just given. -/
theorem run_map_newlibEnd (hends : NewlibEnds k n) (hn : n < newlibMaxPages)
    (hlt : newlibEnd n < r) (hmmu : k.Free .mmuLock) (hpmm : k.Free .pmmLock)
    (hspec : AllocSpec k.space a s₁) (hgiven : Given (· = a) k.space s₁) :
    ∃ done s₂, run (Kernel.perform c) (GamingConsole.map (newlibEnd n) a pageSize pteNormalRw)
        (k.withSpace s₁) = some (done, k.withSpace s₂) ∧
      Kept (InRange (newlibEnd n) pageSize) s₁ s₂ ∧
      (done = true → MapsRange s₁ s₂ (newlibEnd n) a pteNormalRw (numPages pageSize)) ∧
      (done = false → ∀ pg, s₂.leaf pg = s₁.leaf pg) ∧
      ∀ Q m, Feeds k.space r n m Q → done = true ∧ Budget s₂ Q (m - (n + 1)) := by
  obtain ⟨done, k₂, hrun, s₂, rfl, hkept, hmaps, hleaf⟩ :=
    @alone_map_kept c k (newlibEnd n) a pageSize pteNormalRw s₁ hgiven.wf hmmu hpmm
      (unmapped_newlibEnd hends.pages hn hgiven)
  refine ⟨done, s₂, hrun, hkept, hmaps, hleaf, fun Q m hfeeds => ?_⟩
  obtain ⟨s', hs', hdone⟩ :=
    (hfeeds.map hn.le hlt hends.pages.wf hspec hgiven.wf hmmu hpmm).of_run hrun
  have hs : s₂ = s' := congrArg Kernel.space hs'
  rwa [hs]

end Page

/-- The growth loop. -/
theorem yields_sbrkLoop (hr : r.toNat ≤ (newlibEnd newlibMaxPages).toNat) :
    ∀ (f n : ℕ) (k : Kernel),
    NewlibEnds k n → k.Free .mmuLock → k.Free .pmmLock → newlibMaxPages < n + f →
    Yields (Kernel.perform c) (sbrkLoop r f) k (SbrkGrow c r n k) := by
  intro f
  induction f with
  | zero =>
    intro n k hends _ _ hf
    have := hends.pages.le
    omega
  | succ f ih =>
    intro n k hends hmmu hpmm hf
    have hwf := hends.pages.wf
    rw [sbrkLoop]
    refine Yields.step (r := k.var .currNewlibHeapEnd) rfl ?_
    rw [hends.heapEnd]
    by_cases hlt : newlibEnd n < r
    · rw [if_pos hlt]
      have hn : n < newlibMaxPages :=
        lt_of_newlibEnd_lt hends.pages.le (le_refl _) hlt hr
      refine Yields.bind ((alone_allocFrame_given (c := c) hwf hpmm).and
        (alone_allocFrame hwf.pmm hpmm)) fun a k₁ h => ?_
      obtain ⟨s₁, rfl, halloc, hspec⟩ := h
      rcases halloc with ⟨rfl, rfl⟩ | ⟨h0, hgiven⟩
      · rw [if_pos rfl]
        refine Yields.step (r := ()) rfl (Yields.ret ?_)
        exact SbrkGrow.stop (Function.update k.errno c enomem) hends hends.pages
          (.refl _ n) (fun hf => absurd hf (by simp)) (fun _ => Function.update_self _ _ _)
          fun Q m hQ hpaths hm hmax hb => absurd rfl
            (Feeds.frame ⟨hQ, hpaths, hm, hmax, hb⟩ hn.le hlt hwf hspec).1
      · rw [if_neg h0]
        obtain ⟨done, s₂, hrun, hkept, hmaps, hleaf, hfed⟩ :=
          run_map_newlibEnd (c := c) hends hn hlt hmmu hpmm hspec hgiven
        have hyields : Yields (Kernel.perform c) (map (newlibEnd n) a pageSize pteNormalRw)
            (k.withSpace s₁) fun d k' => d = done ∧ k' = k.withSpace s₂ := ⟨_, _, hrun, rfl, rfl⟩
        refine Yields.bind hyields fun done' _ h => ?_
        obtain ⟨rfl, rfl⟩ := h
        cases done' with
        | true =>
          obtain ⟨hpages, hres⟩ := hends.pages.grown hn hgiven hkept (hmaps rfl)
          rw [if_pos rfl, newlibEnd_succ]
          refine Yields.step (r := ()) rfl (Yields.mono (ih (n + 1) _ ⟨hpages, Kernel.withVar_self⟩
            hmmu hpmm (by omega)) fun grown k' h => ?_)
          exact h.cons hres fun Q m hQ hpaths hm hmax hb => (hfed Q m ⟨hQ, hpaths, hm, hmax, hb⟩).2
        | false =>
          rw [if_neg (by simp)]
          refine Yields.step (r := ()) rfl ?_
          -- the mapping failed: its frame is data again and goes back
          have ha : s₂.Data a := (hkept.data a).mpr ((hgiven.data hwf).mpr (Or.inr rfl))
          refine Yields.bind (alone_freeFrame_dropped (c := c)
            (k := { k.withSpace s₂ with errno := Function.update k.errno c enomem })
              hkept.wf hpmm ha)
            fun _ k₃ h => ?_
          obtain ⟨s₃, rfl, hdrop⟩ := h
          obtain ⟨hpages, hres⟩ := hends.pages.not_grown hgiven hkept (hleaf rfl) hdrop
          exact Yields.ret (SbrkGrow.stop (Function.update k.errno c enomem) hends hpages
            hres (fun hf => absurd hf (by simp)) (fun _ => Function.update_self _ _ _)
            fun Q m hQ hpaths hm hmax hb =>
              absurd (hfed Q m ⟨hQ, hpaths, hm, hmax, hb⟩).1 (by simp))
    · rw [if_neg hlt]
      exact Yields.ret (SbrkGrow.stop k.errno hends hends.pages (.refl _ n)
        (fun _ => BitVec.le_def.mp (BitVec.not_lt.mp hlt)) (fun hf => absurd hf (by simp))
        fun _ _ _ _ _ _ _ => rfl)

/-! ### Shrinking -/

/-- What the shrink loop achieves, from a heap of `n` pages. -/
structure SbrkShrink (n t : ℕ) (k k' : Kernel) : Prop where
  control : SameControl k k'
  var : ∀ x, x ≠ .currNewlibHeapEnd → k'.var x = k.var x
  errno : k'.errno = k.errno
  ends : NewlibEnds k' t
  resized : Resized k.space k'.space n t

/-- The address that `translate` finds for a page of the heap. -/
theorem translation_newlibEnd {s : Space} {i : ℕ} (hi : i ≤ newlibMaxPages)
    (hmapped : s.Mapped (newlibPage i)) : s.translation (newlibEnd i) = newlibFrame s i := by
  have hpage : pageOf (newlibEnd i) = newlibPage i := by
    rw [← pageAt_newlibEnd, pageAt, pageAddr_zero]
  have hoffset : newlibEnd i &&& 0xFFF#64 = 0#64 := by
    have hmask : 0xFFF#64 = BitFields.lowMask 64 12 := rfl
    apply BitVec.eq_of_toNat_eq
    rw [hmask, BitFields.toNat_and_lowMask _ (by omega), toNat_newlibEnd hi]
    show (0x180000000 + i * 4096) % 4096 = 0
    omega
  rw [Space.Mapped] at hmapped
  rw [Space.translation, hpage, if_pos hmapped, hoffset, BitVec.or_zero, newlibFrame]

/-- The shrink loop. -/
theorem yields_freeSbrkLoop {t : ℕ} (hr : roundUp r pageSize = newlibEnd t) :
    ∀ (f n : ℕ) (k : Kernel), NewlibEnds k n → t ≤ n → k.Free .mmuLock → k.Free .pmmLock →
    n < t + f → Yields (Kernel.perform c) (freeSbrkLoop r f) k fun _ k' => SbrkShrink n t k k' := by
  intro f
  induction f with
  | zero =>
    intro n k _ htn _ _ hf
    omega
  | succ f ih =>
    intro n k hends htn hmmu hpmm hf
    have hle := hends.pages.le
    rw [freeSbrkLoop]
    refine Yields.step (r := k.var .currNewlibHeapEnd) rfl ?_
    rw [hends.heapEnd, hr]
    rcases Nat.eq_or_lt_of_le htn with rfl | htn
    · rw [if_neg (BitVec.lt_irrefl _)]
      exact Yields.ret ⟨.refl k, fun _ _ => rfl, rfl, hends, .refl _ t⟩
    · obtain ⟨n, rfl⟩ : ∃ m, n = m + 1 := ⟨n - 1, by omega⟩
      have hgt : newlibEnd (n + 1) > newlibEnd t := by
        rw [gt_iff_lt, BitVec.lt_def, toNat_newlibEnd hle, toNat_newlibEnd (by omega)]
        omega
      have hmapped : k.space.Mapped (newlibPage n) := hends.pages.mapped n (by omega)
      rw [if_pos hgt, newlibEnd_pred]
      -- the frame is looked up before the page goes
      refine Yields.bind (alone_translate (c := c) hends.pages.wf hmmu (newlibEnd n))
        fun pa k₁ h => ?_
      obtain ⟨s₁, rfl, rfl, rfl⟩ := h
      rw [translation_newlibEnd (by omega) hmapped]
      have hin : ∀ i < numPages pageSize, k.space.Mapped (pageAt (newlibEnd n) i) := by
        intro i hi
        rw [numPages_pageSize] at hi
        rw [show i = 0 by omega, pageAt_newlibEnd]
        exact hmapped
      refine Yields.bind (@alone_unmap_kept c k (newlibEnd n) pageSize k.space hends.pages.wf hmmu
        hpmm (by rw [numPages_pageSize]; omega) hin) fun _ k₂ h => ?_
      obtain ⟨s₂, rfl, hkept, hclear⟩ := h
      have hleaf : s₂.leaf (newlibPage n) = 0 := by
        rw [← pageAt_newlibEnd]
        exact hclear 0 (by rw [numPages_pageSize]; omega)
      have hdata := (hkept.data _).mpr (hends.pages.data n (by omega))
      refine Yields.bind (alone_freeFrame_dropped (c := c) hkept.wf hpmm hdata) fun _ k₃ h => ?_
      obtain ⟨s₃, rfl, hdrop⟩ := h
      obtain ⟨hpages, hres⟩ := hends.pages.shrunk hkept hleaf hdrop
      refine Yields.step (r := ()) rfl (Yields.mono (ih n _ ⟨hpages, Kernel.withVar_self⟩ (by omega)
        hmmu hpmm (by omega)) fun _ k' h => ?_)
      exact ⟨⟨h.control.lock, h.control.mmuActive, h.control.daif⟩,
        fun x hx => (h.var x hx).trans (Kernel.withVar_of_ne hx), h.errno, h.ends,
        hres.shrink_trans h.resized (by omega) (by omega) hle⟩

/-! ### The whole call -/

/-- Leaving the critical section that `k` was entered into. -/
theorem SameControl.unlock {l : Lock} (hfree : k.Free l) (h : SameControl (k.entered c l) k') :
    SameControl k (k'.spinUnlock c l (k.daif c)) := by
  have hactive : k'.mmuActive = k.mmuActive := h.mmuActive.trans Kernel.entered_mmuActive
  rw [Kernel.spinUnlock_of_entered hfree h.lock hactive h.daif]
  exact ⟨rfl, hactive, rfl⟩

/-- The exact target of a call. -/
def sbrkTarget (k : Kernel) (incr : U64) : ℤ := (k.var .currBrk).toNat + incr.toInt

/-- The pages of a heap that ends at or above address `b`. -/
def newlibPagesTo (b : ℤ) : ℕ := ((b - 0x180000000 + 4095) / 4096).toNat

/-- There are frames for the pages that a heap of `n` pages lacks below `b`, and for their
tables. -/
def FramesSuffice (k : Kernel) (n : ℕ) (b : ℤ) : Prop :=
  Budget k.space (newlibPaths n (newlibPagesTo b)) (newlibPagesTo b - n)

/-- Between two calls: the heap has `n` pages, and its break lies in them. -/
structure NewlibInv (k : Kernel) (n : ℕ) : Prop where
  ends : NewlibEnds k n
  base : 0x180000000 ≤ (k.var .currBrk).toNat
  brk_le : (k.var .currBrk).toNat ≤ (newlibEnd n).toNat
  newlibFree : k.Free .newlibLock
  mmuFree : k.Free .mmuLock
  pmmFree : k.Free .pmmLock

/-- The end of the window. -/
abbrev newlibTop : ℤ := 0x180000000 + 0x38000000

/-- What a call answers and does: the target is outside the window, or the break moves to
it, or frames run out on the way. -/
inductive SbrkSpec (c : ℕ) (incr : U64) (n : ℕ) (k : Kernel) (p : U64) (k' : Kernel) : Prop where
  | rejected (hout : sbrkTarget k incr < 0x180000000 ∨ newlibTop < sbrkTarget k incr)
      (hp : p = sbrkFailed) (herrno : k'.errno c = enomem) (hvar : k'.var = k.var)
      (hspace : k'.space = k.space) (hcontrol : SameControl k k')
  | moved (m : ℕ) (hin : 0x180000000 ≤ sbrkTarget k incr ∧ sbrkTarget k incr ≤ newlibTop)
      (hp : p = k.var .currBrk) (hbrk : ((k'.var .currBrk).toNat : ℤ) = sbrkTarget k incr)
      (hinv : NewlibInv k' m) (hres : Resized k.space k'.space n m)
  | starved (m : ℕ) (hin : 0x180000000 ≤ sbrkTarget k incr ∧ sbrkTarget k incr ≤ newlibTop)
      (hp : p = sbrkFailed) (herrno : k'.errno c = enomem)
      (hbrk : k'.var .currBrk = k.var .currBrk) (hinv : NewlibInv k' m) (hle : n ≤ m)
      (hres : Resized k.space k'.space n m) (hfew : ¬ FramesSuffice k n (sbrkTarget k incr))

theorem NewlibInv.brk_toNat_le (h : NewlibInv k n) :
    (k.var .currBrk).toNat ≤ 0x180000000 + 0x38000000 := by
  have hle := h.brk_le
  have hn := h.ends.pages.le
  rw [toNat_newlibEnd hn] at hle
  rw [newlibMaxPages] at hn
  omega

/-- The same control state, and a heap whose break lies in its pages. -/
theorem NewlibInv.of_sameControl (h : NewlibInv k n) (hcontrol : SameControl k k')
    (hends : NewlibEnds k' m) (hbase : 0x180000000 ≤ (k'.var .currBrk).toNat)
    (hbrk : (k'.var .currBrk).toNat ≤ (newlibEnd m).toNat) : NewlibInv k' m :=
  ⟨hends, hbase, hbrk, hcontrol.free h.newlibFree, hcontrol.free h.mmuFree,
    hcontrol.free h.pmmFree⟩

/-- `curr_brk + incr`, in `uint64_t`, is exact unless the target is negative. -/
theorem NewlibInv.toNat_add (h : NewlibInv k n) {incr : U64} (h0 : 0 ≤ sbrkTarget k incr) :
    ((k.var .currBrk + incr).toNat : ℤ) = sbrkTarget k incr := by
  have htop := h.brk_toNat_le
  have hlt := incr.isLt
  rw [sbrkTarget, BitVec.toInt_eq_toNat_cond] at h0 ⊢
  rw [BitVec.toNat_add]
  split at h0
  · omega
  · omega

/-- The end of a heap that is shrunk to a break in the window. -/
theorem roundUp_newlib (hlo : 0x180000000 ≤ r.toNat) (hhi : r.toNat ≤ 0x180000000 + 0x38000000) :
    newlibPagesTo r.toNat ≤ newlibMaxPages ∧
      roundUp r pageSize = newlibEnd (newlibPagesTo r.toNat) := by
  have hle : newlibPagesTo r.toNat ≤ newlibMaxPages := by
    rw [newlibPagesTo, newlibMaxPages]
    omega
  refine ⟨hle, BitVec.eq_of_toNat_eq ?_⟩
  rw [toNat_roundUp_pageSize, toNat_newlibEnd hle, newlibPagesTo]
  omega

theorem entered_newlibEnds (h : NewlibEnds k n) {l : Lock} : NewlibEnds (k.entered c l) n :=
  ⟨by rw [Kernel.entered_space]; exact h.pages, by rw [Kernel.entered_var]; exact h.heapEnd⟩

/-- The unlock does not touch the heap. -/
theorem NewlibEnds.unlock (h : NewlibEnds k n) {l : Lock} {flags : U64} :
    NewlibEnds (k.spinUnlock c l flags) n :=
  ⟨by rw [Kernel.spinUnlock_space]; exact h.pages, by rw [Kernel.spinUnlock_var]; exact h.heapEnd⟩

variable {incr : U64}

/-- A request of nothing. -/
theorem yields_sbrk_zero (h : NewlibInv k n) (hincr : incr = 0) :
    Yields (Kernel.perform c) (do
      act (.spinUnlock .newlibLock (k.daif c))
      act (.get .currBrk)) (k.entered c .newlibLock) (SbrkSpec c incr n k) := by
  have hcontrol : SameControl k ((k.entered c .newlibLock).spinUnlock c .newlibLock (k.daif c)) :=
    SameControl.unlock h.newlibFree (.refl _)
  have htarget : sbrkTarget k incr = (k.var .currBrk).toNat := by
    rw [sbrkTarget, hincr]
    exact add_zero _
  have hvar : ((k.entered c .newlibLock).spinUnlock c .newlibLock (k.daif c)).var = k.var := by
    rw [Kernel.spinUnlock_var, Kernel.entered_var]
  have htop := h.brk_toNat_le
  have hbase := h.base
  refine Yields.step (r := ()) rfl (Yields.perform rfl (.moved n ?_ ?_ ?_ ?_ ?_))
  · rw [htarget, newlibTop]
    omega
  · rw [hvar]
  · rw [hvar, htarget]
  · refine h.of_sameControl hcontrol (entered_newlibEnds h.ends).unlock ?_ ?_
    · rw [hvar]
      exact hbase
    · rw [hvar]
      exact h.brk_le
  · rw [Kernel.spinUnlock_space, Kernel.entered_space]
    exact .refl _ n

/-- The way out of a call that has moved the break. -/
theorem SbrkSpec.moved_unlock {k₁ : Kernel} (h : NewlibInv k n)
    (hcontrol : SameControl (k.entered c .newlibLock) k₁) (hends : NewlibEnds k₁ m)
    (hbrk : k₁.var .currBrk = k.var .currBrk + incr)
    (hin : 0x180000000 ≤ sbrkTarget k incr ∧ sbrkTarget k incr ≤ newlibTop)
    (hle : (k.var .currBrk + incr).toNat ≤ (newlibEnd m).toNat)
    (hres : Resized k.space k₁.space n m) :
    SbrkSpec c incr n k (k.var .currBrk) (k₁.spinUnlock c .newlibLock (k.daif c)) := by
  have hexact : ((k.var .currBrk + incr).toNat : ℤ) = sbrkTarget k incr := h.toNat_add (by omega)
  have hvar : (k₁.spinUnlock c .newlibLock (k.daif c)).var .currBrk = k.var .currBrk + incr := by
    rw [Kernel.spinUnlock_var, hbrk]
  refine .moved m hin rfl ?_ (h.of_sameControl (SameControl.unlock h.newlibFree hcontrol)
    hends.unlock ?_ ?_) ?_
  · rw [hvar]
    exact hexact
  · rw [hvar]
    omega
  · rw [hvar]
    exact hle
  · rw [Kernel.spinUnlock_space]
    exact hres

/-- The way out of a call that has been turned down. -/
theorem SbrkSpec.rejected_unlock {k₁ : Kernel} (h : NewlibInv k n)
    (hcontrol : SameControl (k.entered c .newlibLock) k₁)
    (hout : sbrkTarget k incr < 0x180000000 ∨ newlibTop < sbrkTarget k incr)
    (herrno : k₁.errno c = enomem) (hvar : k₁.var = k.var) (hspace : k₁.space = k.space) :
    SbrkSpec c incr n k sbrkFailed (k₁.spinUnlock c .newlibLock (k.daif c)) :=
  .rejected hout rfl (by rw [Kernel.spinUnlock_errno, herrno])
    (by rw [Kernel.spinUnlock_var, hvar]) (by rw [Kernel.spinUnlock_space, hspace])
    (SameControl.unlock h.newlibFree hcontrol)

/-- A request to shrink, whose target is not negative. -/
theorem yields_sbrk_neg (h : NewlibInv k n) (hneg : incr.toInt < 0)
    (h0 : 0 ≤ sbrkTarget k incr) :
    Yields (Kernel.perform c) (do
      let prevBrk ← act (.get .currBrk)
      let freed ← freeSbrk incr
      if freed then do
        act (.spinUnlock .newlibLock (k.daif c))
        pure prevBrk
      else do
        act (.setErrno enomem)
        act (.set .currBrk prevBrk)
        act (.spinUnlock .newlibLock (k.daif c))
        pure sbrkFailed) (k.entered c .newlibLock) (SbrkSpec c incr n k) := by
  have hexact := h.toNat_add h0
  have hbrk := h.brk_toNat_le
  have hbelow : sbrkTarget k incr < (k.var .currBrk).toNat := by
    rw [sbrkTarget]
    omega
  refine Yields.step (r := k.var .currBrk) (by rw [Kernel.perform, Kernel.entered_var]) ?_
  rw [freeSbrk, Prog.bind_assoc']
  refine Yields.step (r := k.var .currBrk) (by rw [Kernel.perform, Kernel.entered_var]) ?_
  dsimp only
  -- a target below the window is refused before any page is touched
  by_cases hlow : k.var .currBrk + incr < newlibHeapBase
  · rw [if_pos hlow, Prog.pure_bind', if_neg (by simp)]
    have hlt : (k.var .currBrk + incr).toNat < 0x180000000 := hlow
    refine Yields.step (r := ()) rfl (Yields.step (r := ()) rfl (Yields.step (r := ()) rfl
      (Yields.ret (SbrkSpec.rejected_unlock h ⟨rfl, rfl, rfl⟩ (Or.inl (by omega)) ?_ ?_ ?_))))
    · exact Function.update_self _ _ _
    · show Function.update (k.entered c .newlibLock).var .currBrk (k.var .currBrk) = k.var
      rw [Kernel.entered_var, Function.update_eq_self]
    · exact Kernel.entered_space
  · rw [if_neg hlow, Prog.bind_assoc']
    have hge : 0x180000000 ≤ (k.var .currBrk + incr).toNat := Nat.not_lt.mp hlow
    obtain ⟨hmax, hround⟩ := roundUp_newlib hge (by omega)
    have hends := entered_newlibEnds (c := c) (l := .newlibLock) h.ends
    -- the break has not been beyond the end, and so the target is not either
    have hpages : newlibPagesTo (k.var .currBrk + incr).toNat ≤ n := by
      have hle := h.brk_le
      rw [toNat_newlibEnd h.ends.pages.le] at hle
      rw [newlibPagesTo]
      omega
    have hn := h.ends.pages.le
    refine Yields.bind (yields_freeSbrkLoop (c := c) hround fuel n _ hends hpages
      (h.mmuFree.entered_of_ne (by decide)) (h.pmmFree.entered_of_ne (by decide))
      (by rw [newlibMaxPages] at hn; rw [fuel]; omega)) fun _ k₁ hshrink => ?_
    rw [Prog.bind_assoc']
    refine Yields.step (r := ()) rfl ?_
    rw [Prog.pure_bind', if_pos rfl]
    refine Yields.step (r := ()) rfl (Yields.ret ?_)
    have hres := hshrink.resized
    rw [Kernel.entered_space] at hres
    refine SbrkSpec.moved_unlock h ⟨hshrink.control.lock, hshrink.control.mmuActive,
      hshrink.control.daif⟩ ⟨hshrink.ends.pages, ?_⟩ Kernel.withVar_self ?_ ?_ hres
    · rw [Kernel.withVar_of_ne (by decide), hshrink.ends.heapEnd]
    · rw [newlibTop]
      omega
    · rw [toNat_newlibEnd hmax, newlibPagesTo]
      omega

/-- A request to grow. -/
theorem yields_sbrk_pos (h : NewlibInv k n) (hpos : 0 < incr.toInt) :
    Yields (Kernel.perform c) (do
      let currBrk ← act (.get .currBrk)
      let requiredEnd := currBrk + incr
      if requiredEnd > newlibHeapBase + newlibHeapMaxSize then do
        act (.setErrno enomem)
        act (.spinUnlock .newlibLock (k.daif c))
        pure sbrkFailed
      else do
        let grown ← sbrkLoop requiredEnd fuel
        if grown then do
          let result ← act (.get .currBrk)
          act (.set .currBrk (result + incr))
          act (.spinUnlock .newlibLock (k.daif c))
          pure result
        else do
          act (.spinUnlock .newlibLock (k.daif c))
          pure sbrkFailed) (k.entered c .newlibLock) (SbrkSpec c incr n k) := by
  have hbase := h.base
  have habove : ((k.var .currBrk).toNat : ℤ) < sbrkTarget k incr := by
    rw [sbrkTarget]
    omega
  have hexact : ((k.var .currBrk + incr).toNat : ℤ) = sbrkTarget k incr := h.toNat_add (by omega)
  refine Yields.step (r := k.var .currBrk) (by rw [Kernel.perform, Kernel.entered_var]) ?_
  dsimp only
  by_cases hhigh : k.var .currBrk + incr > newlibHeapBase + newlibHeapMaxSize
  · rw [if_pos hhigh]
    have hgt : 0x180000000 + 0x38000000 < (k.var .currBrk + incr).toNat := hhigh
    refine Yields.step (r := ()) rfl (Yields.step (r := ()) rfl
      (Yields.ret (SbrkSpec.rejected_unlock h ⟨rfl, rfl, rfl⟩ (Or.inr ?_) ?_ ?_ ?_)))
    · rw [newlibTop]
      omega
    · exact Function.update_self _ _ _
    · exact Kernel.entered_var
    · exact Kernel.entered_space
  · rw [if_neg hhigh]
    have hle : (k.var .currBrk + incr).toNat ≤ 0x180000000 + 0x38000000 := Nat.not_lt.mp hhigh
    have hends := entered_newlibEnds (c := c) (l := .newlibLock) h.ends
    have hmaxEnd : (newlibEnd newlibMaxPages).toNat = 0x180000000 + 0x38000000 := by
      rw [toNat_newlibEnd (le_refl _), newlibMaxPages]
    obtain ⟨hmax, -⟩ := roundUp_newlib (r := k.var .currBrk + incr) (by omega) hle
    refine Yields.bind (yields_sbrkLoop (c := c) (by rw [hmaxEnd]; exact hle) fuel n _ hends
      (h.mmuFree.entered_of_ne (by decide)) (h.pmmFree.entered_of_ne (by decide))
      (by rw [newlibMaxPages, fuel]; omega)) fun grown k₁ hgrow => ?_
    obtain ⟨m, hnm, hends₁, hres, hreach⟩ := hgrow.ends
    have hbrk₁ : k₁.var .currBrk = k.var .currBrk := by
      rw [hgrow.var _ (by decide), Kernel.entered_var]
    rw [Kernel.entered_space] at hres
    cases grown with
    | true =>
      rw [if_pos rfl]
      refine Yields.step (r := k.var .currBrk) (by rw [Kernel.perform, hbrk₁]) ?_
      refine Yields.step (r := ()) rfl (Yields.step (r := ()) rfl (Yields.ret ?_))
      refine SbrkSpec.moved_unlock h ⟨hgrow.control.lock, hgrow.control.mmuActive,
        hgrow.control.daif⟩ ⟨hends₁.pages, ?_⟩ Kernel.withVar_self ?_ (hreach rfl) hres
      · rw [Kernel.withVar_of_ne (by decide), hends₁.heapEnd]
      · rw [newlibTop]
        omega
    | false =>
      rw [if_neg (by simp)]
      have hvar : (k₁.spinUnlock c .newlibLock (k.daif c)).var .currBrk = k.var .currBrk := by
        rw [Kernel.spinUnlock_var, hbrk₁]
      refine Yields.step (r := ()) rfl (Yields.ret (.starved m ?_ rfl ?_ hvar
        (h.of_sameControl (SameControl.unlock h.newlibFree hgrow.control) hends₁.unlock ?_ ?_)
        hnm ?_ fun hsuffice => ?_))
      · rw [newlibTop]
        exact ⟨by omega, by omega⟩
      · rw [Kernel.spinUnlock_errno]
        exact hgrow.errno rfl
      · rw [hvar]
        exact hbase
      · rw [hvar]
        exact h.brk_le.trans (newlibEnd_mono hnm hends₁.pages.le)
      · rw [Kernel.spinUnlock_space]
        exact hres
      · -- the frames would have sufficed
        rw [FramesSuffice, ← hexact] at hsuffice
        have hgrown := hgrow.fed (newlibPaths n (newlibPagesTo (k.var .currBrk + incr).toNat))
          (newlibPagesTo (k.var .currBrk + incr).toNat) (fun _ => newlibPaths_length)
          (fun _ => mem_newlibPaths) (by rw [toNat_newlibEnd hmax, newlibPagesTo]; omega) hmax
          (by rw [Kernel.entered_space]; exact hsuffice)
        exact absurd hgrown (by simp)

/-- **A call whose exact target is not negative.** -/
theorem yields_sbrk (h : NewlibInv k n) (h0 : 0 ≤ sbrkTarget k incr) :
    Yields (Kernel.perform c) (sbrk incr) k (SbrkSpec c incr n k) := by
  rw [sbrk]
  refine Yields.step (r := k.daif c) (Kernel.spinLock_of_free h.newlibFree) ?_
  by_cases hzero : incr = 0
  · rw [if_pos hzero]
    exact yields_sbrk_zero h hzero
  · rw [if_neg hzero]
    by_cases hneg : incr.slt 0 = true
    · rw [if_pos hneg]
      exact yields_sbrk_neg h (of_decide_eq_true hneg) h0
    · rw [if_neg hneg]
      have hne : incr.toInt ≠ 0 := fun he => hzero (BitVec.eq_of_toInt_eq he)
      have hnot : ¬ incr.toInt < 0 := fun hlt => hneg (decide_eq_true hlt)
      exact yields_sbrk_pos h (by omega)

end GamingConsole
