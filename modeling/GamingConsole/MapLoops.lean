/-
The loops of `map` and `_unmap_locked`, running alone.

`pageAt va i` is the `i`-th page of a range; up to 2²⁷ of them are distinct.
The two loops get one rule each (`Alone.mapPages`, `Alone.unmapPages`), which
ask for an invariant of the iteration.  `alone_map` uses them for the effect of
a successful `map`: `MapsRange`.
-/
import GamingConsole.MmuAlone

namespace GamingConsole

open Space

/-! ### The pages of a range -/

/-- The `i`-th page of a range that starts at `va`. -/
def pageAt (va : U64) (i : ℕ) : Page := pageOf (pageAddr va i)

theorem num_pageAt (va : U64) (i : ℕ) : (pageAt va i).num = (va.toNat / 4096 + i) % 2 ^ 27 := by
  rw [pageAt, num_pageOf, pageAddr, BitVec.toNat_add, BitVec.toNat_mul, BitVec.toNat_ofNat,
    toNat_pageSize]
  omega

theorem pageAt_inj {va : U64} {i j : ℕ} (hi : i < 2 ^ 27) (hj : j < 2 ^ 27)
    (h : pageAt va i = pageAt va j) : i = j := by
  have := congrArg Page.num h
  rw [num_pageAt, num_pageAt] at this
  omega

theorem numPages_lt (size : U64) : numPages size < 2 ^ 52 := by
  rw [numPages, BitVec.toNat_udiv, toNat_pageSize]
  omega

theorem numPages_eq (size : U64) : numPages size = size.toNat / 4096 := by
  rw [numPages, BitVec.toNat_udiv, toNat_pageSize]

/-- The pages of a range. -/
def InRange (va size : U64) (pg : Page) : Prop := ∃ i < numPages size, pg = pageAt va i

/-- The size that the rollback of `map` hands to `_unmap_locked`. -/
theorem numPages_mul {i : ℕ} (hi : i < 2 ^ 52) : numPages (BitVec.ofNat 64 i * pageSize) = i := by
  rw [numPages_eq, toNat_mul_pageSize hi]
  omega

/-- The descriptor that `map` writes for page `i`. -/
def pageDesc (phys flags : U64) (i : ℕ) : U64 := pageAddr phys i ||| flags ||| 3#64

theorem pageDesc_valid (phys flags : U64) (i : ℕ) :
    pageDesc phys flags i &&& 3#64 = 3#64 := tableDesc_and_three _

theorem pageDesc_and_addrMask {phys flags : U64} {i : ℕ} (hal : (pageAddr phys i).toNat % 4096 = 0)
    (hlt : (pageAddr phys i).toNat < 2 ^ 48) (hf : (flags ||| 3#64).toNat < 4096) :
    pageDesc phys flags i &&& addrMask = pageAddr phys i := by
  rw [pageDesc, BitVec.or_assoc, or_and_addrMask hal hlt hf]

theorem pageAddr_add (va : U64) (i j : ℕ) : pageAddr (pageAddr va i) j = pageAddr va (i + j) := by
  rw [pageAddr, pageAddr, pageAddr, BitVec.ofNat_add, BitVec.add_mul, BitVec.add_assoc]

theorem pageAddr_zero (va : U64) : pageAddr va 0 = va := by simp [pageAddr]

/-- The address of byte `off` of a run of frames that is mapped from `va` on. -/
theorem Space.translation_of_leaf {s : Space} {va phys flags : U64} {off : ℕ}
    (hva : va.toNat % 4096 = 0) (hphys : phys.toNat % 4096 = 0)
    (hfits : phys.toNat + off < 2 ^ 48) (hflags : (flags ||| 3#64).toNat < 4096)
    (hleaf : s.leaf (pageAt va (off / 4096)) = pageDesc phys flags (off / 4096)) :
    s.translation (va + BitVec.ofNat 64 off) = phys + BitVec.ofNat 64 off := by
  have haddr : (pageAddr phys (off / 4096)).toNat = phys.toNat + off / 4096 * 4096 :=
    toNat_add_mul_pageSize (by omega)
  have hpage : pageOf (va + BitVec.ofNat 64 off) = pageAt va (off / 4096) := by
    apply Page.num_inj
    rw [num_pageOf, num_pageAt, BitVec.toNat_add, BitVec.toNat_ofNat]
    omega
  rw [Space.translation, hpage, hleaf, if_pos (pageDesc_valid _ _ _),
    pageDesc_and_addrMask (by omega) (by omega) hflags]
  have hlow : ((va + BitVec.ofNat 64 off) &&& 0xFFF#64).toNat = off % 4096 := by
    rw [show 0xFFF#64 = BitFields.lowMask 64 12 from rfl, BitFields.toNat_and_lowMask _ (by omega),
      BitVec.toNat_add, BitVec.toNat_ofNat]
    omega
  apply BitVec.eq_of_toNat_eq
  rw [BitFields.toNat_or_of_low (n := 12) (by omega) (by omega), haddr, hlow, BitVec.toNat_add,
    BitVec.toNat_ofNat]
  omega

/-! ### Loop rules -/

namespace Alone

variable {c : ℕ} {k : Kernel} {s : Space} {va phys flags : U64}

/-- The clearing loop: `R` is kept by every cleared page, `J` is what a hole
leaves. -/
theorem unmapPages {R : ℕ → Space → Prop} {J : Space → Prop} (hk : k.Free .pmmLock)
    (hwf : ∀ j s, R j s → s.WF) : ∀ (n i : ℕ) (s : Space),
    (∀ j s s', i ≤ j → j < i + n → R j s → UnmapPageSpec s (pageAt va j) true s' → R (j + 1) s') →
    (∀ j s s', i ≤ j → j < i + n → R j s → UnmapPageSpec s (pageAt va j) false s' → J s') →
    R i s → Alone c k (unmapPages va n i) s fun done s' =>
      done = true ∧ R (i + n) s' ∨ done = false ∧ J s' := by
  intro n
  induction n with
  | zero => exact fun i s _ _ hs => Alone.pure (Or.inl ⟨rfl, hs⟩)
  | succ n ih =>
    intro i s hstep hhole hs
    rw [GamingConsole.unmapPages]
    refine Alone.bind (alone_unmapPage (hwf i s hs) hk (pageAddr va i)) fun found s' hspec => ?_
    cases found with
    | false =>
      exact Alone.pure (Or.inr ⟨rfl, hhole i s s' (le_refl i) (by omega) hs hspec⟩)
    | true =>
      rw [if_pos rfl, show i + (n + 1) = i + 1 + n by omega]
      exact ih (i + 1) s' (fun j s s' h1 h2 => hstep j s s' (by omega) (by omega))
        (fun j s s' h1 h2 => hhole j s s' (by omega) (by omega))
        (hstep i s s' (le_refl i) (by omega) hs hspec)

theorem unmapLocked {R : ℕ → Space → Prop} {J : Space → Prop} {size : U64} (hk : k.Free .pmmLock)
    (hwf : ∀ j s, R j s → s.WF)
    (hstep : ∀ j s s', j < numPages size → R j s → UnmapPageSpec s (pageAt va j) true s' →
      R (j + 1) s')
    (hhole : ∀ j s s', j < numPages size → R j s → UnmapPageSpec s (pageAt va j) false s' → J s')
    (hs : R 0 s) :
    Alone c k (unmapLocked va size) s fun _ s' => R (numPages size) s' ∨ J s' := by
  rw [GamingConsole.unmapLocked]
  refine Alone.bind (Alone.unmapPages (R := R) (J := J) hk hwf (numPages size) 0 s
    (fun j s s' _ hj => hstep j s s' (by omega)) (fun j s s' _ hj => hhole j s s' (by omega)) hs)
    fun done s' h => ?_
  rw [Nat.zero_add] at h
  rcases h with ⟨rfl, hR⟩ | ⟨rfl, hJ⟩
  · rw [if_pos rfl]
    refine Alone.mono (alone_tlbiPages va _ _) fun _ s'' hs'' => ?_
    rw [hs'']
    exact Or.inl hR
  · exact Alone.pure (Or.inr hJ)

/-- The mapping loop: `I` is kept by every mapped page, `J` is what the rollback
of a failed page leaves. -/
theorem mapPages {I : ℕ → Space → Prop} {J : Space → Prop} (hk : k.Free .pmmLock)
    (hwf : ∀ j s, I j s → s.WF) : ∀ (n i : ℕ) (s : Space),
    (∀ j s s', i ≤ j → j < i + n → I j s →
      MapPageSpec s (pageAt va j) (pageDesc phys flags j) true s' → I (j + 1) s') →
    (∀ j s s', i ≤ j → j < i + n → I j s →
      MapPageSpec s (pageAt va j) (pageDesc phys flags j) false s' →
      Alone c k (GamingConsole.unmapLocked va (BitVec.ofNat 64 j * pageSize)) s'
        fun _ s'' => J s'') →
    I i s → Alone c k (mapPages va phys flags n i) s fun done s' =>
      done = true ∧ I (i + n) s' ∨ done = false ∧ J s' := by
  intro n
  induction n with
  | zero => exact fun i s _ _ hs => Alone.pure (Or.inl ⟨rfl, hs⟩)
  | succ n ih =>
    intro i s hstep hfail hs
    rw [GamingConsole.mapPages]
    refine Alone.bind (alone_mapPage (hwf i s hs) hk (pageAddr va i) (pageAddr phys i) flags)
      fun done s' hspec => ?_
    cases done with
    | false =>
      exact Alone.bind (hfail i s s' (le_refl i) (by omega) hs hspec)
        fun _ s'' hJ => Alone.pure (Or.inr ⟨rfl, hJ⟩)
    | true =>
      rw [if_pos rfl, show i + (n + 1) = i + 1 + n by omega]
      exact ih (i + 1) s' (fun j s s' h1 h2 => hstep j s s' (by omega) (by omega))
        (fun j s s' h1 h2 => hfail j s s' (by omega) (by omega))
        (hstep i s s' (le_refl i) (by omega) hs hspec)

theorem map {I : ℕ → Space → Prop} {J : Space → Prop} {size : U64} (hmmu : k.Free .mmuLock)
    (hpmm : k.Free .pmmLock) (hwf : ∀ j s, I j s → s.WF)
    (hstep : ∀ j s s', j < numPages size → I j s →
      MapPageSpec s (pageAt va j) (pageDesc phys flags j) true s' → I (j + 1) s')
    (hfail : ∀ j s s', j < numPages size → I j s →
      MapPageSpec s (pageAt va j) (pageDesc phys flags j) false s' →
      Alone c (k.entered c .mmuLock)
        (GamingConsole.unmapLocked va (BitVec.ofNat 64 j * pageSize)) s' fun _ s'' => J s'')
    (hs : I 0 s) :
    Alone c k (map va phys size flags) s fun done s' =>
      done = true ∧ I (numPages size) s' ∨ done = false ∧ J s' := by
  refine Alone.critical hmmu ?_
  rw [mapLocked]
  refine Alone.bind (Alone.mapPages (I := I) (J := J) (hpmm.entered_of_ne (by decide)) hwf
    (numPages size) 0 s (fun j s s' _ hj => hstep j s s' (by omega))
    (fun j s s' _ hj => hfail j s s' (by omega)) hs) fun done s' h => ?_
  rw [Nat.zero_add] at h
  rcases h with ⟨rfl, hI⟩ | ⟨rfl, hJ⟩
  · rw [if_pos rfl]
    refine Alone.bind (alone_tlbiPages va _ _) fun _ s'' hs'' => Alone.pure (Or.inl ⟨rfl, ?_⟩)
    rwa [hs'']
  · exact Alone.pure (Or.inr ⟨rfl, hJ⟩)

theorem unmap {R : ℕ → Space → Prop} {J : Space → Prop} {size : U64} (hmmu : k.Free .mmuLock)
    (hpmm : k.Free .pmmLock) (hwf : ∀ j s, R j s → s.WF)
    (hstep : ∀ j s s', j < numPages size → R j s → UnmapPageSpec s (pageAt va j) true s' →
      R (j + 1) s')
    (hhole : ∀ j s s', j < numPages size → R j s → UnmapPageSpec s (pageAt va j) false s' → J s')
    (hs : R 0 s) :
    Alone c k (unmap va size) s fun _ s' => R (numPages size) s' ∨ J s' :=
  Alone.critical hmmu (Alone.unmapLocked (hpmm.entered_of_ne (by decide)) hwf hstep hhole hs)

end Alone

/-! ### Well-formedness of one page -/

theorem MapPageSpec.wf {s s' : Space} {pg : Page} {desc : U64} {done : Bool} (h : s.WF)
    (hspec : MapPageSpec s pg desc done s') : s'.WF := by
  cases hspec with
  | mapped h2 h3 hset => exact hset.wf
  | noL2 => exact h
  | noL3 h2 => exact h2.wf h

theorem UnmapPageSpec.wf {s s' : Space} {pg : Page} {found : Bool} (h : s.WF)
    (hspec : UnmapPageSpec s pg found s') : s'.WF := by
  cases hspec with
  | hole => exact h
  | cleared _ _ hset h3 h2 => exact h2.wf (h3.wf hset.wf)

theorem MapPageSpec.leaf {s s' : Space} {pg : Page} {desc : U64}
    (hspec : MapPageSpec s pg desc true s') (pg' : Page) :
    s'.leaf pg' = if pg' = pg then desc else s.leaf pg' := by
  cases hspec with
  | mapped h2 h3 hset => rw [hset.leaf, h3.leaf, h2.leaf]

theorem UnmapPageSpec.leaf {s s' : Space} {pg : Page} (hspec : UnmapPageSpec s pg true s')
    (pg' : Page) : s'.leaf pg' = if pg' = pg then 0 else s.leaf pg' := by
  cases hspec with
  | cleared _ _ hset h3 h2 => rw [h2.leaf, h3.leaf, hset.leaf]

/-- A page with a descriptor is no hole. -/
theorem UnmapPageSpec.leaf_of_hole {s s' : Space} {pg : Page}
    (hspec : UnmapPageSpec s pg false s') : s.leaf pg = 0 := by
  cases hspec with
  | hole hnone => exact leaf_of_no_table hnone

/-! ### The translation after `map` -/

/-- The first `n` pages from `va` are mapped to the frames from `phys` on, and
the rest is as in `s₀`. -/
structure MapsRange (s₀ s : Space) (va phys flags : U64) (n : ℕ) : Prop where
  wf : s.WF
  inside : n ≤ 2 ^ 27 → ∀ i < n, s.leaf (pageAt va i) = pageDesc phys flags i
  outside : ∀ pg, (∀ i < n, pg ≠ pageAt va i) → s.leaf pg = s₀.leaf pg

variable {s₀ s s' : Space} {va phys flags size : U64} {n : ℕ}

theorem MapsRange.zero (h : s₀.WF) : MapsRange s₀ s₀ va phys flags 0 :=
  ⟨h, fun _ i hi => absurd hi (Nat.not_lt_zero i), fun _ _ => rfl⟩

theorem MapsRange.step (h : MapsRange s₀ s va phys flags n)
    (hspec : MapPageSpec s (pageAt va n) (pageDesc phys flags n) true s') :
    MapsRange s₀ s' va phys flags (n + 1) where
  wf := hspec.wf h.wf
  inside := by
    intro hn i hi
    rw [hspec.leaf]
    by_cases hin : i = n
    · rw [hin, if_pos rfl]
    · rw [if_neg fun he => hin (pageAt_inj (by omega) (by omega) he)]
      exact h.inside (by omega) i (by omega)
  outside := by
    intro pg hpg
    rw [hspec.leaf, if_neg (hpg n (by omega))]
    exact h.outside pg fun i hi => hpg i (by omega)

/-- What a run of `map` from any well-formed memory leaves. -/
theorem alone_map {c : ℕ} {k : Kernel} (h : s₀.WF) (hmmu : k.Free .mmuLock)
    (hpmm : k.Free .pmmLock) :
    Alone c k (map va phys size flags) s₀ fun done s' =>
      s'.WF ∧ (done = true → MapsRange s₀ s' va phys flags (numPages size)) := by
  refine Alone.mono (Alone.map (I := fun n s => MapsRange s₀ s va phys flags n)
    (J := WF) hmmu hpmm (fun _ _ hs => hs.wf) (fun j s s' _ hs hspec => hs.step hspec)
    (fun j s s' _ hs hspec => ?_) (.zero h)) fun done s' hor => ?_
  · refine Alone.mono (Alone.unmapLocked (R := fun _ => WF) (J := WF)
      (hpmm.entered_of_ne (by decide)) (fun _ _ h => h) (fun _ _ _ _ h hspec => hspec.wf h)
      (fun _ _ _ _ h hspec => hspec.wf h) (hspec.wf hs.wf)) fun _ s'' h => h.elim id id
  · rcases hor with ⟨rfl, hI⟩ | ⟨rfl, hJ⟩
    · exact ⟨hI.wf, fun _ => hI⟩
    · exact ⟨hJ, fun hf => absurd hf (by simp)⟩

theorem alone_unmap {c : ℕ} {k : Kernel} (h : s₀.WF) (hmmu : k.Free .mmuLock)
    (hpmm : k.Free .pmmLock) : Alone c k (unmap va size) s₀ fun _ s' => s'.WF :=
  Alone.mono (Alone.unmap (R := fun _ => WF) (J := WF) hmmu hpmm (fun _ _ h => h)
    (fun _ _ _ _ h hspec => hspec.wf h) (fun _ _ _ _ h hspec => hspec.wf h) h)
    fun _ _ h => h.elim id id

end GamingConsole
