/-
Undoing a mapping.

`map` adds tables on the way and, when it runs out of frames, takes back the
pages it has mapped; `unmap` after `map` does the same.  The question is what is
left behind.

* `Overlay s₀ s X` — `s` is `s₀` with more tables in it, every one of them
  holding something except those at paths in `X`;
* `Overlay.mapPage`, `Overlay.unmapPage` — kept by the two loops, the second as
  long as the tables of `s₀` on the page's path hold something of `s₀`;
* `Overlay.restored` — with the leaves of `s₀` and no exceptions, `s` is `s₀`
  again: same descriptors, same bitmap;
* `Ledger` — the frames that mapping the first pages of a range takes.
-/
import GamingConsole.MapLoops

namespace GamingConsole

open Space

namespace Space

variable {s₀ s s' : Space} {p q : List (Fin 512)} {a t : U64} {pg : Page} {desc : U64}
  {X : List (Fin 512) → Prop}

/-- `s` has the tables of `s₀` and others besides; those at paths outside `X`
are not empty. -/
structure Overlay (s₀ s : Space) (X : List (Fin 512) → Prop) : Prop where
  wf₀ : s₀.WF
  wf : s.WF
  frames : SameFrames s₀ s
  kept : ∀ q t, q.length ≤ 2 → s₀.table q = some t → s.table q = some t
  new : ∀ q t, q.length ≤ 2 → s.table q = some t →
    s₀.table q = some t ∨ ¬ s₀.pmm.Used t ∧ (X q ∨ ¬ s.EmptyTable q)
  used : ∀ a, s.pmm.Used a ↔ s₀.pmm.Used a ∨ s.IsTable a
  leaf : ∀ pg, s₀.leaf pg ≠ 0 → s.leaf pg = s₀.leaf pg

theorem Overlay.refl (h : s₀.WF) : Overlay s₀ s₀ fun _ => False where
  wf₀ := h
  wf := h
  frames := SameFrames.refl _
  kept := fun _ _ _ ht => ht
  new := fun _ _ _ ht => Or.inl ht
  used := fun a => ⟨Or.inl, fun ha => ha.elim id (h.used a)⟩
  leaf := fun _ _ => rfl

/-- The table added by `_get_or_alloc_table` is an exception until a page is
mapped in it. -/
theorem Overlay.ensured (h : Overlay s₀ s X) (he : Ensured s s' p a) (hp : p.length ≤ 2) :
    Overlay s₀ s' fun q => X q ∨ q = p := by
  rcases he with ⟨-, rfl⟩ | he
  · exact { h with new := fun q t hq ht => (h.new q t hq ht).imp_right fun hn =>
      ⟨hn.1, hn.2.imp_left Or.inl⟩ }
  · have hmono : ∀ q, q.length ≤ 2 → s'.table q = none → s.table q = none := by
      intro q hq hn
      rw [he.table q hq] at hn
      by_cases hqp : q = p
      · rw [if_pos hqp] at hn
        exact absurd hn (by simp)
      · rwa [if_neg hqp] at hn
    refine ⟨h.wf₀, he.wf, h.frames.trans he.frames, ?_, ?_, ?_, ?_⟩
    · intro q t hq ht
      have := h.kept q t hq ht
      rw [he.table q hq, if_neg, this]
      rintro rfl
      rw [he.free] at this
      exact absurd this (by simp)
    · intro q t hq ht
      rw [he.table q hq] at ht
      by_cases hqp : q = p
      · rw [if_pos hqp, Option.some_inj] at ht
        subst ht
        exact Or.inr ⟨fun hu => he.fresh ((h.used a).mpr (Or.inl hu)), Or.inl (Or.inr hqp)⟩
      · rw [if_neg hqp] at ht
        refine (h.new q t hq ht).imp_right fun hn => ⟨hn.1, ?_⟩
        rcases hn.2 with hX | hne
        · exact Or.inl (Or.inl hX)
        · exact Or.inr fun hem => hne
            (hem.of_le h.wf he.wf hq (fun i hlen => hmono _ (by simpa using hlen))
              (fun pg _ h0 => (he.leaf pg).symm.trans h0) ht)
    · intro b
      rw [he.used, h.used, he.isTable_iff, or_assoc]
    · exact fun pg h0 => (he.leaf pg).trans (h.leaf pg h0)

/-- Mapping a page that `s₀` does not map. -/
theorem Overlay.mapPage (h : Overlay s₀ s X) (hpg : s₀.leaf pg = 0) (hdesc : desc ≠ 0)
    (hspec : MapPageSpec s pg desc true s') : Overlay s₀ s' X := by
  cases hspec with
  | mapped h2 h3 hset =>
    rename_i t₂ t₃ s₁ s₂
    have hov : Overlay s₀ s₂ fun q => (X q ∨ q = pg.l2Path) ∨ q = pg.l3Path :=
      (h.ensured h2 (by simp [Page.l2Path])).ensured h3 (by simp [Page.l3Path])
    have ht3 : s'.table pg.l3Path = some t₃ := by
      rw [hset.table _ (by simp [Page.l3Path]), h3.table_self]
    have ht2 : s'.table pg.l2Path = some t₂ := by
      rw [hset.table _ (by simp [Page.l2Path]),
        h3.table_mono (by simp [Page.l2Path]) h2.table_self]
    -- the page just mapped keeps its two tables from being empty
    have hne3 : ¬ s'.EmptyTable pg.l3Path := by
      rw [emptyTable_l3_iff ht3]
      intro hzero
      have := hzero pg.l3
      rw [hset.leaf, if_pos rfl] at this
      exact hdesc this
    have hne2 : ¬ s'.EmptyTable pg.l2Path := by
      rw [hset.wf.emptyTable_iff (by simp [Page.l2Path]) ht2]
      intro hnone
      have := hnone pg.l2
      rw [show pg.l2 :: pg.l2Path = pg.l3Path from rfl, ht3] at this
      exact absurd this (by simp)
    refine ⟨h.wf₀, hset.wf, hov.frames.trans hset.frames, ?_, ?_, ?_, ?_⟩
    · intro q t hq ht
      rw [hset.table q hq]
      exact hov.kept q t hq ht
    · intro q t hq ht
      have ht' := ht
      rw [hset.table q hq] at ht
      refine (hov.new q t hq ht).imp_right fun hn => ⟨hn.1, ?_⟩
      rcases hn.2 with ((hX | rfl) | rfl) | hne
      · exact Or.inl hX
      · exact Or.inr hne2
      · exact Or.inr hne3
      · refine Or.inr fun hem => hne (hem.of_le hov.wf hset.wf hq
          (fun i hlen hn => by rwa [hset.table _ (by simpa using hlen)] at hn)
          (fun pg' _ h0 => ?_) ht)
        rw [hset.leaf] at h0
        by_cases hpp : pg' = pg
        · rw [if_pos hpp] at h0
          exact absurd h0 hdesc
        · rwa [if_neg hpp] at h0
    · intro b
      rw [hset.pmm, hov.used, hset.isTable_iff]
    · intro pg' h0
      rw [hset.leaf, if_neg, hov.leaf pg' h0]
      rintro rfl
      exact h0 hpg

/-- Clearing a page that `s₀` does not map may empty its L3 table. -/
theorem Overlay.cleared (h : Overlay s₀ s X) (hpg : s₀.leaf pg = 0) (hset : LeafSet s s' pg 0) :
    Overlay s₀ s' fun q => X q ∨ q = pg.l3Path := by
  refine ⟨h.wf₀, hset.wf, h.frames.trans hset.frames, ?_, ?_, ?_, ?_⟩
  · intro q t hq ht
    rw [hset.table q hq]
    exact h.kept q t hq ht
  · intro q t hq ht
    rw [hset.table q hq] at ht
    refine (h.new q t hq ht).imp_right fun hn => ⟨hn.1, ?_⟩
    by_cases hqp : q = pg.l3Path
    · exact Or.inl (Or.inr hqp)
    · refine hn.2.imp Or.inl fun hne hem => hne (hem.of_le h.wf hset.wf hq
        (fun i hlen hn => by rwa [hset.table _ (by simpa using hlen)] at hn)
        (fun pg' hpath h0 => ?_) ht)
      rwa [hset.leaf, if_neg] at h0
      rintro rfl
      exact hqp hpath.symm
  · intro b
    rw [hset.pmm, h.used, hset.isTable_iff]
  · intro pg' h0
    rw [hset.leaf, if_neg, h.leaf pg' h0]
    rintro rfl
    exact h0 hpg

/-- Dropping the table at `q` when nothing of `s₀` is in it. -/
theorem Overlay.removed (h : Overlay s₀ s X) (hr : Removed s s' q a) (hq₀ : s₀.table q = none) :
    (∀ p t, p.length ≤ 2 → s₀.table p = some t → s'.table p = some t) ∧
      ∀ b, s'.pmm.Used b ↔ s₀.pmm.Used b ∨ s'.IsTable b := by
  have hfresh : ¬ s₀.pmm.Used a := by
    rcases h.new q a hr.depth hr.had with hs | hn
    · rw [hq₀] at hs
      exact absurd hs (by simp)
    · exact hn.1
  constructor
  · intro p t hp ht
    rw [hr.table p hp, if_neg, h.kept p t hp ht]
    rintro rfl
    rw [hq₀] at ht
    exact absurd ht (by simp)
  · intro b
    rw [hr.used, h.used, hr.isTable_iff h.wf]
    constructor
    · rintro ⟨hb | hb, hne⟩
      · exact Or.inl hb
      · exact Or.inr ⟨hb, hne⟩
    · rintro (hb | ⟨hb, hne⟩)
      · exact ⟨Or.inl hb, fun hba => hfresh (hba ▸ hb)⟩
      · exact ⟨Or.inr hb, hne⟩

/-- A table of `s₀` that holds something is not empty in `s` either. -/
theorem Overlay.emptyTable (h : Overlay s₀ s X) (hq : q.length ≤ 2) (ht : s₀.table q = some t)
    (he : s.EmptyTable q) : s₀.EmptyTable q := by
  refine he.of_le h.wf₀ h.wf hq (fun i hlen hn => ?_) (fun pg _ h0 => ?_) ht
  · rcases hc : s₀.table (i :: q) with _ | c
    · rfl
    · rw [h.kept _ c (by simpa using hlen) hc] at hn
      exact absurd hn (by simp)
  · by_contra hne
    rw [h.leaf pg hne] at h0
    exact hne h0

/-- Pruning the table at `i :: q`, excepted so far, may empty its parent. -/
theorem Overlay.pruned {i : Fin 512} (h : Overlay s₀ s fun p => X p ∨ p = i :: q)
    (hnon : ¬ s₀.EmptyTable (i :: q)) (hpr : Pruned s s' (i :: q)) :
    Overlay s₀ s' fun p => X p ∨ p = q := by
  rcases hpr with ⟨hem, a, hr⟩ | ⟨hne, rfl⟩
  · have hq₀ : s₀.table (i :: q) = none := by
      rcases hc : s₀.table (i :: q) with _ | c
      · rfl
      · exact absurd (h.emptyTable hr.depth hc hem) hnon
    obtain ⟨hkept, hused⟩ := h.removed hr hq₀
    refine ⟨h.wf₀, hr.wf, h.frames.trans hr.frames, hkept, ?_, hused, ?_⟩
    · intro p t hp ht
      rw [hr.table p hp] at ht
      by_cases hpi : p = i :: q
      · rw [if_pos hpi] at ht
        exact absurd ht (by simp)
      · rw [if_neg hpi] at ht
        refine (h.new p t hp ht).imp_right fun hn => ⟨hn.1, ?_⟩
        by_cases hpq : p = q
        · exact Or.inl (Or.inr hpq)
        · rcases hn.2 with (hX | hpi') | hne
          · exact Or.inl (Or.inl hX)
          · exact absurd hpi' hpi
          · refine Or.inr fun hem' => hne (hem'.of_le h.wf hr.wf hp (fun j hlen hn => ?_)
              (fun pg _ h0 => (hr.leaf pg).symm.trans h0) ht)
            rwa [hr.table _ (by simpa using hlen), if_neg] at hn
            exact fun hj => hpq (List.cons.inj hj).2
    · exact fun pg h0 => (hr.leaf pg).trans (h.leaf pg h0)
  · refine { h with new := fun p t hp ht => (h.new p t hp ht).imp_right fun hn => ⟨hn.1, ?_⟩ }
    rcases hn.2 with (hX | rfl) | hne'
    · exact Or.inl (Or.inl hX)
    · exact Or.inr hne
    · exact Or.inr hne'

/-- The root is no exception: it is in both states. -/
theorem Overlay.drop_root (h : Overlay s₀ s fun p => X p ∨ p = []) : Overlay s₀ s X := by
  refine { h with new := fun p t hp ht => ?_ }
  rcases h.new p t hp ht with hs | ⟨hu, (hX | rfl) | hne⟩
  · exact Or.inl hs
  · exact Or.inr ⟨hu, Or.inl hX⟩
  · rw [table_nil, h.frames.root] at ht
    exact Or.inl ht
  · exact Or.inr ⟨hu, Or.inr hne⟩

/-- Unmapping a page that `s₀` does not map, where the tables of `s₀` on its path
hold something. -/
theorem Overlay.unmapPage (h : Overlay s₀ s X) (hpg : s₀.leaf pg = 0)
    (h3 : ¬ s₀.EmptyTable pg.l3Path) (h2 : ¬ s₀.EmptyTable pg.l2Path)
    (hspec : UnmapPageSpec s pg true s') : Overlay s₀ s' X := by
  cases hspec with
  | cleared _ _ hset hpr3 hpr2 =>
    exact (((h.cleared hpg hset).pruned (q := pg.l2Path) h3 hpr3).pruned
      (q := []) h2 hpr2).drop_root

/-- **Nothing is left behind**: an overlay without exceptions that has the leaves
of `s₀` is `s₀`, descriptor for descriptor and bit for bit. -/
theorem Overlay.restored (h : Overlay s₀ s fun _ => False) (hleaf : ∀ pg, s.leaf pg = s₀.leaf pg) :
    SameTables s₀ s ∧ s.pmm = s₀.pmm := by
  -- an L3 table that is new is not empty, and so has a leaf that `s₀` has too
  have hl3 : ∀ x y t, s.table [x, y] = some t → s₀.table [x, y] = some t := by
    intro x y t ht
    rcases h.new [x, y] t (by simp) ht with hs | ⟨-, hF | hne⟩
    · exact hs
    · exact hF.elim
    · have hsome : s₀.table [x, y] ≠ none := by
        intro hnone
        refine hne ((show s.EmptyTable (⟨y, x, 0⟩ : Page).l3Path ↔ _ from
          emptyTable_l3_iff ht).mpr fun i => ?_)
        rw [hleaf]
        exact leaf_of_no_table hnone
      obtain ⟨c, hc⟩ := Option.ne_none_iff_exists'.mp hsome
      rw [h.kept _ c (by simp) hc, Option.some_inj] at ht
      rw [hc, ht]
  -- the same one level up: an L2 table that is new has an L3 table
  have htable : ∀ q, q.length ≤ 2 → s.table q = s₀.table q := by
    intro q hq
    rcases hs : s.table q with _ | t
    · rcases hs₀ : s₀.table q with _ | c
      · rfl
      · rw [h.kept q c hq hs₀] at hs
        exact absurd hs (by simp)
    · symm
      rcases q with _ | ⟨x, _ | ⟨y, _ | ⟨z, r⟩⟩⟩
      · rw [← hs, table_nil, table_nil, h.frames.root]
      · rcases h.new [x] t hq hs with hs' | ⟨-, hF | hne⟩
        · exact hs'
        · exact hF.elim
        · have hsome : s₀.table [x] ≠ none := by
            intro hnone
            refine hne ((h.wf.emptyTable_iff (by simp) hs).mpr fun i => ?_)
            rcases hc : s.table [i, x] with _ | c
            · rfl
            · obtain ⟨b, hb, -⟩ := table_cons_eq_some (hl3 i x c hc)
              rw [hb] at hnone
              exact absurd hnone (by simp)
          obtain ⟨c, hc⟩ := Option.ne_none_iff_exists'.mp hsome
          rw [h.kept _ c (by simp) hc, Option.some_inj] at hs
          rw [hc, hs]
      · exact hl3 x y t hs
      · simp only [List.length_cons] at hq
        omega
  refine ⟨sameTables_of h.wf₀ h.wf h.frames.root htable hleaf,
    Pmm.eq_of_used h.wf₀.pmm h.wf.pmm h.frames.geometry h.frames.padding fun a => ?_⟩
  rw [h.used]
  constructor
  · rintro (ha | ⟨q, hq, ha⟩)
    · exact ha
    · rw [htable q hq] at ha
      exact h.wf₀.table_used hq ha
  · exact Or.inl

/-! ### The frames a mapping takes -/

/-- `T` with the path `q` added, if `s` has no table there. -/
def addMissing (s : Space) (T : Finset (List (Fin 512))) (q : List (Fin 512)) :
    Finset (List (Fin 512)) := if s.table q = none then insert q T else T

/-- The tables that mapping the first `n` pages from `va` has to create. -/
def newTables (s : Space) (va : U64) : ℕ → Finset (List (Fin 512))
  | 0 => ∅
  | n + 1 =>
    addMissing s (addMissing s (newTables s va n) (pageAt va n).l2Path) (pageAt va n).l3Path

/-- The frames for the tables at `T`, and no others, have been taken since `s₀`. -/
structure Ledger (s₀ s : Space) (T : Finset (List (Fin 512))) : Prop where
  missing : ∀ q, q.length ≤ 2 → (s.table q = none ↔ s₀.table q = none ∧ q ∉ T)
  count : s.pmm.freeCount + T.card = s₀.pmm.freeCount

variable {T : Finset (List (Fin 512))}

theorem Ledger.zero (s : Space) : Ledger s s ∅ :=
  ⟨fun q _ => by simp, by simp⟩

theorem Ledger.ensured (h : Ledger s₀ s T) (he : Ensured s s' p a) (hp : p.length ≤ 2) :
    Ledger s₀ s' (addMissing s₀ T p) := by
  have hmiss := h.missing p hp
  rcases he with ⟨ht, rfl⟩ | he
  · have hin : s₀.table p = none → p ∈ T := by
      intro hn
      by_contra hpT
      rw [hmiss.mpr ⟨hn, hpT⟩] at ht
      exact absurd ht (by simp)
    have hT : addMissing s₀ T p = T := by
      rw [addMissing]
      split
      · rename_i hn
        exact Finset.insert_eq_of_mem (hin hn)
      · rfl
    rwa [hT]
  · obtain ⟨hn, hpT⟩ := hmiss.mp he.free
    rw [addMissing, if_pos hn]
    refine ⟨fun q hq => ?_, ?_⟩
    · rw [he.table q hq, Finset.mem_insert, not_or]
      by_cases hqp : q = p
      · simp [hqp]
      · rw [if_neg hqp, h.missing q hq]
        simp [hqp]
    · have h1 := h.count
      have h2 := he.count
      rw [Finset.card_insert_of_notMem hpT]
      omega

theorem Ledger.leafSet (h : Ledger s₀ s T) {w : U64} (hset : LeafSet s s' pg w) :
    Ledger s₀ s' T :=
  ⟨fun q hq => by rw [hset.table q hq, h.missing q hq], by rw [hset.pmm, h.count]⟩

theorem Ledger.mapPage {va : U64} {n : ℕ} (h : Ledger s₀ s (newTables s₀ va n))
    (hspec : MapPageSpec s (pageAt va n) desc true s') :
    Ledger s₀ s' (newTables s₀ va (n + 1)) := by
  cases hspec with
  | mapped h2 h3 hset =>
    exact ((h.ensured h2 (by simp [Page.l2Path])).ensured h3 (by simp [Page.l3Path])).leafSet hset

theorem card_addMissing_le (s : Space) (T : Finset (List (Fin 512))) (q : List (Fin 512)) :
    T.card ≤ (addMissing s T q).card := by
  rw [addMissing]
  split
  · exact Finset.card_le_card (Finset.subset_insert _ _)
  · exact le_refl _

theorem card_newTables_mono (s : Space) (va : U64) : Monotone fun n => (newTables s va n).card :=
  monotone_nat_of_le_succ fun n =>
    (card_addMissing_le s _ (pageAt va n).l2Path).trans
      (card_addMissing_le s _ (pageAt va n).l3Path)

/-- No frame is left for the table at `q`. -/
theorem Ledger.full (h : Ledger s₀ s T) (hq : q.length ≤ 2) (hnone : s.table q = none)
    (hfull : s.pmm.freeCount = 0) :
    T.card = s₀.pmm.freeCount ∧ (addMissing s₀ T q).card = s₀.pmm.freeCount + 1 := by
  obtain ⟨hn, hqT⟩ := (h.missing q hq).mp hnone
  have hcount := h.count
  rw [addMissing, if_pos hn, Finset.card_insert_of_notMem hqT]
  omega

end Space

end GamingConsole
