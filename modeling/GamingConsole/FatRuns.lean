/-
Runs of FatFs on the FAT.

The files and directories of the volume have their chains in the FAT, and each is known by
its start cluster.  They grow, shrink and go away through `create_chain` and `remove_chain`,
in any order.  Transfers may fail; on a FAT12 volume an entry can then be left half
stored, so that there the runs are those in which none fails.

* `FatState.Good` — the chains end, and have no cluster in common;
* `chainCall_good`, `fatRuns_good` — that is so after every call, and in every run;
* `createChain_full_iff` — when a file cannot grow;
* `fatRuns_synced` — what `sync_fs` leaves on the drive.
-/
import GamingConsole.FatChains

namespace GamingConsole

open LinkTable PackedTable

variable {ι : Type}

/-- The volume, and the start clusters of its files and directories; 0 is for none. -/
structure FatState (ι : Type) where
  vol : Volume
  start : ι → U32

/-- From the cluster `a`, the links lead to `b`. -/
def Volume.Leads (v : Volume) : ℕ → ℕ → Prop :=
  Relation.ReflTransGen fun a b => v.entry a = b ∧ b ∈ v.clusters

/-- `clst` is a cluster of the file. -/
def FatState.Has (s : FatState ι) (i : ι) (clst : U32) : Prop :=
  s.start i ≠ 0#32 ∧ s.vol.Leads (s.start i).toNat clst.toNat

/-- What is done to the chains of files and directories. -/
inductive ChainCall (ι : Type) where
  /-- A first cluster (`f_write`, `f_lseek`). -/
  | create (i : ι)
  /-- The cluster after `clst`, a new one if it is the last (`f_write`, `f_lseek`, `dir_next`). -/
  | extend (i : ι) (clst : U32)
  /-- `f_truncate` with the pointer in the cluster `clst`. -/
  | truncate (i : ι) (clst : U32)
  /-- The whole chain (`f_truncate` at 0, `f_unlink`). -/
  | remove (i : ι)
  /-- `sync_fs`. -/
  | sync

/-- A call is made for a file without clusters, with a cluster of the file, or for one that
has clusters. -/
def ChainCall.Legal (s : FatState ι) : ChainCall ι → Prop
  | .create i => s.start i = 0#32
  | .extend i clst => s.Has i clst
  | .truncate i clst => s.Has i clst
  | .remove i => s.start i ≠ 0#32
  | .sync => True

/-- The results of `create_chain` that are no cluster. -/
def noCluster (r : U32) : Prop := r = 0#32 ∨ r = 1#32 ∨ r = 0xFFFFFFFF#32

instance (r : U32) : Decidable (noCluster r) := inferInstanceAs (Decidable (_ ∨ _ ∨ _))

/-- The call, with what the file object is set to by it. -/
def ChainCall.run [DecidableEq ι] (s : FatState ι) : ChainCall ι → Option (FatState ι)
  | .create i => (createChain s.vol 0#32).map fun (r, v) =>
      ⟨v, if noCluster r then s.start else Function.update s.start i r⟩
  | .extend _ clst => (createChain s.vol clst).map fun (_, v) => ⟨v, s.start⟩
  | .truncate _ clst =>
      let (ncl, v) := getFat s.vol clst
      if ncl ≠ 0xFFFFFFFF#32 ∧ ncl ≠ 1#32 ∧ ncl < v.nFatent then
        (removeChain v ncl clst).map fun (_, v) => ⟨v, s.start⟩
      else some ⟨v, s.start⟩
  | .remove i => (removeChain s.vol (s.start i) 0#32).map fun (_, v) =>
      ⟨v, Function.update s.start i 0#32⟩
  | .sync => some ⟨(syncFs s.vol).2, s.start⟩

/-- The chains are in order: they end, have no cluster in common, and the used clusters that
are in none of them are `lost`. -/
structure FatState.Owns (s : FatState ι) (f : ι → List ℕ) (lost : Set ℕ) : Prop where
  sound : s.vol.FatSound
  coherent : s.vol.Coherent
  mirrored : s.vol.Mirrored
  counted : s.vol.Counted
  links : ∀ c ∈ s.vol.clusters, s.vol.entry c ≠ 1
  allocated : Allocated s.vol.clusters 0 s.vol.entry f lost
  heads : ∀ i, (f i).headD 0 = (s.start i).toNat

def FatState.Good (s : FatState ι) : Prop := ∃ f lost, s.Owns f lost

/-! ### The clusters of a file -/

section Files

variable {s : FatState ι} {f : ι → List ℕ} {lost : Set ℕ} {i : ι} {clst : U32}

theorem FatState.Owns.eq_nil_iff (h : s.Owns f lost) : f i = [] ↔ s.start i = 0#32 := by
  have hhead := h.heads i
  constructor
  · intro hnil
    rw [hnil] at hhead
    exact BitVec.eq_of_toNat_eq hhead.symm
  · intro hz
    rw [hz] at hhead
    cases hf : f i with
    | nil => rfl
    | cons c l =>
      have hc := (h.allocated.chain i).cells c (by rw [hf]; simp)
      rw [hf] at hhead
      have hc2 := hc.1
      rw [show c = 0 from hhead] at hc2
      exact absurd hc2 (by decide)

theorem FatState.Owns.start_mem (h : s.Owns f lost) (hs : s.start i ≠ 0#32) :
    (s.start i).toNat ∈ f i := by
  have hhead := h.heads i
  cases hf : f i with
  | nil => exact absurd (h.eq_nil_iff.mp hf) hs
  | cons c l =>
    rw [hf] at hhead
    rw [← hhead]
    simp

/-- The links from the start cluster stay in the chain. -/
theorem FatState.Owns.mem_of_has (h : s.Owns f lost) (hc : s.Has i clst) : clst.toNat ∈ f i := by
  obtain ⟨hs, hlead⟩ := hc
  have hstart := h.start_mem hs
  generalize clst.toNat = c at hlead
  induction hlead with
  | refl => exact hstart
  | tail _ hstep ih =>
    obtain ⟨rfl, hin⟩ := hstep
    exact (h.allocated.chain i).next_mem ih hin

/-- Two files have no cluster in common. -/
theorem FatState.Good.apart (h : s.Good) {j : ι} (hi : s.Has i clst) (hj : s.Has j clst) :
    i = j := by
  obtain ⟨f, lost, howns⟩ := h
  exact howns.allocated.apart i j _ (howns.mem_of_has hi) (howns.mem_of_has hj)

end Files

/-! ### One call -/

section Calls

variable {s : FatState ι} {f f' : ι → List ℕ} {lost lost' : Set ℕ} {i : ι} {clst : U32}
  {v' : Volume} {fat : ℕ → ℕ} {start' : ι → U32}

/-- What there is to show after a change of the FAT. -/
theorem FatState.Owns.of_alters (h : s.Owns f lost) (halt : s.vol.Alters v' fat)
    (hcount : v'.Counted) (hlinks : ∀ c ∈ s.vol.clusters, fat c ≠ 1)
    (hown : Allocated s.vol.clusters 0 fat f' lost')
    (hheads : ∀ i, (f' i).headD 0 = (start' i).toNat) : FatState.Owns ⟨v', start'⟩ f' lost' where
  sound := halt.geometry ▸ h.sound
  coherent := halt.coherent
  mirrored := halt.mirrored h.mirrored
  counted := hcount
  links := by
    show ∀ c ∈ v'.clusters, v'.entry c ≠ 1
    rw [halt.geometry]
    intro c hc
    rw [halt.entry c hc.2]
    exact hlinks c hc
  allocated := by
    show Allocated v'.clusters 0 v'.entry f' lost'
    rw [halt.geometry]
    exact hown.congr fun c hc => halt.entry c hc.2
  heads := hheads

theorem FatState.Owns.of_sets (h : s.Owns f lost) (hsets : s.vol.Sets v' s.vol.entry) :
    FatState.Owns ⟨v', s.start⟩ f lost :=
  h.of_alters hsets.toAlters (hsets.counted (fun _ _ => Iff.rfl) h.counted) h.links
    h.allocated h.heads

/-- The FAT is read as before, whatever else has changed. -/
theorem FatState.Owns.of_view (h : s.Owns f lost) (hgeo : v'.toGeometry = s.vol.toGeometry)
    (hfree : v'.freeClst = s.vol.freeClst) (hfault : v'.drive.fault = s.vol.drive.fault)
    (hcoh : v'.Coherent) (hmir : v'.Mirrored)
    (hview : ∀ x ∈ s.vol.served, x - s.vol.fatbase < s.vol.fsize → v'.view x = s.vol.view x)
    (hstart : ∀ i, start' i = s.start i) : FatState.Owns ⟨v', start'⟩ f lost := by
  have hentry : ∀ c < s.vol.nFatent.toNat, v'.entry c = s.vol.entry c := by
    intro c hc
    rw [Volume.entry, hgeo]
    refine FsType.number_congr hc fun k hk => ?_
    have hin : k < 512 * s.vol.fsize.toNat := hk.trans_le h.sound.fits
    rw [Volume.fatBytes_eq, Volume.fatBytes_eq, hgeo,
      hview _ (h.sound.fatSect_mem hin) (h.sound.fatSect_sub hin)]
  refine ⟨hgeo ▸ h.sound, hcoh, hmir, ?_, ?_, ?_, fun i => ?_⟩
  · have hcount : v'.freeCount = s.vol.freeCount := by
      unfold Volume.freeCount
      rw [hgeo]
      exact freeCells_congr fun c hc => by rw [hentry c (mem_cells.mp hc).2]
    show v'.Counted
    unfold Volume.Counted Drive.Reliable
    rw [hfree, hgeo, hcount, hfault]
    exact h.counted
  · show ∀ c ∈ v'.clusters, v'.entry c ≠ 1
    rw [hgeo]
    exact fun c hc => hentry c hc.2 ▸ h.links c hc
  · show Allocated v'.clusters 0 v'.entry f lost
    rw [hgeo]
    exact h.allocated.congr fun c hc => hentry c hc.2
  · show _ = (start' i).toNat
    rw [hstart]
    exact h.heads i

theorem endMark_not_cluster {g : Geometry} (hg : g.FatSound) :
    g.fsType.endMark ∉ g.clusters ∧ g.fsType.endMark ≠ 0 ∧ g.fsType.endMark ≠ 1 := by
  obtain ⟨-, hn, -⟩ := hg.nFatent_le
  have hlow := hg.lower
  exact ⟨fun h => absurd h.2 (Nat.not_lt.mpr hn), by omega, by omega⟩

/-- A free cluster that is marked without being linked is lost. -/
theorem FatState.Owns.of_spoiled (h : s.Owns f lost) (halt : s.vol.Sets v' fat)
    (hsp : Spoiled s.vol.toGeometry s.vol.entry fat)
    (hcount : v'.Counted) : FatState.Good ⟨v', s.start⟩ := by
  rcases hsp with rfl | ⟨c, hc, hfree, rfl⟩
  · exact ⟨f, lost, h.of_sets halt⟩
  · refine ⟨f, _, h.of_alters halt.toAlters hcount (fun x hx => ?_)
      (h.allocated.spoil hfree hc fun x hx => Function.update_of_ne hx ..) h.heads⟩
    by_cases hxc : x = c
    · rw [hxc, Function.update_self]
      exact (endMark_not_cluster h.sound).2.2
    · rw [Function.update_of_ne hxc]
      exact h.links x hx

/-- The count after a free cluster was marked, and not counted. -/
theorem Volume.Sets.counted_spoiled {v : Volume} (h : v.Sets v' fat)
    (hsp : Spoiled v.toGeometry v.entry fat) (hbad : ¬ v.drive.Reliable) (hc : v.Counted) :
    v'.Counted := by
  rcases hsp with rfl | ⟨c, hcin, hfree, rfl⟩
  · exact h.counted (fun _ _ => Iff.rfl) hc
  · unfold Volume.Counted at hc ⊢
    rw [h.freeCount, h.freeClst, h.geometry, h.reliable]
    refine fun hle => ⟨le_trans ?_ (hc hle).1, fun hr => absurd hr hbad⟩
    unfold Volume.freeCount freeCells
    refine Finset.card_le_card fun x hx => ?_
    obtain ⟨hx, hx0⟩ := Finset.mem_filter.mp hx
    refine Finset.mem_filter.mpr ⟨hx, ?_⟩
    by_cases hxc : x = c
    · rw [hxc]
      exact hfree
    · rwa [Function.update_of_ne hxc] at hx0

variable [DecidableEq ι]

/-- A new cluster at the end of a chain, or as the first of one. -/
theorem FatState.Owns.of_made (h : s.Owns f lost) {ncl : U32}
    (hlast : ∀ d, d ∈ (f i).getLast? ↔ clst ≠ 0#32 ∧ d = clst.toNat)
    (hn : ncl.toNat ∈ s.vol.clusters) (hfree : s.vol.entry ncl.toNat = 0)
    (hsets : s.vol.Sets v' (linked s.vol.fsType s.vol.entry clst.toNat ncl.toNat))
    (hstart : ∀ j, (Function.update f i (f i ++ [ncl.toNat]) j).headD 0 = (start' j).toNat) :
    FatState.Owns ⟨v'.took ncl, start'⟩ (Function.update f i (f i ++ [ncl.toNat])) lost := by
  have hnot := endMark_not_cluster h.sound
  -- the new cluster was free, and the last one of the chain was not
  have hne : clst ≠ 0#32 → ncl.toNat ≠ clst.toNat := by
    intro hz heq
    have hmem := List.mem_of_getLast? ((hlast clst.toNat).mpr ⟨hz, rfl⟩)
    exact h.allocated.next_ne hmem (heq ▸ hfree)
  have hz : clst.toNat = 0 ↔ clst = 0#32 :=
    ⟨fun h => BitVec.eq_of_toNat_eq h, fun h => by rw [h]; rfl⟩
  have hnew : linked s.vol.fsType s.vol.entry clst.toNat ncl.toNat ncl.toNat =
      s.vol.fsType.endMark := by
    unfold linked
    split_ifs with hc
    · exact Function.update_self ..
    · rw [Function.update_of_ne (hne fun h => hc (hz.mpr h)), Function.update_self]
  have hlink : clst ≠ 0#32 →
      linked s.vol.fsType s.vol.entry clst.toNat ncl.toNat clst.toNat = ncl.toNat := by
    intro hc
    unfold linked
    rw [if_neg fun h => hc (hz.mp h), Function.update_self]
  have hoff : ∀ x, x ≠ ncl.toNat → x ∉ (f i).getLast? →
      linked s.vol.fsType s.vol.entry clst.toNat ncl.toNat x = s.vol.entry x := by
    intro x hx hxl
    unfold linked
    split_ifs with hc
    · exact Function.update_of_ne hx ..
    · have hxc : x ≠ clst.toNat := fun heq => hxl ((hlast x).mpr ⟨fun h => hc (hz.mpr h), heq⟩)
      rw [Function.update_of_ne hxc, Function.update_of_ne hx]
  obtain ⟨hgeo, hdrive, hwin, -⟩ := v'.took_fields ncl
  have hlow := h.sound.lower
  refine h.of_alters (hsets.toAlters.of_fields hgeo hdrive hwin) ?_ ?_
    (h.allocated.grow hn hfree (hnew ▸ ⟨hnot.1, hnot.2.1⟩) ?_ (fun h0 => absurd h0.1 (by decide))
      hoff) hstart
  · refine h.counted.took hlow hsets hn hfree (hnew ▸ hnot.2.1) (fun x hx hxn => ?_) ncl
    by_cases hxl : x ∈ (f i).getLast?
    · obtain ⟨hc, rfl⟩ := (hlast x).mp hxl
      rw [hlink hc]
      have h0 := h.allocated.next_ne (List.mem_of_getLast? hxl)
      exact iff_of_false (by have := hn.1; omega) h0
    · rw [hoff x hxn hxl]
  · intro x hx
    by_cases hxn : x = ncl.toNat
    · rw [hxn, hnew]
      exact hnot.2.2
    by_cases hxl : x ∈ (f i).getLast?
    · obtain ⟨hc, rfl⟩ := (hlast x).mp hxl
      rw [hlink hc]
      have := hn.1
      omega
    · rw [hoff x hxn hxl]
      exact h.links x hx
  · intro d hd
    obtain ⟨hc, rfl⟩ := (hlast d).mp hd
    exact hlink hc

/-- The chain is cut behind `l`; those of the other clusters that do not become free are lost. -/
theorem FatState.Owns.of_cutOff (h : s.Owns f lost) {l m m' : List ℕ} (hi : f i = l ++ m)
    (hm : ∀ x ∈ m', x ∈ m) (halt : s.vol.Alters v' (cutOff s.vol.fsType s.vol.entry l m'))
    (hcount : v'.Counted)
    (hstart : ∀ j, (Function.update f i l j).headD 0 = (start' j).toNat) :
    FatState.Owns ⟨v', start'⟩ (Function.update f i l)
      (lost ∪ {x | x ∈ m ∧ cutOff s.vol.fsType s.vol.entry l m' x ≠ 0}) := by
  have hnot := endMark_not_cluster h.sound
  have hch := h.allocated.chain i
  rw [hi] at hch
  have hlm : ∀ x ∈ l, x ∉ m' := fun x hl hx =>
    (List.nodup_append.mp hch.nodup).2.2 x hl x (hm x hx) rfl
  have hend : ∀ d ∈ l.getLast?, cutOff s.vol.fsType s.vol.entry l m' d = s.vol.fsType.endMark := by
    intro d hd
    unfold cutOff erased
    rw [if_neg (hlm d (List.mem_of_getLast? hd)), Option.mem_def.mp hd]
    exact Function.update_self ..
  have hoff : ∀ x, x ∉ m' → x ∉ l.getLast? →
      cutOff s.vol.fsType s.vol.entry l m' x = s.vol.entry x := by
    intro x hx hxl
    unfold cutOff erased
    rw [if_neg hx]
    cases hl : l.getLast? with
    | none => rfl
    | some p => exact Function.update_of_ne (fun heq : x = p => hxl (heq ▸ hl)) ..
  refine h.of_alters halt hcount (fun x hx => ?_) (h.allocated.shrink hi
    (fun d hd => hend d hd ▸ ⟨hnot.1, hnot.2.1⟩) fun x hx hxl =>
      hoff x (fun hxm => hx (hm x hxm)) hxl) hstart
  by_cases hxm : x ∈ m'
  · unfold cutOff erased
    rw [if_pos hxm]
    exact Nat.zero_ne_one
  by_cases hxl : x ∈ l.getLast?
  · rw [hend x hxl]
    exact hnot.2.2
  · rw [hoff x hxm hxl]
    exact h.links x hx

/-- The chain is cut, or the failure leaves clusters that are lost. -/
theorem FatState.Owns.of_cut (h : s.Owns f lost) {ncl : U32} {l t : List ℕ}
    (hi : f i = l ++ ncl.toNat :: t) (hp : clst = 0#32 ∧ l = [] ∨ clst.toNat ∈ l.getLast?)
    (hstart : ∀ j, (Function.update f i l j).headD 0 = (start' j).toNat)
    (hrel : s.vol.fsType = .fat12 → s.vol.drive.Reliable) :
    ∃ res v', removeChain s.vol ncl clst = some (res, v') ∧ FatState.Good ⟨v', start'⟩ ∧
      v'.toGeometry = s.vol.toGeometry ∧ v'.drive.fault = s.vol.drive.fault := by
  have hch := h.allocated.chain i
  rw [hi] at hch
  have hres := removeChain_spec h.sound h.coherent hch h.links hp
  generalize removeChain s.vol ncl clst = out at hres
  cases hres with
  | done halt hcount =>
    exact ⟨_, _, rfl, ⟨_, _, h.of_cutOff hi (fun _ hx => hx) halt (hcount h.counted) hstart⟩,
      halt.geometry, halt.fault⟩
  | failed hbad hfail =>
    obtain ⟨hcount, halt | ⟨a, b, hab, halt⟩⟩ := hfail fun ht => hbad (hrel ht)
    · refine ⟨_, _, rfl, ?_, halt.geometry, halt.fault⟩
      rcases hp with ⟨-, rfl⟩ | hp
      · refine ⟨_, _, h.of_cutOff hi (show ∀ x ∈ ([] : List ℕ), x ∈ _ by simp)
          (halt.congr fun c _ => ?_) (hcount h.counted) hstart⟩
        simp [cutOff, erased]
      · -- nothing has been cut
        refine ⟨f, lost, h.of_alters halt (hcount h.counted) h.links h.allocated fun j => ?_⟩
        rw [← hstart j]
        by_cases hj : j = i
        · rw [hj, Function.update_self, hi]
          obtain ⟨l, rfl⟩ := List.getLast?_eq_some_iff.mp hp
          cases l <;> rfl
        · rw [Function.update_of_ne hj]
    · exact ⟨_, _, rfl, ⟨_, _, h.of_cutOff hi (fun x hx => hab ▸ List.mem_append_left b hx) halt
        (hcount h.counted) hstart⟩, halt.geometry, halt.fault⟩

omit [DecidableEq ι] in
/-- Where nothing follows `clst` it is the last cluster of its file. -/
theorem FatState.Owns.last_iff (h : s.Owns f lost)
    (hclst : clst = 0#32 ∧ f i = [] ∨ clst.toNat ∈ f i)
    (hend : clst ≠ 0#32 → s.vol.nFatent.toNat ≤ s.vol.entry clst.toNat) (d : ℕ) :
    d ∈ (f i).getLast? ↔ clst ≠ 0#32 ∧ d = clst.toNat := by
  rcases hclst with ⟨hz, hnil⟩ | hmem
  · rw [hnil]
    exact iff_of_false (by simp) fun hd => hd.1 hz
  · have hz : clst ≠ 0#32 := by
      rintro rfl
      exact absurd ((h.allocated.chain i).cells _ hmem).1 (by decide)
    have hl := h.allocated.getLast_of_end hmem fun hc => absurd hc.2 (Nat.not_lt.mpr (hend hz))
    rw [Option.mem_def.mp hl]
    exact ⟨fun hd => ⟨hz, (Option.mem_some.mp hd).symm⟩, fun hd => Option.mem_some.mpr hd.2.symm⟩

omit [DecidableEq ι] in
/-- A new cluster is the first one of a file that had none. -/
theorem FatState.Owns.head_grown (h : s.Owns f lost)
    (hclst : clst = 0#32 ∧ f i = [] ∨ clst.toNat ∈ f i) {r : U32} :
    (f i ++ [r.toNat]).headD 0 = (if clst = 0#32 then r else s.start i).toNat := by
  rcases hclst with ⟨hz, hnil⟩ | hmem
  · rw [if_pos hz, hnil]
    rfl
  · have hz : clst ≠ 0#32 := by
      rintro rfl
      exact absurd ((h.allocated.chain i).cells _ hmem).1 (by decide)
    rw [if_neg hz, ← h.heads i]
    cases hf : f i with
    | nil => exact absurd (hf ▸ hmem) List.not_mem_nil
    | cons c l => rfl

/-- What there is to show after `create_chain` for a file. -/
theorem FatState.Owns.of_create (h : s.Owns f lost)
    (hclst : clst = 0#32 ∧ f i = [] ∨ clst.toNat ∈ f i)
    (hrel : s.vol.fsType = .fat12 → s.vol.drive.Reliable) :
    ∃ r v', createChain s.vol clst = some (r, v') ∧ FatState.Good ⟨v',
      if noCluster r ∨ clst ≠ 0#32 then s.start else Function.update s.start i r⟩ ∧
      v'.toGeometry = s.vol.toGeometry ∧ v'.drive.fault = s.vol.drive.fault := by
  have hin : clst ≠ 0#32 → clst.toNat ∈ f i := fun hz => hclst.resolve_left fun h => hz h.1
  have hcells : clst ≠ 0#32 → clst.toNat ∈ s.vol.clusters := fun hz =>
    (h.allocated.chain i).cells _ (hin hz)
  have hres := createChain_spec h.sound h.coherent hcells
  generalize createChain s.vol clst = out at hres
  cases hres with
  | @follow r v' hc hr hin' hsets =>
    refine ⟨_, _, rfl, ?_, hsets.geometry, hsets.fault⟩
    rw [if_pos (Or.inr hc)]
    exact ⟨f, lost, h.of_sets hsets⟩
  | full hend hused hsets =>
    refine ⟨_, _, rfl, ?_, hsets.geometry, hsets.fault⟩
    rw [if_pos (Or.inl (show noCluster 0#32 from Or.inl rfl))]
    exact ⟨f, lost, h.of_sets hsets⟩
  | @broken v' c hc hone hsets =>
    rcases hone with hone | ⟨rfl, hzero⟩
    · exact absurd hone (h.links c hc)
    · refine absurd hzero (h.allocated.next_ne (hin ?_))
      rintro rfl
      exact absurd hc.1 (by decide)
  | @made ncl v' hend hn hfree hsets =>
    obtain ⟨hgeo, hdrive, -, -⟩ := v'.took_fields ncl
    refine ⟨_, _, rfl, ?_, hgeo.trans hsets.geometry, hdrive ▸ hsets.fault⟩
    -- the number of a cluster is none of the results that say there is none
    have hncl : ¬ noCluster ncl := by
      have hup := h.sound.nFatent_le
      have hmod : s.vol.fsType.modulus ≤ 2 ^ 28 := by
        cases s.vol.fsType <;> decide
      rintro (rfl | rfl | rfl)
      · exact absurd hn.1 (by decide)
      · exact absurd hn.1 (by decide)
      · have hlt := hn.2
        change 4294967295 < _ at hlt
        omega
    refine ⟨_, lost, h.of_made (h.last_iff hclst hend) hn hfree hsets fun j => ?_⟩
    by_cases hj : j = i
    · rw [hj, Function.update_self, h.head_grown hclst]
      by_cases hz : clst = 0#32
      · rw [if_pos hz, if_neg (by rintro (hr | hr); exacts [hncl hr, hr hz]),
          Function.update_self]
      · rw [if_neg hz, if_pos (Or.inr hz)]
    · rw [Function.update_of_ne hj, h.heads j]
      split_ifs
      · rfl
      · rw [Function.update_of_ne hj]
  | @failed v' hbad hfail =>
    obtain ⟨fat, hsets, hsp⟩ := hfail fun ht => hbad (hrel ht)
    refine ⟨_, _, rfl, ?_, hsets.geometry, hsets.fault⟩
    rw [if_pos (Or.inl (show noCluster 0xFFFFFFFF#32 from Or.inr (Or.inr rfl)))]
    exact h.of_spoiled hsets hsp (hsets.counted_spoiled hsp hbad h.counted)

omit [DecidableEq ι] in
/-- The chain of a file, around the cluster that `f_truncate` cuts it behind. -/
theorem FatState.Owns.split_behind (h : s.Owns f lost) (hmem : clst.toNat ∈ f i) {ncl : U32}
    (hncl : ncl.toNat = s.vol.entry clst.toNat) (hin : ncl.toNat ∈ s.vol.clusters) :
    ∃ a t, f i = (a ++ [clst.toNat]) ++ ncl.toNat :: t := by
  obtain ⟨a, b, hab⟩ := List.append_of_mem hmem
  have hch := h.allocated.chain i
  rw [hab] at hch
  cases b with
  | nil => exact absurd (hncl ▸ hin) (hch.suffix.ends _ (by simp)).1
  | cons d t =>
    refine ⟨a, t, ?_⟩
    rw [hab, hncl, (List.isChain_cons_cons.mp hch.suffix.links).1]
    simp

/-- `f_truncate` looks for the next cluster, and cuts the chain where there is one. -/
theorem FatState.Owns.of_truncate (h : s.Owns f lost)
    (hrel : s.vol.fsType = .fat12 → s.vol.drive.Reliable) (hleg : s.Has i clst) :
    ∃ s', (ChainCall.truncate i clst).run s = some s' ∧ s'.Good ∧
      s'.vol.toGeometry = s.vol.toGeometry ∧ s'.vol.drive.fault = s.vol.drive.fault := by
  have hmem := h.mem_of_has hleg
  have hin := (h.allocated.chain i).cells _ hmem
  obtain ⟨hsets, hres⟩ := (Volume.Sets.refl h.coherent).get h.sound (BitVec.le_def.mpr hin.1)
    (BitVec.lt_def.mpr hin.2)
  rw [ChainCall.run]
  generalize getFat s.vol clst = out at hsets hres
  obtain ⟨ncl, v₁⟩ := out
  have hgood := h.of_sets hsets
  simp only
  by_cases hgo : ncl ≠ 0xFFFFFFFF#32 ∧ ncl ≠ 1#32 ∧ ncl < v₁.nFatent
  · rw [if_pos hgo]
    obtain ⟨hres, -⟩ := hres.resolve_right fun hff => hgo.1 hff.1
    replace hres : ncl.toNat = s.vol.entry clst.toNat := hres
    have h0 := h.allocated.next_ne hmem
    have hncl : ncl.toNat ∈ s.vol.clusters := by
      have h1 := h.links _ hin
      have hlt := BitVec.lt_def.mp hgo.2.2
      rw [hsets.geometry] at hlt
      exact ⟨by omega, hlt⟩
    obtain ⟨a, t, hf⟩ := h.split_behind hmem hres hncl
    have hheads : ∀ j, (Function.update f i (a ++ [clst.toNat]) j).headD 0 =
        (s.start j).toNat := by
      intro j
      rw [← h.heads j]
      by_cases hj : j = i
      · rw [hj, Function.update_self, hf]
        cases a <;> rfl
      · rw [Function.update_of_ne hj]
    have hl : clst.toNat ∈ (a ++ [clst.toNat]).getLast? := by simp
    obtain ⟨res, v', heq, hgood', hgeo, hfault⟩ := hgood.of_cut hf (Or.inr hl)
      hheads fun ht => hsets.reliable.mpr (hrel (hsets.geometry ▸ ht))
    refine ⟨⟨v', s.start⟩, ?_, hgood', hgeo.trans hsets.geometry, hfault.trans hsets.fault⟩
    show Option.map _ (removeChain v₁ ncl clst) = _
    rw [heq]
    rfl
  · rw [if_neg hgo]
    exact ⟨_, rfl, ⟨f, lost, hgood⟩, hsets.geometry, hsets.fault⟩

/-- The whole chain goes, and the file has none. -/
theorem FatState.Owns.of_remove (h : s.Owns f lost)
    (hrel : s.vol.fsType = .fat12 → s.vol.drive.Reliable) (hleg : s.start i ≠ 0#32) :
    ∃ s', (ChainCall.remove i).run s = some s' ∧ s'.Good ∧
      s'.vol.toGeometry = s.vol.toGeometry ∧ s'.vol.drive.fault = s.vol.drive.fault := by
  have hmem := h.start_mem hleg
  have hhead := h.heads i
  obtain ⟨t, hf⟩ : ∃ t, f i = (s.start i).toNat :: t := by
    cases hf : f i with
    | nil => exact absurd (hf ▸ hmem) List.not_mem_nil
    | cons c t =>
      rw [hf] at hhead
      exact ⟨t, by rw [← hhead]; rfl⟩
  have hheads : ∀ j, (Function.update f i [] j).headD 0 =
      (Function.update s.start i 0#32 j).toNat := by
    intro j
    by_cases hj : j = i
    · rw [hj, Function.update_self, Function.update_self]
      rfl
    · rw [Function.update_of_ne hj, Function.update_of_ne hj, h.heads j]
  obtain ⟨res, v', heq, hgood, hrest⟩ := h.of_cut hf (Or.inl ⟨rfl, rfl⟩) hheads hrel
  exact ⟨_, by rw [ChainCall.run, heq]; rfl, hgood, hrest⟩

/-- After every call the chains are in order. -/
theorem chainCall_good (h : s.Good) (hrel : s.vol.fsType = .fat12 → s.vol.drive.Reliable)
    (call : ChainCall ι) (hleg : call.Legal s) :
    ∃ s', call.run s = some s' ∧ s'.Good ∧ s'.vol.toGeometry = s.vol.toGeometry ∧
      s'.vol.drive.fault = s.vol.drive.fault := by
  obtain ⟨f, lost, h⟩ := h
  cases call with
  | create i =>
    obtain ⟨r, v', heq, hgood, hrest⟩ := h.of_create
      (show (0#32 : U32) = 0#32 ∧ f i = [] ∨ _ from Or.inl ⟨rfl, h.eq_nil_iff.mpr hleg⟩) hrel
    refine ⟨_, by rw [ChainCall.run, heq]; rfl, ?_, hrest⟩
    simpa using hgood
  | extend i clst =>
    have hmem := h.mem_of_has hleg
    have hz : clst ≠ 0#32 := by
      rintro rfl
      exact absurd ((h.allocated.chain i).cells _ hmem).1 (by decide)
    obtain ⟨r, v', heq, hgood, hrest⟩ := h.of_create (Or.inr hmem) hrel
    rw [if_pos (Or.inr hz)] at hgood
    exact ⟨_, by rw [ChainCall.run, heq]; rfl, hgood, hrest⟩
  | truncate i clst => exact h.of_truncate hrel hleg
  | remove i => exact h.of_remove hrel hleg
  | sync =>
    have hkeep := syncFs_keeps h.coherent h.sound.info
    exact ⟨_, rfl, ⟨f, lost, h.of_sets (hkeep.sets h.sound h.coherent
      (syncFs_winsect h.coherent h.sound.info))⟩, hkeep.geometry, hkeep.fault⟩

end Calls

/-! ### The small volume -/

theorem blankVolume_owns :
    FatState.Owns ⟨blankVolume, fun _ : ι => 0#32⟩ (fun _ => []) ∅ where
  sound := blankVolume_sound
  coherent := blankVolume_coherent
  mirrored := fun _ _ _ _ _ => rfl
  counted := by
    have hcount : blankVolume.freeCount = 2 := by
      have hfree : blankVolume.freeCount = freeCells (Finset.Ico 2 4) 0 fun _ => 0 :=
        freeCells_congr fun c _ => by rw [blankVolume_entry]
      rw [hfree]
      decide
    exact fun _ => ⟨hcount.le, fun _ => hcount⟩
  links := fun c _ h => absurd ((blankVolume_entry c).symm.trans h) (by decide)
  allocated := by
    refine ⟨fun _ => Chain.nil, ?_, ?_, fun c _ => ?_⟩
    · exact fun _ _ c hc => absurd hc List.not_mem_nil
    · exact fun _ c hc => absurd hc List.not_mem_nil
    · exact iff_of_false (fun h => h (blankVolume_entry c)) (by simp)
  heads := fun _ => rfl

/-- The small volume after a file got its first cluster. -/
def blankGrown : FatState Bool :=
  ((ChainCall.create true).run ⟨blankVolume, fun _ => 0#32⟩).get (by decide)

theorem blankGrown_eq :
    (ChainCall.create true).run ⟨blankVolume, fun _ => 0#32⟩ = some blankGrown :=
  (Option.some_get _).symm

/-! ### Runs -/

/-- A run of calls, each of them legal. -/
inductive FatRun [DecidableEq ι] : FatState ι → FatState ι → Prop
  | refl (s : FatState ι) : FatRun s s
  | step {s s' s'' : FatState ι} (h : FatRun s s') (call : ChainCall ι) (hleg : call.Legal s')
      (hrun : call.run s' = some s'') : FatRun s s''

section Runs

variable [DecidableEq ι] {s s' : FatState ι}

theorem FatRun.good (h : s.Good) (hrel : s.vol.fsType = .fat12 → s.vol.drive.Reliable)
    (hrun : FatRun s s') : s'.Good ∧ s'.vol.toGeometry = s.vol.toGeometry ∧
      s'.vol.drive.fault = s.vol.drive.fault := by
  induction hrun with
  | refl => exact ⟨h, rfl, rfl⟩
  | step _ call hleg hstep ih =>
    obtain ⟨hgood, hgeo, hfault⟩ := ih
    have hrel' := hrel
    rw [← hgeo, Drive.Reliable, ← hfault] at hrel'
    obtain ⟨t, heq, hgood', hgeo', hfault'⟩ := chainCall_good hgood hrel' call hleg
    obtain rfl := Option.some.inj (hstep.symm.trans heq)
    exact ⟨hgood', hgeo'.trans hgeo, hfault'.trans hfault⟩

/-- The chains of files and directories are in order in every run: no cluster is in two of them,
and no free one in any, and every call returns. -/
theorem fatRuns_good (h : s.Good) (hrel : s.vol.fsType = .fat12 → s.vol.drive.Reliable)
    (hrun : FatRun s s') : s'.Good ∧ s'.vol.toGeometry = s.vol.toGeometry ∧
      s'.vol.drive.fault = s.vol.drive.fault ∧
      ∀ call : ChainCall ι, call.Legal s' → ∃ s'', call.run s' = some s'' := by
  obtain ⟨hgood, hgeo, hfault⟩ := hrun.good h hrel
  refine ⟨hgood, hgeo, hfault, fun call hleg => ?_⟩
  rw [← hgeo, Drive.Reliable, ← hfault] at hrel
  obtain ⟨s'', heq, -⟩ := chainCall_good hgood hrel call hleg
  exact ⟨s'', heq⟩

theorem fatRuns_good_blank : FatState.Good blankGrown ∧
    blankGrown.vol.toGeometry = blankVolume.toGeometry ∧
    blankGrown.vol.drive.fault = blankVolume.drive.fault ∧
    ∀ call : ChainCall Bool, call.Legal blankGrown → ∃ s'', call.run blankGrown = some s'' :=
  fatRuns_good ⟨_, _, blankVolume_owns⟩ (fun _ => blankVolume_reliable)
    (.step (.refl _) (.create true) rfl blankGrown_eq)

omit [DecidableEq ι] in
/-- Where `create_chain` has seen no free cluster, there is none; it may have looked at the count
only. -/
theorem FatState.Owns.none_free {f : ι → List ℕ} {lost : Set ℕ} (h : s.Owns f lost)
    (hused : s.vol.freeClst ≠ 0#32 → ∀ c ∈ s.vol.clusters, s.vol.entry c ≠ 0) :
    ∀ c ∈ s.vol.clusters, s.vol.entry c ≠ 0 := by
  by_cases h0 : s.vol.freeClst = 0#32
  · have hcount := (h.counted (by rw [h0]; exact Nat.zero_le _)).1
    rw [h0] at hcount
    intro c hc hfree
    exact absurd (freeCells_pos.mpr ⟨c, mem_cells.mpr hc, hfree⟩) (Nat.not_lt.mpr hcount)
  · exact hused h0

/-- `create_chain` reports a full disk only where no cluster is free; if no transfer fails, it
returns a cluster otherwise. -/
theorem createChain_full_iff (h : s.Good) (hrel : s.vol.drive.Reliable) (hrun : FatRun s s')
    {i : ι} {clst : U32} (hleg : clst = 0#32 ∧ s'.start i = 0#32 ∨ s'.Has i clst) :
    ∃ r v', createChain s'.vol clst = some (r, v') ∧
      (r = 0#32 ∨ r.toNat ∈ s.vol.clusters) ∧
      (r = 0#32 ↔ (∀ c ∈ s.vol.clusters, s'.vol.entry c ≠ 0) ∧
        (clst ≠ 0#32 → s.vol.nFatent.toNat ≤ s'.vol.entry clst.toNat)) := by
  obtain ⟨hgood, hgeo, hfault⟩ := hrun.good h fun _ => hrel
  rw [Drive.Reliable, ← hfault] at hrel
  rw [← hgeo]
  obtain ⟨f, lost, howns⟩ := hgood
  have hmem : clst ≠ 0#32 → clst.toNat ∈ f i := by
    intro hz
    exact howns.mem_of_has (hleg.resolve_left fun h => hz h.1)
  have hres := createChain_spec howns.sound howns.coherent fun hz =>
    (howns.allocated.chain i).cells _ (hmem hz)
  generalize createChain s'.vol clst = out at hres
  have hpos : ∀ {r : U32}, r.toNat ∈ s'.vol.clusters → r ≠ 0#32 := by
    rintro r hr rfl
    exact absurd hr.1 (by decide)
  cases hres with
  | follow hc hr hin hsets =>
    refine ⟨_, _, rfl, Or.inr hin, iff_of_false (hpos hin) fun hfull => ?_⟩
    exact absurd (hfull.2 hc) (Nat.not_le.mpr (hr ▸ hin.2))
  | full hend hused hsets =>
    exact ⟨_, _, rfl, Or.inl rfl, iff_of_true rfl ⟨howns.none_free hused, hend⟩⟩
  | broken hc hone hsets =>
    rcases hone with hone | ⟨rfl, hzero⟩
    · exact absurd hone (howns.links _ hc)
    · exact absurd hzero (howns.allocated.next_ne (hmem (hpos hc)))
  | made hend hn hfree hsets =>
    exact ⟨_, _, rfl, Or.inr hn, iff_of_false (hpos hn) fun hfull => hfull.1 _ hn hfree⟩
  | failed hbad => exact absurd hrel hbad

theorem createChain_full_iff_blank : ∃ r v', createChain blankGrown.vol 0#32 = some (r, v') ∧
    (r = 0#32 ∨ r.toNat ∈ blankVolume.clusters) ∧
    (r = 0#32 ↔ (∀ c ∈ blankVolume.clusters, blankGrown.vol.entry c ≠ 0) ∧
      (0#32 ≠ 0#32 → blankVolume.nFatent.toNat ≤ blankGrown.vol.entry (0#32 : U32).toNat)) :=
  createChain_full_iff (i := false) ⟨_, _, blankVolume_owns⟩ blankVolume_reliable
    (.step (.refl _) (.create true) rfl blankGrown_eq) (Or.inl ⟨rfl, rfl⟩)

/-! ### What is on the drive -/

/-- The bytes of FAT `j` on the drive. -/
def Volume.storedFat (v : Volume) (j : U32) : Bytes :=
  fun k => byteAt (v.drive.sectors (v.fatSect k + j * v.fsize)) k

theorem syncFs_clean {v : Volume} (hv : v.Coherent) (hok : (syncFs v).1 = .ok) :
    (syncFs v).2.wflag = false := by
  obtain ⟨-, -, hres⟩ := syncWindow_keeps hv
  unfold syncFs at hok ⊢
  generalize syncWindow v = out at hres hok
  obtain ⟨res, v₁⟩ := out
  rcases hres with ⟨rfl, hw⟩ | ⟨rfl, -⟩
  · simp only
    split_ifs <;> exact hw
  · exact absurd (show FResult.diskErr = .ok from hok) (by decide)

/-- After `sync_fs`, the FATs on the drive are what the run has made of them. -/
theorem fatRuns_synced (h : s.Good) (hrel : s.vol.fsType = .fat12 → s.vol.drive.Reliable)
    (hrun : FatRun s s') (hok : (syncFs s'.vol).1 = .ok) {j : U32}
    (hj : j.toNat < s.vol.nFats.toNat)
    (hsecond : j = 1#32 → s.vol.drive.Reliable) {c : ℕ} (hc : c < s.vol.nFatent.toNat) :
    s.vol.fsType.number ((syncFs s'.vol).2.storedFat j) c = s'.vol.entry c := by
  obtain ⟨⟨_, _, howns⟩, hgeo, hfault⟩ := hrun.good h hrel
  have hkeep := syncFs_keeps howns.coherent howns.sound.info
  have hclean := syncFs_clean howns.coherent hok
  have hentry := (hkeep.sets howns.sound howns.coherent
    (syncFs_winsect howns.coherent howns.sound.info)).entry c (hgeo ▸ hc)
  generalize (syncFs s'.vol).2 = v at hkeep hclean hentry
  have hgeo' : v.toGeometry = s.vol.toGeometry := hkeep.geometry.trans hgeo
  have hsound : v.FatSound := hgeo' ▸ hgeo ▸ howns.sound
  rw [← hentry, Volume.entry, hgeo']
  refine FsType.number_congr hc fun k hk => ?_
  have hin : k < 512 * v.fsize.toNat := by
    rw [hgeo']
    have hfits := howns.sound.fits
    rw [hgeo] at hfits
    exact hk.trans_le hfits
  have hfirst : v.drive.sectors (v.fatSect k) = v.view (v.fatSect k) :=
    hkeep.coherent.store_eq_view hclean (hsound.fatSect_mem hin)
  rw [v.fatBytes_eq, Volume.storedFat, ← hfirst]
  have hj2 : j = 0#32 ∨ j = 1#32 ∧ v.nFats = 2#8 := by
    rw [← hgeo'] at hj
    rcases hsound.nFats with hn | hn <;> rw [hn] at hj
    · exact Or.inl (BitVec.eq_of_toNat_eq (Nat.lt_one_iff.mp hj))
    · have : j.toNat = 0 ∨ j.toNat = 1 := by
        change j.toNat < 2 at hj
        omega
      exact this.imp (fun h => BitVec.eq_of_toNat_eq h) fun h => ⟨BitVec.eq_of_toNat_eq h, hn⟩
  rcases hj2 with rfl | ⟨rfl, hn⟩
  · rw [BitVec.zero_mul, BitVec.add_zero]
  · have htwo : v.TwoFats := ⟨hn, (hsound.fsize_le.2 hn).le⟩
    have hrel' := hsecond rfl
    rw [Drive.Reliable, ← hfault, ← hkeep.fault] at hrel'
    rw [BitVec.one_mul, hkeep.mirrored howns.mirrored hrel' htwo _ (hsound.fatSect_sub hin)
      fun hw => absurd (hclean.symm.trans hw) (by decide)]

theorem fatRuns_synced_blank :
    FsType.fat16.number ((syncFs blankGrown.vol).2.storedFat 1#32) 2 = blankGrown.vol.entry 2 :=
  fatRuns_synced ⟨_, _, blankVolume_owns⟩ (fun _ => blankVolume_reliable)
    (.step (.refl _) (.create true) rfl blankGrown_eq) (by decide) (by decide)
    (fun _ => blankVolume_reliable) (by decide)

end Runs

end GamingConsole
