/-
Cluster chains (`create_chain`, `remove_chain`).

The clusters of a file are linked in the FAT.  `create_chain` follows a link, or takes a
free cluster and links it; the search for one starts behind the cluster to be extended or
behind the last one that was allocated, and goes around once.  `remove_chain` gives the
clusters back, one after the other.

* `findCluster_spec` — the search finds a free cluster where there is one;
* `createChain_spec` — what `create_chain` does to the FAT;
* `removeChain_spec` — `remove_chain` frees the chain, and only it.

The loops have fuel; `none` would be a loop that has used it up.
-/
import GamingConsole.FatEntries
import GamingConsole.Library.LinkTable
import Mathlib.Order.Interval.Finset.Nat

namespace GamingConsole

open LinkTable WriteBack

/-! ### The functions -/

/-- The search of `create_chain` after `ncl`: a free cluster, or what to return instead. -/
def searchLoop (scl : U32) : ℕ → U32 → Volume → Option (Except U32 U32 × Volume)
  | 0, _, _ => none
  | fuel + 1, ncl, v =>
    let wrap := v.nFatent ≤ ncl + 1#32
    let ncl := if wrap then 2#32 else ncl + 1#32
    if wrap ∧ scl < ncl then some (.error 0#32, v)
    else
      let (cs, v) := getFat v ncl
      if cs = 0#32 then some (.ok ncl, v)
      else if cs = 1#32 ∨ cs = 0xFFFFFFFF#32 then some (.error cs, v)
      else if ncl = scl then some (.error 0#32, v)
      else searchLoop scl fuel ncl v

/-- Where `create_chain` finds the new cluster: next to `clst`, or anywhere. -/
def findCluster (v : Volume) (clst scl : U32) : Option (Except U32 U32 × Volume) :=
  if scl = clst then
    let ncl := if v.nFatent ≤ scl + 1#32 then 2#32 else scl + 1#32
    let (cs, v) := getFat v ncl
    if cs = 1#32 ∨ cs = 0xFFFFFFFF#32 then some (.error cs, v)
    else if cs ≠ 0#32 then
      let cs := v.lastClst
      let scl := if 2#32 ≤ cs ∧ cs < v.nFatent then cs else scl
      searchLoop scl v.nFatent.toNat scl v
    else some (.ok ncl, v)
  else searchLoop scl v.nFatent.toNat scl v

/-- Where the search starts, or what to return instead. -/
def searchStart (v : Volume) (clst : U32) : Except U32 U32 × Volume :=
  if clst = 0#32 then
    let scl := v.lastClst
    (.ok (if scl = 0#32 ∨ v.nFatent ≤ scl then 1#32 else scl), v)
  else
    let (cs, v) := getFat v clst
    if cs < 2#32 then (.error 1#32, v)
    else if cs = 0xFFFFFFFF#32 then (.error cs, v)
    else if cs < v.nFatent then (.error cs, v)
    else (.ok clst, v)

/-- The allocation information after a cluster was taken. -/
def Volume.took (v : Volume) (ncl : U32) : Volume :=
  let v := { v with lastClst := ncl }
  if 0#32 < v.freeClst ∧ v.freeClst ≤ v.nFatent - 2#32 then
    { v with freeClst := v.freeClst - 1#32, fsiFlag := v.fsiFlag ||| 1#8 }
  else v

/-- `create_chain`: 0 if there is no free cluster, 1 for an internal error, `0xFFFFFFFF` for a
disk error. -/
def createChain (v : Volume) (clst : U32) : Option (U32 × Volume) :=
  match searchStart v clst with
  | (.error r, v) => some (r, v)
  | (.ok scl, v) =>
    if v.freeClst = 0#32 then some (0#32, v)
    else
      match findCluster v clst scl with
      | none => none
      | some (.error r, v) => some (r, v)
      | some (.ok ncl, v) =>
        let (res, v) := putFat v ncl 0xFFFFFFFF#32
        let (res, v) := if res = .ok ∧ clst ≠ 0#32 then putFat v clst ncl else (res, v)
        if res = .ok then some (ncl, v.took ncl)
        else some (if res = .diskErr then 0xFFFFFFFF#32 else 1#32, v)

/-- The allocation information after a cluster was given back. -/
def Volume.gaveBack (v : Volume) : Volume :=
  if v.freeClst < v.nFatent - 2#32 then
    { v with freeClst := v.freeClst + 1#32, fsiFlag := v.fsiFlag ||| 1#8 }
  else v

/-- The loop of `remove_chain`. -/
def removeLoop : ℕ → Volume → U32 → Option (FResult × Volume)
  | 0, _, _ => none
  | fuel + 1, v, clst =>
    let (nxt, v) := getFat v clst
    if nxt = 0#32 then some (.ok, v)
    else if nxt = 1#32 then some (.intErr, v)
    else if nxt = 0xFFFFFFFF#32 then some (.diskErr, v)
    else
      let (res, v) := putFat v clst 0#32
      if res ≠ .ok then some (res, v)
      else
        let v := v.gaveBack
        if nxt < v.nFatent then removeLoop fuel v nxt else some (.ok, v)

/-- `remove_chain`. -/
def removeChain (v : Volume) (clst pclst : U32) : Option (FResult × Volume) :=
  if clst < 2#32 ∨ v.nFatent ≤ clst then some (.intErr, v)
  else if pclst ≠ 0#32 then
    let (res, v) := putFat v pclst 0xFFFFFFFF#32
    if res ≠ .ok then some (res, v) else removeLoop v.nFatent.toNat v clst
  else removeLoop v.nFatent.toNat v clst

/-! ### The search -/

/-- The cluster numbers. -/
def Geometry.clusters (g : Geometry) : Set ℕ := {c | 2 ≤ c ∧ c < g.nFatent.toNat}

/-- What a search among the clusters `R` may come to, the FAT being `fat`. -/
inductive SearchResult (v : Volume) (fat : ℕ → ℕ) (R : Set ℕ) :
    Option (Except U32 U32 × Volume) → Prop
  | found {ncl : U32} {v' : Volume} (hn : ncl.toNat ∈ v.clusters) (hfree : fat ncl.toNat = 0)
      (h : v.Sets v' fat) : SearchResult v fat R (some (.ok ncl, v'))
  | full {v' : Volume} (hused : ∀ c ∈ R, fat c ≠ 0) (h : v.Sets v' fat) :
      SearchResult v fat R (some (.error 0#32, v'))
  | broken {v' : Volume} {c : ℕ} (hc : c ∈ v.clusters) (hone : fat c = 1) (h : v.Sets v' fat) :
      SearchResult v fat R (some (.error 1#32, v'))
  | failed {v' : Volume} (hbad : ¬ v.drive.Reliable) (h : v.Sets v' fat) :
      SearchResult v fat R (some (.error 0xFFFFFFFF#32, v'))

/-- The clusters that a search from `scl` around to `scl` has still to look at after `ncl`. -/
def ahead (n scl ncl : ℕ) : Set ℕ :=
  if scl ≤ ncl then {c | ncl < c ∧ c < n ∨ 2 ≤ c ∧ c ≤ scl} else {c | ncl < c ∧ c ≤ scl}

/-- How many they are. -/
def aheadCount (n scl ncl : ℕ) : ℕ :=
  if scl ≤ ncl then (n - 1 - ncl) + (scl - 1) else scl - ncl

section Search

variable {v v' : Volume} {fat : ℕ → ℕ} {scl ncl : U32}

theorem SearchResult.mono {R R' : Set ℕ} {out : Option (Except U32 U32 × Volume)}
    (h : SearchResult v fat R out) (hR : ∀ c ∈ R', c ∈ R ∨ fat c ≠ 0) :
    SearchResult v fat R' out := by
  cases h with
  | found hn hfree h => exact .found hn hfree h
  | full hused h => exact .full (fun c hc => (hR c hc).elim (hused c) id) h
  | broken hc hone h => exact .broken hc hone h
  | failed hbad h => exact .failed hbad h

/-- The cluster looked at after `ncl`. -/
def nextCluster (n ncl : ℕ) : ℕ := if n ≤ ncl + 1 then 2 else ncl + 1

theorem ahead_next {n scl ncl c : ℕ} (hscl : 1 ≤ scl ∧ scl < n) (hncl : 1 ≤ ncl ∧ ncl < n)
    (hc : c ∈ ahead n scl ncl) :
    c = nextCluster n ncl ∨ nextCluster n ncl ≠ scl ∧ c ∈ ahead n scl (nextCluster n ncl) := by
  unfold ahead nextCluster at *
  split_ifs at hc ⊢ <;> simp only [Set.mem_ofPred_eq] at hc ⊢ <;> omega

theorem aheadCount_next {n scl ncl : ℕ} (hscl : 1 ≤ scl ∧ scl < n) (hncl : 1 ≤ ncl ∧ ncl < n)
    (hgo : ¬ (n ≤ ncl + 1 ∧ scl < 2)) (hne : nextCluster n ncl ≠ scl) :
    aheadCount n scl (nextCluster n ncl) < aheadCount n scl ncl := by
  unfold aheadCount nextCluster at *
  split_ifs at hne ⊢ <;> omega

/-- The loop looks at all the clusters ahead, unless it finds a free one. -/
theorem searchLoop_spec (hg : v.FatSound) (hscl : 1 ≤ scl.toNat ∧ scl.toNat < v.nFatent.toNat)
    (fuel : ℕ) (hncl : 1 ≤ ncl.toNat ∧ ncl.toNat < v.nFatent.toNat) (h : v.Sets v' fat)
    (hfuel : aheadCount v.nFatent.toNat scl.toNat ncl.toNat < fuel) :
    SearchResult v fat (ahead v.nFatent.toNat scl.toNat ncl.toNat)
      (searchLoop scl fuel ncl v') := by
  induction fuel generalizing ncl v' with
  | zero => exact absurd hfuel (Nat.not_lt_zero _)
  | succ fuel ih =>
    have hlow := hg.lower
    have hmax := v.nFatent.isLt
    have hwrap : v.nFatent ≤ ncl + 1#32 ↔ v.nFatent.toNat ≤ ncl.toNat + 1 := by bv_omega
    have hnext : (if v.nFatent ≤ ncl + 1#32 then 2#32 else ncl + 1#32 : U32).toNat =
        nextCluster v.nFatent.toNat ncl.toNat := by
      unfold nextCluster
      split_ifs with h1 h2 h2
      · rfl
      · exact absurd (hwrap.mp h1) h2
      · exact absurd (hwrap.mpr h2) h1
      · bv_omega
    rw [searchLoop]
    simp only [h.geometry]
    generalize (if v.nFatent ≤ ncl + 1#32 then 2#32 else ncl + 1#32 : U32) = nxt at hnext ⊢
    by_cases hstop : v.nFatent ≤ ncl + 1#32 ∧ scl < nxt
    · -- nothing is ahead of the last cluster when the search began before the first one
      rw [if_pos hstop]
      refine .full (fun c hc => ?_) h
      have hend := hwrap.mp hstop.1
      have hlt := BitVec.lt_def.mp hstop.2
      rw [hnext, nextCluster, if_pos hend] at hlt
      unfold ahead at hc
      split_ifs at hc <;> simp only [Set.mem_ofPred_eq] at hc <;> omega
    · rw [if_neg hstop]
      have hgo : ¬ (v.nFatent.toNat ≤ ncl.toNat + 1 ∧ scl.toNat < 2) := by
        rintro ⟨h1, h2⟩
        refine hstop ⟨hwrap.mpr h1, BitVec.lt_def.mpr ?_⟩
        rwa [hnext, nextCluster, if_pos h1]
      have hin : 2 ≤ nxt.toNat ∧ nxt.toNat < v.nFatent.toNat := by
        rw [hnext]
        unfold nextCluster
        split_ifs <;> omega
      obtain ⟨hsets, hres⟩ := h.get hg (BitVec.le_def.mpr hin.1) (BitVec.lt_def.mpr hin.2)
      generalize getFat v' nxt = out at hsets hres
      obtain ⟨cs, v₁⟩ := out
      simp only
      -- the entry is free, or says that something is wrong, or is in use
      by_cases h0 : cs = 0#32
      · rw [if_pos h0]
        rcases hres with ⟨hres, -⟩ | ⟨hres, -⟩
        · exact .found hin (by rw [← hres]; exact congrArg BitVec.toNat h0) hsets
        · exact absurd (h0.symm.trans hres) (by decide)
      rw [if_neg h0]
      by_cases h1 : cs = 1#32 ∨ cs = 0xFFFFFFFF#32
      · rw [if_pos h1]
        rcases hres with ⟨hres, hne⟩ | ⟨rfl, hbad⟩
        · obtain rfl := h1.resolve_right hne
          exact .broken hin hres.symm hsets
        · exact .failed hbad hsets
      rw [if_neg h1]
      have hused : fat nxt.toNat ≠ 0 := by
        rcases hres with ⟨hres, -⟩ | ⟨hres, -⟩
        · intro hz
          exact h0 (BitVec.eq_of_toNat_eq (hres.trans hz))
        · exact absurd (Or.inr hres) h1
      by_cases hend : nxt = scl
      · -- back where the search began
        rw [if_pos hend]
        refine .full (fun c hc => ?_) hsets
        rcases ahead_next hscl hncl hc with rfl | ⟨hne, -⟩
        · rwa [← hnext]
        · exact absurd (by rw [← hnext, hend]) hne
      · rw [if_neg hend]
        have hne : nextCluster v.nFatent.toNat ncl.toNat ≠ scl.toNat := by
          rw [← hnext]
          exact fun heq => hend (BitVec.eq_of_toNat_eq heq)
        have hcount := aheadCount_next hscl hncl hgo hne
        rw [← hnext] at hcount
        refine (ih ⟨by omega, hin.2⟩ hsets (by omega)).mono fun c hc => ?_
        rcases ahead_next hscl hncl hc with rfl | ⟨-, hc⟩
        · exact Or.inr (by rwa [← hnext])
        · exact Or.inl (by rwa [hnext])

theorem ahead_self {n scl c : ℕ} (hc : 2 ≤ c ∧ c < n) : c ∈ ahead n scl scl := by
  unfold ahead
  rw [if_pos (le_refl scl), Set.mem_ofPred_eq]
  omega

theorem aheadCount_self {n scl : ℕ} (hscl : 1 ≤ scl ∧ scl < n) : aheadCount n scl scl < n := by
  unfold aheadCount
  rw [if_pos (le_refl scl)]
  omega

/-- A search that goes around looks at all clusters. -/
theorem searchLoop_around (hg : v.FatSound) (hscl : 1 ≤ scl.toNat ∧ scl.toNat < v.nFatent.toNat)
    (h : v.Sets v' fat) :
    SearchResult v fat v.clusters (searchLoop scl v'.nFatent.toNat scl v') := by
  rw [h.geometry]
  exact (searchLoop_spec hg hscl _ hscl h (aheadCount_self hscl)).mono
    fun c hc => Or.inl (ahead_self hc)

/-- The new cluster is a free one, wherever the search starts. -/
theorem findCluster_spec (hg : v.FatSound) {clst : U32} (h : v.Sets v' fat)
    (hscl : 1 ≤ scl.toNat ∧ scl.toNat < v.nFatent.toNat) :
    SearchResult v fat v.clusters (findCluster v' clst scl) := by
  have hlow := hg.lower
  unfold findCluster
  by_cases heq : scl = clst
  · rw [if_pos heq]
    simp only [h.geometry]
    have hin : 2 ≤ (if v.nFatent ≤ scl + 1#32 then 2#32 else scl + 1#32 : U32).toNat ∧
        (if v.nFatent ≤ scl + 1#32 then 2#32 else scl + 1#32 : U32).toNat < v.nFatent.toNat := by
      split_ifs with hwrap
      · exact ⟨le_refl 2, hlow⟩
      · bv_omega
    generalize (if v.nFatent ≤ scl + 1#32 then 2#32 else scl + 1#32 : U32) = ncl at hin ⊢
    obtain ⟨hsets, hres⟩ := h.get hg (BitVec.le_def.mpr hin.1) (BitVec.lt_def.mpr hin.2)
    generalize getFat v' ncl = out at hsets hres
    obtain ⟨cs, v₁⟩ := out
    simp only
    by_cases h1 : cs = 1#32 ∨ cs = 0xFFFFFFFF#32
    · rw [if_pos h1]
      rcases hres with ⟨hres, hne⟩ | ⟨rfl, hbad⟩
      · obtain rfl := h1.resolve_right hne
        exact .broken hin hres.symm hsets
      · exact .failed hbad hsets
    rw [if_neg h1]
    by_cases h0 : cs ≠ 0#32
    · -- the next one is taken: from the last allocated cluster on
      rw [if_pos h0]
      refine searchLoop_around hg ?_ hsets
      rw [hsets.geometry]
      split_ifs with hlast
      · exact ⟨Nat.le_of_succ_le (BitVec.le_def.mp hlast.1), BitVec.lt_def.mp hlast.2⟩
      · exact hscl
    · rw [if_neg h0]
      rcases hres with ⟨hres, -⟩ | ⟨hres, -⟩
      · refine .found hin ?_ hsets
        rw [← hres]
        exact congrArg BitVec.toNat (not_not.mp h0)
      · exact absurd (Or.inr hres) h1
  · rw [if_neg heq]
    exact searchLoop_around hg hscl h

end Search

/-! ### `create_chain` -/

/-- The mark of a last cluster, as it is stored. -/
def FsType.endMark (t : FsType) : ℕ := t.modulus - 1

/-- The FAT with the cluster `ncl` behind `clst`, or with a chain of its own for 0. -/
def linked (t : FsType) (fat : ℕ → ℕ) (clst ncl : ℕ) : ℕ → ℕ :=
  if clst = 0 then Function.update fat ncl t.endMark
  else Function.update (Function.update fat ncl t.endMark) clst ncl

/-- The FAT has not changed, or a free cluster has been marked. -/
def Spoiled (g : Geometry) (fat fat' : ℕ → ℕ) : Prop :=
  fat' = fat ∨ ∃ c ∈ g.clusters, fat c = 0 ∧ fat' = Function.update fat c g.fsType.endMark

/-- What `create_chain` may come to. -/
inductive CreateResult (v : Volume) (clst : U32) : Option (U32 × Volume) → Prop
  | follow {r : U32} {v' : Volume} (hc : clst ≠ 0#32) (hr : r.toNat = v.entry clst.toNat)
      (hin : r.toNat ∈ v.clusters) (h : v.Sets v' v.entry) : CreateResult v clst (some (r, v'))
  | full {v' : Volume} (hend : clst ≠ 0#32 → v.nFatent.toNat ≤ v.entry clst.toNat)
      (hused : v.freeClst ≠ 0#32 → ∀ c ∈ v.clusters, v.entry c ≠ 0) (h : v.Sets v' v.entry) :
      CreateResult v clst (some (0#32, v'))
  | broken {v' : Volume} {c : ℕ} (hc : c ∈ v.clusters)
      (hone : v.entry c = 1 ∨ c = clst.toNat ∧ v.entry c = 0) (h : v.Sets v' v.entry) :
      CreateResult v clst (some (1#32, v'))
  | made {ncl : U32} {v' : Volume} (hend : clst ≠ 0#32 → v.nFatent.toNat ≤ v.entry clst.toNat)
      (hn : ncl.toNat ∈ v.clusters) (hfree : v.entry ncl.toNat = 0)
      (h : v.Sets v' (linked v.fsType v.entry clst.toNat ncl.toNat)) :
      CreateResult v clst (some (ncl, v'.took ncl))
  | failed {v' : Volume} (hbad : ¬ v.drive.Reliable)
      (h : v.fsType ≠ .fat12 → ∃ fat, v.Sets v' fat ∧ Spoiled v.toGeometry v.entry fat) :
      CreateResult v clst (some (0xFFFFFFFF#32, v'))

section Create

variable {v : Volume} {clst : U32}

theorem FsType.eoc_mod {t : FsType} (ht : t ≠ .none) : 0xFFFFFFFF % t.modulus = t.endMark := by
  cases t with
  | none => exact absurd rfl ht
  | _ => rfl

/-- End marks are no cluster numbers, and cluster numbers fit in an entry. -/
theorem Geometry.FatSound.nFatent_le {g : Geometry} (hg : g.FatSound) :
    g.fsType ≠ .none ∧ g.nFatent.toNat ≤ g.fsType.endMark ∧
      g.fsType.endMark < g.fsType.modulus := by
  have hu := hg.upper
  have hl := hg.lower
  cases ht : g.fsType with
  | none =>
    rw [ht, FsType.maxFatent] at hu
    omega
  | _ =>
    rw [ht] at hu
    simp only [FsType.maxFatent] at hu
    simp only [FsType.endMark, FsType.modulus]
    exact ⟨by decide, by omega, by omega⟩

/-- The search starts at a number below the end, unless something is returned at once. -/
theorem searchStart_spec (hg : v.FatSound) (hv : v.Coherent)
    (hc : clst ≠ 0#32 → clst.toNat ∈ v.clusters) :
    (∃ r v', searchStart v clst = (.error r, v') ∧ CreateResult v clst (some (r, v'))) ∨
    ∃ scl v', searchStart v clst = (.ok scl, v') ∧ v.Sets v' v.entry ∧
      (1 ≤ scl.toNat ∧ scl.toNat < v.nFatent.toNat) ∧
      (clst ≠ 0#32 → v.nFatent.toNat ≤ v.entry clst.toNat) := by
  have hlow := hg.lower
  have hrefl := Volume.Sets.refl hv
  unfold searchStart
  by_cases h0 : clst = 0#32
  · rw [if_pos h0]
    refine Or.inr ⟨_, v, rfl, hrefl, ?_, fun hne => absurd h0 hne⟩
    split_ifs with hlast
    · exact ⟨le_refl 1, by show 1 < _; omega⟩
    · rw [not_or] at hlast
      bv_omega
  · rw [if_neg h0]
    have hin := hc h0
    obtain ⟨hsets, hres⟩ := hrefl.get hg (BitVec.le_def.mpr hin.1) (BitVec.lt_def.mpr hin.2)
    generalize getFat v clst = out at hsets hres
    obtain ⟨cs, v₁⟩ := out
    simp only
    rcases hres with ⟨hres, hne⟩ | ⟨rfl, hbad⟩
    · replace hres : cs.toNat = v.entry clst.toNat := hres
      by_cases h2 : cs < 2#32
      · rw [if_pos h2]
        refine Or.inl ⟨1#32, v₁, rfl, .broken hin ?_ hsets⟩
        have : v.entry clst.toNat < 2 := by rw [← hres]; exact BitVec.lt_def.mp h2
        rcases Nat.lt_succ_iff_lt_or_eq.mp this with h | h
        · exact Or.inr ⟨rfl, by omega⟩
        · exact Or.inl h
      rw [if_neg h2, if_neg hne]
      -- there is a next cluster, or this is the last
      by_cases hn : cs < v₁.nFatent
      · rw [if_pos hn]
        rw [hsets.geometry] at hn
        exact Or.inl ⟨cs, v₁, rfl, .follow h0 hres
          ⟨BitVec.le_def.mp (BitVec.not_lt.mp h2), BitVec.lt_def.mp hn⟩ hsets⟩
      · rw [if_neg hn]
        rw [hsets.geometry] at hn
        refine Or.inr ⟨clst, v₁, rfl, hsets, ⟨by have := hin.1; omega, hin.2⟩, fun _ => ?_⟩
        rw [← hres]
        exact BitVec.le_def.mp (BitVec.not_lt.mp hn)
    · exact Or.inl ⟨_, v₁, rfl, .failed hbad fun _ => ⟨v.entry, hsets, Or.inl rfl⟩⟩

/-- `create_chain` follows a link, or links a free cluster; it changes nothing else. -/
theorem createChain_spec (hg : v.FatSound) (hv : v.Coherent)
    (hc : clst ≠ 0#32 → clst.toNat ∈ v.clusters) : CreateResult v clst (createChain v clst) := by
  obtain ⟨hnone, hn, hend⟩ := hg.nFatent_le
  unfold createChain
  rcases searchStart_spec hg hv hc with
    ⟨r, v₁, hstart, hres⟩ | ⟨scl, v₁, hstart, hsets, hscl, hlast⟩
  · rw [hstart]
    exact hres
  rw [hstart]
  simp only
  by_cases h0 : v₁.freeClst = 0#32
  · rw [if_pos h0]
    exact .full hlast (fun hne => absurd (hsets.freeClst.symm.trans h0) hne) hsets
  rw [if_neg h0]
  have hfind : SearchResult v v.entry v.clusters (findCluster v₁ clst scl) :=
    findCluster_spec hg hsets hscl
  generalize findCluster v₁ clst scl = out at hfind
  cases hfind with
  | full hused h => exact .full hlast (fun _ => hused) h
  | broken hc hone h => exact .broken hc (Or.inl hone) h
  | failed hbad h => exact .failed hbad fun _ => ⟨v.entry, h, Or.inl rfl⟩
  | @found ncl v₂ hin hfree h =>
    simp only
    rcases h.put hg (BitVec.le_def.mpr hin.1) (BitVec.lt_def.mpr hin.2) 0xFFFFFFFF#32 with
      ⟨hok, hput⟩ | ⟨herr, hbad, x, hx, hput⟩
    · generalize putFat v₂ ncl 0xFFFFFFFF#32 = out at hok hput
      obtain ⟨res, v₃⟩ := out
      replace hok : res = .ok := hok
      subst hok
      replace hput : v.Sets v₃ (Function.update v.entry ncl.toNat v.fsType.endMark) := by
        rw [← FsType.eoc_mod hnone]
        exact hput
      by_cases hz : clst = 0#32
      · -- a chain of its own
        simp only [hz, ne_eq, not_true_eq_false, and_false, if_false, if_true]
        refine .made (fun hne => absurd rfl hne) hin hfree ?_
        rw [linked, if_pos (show (0#32 : U32).toNat = 0 from rfl)]
        exact hput
      · have hz' : clst.toNat ≠ 0 := fun h => hz (BitVec.eq_of_toNat_eq h)
        have hci := hc hz
        simp only [hz, ne_eq, not_false_eq_true, and_self, if_true]
        rcases hput.put hg (BitVec.le_def.mpr hci.1) (BitVec.lt_def.mpr hci.2) ncl with
          ⟨hok, hlink⟩ | ⟨herr, hbad, x, hx, hlink⟩
        · rw [if_pos hok]
          refine .made hlast hin hfree ?_
          rw [Nat.mod_eq_of_lt ((hin.2.trans_le hn).trans hend)] at hlink
          rw [linked, if_neg hz']
          exact hlink
        · -- the new cluster has its end mark, and nothing leads to it
          rw [herr, if_neg (by decide), if_pos rfl]
          refine .failed hbad fun ht => ⟨_, hlink, Or.inr ⟨ncl.toNat, hin, hfree, ?_⟩⟩
          rw [hx ht, Function.update_eq_self]
    · generalize putFat v₂ ncl 0xFFFFFFFF#32 = out at herr hput
      obtain ⟨res, v₃⟩ := out
      replace herr : res = .diskErr := herr
      subst herr
      simp only [reduceCtorEq, false_and, if_false, if_true]
      refine .failed hbad fun ht => ⟨_, hput, Or.inl ?_⟩
      rw [hx ht, Function.update_eq_self]

end Create

/-! ### The allocation information -/

/-- How many clusters are free. -/
def Volume.freeCount (v : Volume) : ℕ := freeCells (Finset.Ico 2 v.nFatent.toNat) 0 v.entry

/-- A valid `free_clst` is not too small, and it is exact if no transfer fails. -/
def Volume.Counted (v : Volume) : Prop :=
  v.freeClst.toNat ≤ v.nFatent.toNat - 2 →
    v.freeCount ≤ v.freeClst.toNat ∧ (v.drive.Reliable → v.freeCount = v.freeClst.toNat)

section Counted

variable {v v' : Volume} {fat : ℕ → ℕ} {c : ℕ}

theorem mem_cells {g : Geometry} : c ∈ Finset.Ico 2 g.nFatent.toNat ↔ c ∈ g.clusters :=
  Finset.mem_Ico

theorem Volume.freeCount_le (v : Volume) : v.freeCount ≤ v.nFatent.toNat - 2 := by
  refine freeCells_le.trans ?_
  rw [Nat.card_Ico]

theorem Volume.Alters.freeCount (h : v.Alters v' fat) :
    v'.freeCount = freeCells (Finset.Ico 2 v.nFatent.toNat) 0 fat := by
  unfold Volume.freeCount
  rw [h.geometry]
  exact freeCells_congr fun c hc => by rw [h.entry c (Finset.mem_Ico.mp hc).2]

theorem Volume.took_fields (v : Volume) (ncl : U32) :
    (v.took ncl).toGeometry = v.toGeometry ∧ (v.took ncl).drive = v.drive ∧
      (v.took ncl).window = v.window ∧ (v.took ncl).freeClst =
        if 0#32 < v.freeClst ∧ v.freeClst ≤ v.nFatent - 2#32 then v.freeClst - 1#32
        else v.freeClst := by
  unfold Volume.took
  dsimp only
  split_ifs with h
  · exact ⟨rfl, rfl, rfl, rfl⟩
  · exact ⟨rfl, rfl, rfl, rfl⟩

theorem Volume.gaveBack_fields (v : Volume) :
    v.gaveBack.toGeometry = v.toGeometry ∧ v.gaveBack.drive = v.drive ∧
      v.gaveBack.window = v.window ∧ v.gaveBack.freeClst =
        if v.freeClst < v.nFatent - 2#32 then v.freeClst + 1#32 else v.freeClst := by
  unfold Volume.gaveBack
  split_ifs with h
  · exact ⟨rfl, rfl, rfl, rfl⟩
  · exact ⟨rfl, rfl, rfl, rfl⟩

/-- What is read depends on the geometry, the drive and the window alone. -/
theorem Volume.Alters.of_fields {w : Volume} (h : v.Alters v' fat)
    (hgeo : w.toGeometry = v'.toGeometry) (hdrive : w.drive = v'.drive)
    (hwin : w.window = v'.window) : v.Alters w fat := by
  have hview : w.view = v'.view := by
    funext s
    rw [Volume.view, hwin]
    rfl
  have hentry : w.entry = v'.entry := by
    funext c
    rw [Volume.entry, Volume.entry, hgeo]
    congr 1
    funext k
    rw [w.fatBytes_eq, v'.fatBytes_eq, hview, hgeo]
  refine ⟨hgeo.trans h.geometry, hdrive ▸ h.fault, ?_, hentry ▸ h.entry, hview ▸ h.rest, ?_, ?_⟩
  · show w.window.Coherent w.served
    rw [hwin, hgeo]
    exact h.coherent
  · intro hm
    have hflag : w.wflag = v'.wflag := congrArg Buffered.dirty hwin
    have hsect : w.winsect = v'.winsect := congrArg Buffered.addr hwin
    unfold Volume.Mirrored
    rw [hgeo, hdrive, hflag, hsect]
    exact h.mirrored hm
  · rw [show w.winsect = v'.winsect from congrArg Buffered.addr hwin]
    exact h.winsect

/-- A free cluster is taken, and counted. -/
theorem Volume.Counted.took (hlow : 2 < v.nFatent.toNat) (h : v.Counted) (hsets : v.Sets v' fat)
    (hc : c ∈ v.clusters) (hfree : v.entry c = 0) (hused : fat c ≠ 0)
    (hoff : ∀ x ∈ v.clusters, x ≠ c → (fat x = 0 ↔ v.entry x = 0)) (ncl : U32) :
    (v'.took ncl).Counted := by
  have hcount : freeCells (Finset.Ico 2 v.nFatent.toNat) 0 fat + 1 = v.freeCount :=
    freeCells_take (mem_cells.mpr hc) hfree hused fun x hx => hoff x (mem_cells.mp hx)
  obtain ⟨hgeo, hdrive, hwin, hclst⟩ := v'.took_fields ncl
  have halt := hsets.toAlters.of_fields hgeo hdrive hwin
  unfold Volume.Counted at h ⊢
  rw [halt.freeCount, halt.geometry, halt.reliable, hclst, hsets.freeClst, hsets.geometry]
  have hmax := v.nFatent.isLt
  have hmax' := v.freeClst.isLt
  split_ifs with hvalid
  · have h0 : 0 < v.freeClst.toNat := BitVec.lt_def.mp hvalid.1
    have h1 : v.freeClst.toNat ≤ v.nFatent.toNat - 2 := by
      have := BitVec.le_def.mp hvalid.2
      bv_omega
    have h2 : (v.freeClst - 1#32).toNat = v.freeClst.toNat - 1 := by bv_omega
    obtain ⟨hle, heq⟩ := h h1
    rw [h2]
    refine fun _ => ⟨by omega, fun hr => ?_⟩
    have := heq hr
    omega
  · intro h1
    obtain ⟨hle, heq⟩ := h h1
    refine ⟨by omega, fun hr => ?_⟩
    -- a valid count of zero, and yet a free cluster
    have := heq hr
    exact absurd ⟨by bv_omega, by bv_omega⟩ hvalid

/-- A cluster is given back, and counted. -/
theorem Volume.Counted.gaveBack (h : v.Counted) (hsets : v.Sets v' fat)
    (hlow : 2 < v.nFatent.toNat) (hc : c ∈ v.clusters) (hused : v.entry c ≠ 0)
    (hfree : fat c = 0) (hoff : ∀ x ∈ v.clusters, x ≠ c → (v.entry x = 0 ↔ fat x = 0)) :
    v'.gaveBack.Counted := by
  have hcount : v.freeCount + 1 = freeCells (Finset.Ico 2 v.nFatent.toNat) 0 fat :=
    freeCells_take (mem_cells.mpr hc) hfree hused fun x hx => hoff x (mem_cells.mp hx)
  obtain ⟨hgeo, hdrive, hwin, hclst⟩ := v'.gaveBack_fields
  have halt := hsets.toAlters.of_fields hgeo hdrive hwin
  have hle' := v'.freeCount_le
  rw [hsets.freeCount, hsets.geometry] at hle'
  unfold Volume.Counted at h ⊢
  rw [halt.freeCount, halt.geometry, halt.reliable, hclst, hsets.freeClst, hsets.geometry]
  have hmax := v.nFatent.isLt
  have hmax' := v.freeClst.isLt
  split_ifs with hroom
  · have h1 : v.freeClst.toNat < v.nFatent.toNat - 2 := by
      have := BitVec.lt_def.mp hroom
      bv_omega
    have h2 : (v.freeClst + 1#32).toNat = v.freeClst.toNat + 1 := by bv_omega
    obtain ⟨hle, heq⟩ := h (by omega)
    rw [h2]
    refine fun _ => ⟨by omega, fun hr => ?_⟩
    have := heq hr
    omega
  · intro h1
    obtain ⟨hle, heq⟩ := h h1
    have h2 : v.nFatent.toNat - 2 ≤ v.freeClst.toNat := by
      have := BitVec.le_def.mp (BitVec.not_lt.mp hroom)
      bv_omega
    refine ⟨by omega, fun hr => ?_⟩
    have := heq hr
    omega

end Counted

/-! ### `remove_chain` -/

/-- The FAT with the clusters of `m` free. -/
def erased (fat : ℕ → ℕ) (m : List ℕ) : ℕ → ℕ := fun c => if c ∈ m then 0 else fat c

/-- What `remove_chain` may come to for the clusters `m`: it frees them, or stops somewhere. -/
inductive RemoveResult (v : Volume) (m : List ℕ) : Option (FResult × Volume) → Prop
  | done {v' : Volume} (h : v.Alters v' (erased v.entry m)) (hcount : v.Counted → v'.Counted) :
      RemoveResult v m (some (.ok, v'))
  | failed {v' : Volume} (hbad : ¬ v.drive.Reliable)
      (h : v.fsType ≠ .fat12 → (v.Counted → v'.Counted) ∧
        ∃ s t, m = s ++ t ∧ v.Alters v' (erased v.entry s)) :
      RemoveResult v m (some (.diskErr, v'))

section Remove

variable {v : Volume} {clst : U32} {t : List ℕ}

/-- The count stays good where no cluster is taken or freed. -/
theorem Volume.Sets.counted {v' : Volume} {fat : ℕ → ℕ} (h : v.Sets v' fat)
    (hfree : ∀ c ∈ v.clusters, fat c = 0 ↔ v.entry c = 0) (hc : v.Counted) : v'.Counted := by
  have hsame : freeCells (Finset.Ico 2 v.nFatent.toNat) 0 fat = v.freeCount :=
    freeCells_congr fun c hc => hfree c (mem_cells.mp hc)
  unfold Volume.Counted at hc ⊢
  rw [h.freeCount, h.freeClst, h.geometry, h.reliable, hsame]
  exact hc

/-- Nothing was freed. -/
theorem RemoveResult.stopped {v' : Volume} {m : List ℕ} (hbad : ¬ v.drive.Reliable)
    (hsets : v.fsType ≠ .fat12 → v.Sets v' v.entry) : RemoveResult v m (some (.diskErr, v')) := by
  refine .failed hbad fun ht => ⟨(hsets ht).counted fun _ _ => Iff.rfl, [], _, rfl, ?_⟩
  exact (hsets ht).toAlters.congr fun c _ => by simp [erased]

/-- One turn of the loop frees a cluster and goes on with the next, or stops. -/
theorem removeLoop_step (hg : v.FatSound) (hv : v.Coherent) (hin : clst.toNat ∈ v.clusters)
    (h0 : v.entry clst.toNat ≠ 0) (h1 : v.entry clst.toNat ≠ 1) (fuel : ℕ) :
    (∃ v', removeLoop (fuel + 1) v clst = some (.diskErr, v') ∧ ¬ v.drive.Reliable ∧
      (v.fsType ≠ .fat12 → v.Sets v' v.entry)) ∨
    ∃ v', v.Alters v' (Function.update v.entry clst.toNat 0) ∧ (v.Counted → v'.Counted) ∧
      removeLoop (fuel + 1) v clst =
        if v.entry clst.toNat < v.nFatent.toNat then
          removeLoop fuel v' (BitVec.ofNat 32 (v.entry clst.toNat))
        else some (.ok, v') := by
  have h2 : 2#32 ≤ clst := BitVec.le_def.mpr hin.1
  have hn : clst < v.nFatent := BitVec.lt_def.mpr hin.2
  obtain ⟨hsets, hres⟩ := (Volume.Sets.refl hv).get hg h2 hn
  rw [removeLoop]
  generalize getFat v clst = out at hsets hres
  obtain ⟨nxt, v₁⟩ := out
  simp only
  rcases hres with ⟨hres, hne⟩ | ⟨rfl, hbad⟩
  · replace hres : nxt.toNat = v.entry clst.toNat := hres
    have hz : nxt ≠ 0#32 := fun h => h0 (by rw [← hres, h]; rfl)
    have ho : nxt ≠ 1#32 := fun h => h1 (by rw [← hres, h]; rfl)
    rw [if_neg hz, if_neg ho, if_neg hne]
    rcases hsets.put hg h2 hn 0#32 with ⟨hok, hput⟩ | ⟨herr, hbad, x, hx, hput⟩
    · refine Or.inr ⟨(putFat v₁ clst 0#32).2.gaveBack, ?_, fun hcount => ?_, ?_⟩
      · obtain ⟨hgeo, hdrive, hwin, -⟩ := (putFat v₁ clst 0#32).2.gaveBack_fields
        exact (hput.toAlters.of_fields hgeo hdrive hwin)
      · refine hcount.gaveBack hput hg.lower hin h0 (Function.update_self ..) fun x _ hx => ?_
        rw [Function.update_of_ne hx]
      · obtain ⟨hgeo, -⟩ := (putFat v₁ clst 0#32).2.gaveBack_fields
        have hlt : nxt < v.nFatent ↔ v.entry clst.toNat < v.nFatent.toNat := by
          rw [BitVec.lt_def, hres]
        have hnxt : BitVec.ofNat 32 (v.entry clst.toNat) = nxt := by
          rw [← hres]
          exact BitVec.ofNat_toNat .. |>.trans (BitVec.setWidth_eq nxt)
        rw [if_neg (not_not.mpr hok), hgeo, hput.geometry, hnxt]
        simp only [hlt]
    · rw [if_pos (by rw [herr]; decide), herr]
      refine Or.inl ⟨_, rfl, hbad, fun ht => ?_⟩
      rw [hx ht, Function.update_eq_self] at hput
      exact hput
  · exact Or.inl ⟨v₁, rfl, hbad, fun _ => hsets⟩

/-- The loop frees the chain that begins with `clst`, from its first cluster to its last. -/
theorem removeLoop_spec (hg : v.FatSound) (hv : v.Coherent)
    (hch : Chain v.clusters 0 v.entry (clst.toNat :: t)) (hone : ∀ c ∈ v.clusters, v.entry c ≠ 1)
    (fuel : ℕ) (hfuel : t.length < fuel) :
    RemoveResult v (clst.toNat :: t) (removeLoop fuel v clst) := by
  induction t generalizing v clst fuel with
  | nil =>
    obtain ⟨fuel, rfl⟩ : ∃ k, fuel = k + 1 := ⟨fuel - 1, by have := hfuel; simp at this; omega⟩
    have hin := hch.cells clst.toNat (by simp)
    obtain ⟨hend, h0⟩ := hch.ends clst.toNat (by simp)
    have h1 := hone _ hin
    have hlast : ¬ v.entry clst.toNat < v.nFatent.toNat := fun h => hend ⟨by omega, h⟩
    rcases removeLoop_step hg hv hin h0 h1 fuel with
      ⟨v', heq, hbad, hsets⟩ | ⟨v', halt, hcount, heq⟩
    · rw [heq]
      exact .stopped hbad hsets
    · rw [heq, if_neg hlast]
      refine .done (halt.congr fun c _ => ?_) hcount
      by_cases hcc : c = clst.toNat <;> simp [erased, hcc]
  | cons d t ih =>
    obtain ⟨fuel, rfl⟩ : ∃ k, fuel = k + 1 := ⟨fuel - 1, by have := hfuel; simp at this; omega⟩
    have hin := hch.cells clst.toNat (by simp)
    have hd := hch.cells d (by simp)
    have hlink : v.entry clst.toNat = d := (List.isChain_cons_cons.mp hch.links).1
    have hnd := List.nodup_cons.mp hch.nodup
    have h0 : v.entry clst.toNat ≠ 0 := by have := hd.1; omega
    have h1 : v.entry clst.toNat ≠ 1 := by have := hd.1; omega
    rcases removeLoop_step hg hv hin h0 h1 fuel with
      ⟨v', heq, hbad, hsets⟩ | ⟨v', halt, hcount, heq⟩
    · rw [heq]
      exact .stopped hbad hsets
    · have hdt : (BitVec.ofNat 32 d).toNat = d := by
        have := v.nFatent.isLt
        rw [BitVec.toNat_ofNat]
        exact Nat.mod_eq_of_lt (hd.2.trans this)
      rw [heq, hlink, if_pos hd.2]
      -- the rest of the chain is as it was
      have hentry : ∀ c ∈ d :: t, v'.entry c = v.entry c := by
        intro c hc
        rw [halt.entry c (hch.cells c (List.mem_cons_of_mem _ hc)).2,
          Function.update_of_ne fun heq : c = clst.toNat => hnd.1 (heq ▸ hc)]
      have hch' : Chain v'.clusters 0 v'.entry ((BitVec.ofNat 32 d).toNat :: t) := by
        rw [hdt, halt.geometry]
        exact hch.tail.congr hentry
      have hone' : ∀ c ∈ v'.clusters, v'.entry c ≠ 1 := by
        intro c hc
        rw [halt.geometry] at hc
        rw [halt.entry c hc.2]
        by_cases hcc : c = clst.toNat
        · rw [hcc, Function.update_self]
          decide
        · rw [Function.update_of_ne hcc]
          exact hone c hc
      have hres := ih (halt.geometry ▸ hg) halt.coherent hch' hone' fuel (by simpa using hfuel)
      rw [hdt] at hres
      have herase : ∀ {s : List ℕ} {c : ℕ}, c < v.nFatent.toNat →
          erased v'.entry s c = erased v.entry (clst.toNat :: s) c := by
        intro s c hc
        unfold erased
        rw [halt.entry c hc]
        by_cases hcc : c = clst.toNat <;> simp [hcc]
      generalize removeLoop fuel v' _ = out at hres
      cases hres with
      | done h hcount' =>
        exact .done ((halt.trans h).congr fun c hc => herase hc) fun hcnt => hcount' (hcount hcnt)
      | failed hbad h =>
        refine .failed (fun hr => hbad (halt.reliable.mpr hr)) fun ht => ?_
        obtain ⟨hcount', s, u, hsu, h⟩ := h (by rw [halt.geometry]; exact ht)
        exact ⟨fun hcnt => hcount' (hcount hcnt), clst.toNat :: s, u, by rw [hsu]; rfl,
          (halt.trans h).congr fun c hc => herase hc⟩

/-- The FAT with the chain cut behind the clusters `l`, and those of `m` free. -/
def cutOff (t : FsType) (fat : ℕ → ℕ) (l m : List ℕ) : ℕ → ℕ :=
  erased (match l.getLast? with
    | none => fat
    | some p => Function.update fat p t.endMark) m

/-- What `remove_chain` may come to for a chain of which the clusters `m` are to go. -/
inductive CutResult (v : Volume) (l m : List ℕ) : Option (FResult × Volume) → Prop
  | done {v' : Volume} (h : v.Alters v' (cutOff v.fsType v.entry l m))
      (hcount : v.Counted → v'.Counted) : CutResult v l m (some (.ok, v'))
  | failed {v' : Volume} (hbad : ¬ v.drive.Reliable)
      (h : v.fsType ≠ .fat12 → (v.Counted → v'.Counted) ∧ (v.Alters v' v.entry ∨
        ∃ s t, m = s ++ t ∧ v.Alters v' (cutOff v.fsType v.entry l s))) :
      CutResult v l m (some (.diskErr, v'))

/-- A chain has no more clusters than there are. -/
theorem length_lt_of_chain {l : List ℕ} {fat : ℕ → ℕ}
    (hch : Chain v.clusters 0 fat (l ++ clst.toNat :: t)) : t.length < v.nFatent.toNat := by
  have hsub : (l ++ clst.toNat :: t).length ≤ (Finset.Ico 2 v.nFatent.toNat).card := by
    rw [← List.toFinset_card_of_nodup hch.nodup]
    refine Finset.card_le_card fun c hc => ?_
    exact mem_cells.mpr (hch.cells c (List.mem_toFinset.mp hc))
  have hpos := (hch.cells clst.toNat (by simp)).2
  rw [Nat.card_Ico] at hsub
  simp only [List.length_append, List.length_cons] at hsub
  omega

section Marked

/-! The cluster `pclst` before the chain `clst :: t` has got the end mark. -/

variable {l : List ℕ} {pclst : U32} {v₁ : Volume}

theorem cutOff_of_getLast {t : FsType} {fat : ℕ → ℕ} (hp : pclst.toNat ∈ l.getLast?)
    (m : List ℕ) : cutOff t fat l m = erased (Function.update fat pclst.toNat t.endMark) m := by
  unfold cutOff
  rw [hp]

theorem erased_marked (hput : v.Sets v₁ (Function.update v.entry pclst.toNat v.fsType.endMark))
    (hp : pclst.toNat ∈ l.getLast?) {m : List ℕ} {c : ℕ} (hc : c < v.nFatent.toNat) :
    erased v₁.entry m c = cutOff v.fsType v.entry l m c := by
  rw [cutOff_of_getLast hp]
  unfold erased
  rw [hput.entry c hc]

theorem chain_marked (hput : v.Sets v₁ (Function.update v.entry pclst.toNat v.fsType.endMark))
    (hch : Chain v.clusters 0 v.entry (l ++ clst.toNat :: t)) (hp : pclst.toNat ∈ l.getLast?) :
    Chain v₁.clusters 0 v₁.entry (clst.toNat :: t) := by
  have hpm : pclst.toNat ∉ clst.toNat :: t := fun hm =>
    (List.nodup_append.mp hch.nodup).2.2 _ (List.mem_of_getLast? hp) _ hm rfl
  rw [hput.geometry]
  refine hch.suffix.congr fun c hc => ?_
  rw [hput.entry c (hch.suffix.cells c hc).2,
    Function.update_of_ne fun heq : c = pclst.toNat => hpm (heq ▸ hc)]

theorem links_marked (hg : v.FatSound)
    (hput : v.Sets v₁ (Function.update v.entry pclst.toNat v.fsType.endMark))
    (hone : ∀ c ∈ v.clusters, v.entry c ≠ 1) : ∀ c ∈ v₁.clusters, v₁.entry c ≠ 1 := by
  intro c hc
  rw [hput.geometry] at hc
  rw [hput.entry c hc.2]
  by_cases hcp : c = pclst.toNat
  · obtain ⟨-, hn, -⟩ := hg.nFatent_le
    have := hg.lower
    rw [hcp, Function.update_self]
    omega
  · rw [Function.update_of_ne hcp]
    exact hone c hc

theorem counted_marked (hg : v.FatSound)
    (hput : v.Sets v₁ (Function.update v.entry pclst.toNat v.fsType.endMark))
    (hch : Chain v.clusters 0 v.entry (l ++ clst.toNat :: t)) (hp : pclst.toNat ∈ l.getLast?) :
    v.Counted → v₁.Counted := by
  refine hput.counted fun c hc => ?_
  by_cases hcp : c = pclst.toNat
  · -- the cluster was in use, and is
    obtain ⟨-, hn, -⟩ := hg.nFatent_le
    have hlow := hg.lower
    have hin := hch.cells clst.toNat (by simp)
    have hused : v.entry pclst.toNat ≠ 0 := by
      obtain ⟨s, rfl⟩ := List.getLast?_eq_some_iff.mp hp
      have hsuf : Chain v.clusters 0 v.entry (pclst.toNat :: clst.toNat :: t) := by
        rw [List.append_assoc] at hch
        exact hch.suffix
      rw [(List.isChain_cons_cons.mp hsuf.links).1]
      have := hin.1
      omega
    rw [hcp, Function.update_self]
    exact iff_of_false (by omega) hused
  · rw [Function.update_of_ne hcp]

/-- The loop of `remove_chain`, after the mark. -/
theorem removeLoop_marked (hg : v.FatSound)
    (hput : v.Sets v₁ (Function.update v.entry pclst.toNat v.fsType.endMark))
    (hch : Chain v.clusters 0 v.entry (l ++ clst.toNat :: t))
    (hone : ∀ c ∈ v.clusters, v.entry c ≠ 1) (hp : pclst.toNat ∈ l.getLast?) {fuel : ℕ}
    (hfuel : t.length < fuel) : CutResult v l (clst.toNat :: t) (removeLoop fuel v₁ clst) := by
  have hcount₁ := counted_marked hg hput hch hp
  have hres := removeLoop_spec (hput.geometry ▸ hg) hput.coherent (chain_marked hput hch hp)
    (links_marked hg hput hone) fuel hfuel
  generalize removeLoop fuel v₁ clst = out at hres
  cases hres with
  | done h hcount =>
    exact .done ((hput.toAlters.trans h).congr fun c hc => erased_marked hput hp hc)
      fun hcnt => hcount (hcount₁ hcnt)
  | failed hbad h =>
    refine .failed (fun hr => hbad (hput.reliable.mpr hr)) fun ht => ?_
    obtain ⟨hcount, s, u, hsu, h⟩ := h (by rw [hput.geometry]; exact ht)
    exact ⟨fun hcnt => hcount (hcount₁ hcnt), Or.inr ⟨s, u, hsu,
      (hput.toAlters.trans h).congr fun c hc => erased_marked hput hp hc⟩⟩

end Marked

/-- `remove_chain` cuts the chain before `clst`, and frees what is behind. -/
theorem removeChain_spec (hg : v.FatSound) (hv : v.Coherent) {l : List ℕ} {pclst : U32}
    (hch : Chain v.clusters 0 v.entry (l ++ clst.toNat :: t))
    (hone : ∀ c ∈ v.clusters, v.entry c ≠ 1)
    (hp : pclst = 0#32 ∧ l = [] ∨ pclst.toNat ∈ l.getLast?) :
    CutResult v l (clst.toNat :: t) (removeChain v clst pclst) := by
  have hin := hch.cells clst.toNat (by simp)
  have hlen := length_lt_of_chain hch
  have hrange : ¬ (clst < 2#32 ∨ v.nFatent ≤ clst) := by
    rintro (h | h)
    · exact absurd (BitVec.lt_def.mp h) (Nat.not_lt.mpr hin.1)
    · exact absurd (BitVec.le_def.mp h) (Nat.not_le.mpr hin.2)
  unfold removeChain
  rw [if_neg hrange]
  rcases hp with ⟨rfl, rfl⟩ | hp
  · -- nothing is before the chain
    rw [if_neg (by decide)]
    have hres := removeLoop_spec hg hv hch hone _ hlen
    generalize removeLoop _ v clst = out at hres
    cases hres with
    | done h hcount => exact .done h hcount
    | failed hbad h => exact .failed hbad fun ht => ⟨(h ht).1, Or.inr (h ht).2⟩
  · have hpin := hch.cells pclst.toNat (List.mem_append_left _ (List.mem_of_getLast? hp))
    have hp0 : pclst ≠ 0#32 := by
      rintro rfl
      exact absurd hpin.1 (by decide)
    rw [if_pos hp0]
    rcases (Volume.Sets.refl hv).put hg (BitVec.le_def.mpr hpin.1) (BitVec.lt_def.mpr hpin.2)
      0xFFFFFFFF#32 with ⟨hok, hput⟩ | ⟨herr, hbad, x, hx, hput⟩
    · generalize putFat v pclst 0xFFFFFFFF#32 = out at hok hput
      obtain ⟨res, v₁⟩ := out
      replace hok : res = .ok := hok
      subst hok
      replace hput : v.Sets v₁ (Function.update v.entry pclst.toNat v.fsType.endMark) := by
        rw [← FsType.eoc_mod hg.nFatent_le.1]
        exact hput
      simp only [ne_eq, not_true_eq_false, if_false]
      rw [show v₁.nFatent = v.nFatent from congrArg Geometry.nFatent hput.geometry]
      exact removeLoop_marked hg hput hch hone hp hlen
    · generalize putFat v pclst 0xFFFFFFFF#32 = out at herr hput
      obtain ⟨res, v₁⟩ := out
      replace herr : res = .diskErr := herr
      subst herr
      simp only [ne_eq, reduceCtorEq, not_false_eq_true, if_true]
      -- the chain is whole, except where half of a 12-bit entry was stored
      refine .failed hbad fun ht => ?_
      rw [hx ht, Function.update_eq_self] at hput
      exact ⟨hput.counted fun _ _ => Iff.rfl, Or.inl hput.toAlters⟩

end Remove

end GamingConsole
