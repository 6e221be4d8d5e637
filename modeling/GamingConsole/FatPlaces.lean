/-
Where the sectors of a file are.

The clusters of the data area have `csize` sectors each.  Sector `q` of a file is in cluster
`q / csize` of its chain; where the chains have no cluster in common, the files have no
sector in common, and none of them has one with the FATs.

* `Geometry.DataSound` — what `mount_volume` has to see to;
* `Geometry.place` — the sectors of a chain, one after the other;
* `place_inj`, `place_add` — no sector comes twice, and those of a cluster are in a row.
-/
import GamingConsole.FatFile
import GamingConsole.Library.BitFields

namespace GamingConsole

open BitFields

/-- The clusters are behind the FATs and on the drive, and have a power of 2 of sectors. -/
structure Geometry.DataSound (g : Geometry) : Prop where
  pow : ∃ n ≤ 15, g.csize.toNat = 2 ^ n
  behind : g.fatbase.toNat + g.nFats.toNat * g.fsize.toNat ≤ g.database.toNat
  fits : g.database.toNat + g.csize.toNat * (g.nFatent.toNat - 2) < 2 ^ 32

/-- Sector `k` of cluster `c`. -/
def Geometry.dataSect (g : Geometry) (c k : ℕ) : U32 :=
  BitVec.ofNat 32 (g.database.toNat + g.csize.toNat * (c - 2) + k)

/-- Sector `q` of the chain `l`. -/
def Geometry.place (g : Geometry) (l : List ℕ) (q : ℕ) : U32 :=
  g.dataSect (l.getD (q / g.csize.toNat) 0) (q % g.csize.toNat)

section Places

variable {g : Geometry} {c k : ℕ} {clst : U32}

theorem Geometry.DataSound.csize_pos (hd : g.DataSound) : 0 < g.csize.toNat := by
  obtain ⟨n, -, hn⟩ := hd.pow
  rw [hn]
  exact Nat.two_pow_pos n

theorem Geometry.DataSound.toNat_dataSect (hd : g.DataSound) (hc : c ∈ g.clusters)
    (hk : k < g.csize.toNat) :
    (g.dataSect c k).toNat = g.database.toNat + g.csize.toNat * (c - 2) + k ∧
      g.database.toNat + g.csize.toNat * (c - 2) + k < 2 ^ 32 - 1 := by
  have hfits := hd.fits
  have hmul : g.csize.toNat * (c - 2) + g.csize.toNat ≤ g.csize.toNat * (g.nFatent.toNat - 2) := by
    have h := hc.2
    have h2 := hc.1
    calc g.csize.toNat * (c - 2) + g.csize.toNat = g.csize.toNat * (c - 2 + 1) := by ring
      _ ≤ _ := Nat.mul_le_mul_left _ (by omega)
  have hlt : g.database.toNat + g.csize.toNat * (c - 2) + k < 2 ^ 32 - 1 := by omega
  refine ⟨?_, hlt⟩
  rw [Geometry.dataSect, BitVec.toNat_ofNat]
  exact Nat.mod_eq_of_lt (by omega)

/-- Clusters have no sector in common. -/
theorem Geometry.DataSound.dataSect_inj (hd : g.DataSound) {c' k' : ℕ} (hc : c ∈ g.clusters)
    (hc' : c' ∈ g.clusters) (hk : k < g.csize.toNat) (hk' : k' < g.csize.toNat)
    (h : g.dataSect c k = g.dataSect c' k') : c = c' ∧ k = k' := by
  have h1 := (hd.toNat_dataSect hc hk).1
  have h2 := (hd.toNat_dataSect hc' hk').1
  rw [h, h2] at h1
  have heq : g.csize.toNat * (c - 2) + k = g.csize.toNat * (c' - 2) + k' := by omega
  have hdiv := congrArg (· / g.csize.toNat) heq
  simp only [Nat.mul_add_div hd.csize_pos, Nat.div_eq_of_lt hk, Nat.div_eq_of_lt hk'] at hdiv
  have hcc : c = c' := by
    have := hc.1
    have := hc'.1
    omega
  subst hcc
  exact ⟨rfl, by omega⟩

/-- The data are not where the FATs and the FSInfo sector are. -/
theorem Geometry.DataSound.dataSect_off (hd : g.DataSound) (hg : g.FatSound) (hc : c ∈ g.clusters)
    (hk : k < g.csize.toNat) : g.dataSect c k ∈ g.served ∧ g.dataSect c k ∉ g.system ∧
      g.fsize ≤ g.dataSect c k - g.fatbase := by
  obtain ⟨h1, h2⟩ := hd.toNat_dataSect hc hk
  obtain ⟨h3, h4⟩ := hg.fsize_le
  have hbehind := hd.behind
  have hone : g.fatbase.toNat + g.fsize.toNat ≤ g.database.toNat := by
    rcases hg.nFats with hn | hn <;> rw [hn] at hbehind
    · simpa using hbehind
    · rw [show (2#8 : U8).toNat = 2 from rfl] at hbehind
      omega
  have hlast : g.dataSect c k ≠ 0 - 1 := by
    intro h
    have : (g.dataSect c k).toNat = 2 ^ 32 - 1 := by rw [h]; rfl
    omega
  have hfirst : g.fsize ≤ g.dataSect c k - g.fatbase := by bv_omega
  refine ⟨⟨BitVec.le_def.mpr (by omega), ?_, hlast⟩, ?_, hfirst⟩
  · rintro ⟨hn, hlt⟩
    have h4 := h4 hn
    rw [hn, show (2#8 : U8).toNat = 2 from rfl] at hbehind
    bv_omega
  · rintro (h | h | h)
    · have := BitVec.lt_def.mp h
      omega
    · exact absurd hfirst (BitVec.not_le.mpr h)
    · exact hlast h

/-- The FAT has at least one sector. -/
theorem Geometry.FatSound.fsize_pos (hg : g.FatSound) : 0 < g.fsize.toNat := by
  have htable := hg.fits
  have hlow := hg.lower
  cases ht : g.fsType with
  | none => exact absurd ht hg.nFatent_le.1
  | fat12 =>
    rw [ht, FsType.tableBytes_fat12] at htable
    omega
  | fat16 =>
    rw [ht] at htable
    change _ * 2 ≤ _ at htable
    omega
  | fat32 =>
    rw [ht] at htable
    change _ * 4 ≤ _ at htable
    omega

theorem Geometry.DataSound.dataSect_ne_zero (hd : g.DataSound) (hg : g.FatSound)
    (hc : c ∈ g.clusters) (hk : k < g.csize.toNat) : g.dataSect c k ≠ 0#32 := by
  intro h0
  have h1 := (hd.toNat_dataSect hc hk).1
  have hbehind := hd.behind
  have hf := hg.fsize_pos
  rw [h0] at h1
  change 0 = _ at h1
  rcases hg.nFats with hn | hn <;> rw [hn] at hbehind
  · rw [show (1#8 : U8).toNat = 1 from rfl] at hbehind
    omega
  · rw [show (2#8 : U8).toNat = 2 from rfl] at hbehind
    omega

theorem Geometry.DataSound.clst2sect_eq (hd : g.DataSound) (hg : g.FatSound)
    (hc : clst.toNat ∈ g.clusters) :
    clst2sect g clst = g.dataSect clst.toNat 0 ∧ clst2sect g clst ≠ 0#32 := by
  have hlow := hg.lower
  obtain ⟨h1, h2⟩ := hd.toNat_dataSect hc hd.csize_pos
  have h3 := hc.1
  have h4 := hc.2
  have hlt : ¬ g.nFatent - 2#32 ≤ clst - 2#32 := by bv_omega
  have heq : clst2sect g clst = g.dataSect clst.toNat 0 := by
    rw [clst2sect, if_neg hlt]
    refine BitVec.eq_of_toNat_eq ?_
    have hsub : (clst - 2#32).toNat = clst.toNat - 2 := by bv_omega
    have hcs : (g.csize.setWidth 32).toNat = g.csize.toNat := by
      rw [BitVec.toNat_setWidth]
      exact Nat.mod_eq_of_lt (by have := g.csize.isLt; omega)
    rw [h1, BitVec.toNat_add, BitVec.toNat_mul, hsub, hcs, Nat.add_mod_mod, Nat.add_zero]
    exact Nat.mod_eq_of_lt (by omega)
  exact ⟨heq, fun h0 => hd.dataSect_ne_zero hg hc hd.csize_pos (heq ▸ h0)⟩

theorem toNat_csize (g : Geometry) : (g.csize.setWidth 32).toNat = g.csize.toNat := by
  rw [BitVec.toNat_setWidth]
  exact Nat.mod_eq_of_lt (by have := g.csize.isLt; omega)

theorem Geometry.DataSound.toNat_csect (hd : g.DataSound) (p : U32) :
    (g.csect p).toNat = p.toNat / 512 % g.csize.toNat := by
  obtain ⟨n, hn, hpow⟩ := hd.pow
  have hmask : g.csize.setWidth 32 - 1#32 = lowMask 32 n := by
    refine BitVec.eq_of_toNat_eq ?_
    have hcs := toNat_csize g
    have hpos := Nat.two_pow_pos n
    have hle : 2 ^ n ≤ 2 ^ 15 := Nat.pow_le_pow_right (by omega) hn
    rw [toNat_lowMask (by omega)]
    bv_omega
  rw [Geometry.csect, hmask, toNat_and_lowMask _ (by omega), BitVec.toNat_udiv, hpow]
  rfl

/-! ### The sectors of a chain -/

variable {l m : List ℕ} {q q' : ℕ}

theorem Geometry.DataSound.cell_mem (hd : g.DataSound) (hq : q < g.csize.toNat * l.length) :
    q / g.csize.toNat < l.length ∧ l.getD (q / g.csize.toNat) 0 ∈ l := by
  have hlt : q / g.csize.toNat < l.length :=
    (Nat.div_lt_iff_lt_mul hd.csize_pos).mpr (by rwa [Nat.mul_comm])
  refine ⟨hlt, ?_⟩
  rw [List.getD_eq_getElem _ _ hlt]
  exact List.getElem_mem hlt

/-- Two sectors are the same only if the clusters are, and the places in them. -/
theorem Geometry.DataSound.place_cells (hd : g.DataSound) (hl : ∀ c ∈ l, c ∈ g.clusters)
    (hm : ∀ c ∈ m, c ∈ g.clusters) (hq : q < g.csize.toNat * l.length)
    (hq' : q' < g.csize.toNat * m.length) (h : g.place l q = g.place m q') :
    l.getD (q / g.csize.toNat) 0 = m.getD (q' / g.csize.toNat) 0 ∧
      q % g.csize.toNat = q' % g.csize.toNat :=
  hd.dataSect_inj (hl _ (hd.cell_mem hq).2) (hm _ (hd.cell_mem hq').2)
    (Nat.mod_lt _ hd.csize_pos) (Nat.mod_lt _ hd.csize_pos) h

theorem Geometry.DataSound.place_inj (hd : g.DataSound) (hl : ∀ c ∈ l, c ∈ g.clusters)
    (hnd : l.Nodup) (hq : q < g.csize.toNat * l.length) (hq' : q' < g.csize.toNat * l.length)
    (h : g.place l q = g.place l q') : q = q' := by
  obtain ⟨hcell, hmod⟩ := hd.place_cells hl hl hq hq' h
  have h1 := (hd.cell_mem hq).1
  have h2 := (hd.cell_mem hq').1
  rw [List.getD_eq_getElem _ _ h1, List.getD_eq_getElem _ _ h2] at hcell
  have hdiv := (List.Nodup.getElem_inj_iff hnd).mp hcell
  rw [← Nat.div_add_mod q g.csize.toNat, hdiv, hmod, Nat.div_add_mod]

theorem Geometry.DataSound.add_div_mod (hd : g.DataSound) {j : ℕ}
    (hj : q % g.csize.toNat + j < g.csize.toNat) : (q + j) / g.csize.toNat = q / g.csize.toNat ∧
      (q + j) % g.csize.toNat = q % g.csize.toNat + j := by
  have hsum : q + j = g.csize.toNat * (q / g.csize.toNat) + (q % g.csize.toNat + j) := by
    have := Nat.div_add_mod q g.csize.toNat
    omega
  constructor
  · rw [hsum, Nat.mul_add_div hd.csize_pos, Nat.div_eq_of_lt hj, Nat.add_zero]
  · rw [hsum, Nat.mul_add_mod, Nat.mod_eq_of_lt hj]

/-- The other sectors of a cluster are also in the chain. -/
theorem Geometry.DataSound.add_lt (hd : g.DataSound) (hq : q < g.csize.toNat * l.length) {j : ℕ}
    (hj : q % g.csize.toNat + j < g.csize.toNat) : q + j < g.csize.toNat * l.length := by
  have hcell := (hd.cell_mem hq).1
  rw [← (hd.add_div_mod hj).1] at hcell
  rw [Nat.mul_comm]
  exact (Nat.div_lt_iff_lt_mul hd.csize_pos).mp hcell

/-- The sectors of a cluster are in a row. -/
theorem Geometry.DataSound.place_add (hd : g.DataSound) {j : ℕ}
    (hj : q % g.csize.toNat + j < g.csize.toNat) :
    g.place l (q + j) = g.place l q + BitVec.ofNat 32 j := by
  obtain ⟨hdiv, hmod⟩ := hd.add_div_mod hj
  rw [Geometry.place, Geometry.place, hdiv, hmod, Geometry.dataSect, Geometry.dataSect,
    ← BitVec.ofNat_add, Nat.add_assoc (_ + _) (q % _) j]

theorem place_extend (hd : g.DataSound) (hq : q < g.csize.toNat * l.length) :
    g.place (l ++ m) q = g.place l q := by
  have hlt := (hd.cell_mem hq).1
  unfold Geometry.place
  rw [List.getD_append _ _ _ _ hlt]

/-- Where the pointer's sector is, from the number of its cluster. -/
theorem Geometry.DataSound.sect_eq (hd : g.DataSound) (hg : g.FatSound)
    (hl : ∀ c ∈ l, c ∈ g.clusters) {p : U32}
    (hc : l[p.toNat / 512 / g.csize.toNat]? = some clst.toNat) :
    clst2sect g clst ≠ 0#32 ∧ clst2sect g clst + g.csect p = g.place l (p.toNat / 512) := by
  have hmem := hl _ (List.mem_of_getElem? hc)
  obtain ⟨heq, hne⟩ := hd.clst2sect_eq hg hmem
  refine ⟨hne, ?_⟩
  have hcs : g.csect p = BitVec.ofNat 32 (p.toNat / 512 % g.csize.toNat) := by
    refine BitVec.eq_of_toNat_eq ?_
    rw [← hd.toNat_csect p, BitVec.ofNat_toNat, BitVec.setWidth_eq]
  rw [heq, hcs, Geometry.place, List.getD_eq_getElem?_getD, hc, Geometry.dataSect,
    Geometry.dataSect, ← BitVec.ofNat_add, Nat.add_zero]
  rfl

end Places

end GamingConsole
