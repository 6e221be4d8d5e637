/-
`f_lseek`.

The clusters up to the place are followed, and in a file that may be written new ones are taken
behind the last.  The file becomes longer then, and what the new bytes are is not known: nothing
is written to the clusters.

* `seekStart_spec`, `seekLoop_spec` — the way to the cluster;
* `seekSector_spec`, `seekEnd_spec` — the sector, and the buffer;
* `fLseek_spec` — where the pointer is, and when it is not where it was to be.
-/
import GamingConsole.FatWrite

namespace GamingConsole

open LinkTable CellFile BitFields

variable {ι : Type} [DecidableEq ι] {s : FileSys ι} {f : ι → List ℕ} {lost : Set ℕ}
  {files : ι → File U8} {i : ι}

/-! ### The size of a cluster -/

theorem toNat_bcs (g : Geometry) : g.bcs.toNat = 512 * g.csize.toNat := by
  have hlt := g.csize.isLt
  rw [Geometry.bcs, BitVec.toNat_mul, toNat_csize]
  show g.csize.toNat * 512 % 2 ^ 32 = _
  omega

theorem bcs_mul_mod (g : Geometry) (n : ℕ) : g.bcs.toNat * n % 512 = 0 := by
  rw [toNat_bcs, Nat.mul_assoc, Nat.mul_mod_right]

theorem toNat_pred {p : U32} (hp : p ≠ 0#32) : (p - 1#32).toNat = p.toNat - 1 := by
  have hpos : 1 ≤ p.toNat := Nat.pos_of_ne_zero fun h => hp (BitVec.eq_of_toNat_eq h)
  have hone : 1#32 ≤ p := BitVec.le_def.mpr hpos
  rw [BitVec.toNat_sub_of_le hone]
  rfl

/-- The cluster of the byte before `p`. -/
theorem pred_div_bcs (g : Geometry) {p : U32} (hp : p ≠ 0#32) :
    ((p - 1#32) / g.bcs).toNat = (p.toNat - 1) / 512 / g.csize.toNat := by
  rw [BitVec.toNat_udiv, toNat_bcs, Nat.div_div_eq_div_mul, toNat_pred hp]

/-- Where the cluster starts. -/
theorem Geometry.DataSound.toNat_clustStart {g : Geometry} (hd : g.DataSound) (p : U32) :
    (p &&& ~~~(g.bcs - 1#32)).toNat = g.bcs.toNat * (p / g.bcs).toNat := by
  obtain ⟨n, hn, hpow⟩ := hd.pow
  have hbcs : g.bcs.toNat = 2 ^ (9 + n) := by
    rw [toNat_bcs, hpow, Nat.pow_add]
  have hmask : g.bcs - 1#32 = lowMask 32 (9 + n) := by
    refine BitVec.eq_of_toNat_eq ?_
    have hpos := Nat.two_pow_pos (9 + n)
    rw [toNat_lowMask (by omega), ← hbcs]
    bv_omega
  rw [hmask, toNat_and_highMask _ (by omega), BitVec.toNat_udiv, hbcs, Nat.mul_comm]

theorem Geometry.DataSound.bcs_pos {g : Geometry} (hd : g.DataSound) : 0 < g.bcs.toNat := by
  have := hd.csize_pos
  have := toNat_bcs g
  omega

/-! ### On the way -/

/-- The volume and the file object of a call that is not over. -/
structure FileSys.During (s : FileSys ι) (i : ι) (f : ι → List ℕ) (lost : Set ℕ)
    (files : ι → File U8) (v' : Volume) (fp : Fil) (f' : ι → List ℕ) : Prop where
  data : (s.set i v' fp).Data f' lost files
  geometry : v'.toGeometry = s.vol.toGeometry
  others : ∀ j, j ≠ i → f' j = f j
  handle : fp.toHandle = (s.fil i).toHandle

variable {v' v'' : Volume} {fp fp' : Fil} {f' f'' : ι → List ℕ}

theorem FileSys.During.trans (h : s.During i f lost files v' fp f')
    (h' : (s.set i v' fp).During i f' lost files v'' fp' f'') :
    s.During i f lost files v'' fp' f'' := by
  obtain ⟨hdata, hgeo, hf, hhandle⟩ := h'
  rw [s.set_set] at hdata
  rw [s.set_fil] at hhandle
  exact ⟨hdata, hgeo.trans h.geometry, fun j hj => (hf j hj).trans (h.others j hj),
    hhandle.trans h.handle⟩

/-- Other fields of the file object are changed. -/
theorem FileSys.Data.during (h : s.Data f lost files) (fp : Fil)
    (hstart : fp.sclust = (s.fil i).sclust) (hsize : fp.objsize = (s.fil i).objsize)
    (hdirty : fp.dirty = (s.fil i).dirty) (hsect : fp.sect = (s.fil i).sect)
    (hbuf : fp.buf = (s.fil i).buf) (hhandle : fp.toHandle = (s.fil i).toHandle) :
    s.During i f lost files s.vol fp f := by
  refine ⟨?_, rfl, fun _ _ => rfl, hhandle⟩
  rw [← Function.update_eq_self i files]
  exact h.with_fil hstart ((h.stores i).of_fields hsize hdirty hsect hbuf)

/-- The first cluster of the way. -/
theorem seekStart_spec (h : s.Inv f lost files) {ofs : U32} (hofs : ofs ≠ 0#32) :
    ∃ clst left fp v' f', seekStart s.vol (s.fil i) (s.fil i).fptr ofs =
        some (.ok (clst, left), fp, v') ∧ s.During i f lost files v' fp f' ∧
      (clst = 0#32 ∧ fp.fptr = 0#32 ∧ (files i).size = 0 ∧ s.vol.Full f' lost ∨
        clst ≠ 0#32 ∧ clst = fp.clust ∧ 0 < left.toNat ∧
          fp.fptr.toNat + left.toNat = ofs.toNat ∧
          ∃ n, fp.fptr.toNat = s.vol.bcs.toNat * n ∧ (f' i)[n]? = some clst.toNat) := by
  have hp := h.points i
  have hst := h.stores i
  have hb := h.sound.bcs_pos
  obtain ⟨hcells, -⟩ := h.cells i
  have hpos : 0 < ofs.toNat := Nat.pos_of_ne_zero fun hz => hofs (BitVec.eq_of_toNat_eq hz)
  unfold seekStart
  by_cases hnear : 0#32 < (s.fil i).fptr ∧
    ((s.fil i).fptr - 1#32) / s.vol.bcs ≤ (ofs - 1#32) / s.vol.bcs
  · rw [if_pos hnear]
    -- from the cluster of the pointer
    have hne : (s.fil i).fptr ≠ 0#32 := by
      intro h0
      rw [h0] at hnear
      exact absurd hnear.1 (by decide)
    have hin := hp.clust (by rw [hp.ptr]; exact BitVec.lt_def.mp hnear.1)
    have hidx := pred_div_bcs s.vol.toGeometry hne
    have hstart := h.sound.toNat_clustStart ((s.fil i).fptr - 1#32)
    rw [hidx, ← hp.ptr] at hstart
    have hle := BitVec.le_def.mp hnear.2
    rw [hidx, BitVec.toNat_udiv, ← hp.ptr] at hle
    have hlow := Nat.div_mul_le_self (ofs - 1#32).toNat s.vol.bcs.toNat
    have hsub := toNat_pred hofs
    have hmul := Nat.mul_le_mul_left s.vol.bcs.toNat hle
    rw [Nat.mul_comm] at hlow
    have hclust := (h.clust_bounds (hcells _ (List.mem_of_getElem? hin))).1
    generalize ((files i).ptr - 1) / 512 / s.vol.csize.toNat = n at hin hstart hmul
    generalize (s.fil i).fptr - 1#32 &&& ~~~(s.vol.bcs - 1#32) = start at hstart ⊢
    have hleft : (ofs - start).toNat = ofs.toNat - start.toNat :=
      BitVec.toNat_sub_of_le (BitVec.le_def.mpr (by omega))
    refine ⟨_, _, _, _, f, rfl, h.toData.during _ rfl rfl rfl rfl rfl rfl, Or.inr ⟨?_, rfl,
      by omega, ?_, n, hstart, hin⟩⟩
    · exact (ne_of_clust hclust).1
    · show start.toNat + _ = _
      omega
  · rw [if_neg hnear]
    by_cases hs : (s.fil i).sclust = 0#32
    · rw [if_pos hs]
      -- there is no cluster yet
      have hnil := h.owns.eq_nil_iff.mpr hs
      have hsize : (files i).size = 0 := by
        have hroom := hst.room
        rw [hnil] at hroom
        exact Nat.le_zero.mp hroom
      obtain ⟨r, v', hchain, hgeo, hres⟩ := h.extend (i := i) (n := 0) (Or.inl ⟨rfl, hnil, rfl⟩)
      rw [hchain]
      rcases hres with ⟨rfl, -, hdata, hfull⟩ | ⟨f', hr, hf, hclust, hdata⟩
      · obtain ⟨hdata', -, -, -⟩ := hdata.during (i := i) { s.fil i with
          fptr := 0#32, sclust := 0#32, clust := 0#32 } hs.symm rfl rfl rfl rfl rfl
        exact ⟨_, _, _, v', f, rfl, ⟨hdata', hgeo, fun _ _ => rfl, rfl⟩,
          Or.inl ⟨rfl, rfl, hsize, hfull⟩⟩
      · obtain ⟨hb1, -, hb3, -⟩ := h.clust_bounds hr
        obtain ⟨h0, h1⟩ := ne_of_clust hb1
        refine ⟨r, ofs, _, v', f', ?_, ⟨hdata { s.fil i with
          fptr := 0#32, sclust := r, clust := r } (if_pos rfl).symm
            fun hst => hst.of_fields rfl rfl rfl rfl, hgeo, hf, rfl⟩,
          Or.inr ⟨h0, rfl, hpos, Nat.zero_add _, 0, rfl, hclust⟩⟩
        simp only [Option.map_some, if_neg h1, if_neg hb3]
    · rw [if_neg hs]
      -- from the first cluster
      obtain ⟨c, t, hf⟩ := List.exists_cons_of_ne_nil fun hnil => hs (h.owns.eq_nil_iff.mp hnil)
      have hhead := h.owns.heads i
      change (f i).headD 0 = (s.fil i).sclust.toNat at hhead
      rw [hf] at hhead
      exact ⟨_, _, _, _, f, rfl, h.toData.during _ rfl rfl rfl rfl rfl rfl,
        Or.inr ⟨hs, rfl, hpos, Nat.zero_add _, 0, rfl, by rw [hf, ← hhead]; rfl⟩⟩

/-- One more cluster: the next one is found, or made, or none is free. -/
theorem seekNext_spec (h : s.Data f lost files) {clst : U32} {n : ℕ}
    (hn : (f i)[n]? = some clst.toNat)
    (hw : (s.fil i).write = true ∨ s.vol.bcs.toNat * (n + 1) < (files i).size) :
    ∃ r v', (if (s.fil i).write then createChain s.vol clst else some (getFat s.vol clst)) =
        some (r, v') ∧
      ((s.fil i).write = true ∧ r = 0#32 ∧ n + 1 = (f i).length ∧ s.vol.Full f lost ∧
        s.During i f lost files v' (s.fil i) f ∨
        ∃ f', r.toNat ∈ s.vol.clusters ∧ (f' i)[n + 1]? = some r.toNat ∧
          s.During i f lost files v' { s.fil i with clust := r } f') := by
  have hmem := (h.cells i).1 _ (List.mem_of_getElem? hn)
  by_cases hwrite : (s.fil i).write = true
  · rw [if_pos hwrite]
    obtain ⟨r, v', hchain, hgeo, hres⟩ := h.extend (i := i) (n := n + 1) (Or.inr ⟨n, rfl, hn⟩)
    refine ⟨r, v', hchain, ?_⟩
    rcases hres with ⟨rfl, hlen, hdata, hfull⟩ | ⟨f', hr, hf, hclust, hdata⟩
    · obtain ⟨hdata', -, -, -⟩ := hdata.during (i := i) _ rfl rfl rfl rfl rfl rfl
      exact Or.inl ⟨hwrite, rfl, hlen, hfull, hdata', hgeo, fun _ _ => rfl, rfl⟩
    · have h0 : clst ≠ 0#32 := (ne_of_clust (h.clust_bounds hmem).1).1
      exact Or.inr ⟨f', hr, hclust, hdata _ (if_neg h0).symm fun hst =>
        hst.of_fields rfl rfl rfl rfl, hgeo, hf, rfl⟩
  · rw [if_neg hwrite]
    have hsize := hw.resolve_left hwrite
    obtain ⟨hsets, hres, -⟩ := h.getFat_cell hmem
    refine ⟨(getFat s.vol clst).1, (getFat s.vol clst).2, rfl, Or.inr ⟨f, ?_⟩⟩
    obtain ⟨hdata, -, -, -⟩ := (h.of_sets hsets).during (i := i)
      { s.fil i with clust := (getFat s.vol clst).1 } rfl rfl rfl rfl rfl rfl
    rcases (h.owns.allocated.chain i).next_cases hn with ⟨hin, hnext⟩ | ⟨-, hend⟩
    · change s.vol.entry clst.toNat ∈ s.vol.clusters at hin
      change (f i)[n + 1]? = some (s.vol.entry clst.toNat) at hnext
      rw [hres]
      exact ⟨hin, hnext, hdata, hsets.geometry, fun _ _ => rfl, rfl⟩
    · -- the file would be longer than its chain
      have hroom := (h.stores i).room
      have hbcs := toNat_bcs s.vol.toGeometry
      rw [← hend, ← Nat.mul_assoc, ← hbcs] at hroom
      omega

/-- The clusters up to the place. -/
theorem seekLoop_spec (fuel : ℕ) {clst ofs : U32} {n : ℕ} (h : s.Data f lost files)
    (hfuel : ofs.toNat < fuel) (hpos : 0 < ofs.toNat) (hclust : clst = (s.fil i).clust)
    (hptr : (s.fil i).fptr.toNat = s.vol.bcs.toNat * n) (hn : (f i)[n]? = some clst.toNat)
    (hover : (s.fil i).fptr.toNat + ofs.toNat < 2 ^ 32)
    (hw : (s.fil i).write = true ∨ (s.fil i).fptr.toNat + ofs.toNat ≤ (files i).size) :
    ∃ clst' left fp v' f' m, seekLoop fuel s.vol (s.fil i) clst ofs =
        some (.ok (clst', left), fp, v') ∧ s.During i f lost files v' fp f' ∧
      (f' i)[m]? = some fp.clust.toNat ∧ fp.fptr.toNat % 512 = 0 ∧
      s.vol.bcs.toNat * m < fp.fptr.toNat + left.toNat ∧
      fp.fptr.toNat + left.toNat ≤ s.vol.bcs.toNat * (m + 1) ∧
      fp.fptr.toNat + left.toNat ≤ (s.fil i).fptr.toNat + ofs.toNat ∧
      (fp.fptr.toNat + left.toNat < (s.fil i).fptr.toNat + ofs.toNat →
        m + 1 = (f' i).length ∧ fp.fptr.toNat + left.toNat = s.vol.bcs.toNat * (m + 1) ∧
          s.vol.Full f' lost) ∧
      (left.toNat % 512 ≠ 0 → clst' = fp.clust ∧ fp.fptr.toNat = s.vol.bcs.toNat * m) := by
  induction fuel generalizing s f clst ofs n with
  | zero => exact absurd hfuel (Nat.not_lt_zero _)
  | succ fuel ih =>
    have hb := h.sound.bcs_pos
    have hnext : s.vol.bcs.toNat * (n + 1) = s.vol.bcs.toNat * n + s.vol.bcs.toNat :=
      Nat.mul_succ _ _
    unfold seekLoop
    by_cases hlt : s.vol.bcs < ofs
    · rw [if_pos hlt]
      have hlt' := BitVec.lt_def.mp hlt
      have hleft : (ofs - s.vol.bcs).toNat = ofs.toNat - s.vol.bcs.toNat :=
        BitVec.toNat_sub_of_le (BitVec.le_def.mpr hlt'.le)
      have hadv : ((s.fil i).fptr + s.vol.bcs).toNat = s.vol.bcs.toNat * (n + 1) := by
        rw [BitVec.toNat_add, hptr, hnext]
        exact Nat.mod_eq_of_lt (by omega)
      obtain ⟨r, v₁, hget, hres⟩ := seekNext_spec h hn (hw.imp_right fun hle => by omega)
      simp only
      rw [hget]
      simp only
      rcases hres with ⟨hwrite, rfl, hlen, hfull, hdur⟩ | ⟨f₁, hr, hclust₁, hdur⟩
      · -- none is free: the way ends behind the last cluster
        rw [if_pos ⟨hwrite, rfl⟩]
        have hzero : (0#32 : U32).toNat = 0 := rfl
        refine ⟨0#32, 0#32, { s.fil i with fptr := (s.fil i).fptr + s.vol.bcs }, v₁, f, n, rfl,
          ?_, ?_, ?_, ?_, ?_, ?_, fun _ => ⟨hlen, ?_, hfull⟩, fun hne => absurd rfl hne⟩
        · refine hdur.trans ?_
          have hmore := hdur.data.during (i := i)
            { s.fil i with fptr := (s.fil i).fptr + s.vol.bcs }
          rw [s.set_fil, s.set_vol] at hmore
          exact hmore rfl rfl rfl rfl rfl rfl
        · exact hclust ▸ hn
        · show ((s.fil i).fptr + s.vol.bcs).toNat % 512 = 0
          rw [hadv]
          exact bcs_mul_mod _ _
        · show _ < ((s.fil i).fptr + s.vol.bcs).toNat + _
          omega
        · show ((s.fil i).fptr + s.vol.bcs).toNat + _ ≤ _
          omega
        · show ((s.fil i).fptr + s.vol.bcs).toNat + _ ≤ _
          omega
        · show ((s.fil i).fptr + s.vol.bcs).toNat + _ = _
          omega
      · -- one cluster further
        obtain ⟨hb1, hb2, hb3, hb4⟩ := h.clust_bounds hr
        rw [if_neg fun h0 => (ne_of_clust hb1).1 h0.2, if_neg hb3, hdur.geometry,
          if_neg (not_or.mpr ⟨hb2, hb4⟩)]
        have hmore := hdur.data.during (i := i)
          { s.fil i with fptr := (s.fil i).fptr + s.vol.bcs, clust := r }
        rw [s.set_fil, s.set_vol] at hmore
        have hdur' := hdur.trans (hmore rfl rfl rfl rfl rfl rfl)
        have hsame : v₁.bcs = s.vol.bcs := congrArg Geometry.bcs hdur.geometry
        have hptr' : ((s.set i v₁ { s.fil i with
            fptr := (s.fil i).fptr + s.vol.bcs, clust := r }).fil i).fptr.toNat =
              s.vol.bcs.toNat * (n + 1) := by
          rw [s.set_fil]
          exact hadv
        have hsum : s.vol.bcs.toNat * (n + 1) + (ofs - s.vol.bcs).toNat =
            (s.fil i).fptr.toNat + ofs.toNat := by omega
        have hrun := ih hdur'.data (show (ofs - s.vol.bcs).toNat < fuel by omega) (by omega)
          (by rw [s.set_fil]) (by rw [s.set_vol, hsame]; exact hptr') hclust₁
        rw [hptr', hsum, s.set_fil, s.set_vol, hsame, hdur.geometry] at hrun
        obtain ⟨clst', left, fp, v', f', m, hloop, hd, hrest⟩ := hrun hover hw
        exact ⟨clst', left, fp, v', f', m, hloop, hdur'.trans hd, hrest⟩
    · rw [if_neg hlt]
      have hle := BitVec.le_def.mp (BitVec.not_lt.mp hlt)
      refine ⟨clst, ofs, s.fil i, s.vol, f, n, rfl, h.during _ rfl rfl rfl rfl rfl rfl,
        hclust ▸ hn, hptr ▸ bcs_mul_mod _ n, by omega, by omega, Nat.le_refl _,
        fun hlt => absurd hlt (Nat.lt_irrefl _), fun _ => ⟨hclust, hptr⟩⟩

/-! ### The sector -/

/-- The sector of the place, if the place is inside of one. -/
theorem seekSector_spec {g : Geometry} (hd : g.DataSound) (hg : g.FatSound) {l : List ℕ}
    (hl : ∀ c ∈ l, c ∈ g.clusters) {v : Volume} (hv : v.toGeometry = g) {fp : Fil} {clst left : U32}
    {m : ℕ} (hm : l[m]? = some fp.clust.toNat) (hmod : fp.fptr.toNat % 512 = 0)
    (hhigh : fp.fptr.toNat + left.toNat ≤ g.bcs.toNat * (m + 1))
    (hover : fp.fptr.toNat + left.toNat < 2 ^ 32)
    (hclust : left.toNat % 512 ≠ 0 → clst = fp.clust ∧ fp.fptr.toNat = g.bcs.toNat * m) :
    ∃ nsect, seekSector v fp clst left = (.ok nsect, { fp with fptr := fp.fptr + left }) ∧
      (fp.fptr + left).toNat = fp.fptr.toNat + left.toNat ∧
      ((fp.fptr + left).toNat % 512 ≠ 0 → nsect = g.place l ((fp.fptr + left).toNat / 512)) := by
  have hsum : (fp.fptr + left).toNat = fp.fptr.toNat + left.toNat := by
    rw [BitVec.toNat_add]
    exact Nat.mod_eq_of_lt hover
  have hleft := toNat_mod_sector left
  unfold seekSector
  simp only
  by_cases h0 : left % 512#32 = 0#32
  · rw [if_neg (not_not.mpr h0)]
    refine ⟨0#32, rfl, hsum, fun hne => absurd ?_ hne⟩
    rw [h0] at hleft
    change 0 = _ at hleft
    omega
  · rw [if_pos h0]
    have hne : left.toNat % 512 ≠ 0 := fun hz => h0 (BitVec.eq_of_toNat_eq (hleft.trans hz))
    obtain ⟨hcl, hstart⟩ := hclust hne
    have hbcs := toNat_bcs g
    have hnext : g.bcs.toNat * (m + 1) = g.bcs.toNat * m + g.bcs.toNat := Nat.mul_succ _ _
    have hlt : left.toNat / 512 < g.csize.toNat := by omega
    have hdiv : (fp.fptr + left).toNat / 512 = g.csize.toNat * m + left.toNat / 512 := by
      have hmul : g.bcs.toNat * m = 512 * (g.csize.toNat * m) := by rw [hbcs, Nat.mul_assoc]
      omega
    have hidx : (fp.fptr + left).toNat / 512 / g.csize.toNat = m := by
      rw [hdiv, Nat.mul_add_div hd.csize_pos, Nat.div_eq_of_lt hlt, Nat.add_zero]
    have hcs : g.csect (fp.fptr + left) = left / 512#32 := by
      refine BitVec.eq_of_toNat_eq ?_
      rw [hd.toNat_csect, hdiv, Nat.mul_add_mod, Nat.mod_eq_of_lt hlt, BitVec.toNat_udiv]
      rfl
    obtain ⟨hsect, hplace⟩ := hd.sect_eq hg hl (show
      l[(fp.fptr + left).toNat / 512 / g.csize.toNat]? = some clst.toNat by rw [hidx, hcl, hm])
    rw [hcs] at hplace
    rw [hv, if_neg hsect]
    exact ⟨_, rfl, hsum, fun _ => hplace⟩

/-! ### The end -/

/-- The file is longer, and what is behind its old end is not known. -/
theorem Fil.Stores.grown {g : Geometry} {mem : U32 → Sector} {fp fp' : Fil} {l : List ℕ}
    {F : File U8} (h : fp.Stores g mem l F) {n : ℕ} (hroom : n ≤ 512 * (g.csize.toNat * l.length))
    (hsize : fp'.objsize.toNat = max F.size n) (hdirty : fp'.dirty = fp.dirty)
    (hsect : fp'.sect = fp.sect) (hbuf : fp'.buf = fp.buf) :
    fp'.Stores g mem l (F.grown n) := by
  have hdata : ∀ o b, (F.grown n).data o = some b → o < F.size ∧ F.data o = some b := by
    intro o b hb
    change (if o < F.size then F.data o else none) = some b at hb
    split_ifs at hb with ho
    exact ⟨ho, hb⟩
  refine ⟨hsize.symm, max_le h.room hroom, ?_, ?_, ?_⟩
  · rw [hdirty, hsect]
    exact h.dirty
  · rw [hsect, hbuf]
    exact fun o b _ hb => h.buffered o b (hdata o b hb).1 (hdata o b hb).2
  · rw [hdirty, hsect]
    exact fun o b _ hb => h.stored o b (hdata o b hb).1 (hdata o b hb).2

theorem seekEnd_spec (h : s.Inv f lost files) (hdur : s.During i f lost files v' fp f')
    {nsect : U32}
    (hroom : fp.fptr.toNat ≤ 512 * (s.vol.csize.toNat * (f' i).length))
    (hclust : 0 < fp.fptr.toNat →
      (f' i)[(fp.fptr.toNat - 1) / 512 / s.vol.csize.toNat]? = some fp.clust.toNat)
    (hsect : fp.fptr.toNat % 512 ≠ 0 → nsect = s.vol.place (f' i) (fp.fptr.toNat / 512)) :
    ∃ fp' v'', seekEnd v' fp nsect = (.ok, fp', v'') ∧
      fp'.toHandle = (s.fil i).toHandle ∧ v''.toGeometry = s.vol.toGeometry ∧
      (s.set i v'' fp').Inv f' lost (Function.update files i
        (((files i).grown fp.fptr.toNat).moved fp.fptr.toNat)) := by
  obtain ⟨hdata, hgeo, hf, hhandle⟩ := hdur
  have hst := hdata.stores i
  rw [s.set_fil, s.set_vol, hgeo] at hst
  generalize hp : fp.fptr.toNat = p at hroom hclust hsect ⊢
  -- the size
  obtain ⟨fp₁, hfp₁⟩ : ∃ fp₁, fp₁ = (if fp.objsize < fp.fptr then
    { fp with objsize := fp.fptr, modified := true } else fp) := ⟨_, rfl⟩
  have hfields : fp₁.toHandle = fp.toHandle ∧ fp₁.sclust = fp.sclust ∧ fp₁.fptr = fp.fptr ∧
      fp₁.clust = fp.clust ∧ fp₁.dirty = fp.dirty ∧ fp₁.sect = fp.sect ∧ fp₁.buf = fp.buf ∧
      fp₁.objsize.toNat = max (files i).size p := by
    have hsize := hst.size
    rw [hfp₁]
    split_ifs with hlt
    · have := BitVec.lt_def.mp hlt
      exact ⟨rfl, rfl, rfl, rfl, rfl, rfl, rfl, by show fp.fptr.toNat = _; omega⟩
    · have := BitVec.le_def.mp (BitVec.not_lt.mp hlt)
      exact ⟨rfl, rfl, rfl, rfl, rfl, rfl, rfl, by omega⟩
  obtain ⟨hh, hstart, hfptr, hcl, hdirty, hsec, hbuf, hsize⟩ := hfields
  have hst₁ := (hst.grown hroom hsize hdirty hsec hbuf).moved p
  have hdata₁ := hdata.again v'.drive.transfers hstart (hgeo ▸ hst₁)
  change (s.set i v' fp₁).Data f' lost _ at hdata₁
  have hpts : ∀ fp' : Fil, fp'.fptr = fp.fptr → fp'.clust = fp.clust →
      (p % 512 ≠ 0 → fp'.sect = s.vol.place (f' i) (p / 512)) → fp'.Points s.vol.toGeometry (f' i)
        (((files i).grown p).moved p) := by
    intro fp' h1 h2 h3
    refine ⟨?_, Nat.le_max_right _ _, fun hpos => ?_, h3⟩
    · rw [h1]
      exact hp.symm
    · rw [h2]
      exact hclust hpos
  have hmod := toNat_mod_sector fp.fptr
  rw [hp] at hmod
  unfold seekEnd
  simp only
  rw [← hfp₁, hfptr, hsec]
  by_cases hload : fp.fptr % 512#32 ≠ 0#32 ∧ nsect ≠ fp.sect
  · rw [if_pos hload]
    obtain ⟨v₂, hflush, hdata₂, hgeo₂⟩ := flushBuf_spec hdata₁ i
    rw [s.set_fil, s.set_vol] at hflush
    rw [s.set_fil, s.set_set] at hdata₂
    rw [hflush]
    simp only
    have hrel : v₂.drive.Reliable := hdata₂.reliable
    rw [fillBuf_reliable hrel]
    simp only
    have hst₂ := hdata₂.stores i
    rw [s.set_fil] at hst₂
    have hst₃ := hst₂.loaded rfl nsect
    have hdata₃ := hdata₂.again (v₂.drive.transfers + 1) (by rfl) hst₃
    rw [Function.update_idem, Function.update_self] at hdata₃
    refine ⟨_, _, rfl, hh.trans hhandle, hgeo₂.trans hgeo, h.of_data hdata₃ (hgeo₂.trans hgeo) hf
      (hh.trans hhandle) (hpts _ hfptr hcl fun hne => hsect hne)⟩
  · rw [if_neg hload]
    refine ⟨fp₁, v', rfl, hh.trans hhandle, hgeo, h.of_data hdata₁ hgeo hf (hh.trans hhandle)
      (hpts _ hfptr hcl fun hne => ?_)⟩
    have hin : fp.fptr % 512#32 ≠ 0#32 := by
      intro h0
      rw [h0] at hmod
      exact hne hmod.symm
    rw [hsec, ← not_not.mp fun hns => hload ⟨hin, hns⟩]
    exact hsect hne

/-- The place that `n` bytes are before has been reached, or the end of the drive. -/
structure FileSys.Arrived (s : FileSys ι) (i : ι) (f : ι → List ℕ) (lost : Set ℕ)
    (files : ι → File U8) (n : ℕ) (v' : Volume) (fp : Fil) (f' : ι → List ℕ) (nsect : U32) :
    Prop where
  during : s.During i f lost files v' fp f'
  room : fp.fptr.toNat ≤ 512 * (s.vol.csize.toNat * (f' i).length)
  clust : 0 < fp.fptr.toNat →
    (f' i)[(fp.fptr.toNat - 1) / 512 / s.vol.csize.toNat]? = some fp.clust.toNat
  sect : fp.fptr.toNat % 512 ≠ 0 → nsect = s.vol.place (f' i) (fp.fptr.toNat / 512)
  le : fp.fptr.toNat ≤ n
  full : fp.fptr.toNat < n → (files i).size ≤ fp.fptr.toNat ∧ s.vol.Full f' lost

/-- What is left when the clusters are there. -/
theorem FileSys.Arrived.seekEnd {n : ℕ} {nsect : U32} (h : s.Inv f lost files)
    (ha : s.Arrived i f lost files n v' fp f' nsect) :
    ∃ fp' v'' f'' p, some (seekEnd v' fp nsect) = some (.ok, fp', v'') ∧ p ≤ n ∧
      (p < n → (files i).size ≤ p ∧ s.vol.Full f'' lost) ∧
      v''.toGeometry = s.vol.toGeometry ∧ fp'.toHandle = (s.fil i).toHandle ∧
      (∀ j, j ≠ i → f'' j = f j) ∧
      (s.set i v'' fp').Inv f'' lost
        (Function.update files i (((files i).grown p).moved p)) := by
  obtain ⟨fp', v'', hseek, hhandle, hgeo, hinv⟩ :=
    seekEnd_spec h ha.during ha.room ha.clust ha.sect
  exact ⟨fp', v'', f', _, congrArg some hseek, ha.le, ha.full, hgeo, hhandle, ha.during.others,
    hinv⟩

/-- From the first cluster of the way to the place. -/
theorem seek_arrived (h : s.Inv f lost files) (hdur : s.During i f lost files v' fp f')
    {clst left n : U32} (hclust : clst = fp.clust) (hpos : 0 < left.toNat)
    (hsum : fp.fptr.toNat + left.toNat = n.toNat)
    (hbound : (s.fil i).write = true ∨ n.toNat ≤ (files i).size) {m : ℕ}
    (hptr : fp.fptr.toNat = s.vol.bcs.toNat * m) (hm : (f' i)[m]? = some clst.toNat) :
    ∃ clst' left' fp' v'' f'' nsect fp'',
      seekLoop (left.toNat + 1) v' fp clst left = some (.ok (clst', left'), fp', v'') ∧
      seekSector v'' fp' clst' left' = (.ok nsect, fp'') ∧
      s.Arrived i f lost files n.toNat v'' fp'' f'' nsect := by
  have hmax := n.isLt
  have hsame : v'.bcs = s.vol.bcs := congrArg Geometry.bcs hdur.geometry
  have hw : fp.write = (s.fil i).write := congrArg Handle.write hdur.handle
  have hfil : (s.set i v' fp).fil i = fp := s.set_fil i v' fp
  have hrun := seekLoop_spec (i := i) (left.toNat + 1) hdur.data (Nat.lt_succ_self _) hpos
    (by rw [hfil]; exact hclust) (by rw [hfil, s.set_vol, hsame]; exact hptr) hm
  rw [hfil, s.set_vol, hsame, hsum, hw] at hrun
  obtain ⟨clst', left', fp', v'', f'', k, hloop, hdur', hk, hmod, hlow, hhigh, hle, hfull,
    hclust'⟩ := hrun hmax hbound
  have hdur'' := hdur.trans hdur'
  have hst := hdur''.data.stores i
  obtain ⟨hcells, -⟩ := hdur''.data.cells i
  rw [s.set_vol, hdur''.geometry] at hcells hst
  obtain ⟨nsect, hseek, hsum', hsect⟩ := seekSector_spec h.sound h.owns.sound hcells
    hdur''.geometry hk hmod hhigh (by omega) hclust'
  refine ⟨clst', left', fp', v'', f'', nsect, _, hloop, hseek, ?_⟩
  -- the place is in cluster `k`
  have hbcs := toNat_bcs s.vol.toGeometry
  have hroom : s.vol.bcs.toNat * (k + 1) ≤ 512 * (s.vol.csize.toNat * (f'' i).length) := by
    rw [hbcs, Nat.mul_assoc]
    exact Nat.mul_le_mul_left _ (Nat.mul_le_mul_left _ (List.getElem?_eq_some_iff.mp hk).1)
  have hidx : (fp'.fptr.toNat + left'.toNat - 1) / 512 / s.vol.csize.toNat = k := by
    rw [Nat.div_div_eq_div_mul, ← hbcs]
    have hnext : s.vol.bcs.toNat * (k + 1) = s.vol.bcs.toNat * k + s.vol.bcs.toNat :=
      Nat.mul_succ _ _
    rw [show fp'.fptr.toNat + left'.toNat - 1 = s.vol.bcs.toNat * k +
        (fp'.fptr.toNat + left'.toNat - 1 - s.vol.bcs.toNat * k) by omega,
      Nat.mul_add_div h.sound.bcs_pos, Nat.div_eq_of_lt (by omega), Nat.add_zero]
  have hmore := hdur''.data.during (i := i) { fp' with fptr := fp'.fptr + left' }
  rw [s.set_fil, s.set_vol] at hmore
  constructor
  case during => exact hdur''.trans (hmore rfl rfl rfl rfl rfl rfl)
  case room =>
    show (fp'.fptr + left').toNat ≤ _
    omega
  case clust =>
    intro _
    show (f'' i)[((fp'.fptr + left').toNat - 1) / 512 / s.vol.csize.toNat]? = _
    rw [hsum', hidx]
    exact hk
  case sect => exact hsect
  case le =>
    show (fp'.fptr + left').toNat ≤ _
    omega
  case full =>
    intro hlt
    change (fp'.fptr + left').toNat < _ at hlt
    show _ ≤ (fp'.fptr + left').toNat ∧ _
    obtain ⟨hlen, heq, hfull⟩ := hfull (by omega)
    have hsize := hst.room
    rw [← hlen, ← Nat.mul_assoc, ← hbcs] at hsize
    exact ⟨by omega, hdur.geometry ▸ hfull⟩

/-- **`f_lseek` moves the pointer**, to the end of a file that is only read if the place is
behind it.  A file that is written becomes longer, as far as there are free clusters. -/
theorem fLseek_spec (h : s.Inv f lost files) (ofs : U32) :
    ∃ fp v' f' p, fLseek s.vol (s.fil i) ofs = some (.ok, fp, v') ∧
      p ≤ (if (s.fil i).write then ofs.toNat else min ofs.toNat (files i).size) ∧
      (p < (if (s.fil i).write then ofs.toNat else min ofs.toNat (files i).size) →
        (files i).size ≤ p ∧ s.vol.Full f' lost) ∧
      v'.toGeometry = s.vol.toGeometry ∧ fp.toHandle = (s.fil i).toHandle ∧
      (∀ j, j ≠ i → f' j = f j) ∧
      (s.set i v' fp).Inv f' lost
        (Function.update files i (((files i).grown p).moved p)) := by
  obtain ⟨hvalid, herr⟩ := h.ready i
  unfold fLseek
  simp only [hvalid, herr, ne_eq, not_true_eq_false, if_false]
  -- a file that is only read ends where it does
  have hofs : (if (s.fil i).objsize < ofs ∧ ¬ (s.fil i).write = true then (s.fil i).objsize
      else ofs).toNat = if (s.fil i).write then ofs.toNat else min ofs.toNat (files i).size := by
    by_cases hw : (s.fil i).write = true
    · rw [if_neg fun hn => hn.2 hw, if_pos hw]
    · rw [if_neg hw, (h.stores i).size]
      split_ifs with hlt
      · have := BitVec.lt_def.mp hlt.1
        omega
      · have := BitVec.le_def.mp (BitVec.not_lt.mp fun hn => hlt ⟨hn, hw⟩)
        omega
  have hbound : (s.fil i).write = true ∨
      (if (s.fil i).write then ofs.toNat else min ofs.toNat (files i).size) ≤ (files i).size := by
    by_cases hw : (s.fil i).write = true
    · exact Or.inl hw
    · rw [if_neg hw]
      exact Or.inr (Nat.min_le_right _ _)
  rw [← hofs] at hbound ⊢
  generalize (if (s.fil i).objsize < ofs ∧ ¬ (s.fil i).write = true then (s.fil i).objsize
      else ofs) = n at hbound ⊢
  by_cases h0 : 0#32 < n
  · rw [if_pos h0]
    have hne : n ≠ 0#32 := by
      rintro rfl
      exact absurd h0 (by decide)
    obtain ⟨clst, left, fp, v', f', hstart, hdur, hres⟩ := seekStart_spec h (i := i) hne
    rw [hstart]
    simp only
    rcases hres with ⟨rfl, hptr, hsize, hfull⟩ | ⟨hc, hcl, hpos, hsum, m, hptr, hm⟩
    · -- there is no cluster at all
      rw [if_neg (by decide)]
      have hz : fp.fptr.toNat = 0 := by rw [hptr]; rfl
      exact FileSys.Arrived.seekEnd h ⟨hdur, by omega, fun hn => absurd hn (by omega),
        fun hn => absurd rfl (hz ▸ hn), by omega, fun _ => ⟨by omega, hfull⟩⟩
    · rw [if_pos hc]
      obtain ⟨clst', left', fp', v'', f'', nsect, fp'', hloop, hseek, harrived⟩ :=
        seek_arrived h hdur hcl hpos hsum hbound hptr hm
      rw [hloop]
      simp only
      rw [hseek]
      exact harrived.seekEnd h
  · rw [if_neg h0]
    exact FileSys.Arrived.seekEnd h ⟨h.toData.during _ rfl rfl rfl rfl rfl rfl, Nat.zero_le _,
      fun hn => absurd hn (Nat.lt_irrefl 0), fun hn => absurd rfl hn, Nat.zero_le _,
      fun hlt => absurd (BitVec.lt_def.mpr hlt) h0⟩

end GamingConsole
