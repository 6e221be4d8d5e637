/-
`f_read`.

What is read are the bytes at the pointer, wherever they are: on the drive, in the buffer, or
in a buffer that is not written back yet.

* `readTop_spec` — the cluster of the pointer;
* `fReadStep_spec` — one turn of the loop;
* `fRead_spec` — as many bytes as are asked for and are there.
-/
import GamingConsole.FatBuffer

namespace GamingConsole

open LinkTable CellFile

variable {ι : Type} [DecidableEq ι] {s : FileSys ι} {f : ι → List ℕ} {lost : Set ℕ}
  {files : ι → File U8} {i : ι}

/-! ### Files and their pointers -/

/-- The files that are open, with their pointers. -/
structure FileSys.Inv (s : FileSys ι) (f : ι → List ℕ) (lost : Set ℕ)
    (files : ι → File U8) : Prop extends FileSys.Data s f lost files where
  points : ∀ i, (s.fil i).Points s.vol.toGeometry (f i) (files i)
  ready : ∀ i, validate s.vol.toGeometry (s.fil i).toHandle = .ok ∧ (s.fil i).err = .ok

omit [DecidableEq ι] in
theorem FileSys.Data.cells (h : s.Data f lost files) (i : ι) :
    (∀ c ∈ f i, c ∈ s.vol.clusters) ∧ (f i).Nodup :=
  ⟨(h.owns.allocated.chain i).cells, (h.owns.allocated.chain i).nodup⟩

/-- The file object is changed alone. -/
theorem FileSys.Data.with_fil (h : s.Data f lost files) {fp : Fil} {F : File U8}
    (hstart : fp.sclust = (s.fil i).sclust)
    (hst : fp.Stores s.vol.toGeometry s.vol.drive.sectors (f i) F) :
    (s.set i s.vol fp).Data f lost (Function.update files i F) :=
  h.set_fil rfl rfl hstart hst

/-- After something was done to file `i` alone, the others are as they were. -/
theorem FileSys.Inv.of_data (h : s.Inv f lost files) {v' : Volume} {fp : Fil} {f' : ι → List ℕ}
    {F : File U8} (hdata : (s.set i v' fp).Data f' lost (Function.update files i F))
    (hgeo : v'.toGeometry = s.vol.toGeometry) (hf : ∀ j, j ≠ i → f' j = f j)
    (hhandle : fp.toHandle = (s.fil i).toHandle) (hp : fp.Points s.vol.toGeometry (f' i) F) :
    (s.set i v' fp).Inv f' lost (Function.update files i F) := by
  refine ⟨hdata, fun j => ?_, fun j => ?_⟩
  · show ((s.set i v' fp).fil j).Points v'.toGeometry _ _
    rw [hgeo]
    by_cases hj : j = i
    · rw [hj, s.set_fil, Function.update_self]
      exact hp
    · rw [s.set_fil_of_ne hj, Function.update_of_ne hj, hf j hj]
      exact h.points j
  · show validate v'.toGeometry _ = _ ∧ _
    rw [hgeo]
    by_cases hj : j = i
    · rw [hj, s.set_fil, hhandle]
      exact h.ready i
    · rw [s.set_fil_of_ne hj]
      exact h.ready j

/-! ### The cluster of the pointer -/

theorem pred_div_add {q n : ℕ} (hn : 0 < n) (hq : 0 < q) (h : q % n = 0) :
    (q - 1) / n + 1 = q / n := by
  have hsum := Nat.div_add_mod q n
  obtain ⟨m, hm⟩ : ∃ m, q / n = m + 1 := by
    cases hd : q / n with
    | zero =>
      rw [hd, h] at hsum
      omega
    | succ m => exact ⟨m, rfl⟩
  rw [hm, Nat.mul_succ, h] at hsum
  rw [hm, show q - 1 = n * m + (n - 1) by omega, Nat.mul_add_div hn,
    Nat.div_eq_of_lt (show n - 1 < n by omega)]

theorem pred_div {q n : ℕ} (hn : 0 < n) (h : q % n ≠ 0) : (q - 1) / n = q / n := by
  have hsum := Nat.div_add_mod q n
  have hlt := Nat.mod_lt q hn
  rw [show q - 1 = n * (q / n) + (q % n - 1) by omega, Nat.mul_add_div hn,
    Nat.div_eq_of_lt (show q % n - 1 < n by omega), Nat.add_zero]

omit [DecidableEq ι] in
/-- A cluster number is neither small nor the mark of a disk error. -/
theorem FileSys.Data.clust_bounds (h : s.Data f lost files) {clst : U32}
    (hc : clst.toNat ∈ s.vol.clusters) : ¬ clst < 2#32 ∧ ¬ clst ≤ 1#32 ∧ clst ≠ 0xFFFFFFFF#32 ∧
      ¬ s.vol.nFatent ≤ clst := by
  obtain ⟨-, hn, hend⟩ := h.owns.sound.nFatent_le
  have hmod : s.vol.fsType.modulus ≤ 2 ^ 28 := by
    cases s.vol.fsType <;> decide
  have h1 := hc.1
  have h2 := hc.2
  have h3 : s.vol.nFatent.toNat < 2 ^ 28 := (hn.trans_lt hend).trans_le hmod
  refine ⟨?_, ?_, ?_, ?_⟩
  · bv_omega
  · bv_omega
  · rintro rfl
    change 4294967295 < _ at h2
    omega
  · bv_omega

/-- Where the pointer is not at a cluster's start, the cluster is the one it was. -/
theorem Fil.Points.clust_inside {g : Geometry} (hd : g.DataSound) {fp : Fil} {l : List ℕ}
    {F : File U8} (hp : fp.Points g l F) (hq : F.ptr / 512 % g.csize.toNat ≠ 0) :
    l[F.ptr / 512 / g.csize.toNat]? = some fp.clust.toNat := by
  have hpos : 0 < F.ptr := by
    by_contra hz
    rw [show F.ptr = 0 by omega, Nat.zero_div, Nat.zero_mod] at hq
    exact hq rfl
  have hc := hp.clust hpos
  by_cases hmod : F.ptr % 512 = 0
  · rwa [show (F.ptr - 1) / 512 = F.ptr / 512 - 1 by omega, pred_div hd.csize_pos hq] at hc
  · rwa [show (F.ptr - 1) / 512 = F.ptr / 512 by omega] at hc

omit [DecidableEq ι] in
theorem FileSys.Data.csect_eq_zero (h : s.Data f lost files) (p : U32) :
    s.vol.csect p = 0#32 ↔ p.toNat / 512 % s.vol.csize.toNat = 0 := by
  rw [← h.sound.toNat_csect p]
  exact ⟨fun h0 => by rw [h0]; rfl, fun h0 => BitVec.eq_of_toNat_eq h0⟩

/-- The cluster of the pointer is found, at a cluster's start by way of the FAT. -/
theorem readTop_spec (h : s.Data f lost files)
    (hp : (s.fil i).Points s.vol.toGeometry (f i) (files i)) (hmod : (files i).ptr % 512 = 0)
    (hlt : (files i).ptr < (files i).size) :
    ∃ clst v', (if s.vol.csect (s.fil i).fptr = 0#32 then readClust s.vol (s.fil i)
        else (.ok (s.fil i), s.vol)) = (.ok { s.fil i with clust := clst }, v') ∧
      (f i)[(files i).ptr / 512 / s.vol.csize.toNat]? = some clst.toNat ∧
      v'.toGeometry = s.vol.toGeometry ∧
      (s.set i v' { s.fil i with clust := clst }).Data f lost files := by
  have hst := h.stores i
  have hroom := hst.room
  have hn := h.sound.csize_pos
  have hcells := (h.cells i).1
  have hupd : ∀ {v' : Volume} {clst : U32}, FileSys.Data ⟨v', s.fil⟩ f lost files →
      (s.set i v' { s.fil i with clust := clst }).Data f lost files := by
    intro v' clst hdata
    rw [← Function.update_eq_self i files]
    exact hdata.with_fil rfl ((hdata.stores i).of_fields rfl rfl rfl rfl)
  by_cases hcs : s.vol.csect (s.fil i).fptr = 0#32
  · rw [if_pos hcs, readClust]
    have hq := (h.csect_eq_zero _).mp hcs
    rw [← hp.ptr] at hq
    by_cases h0 : (s.fil i).fptr = 0#32
    · rw [if_pos h0]
      have hptr : (files i).ptr = 0 := by rw [hp.ptr, h0]; rfl
      -- a pointer that is not at the end is in a cluster
      have hne : f i ≠ [] := by
        intro hnil
        rw [hnil, List.length_nil] at hroom
        omega
      obtain ⟨c, t, hf⟩ := List.exists_cons_of_ne_nil hne
      have hhead : c = (s.fil i).sclust.toNat := by
        have := h.owns.heads i
        rw [hf] at this
        exact this
      obtain ⟨hb1, -, hb2, -⟩ := h.clust_bounds (hhead ▸ hcells c (by rw [hf]; simp))
      refine ⟨(s.fil i).sclust, s.vol, ?_, ?_, rfl, hupd h⟩
      · simp only [if_neg hb1, if_neg hb2]
      · rw [hptr, Nat.zero_div, hf, hhead]
        rfl
    · rw [if_neg h0]
      have hpos := hp.pos h0
      have hc := hp.clust hpos
      have hdiv : ((files i).ptr - 1) / 512 / s.vol.csize.toNat + 1 =
          (files i).ptr / 512 / s.vol.csize.toNat := by
        rw [show ((files i).ptr - 1) / 512 = (files i).ptr / 512 - 1 by omega]
        exact pred_div_add hn (by omega) hq
      have hin := hcells _ (List.mem_of_getElem? hc)
      obtain ⟨hsets, hres, -⟩ := h.getFat_cell hin
      have hdata := h.of_sets hsets
      rcases (h.owns.allocated.chain i).next_cases hc with ⟨hmem, hnext⟩ | ⟨-, hend⟩
      · change s.vol.entry (s.fil i).clust.toNat ∈ s.vol.clusters at hmem
        change (f i)[_ + 1]? = some (s.vol.entry (s.fil i).clust.toNat) at hnext
        rw [← hres] at hmem hnext
        obtain ⟨hb1, -, hb2, -⟩ := h.clust_bounds hmem
        refine ⟨(getFat s.vol (s.fil i).clust).1, (getFat s.vol (s.fil i).clust).2, ?_, ?_,
          hsets.geometry, hupd hdata⟩
        · simp only [if_neg hb1, if_neg hb2]
        · rw [← hdiv]
          exact hnext
      · -- the pointer would be behind the last cluster
        have hcell := (h.sound.cell_mem (hst.sector_lt hlt)).1
        omega
  · rw [if_neg hcs]
    refine ⟨(s.fil i).clust, s.vol, rfl, hp.clust_inside h.sound fun hq => hcs ?_, rfl, hupd h⟩
    rw [h.csect_eq_zero, ← hp.ptr]
    exact hq

/-! ### One turn of the loop -/

/-- `n` bytes have been read. -/
theorem FileSys.Inv.of_read (h : s.Inv f lost files) {v' : Volume} {fp : Fil}
    (hdata : (s.set i v' fp).Data f lost files) (hgeo : v'.toGeometry = s.vol.toGeometry)
    (hhandle : fp.toHandle = (s.fil i).toHandle) (hfptr : fp.fptr = (s.fil i).fptr) {n : ℕ}
    (hn : (files i).ptr + n ≤ (files i).size)
    (hclust : (f i)[((files i).ptr + n - 1) / 512 / s.vol.csize.toNat]? = some fp.clust.toNat)
    (hsect : ((files i).ptr + n) % 512 ≠ 0 →
      fp.sect = s.vol.place (f i) (((files i).ptr + n) / 512)) :
    (s.set i v' { fp with fptr := fp.fptr + BitVec.ofNat 32 n }).Inv f lost
      (Function.update files i ((files i).moved ((files i).ptr + n))) := by
  have hst := hdata.stores i
  rw [s.set_fil] at hst
  have hlt := (h.stores i).size
  have hmax := (s.fil i).objsize.isLt
  refine h.of_data (hdata.again v'.drive.transfers rfl ((hst.moved _).of_fields rfl rfl rfl rfl))
    hgeo (fun _ _ => rfl) hhandle ⟨?_, hn, fun _ => hclust, hsect⟩
  show (files i).ptr + n = (fp.fptr + BitVec.ofNat 32 n).toNat
  rw [hfptr, BitVec.toNat_add, BitVec.toNat_ofNat, ← (h.points i).ptr]
  omega

/-- A turn of the loop has read `bytes` at the pointer of file `i`; the file object is `fp`, and
its pointer is still to be moved. -/
structure FileSys.Reads (s : FileSys ι) (i : ι) (f : ι → List ℕ) (lost : Set ℕ)
    (files : ι → File U8) (btr : U32) (bytes : List U8) (fp : Fil) (v' : Volume) : Prop where
  pos : 0 < bytes.length
  le : bytes.length ≤ btr.toNat
  agrees : Agrees (files i).data (files i).ptr bytes
  geometry : v'.toGeometry = s.vol.toGeometry
  handle : fp.toHandle = (s.fil i).toHandle
  inv : (s.set i v' { fp with fptr := fp.fptr + BitVec.ofNat 32 bytes.length }).Inv f lost
    (Function.update files i ((files i).moved ((files i).ptr + bytes.length)))

section Turn

variable (h : s.Inv f lost files) {v' : Volume} {fp : Fil} {btr : U32}
  (hdata : (s.set i v' fp).Data f lost files) (hgeo : v'.toGeometry = s.vol.toGeometry)
  (hhandle : fp.toHandle = (s.fil i).toHandle) (hfptr : fp.fptr = (s.fil i).fptr)
  (hclust : (f i)[(files i).ptr / 512 / s.vol.csize.toNat]? = some fp.clust.toNat)
include h hdata hgeo hhandle hfptr hclust

/-- Bytes are read from the buffer. -/
theorem FileSys.Inv.of_fromBuf (hsect : fp.sect = s.vol.place (f i) ((files i).ptr / 512))
    (hpos : 0 < btr.toNat) (hlen : (files i).ptr + btr.toNat ≤ (files i).size) :
    s.Reads i f lost files btr (fromBuf fp btr) fp v' := by
  have hst := hdata.stores i
  rw [s.set_fil] at hst
  have hptr : (files i).ptr = fp.fptr.toNat := by rw [hfptr, (h.points i).ptr]
  have hlt := Nat.mod_lt (files i).ptr (show 0 < 512 by decide)
  obtain ⟨hl, hagree⟩ := hst.fromBuf hptr (by rw [s.set_vol, hgeo]; exact hsect) hlen
  generalize fromBuf fp btr = bytes at hl hagree ⊢
  refine ⟨by omega, by omega, hagree, hgeo, hhandle,
    h.of_read hdata hgeo hhandle hfptr (by omega) ?_ ?_⟩
  · rw [show ((files i).ptr + bytes.length - 1) / 512 = (files i).ptr / 512 by omega]
    exact hclust
  · intro hmod
    rw [show ((files i).ptr + bytes.length) / 512 = (files i).ptr / 512 by omega]
    exact hsect

/-- Bytes are read from the buffer, after another sector was loaded. -/
theorem FileSys.Inv.of_loaded (hpos : 0 < btr.toNat)
    (hlen : (files i).ptr + btr.toNat ≤ (files i).size) :
    ∃ fp₂ v₂ fp₃ v₃, flushBuf v' fp = (.ok, fp₂, v₂) ∧
      fillBuf v₂ fp₂ (s.vol.place (f i) ((files i).ptr / 512)) = (.ok, fp₃, v₃) ∧
      s.Reads i f lost files btr (fromBuf fp₃ btr)
        { fp₃ with sect := s.vol.place (f i) ((files i).ptr / 512) } v₃ := by
  generalize hsec : s.vol.place (f i) ((files i).ptr / 512) = sect
  obtain ⟨v₂, hflush, hdata₂, hgeo₂⟩ := flushBuf_spec hdata i
  rw [s.set_fil, s.set_vol] at hflush
  rw [s.set_fil, s.set_set] at hdata₂
  rw [s.set_vol] at hgeo₂
  have hst₂ := hdata₂.stores i
  rw [s.set_fil, s.set_vol] at hst₂
  have hrel : v₂.drive.Reliable := hdata₂.reliable
  have hdata₃ := hdata₂.again (v₂.drive.transfers + 1) (by rfl) (hst₂.loaded rfl sect)
  rw [Function.update_eq_self] at hdata₃
  exact ⟨_, v₂, _, _, hflush, fillBuf_reliable hrel .., h.of_fromBuf hdata₃ (hgeo₂.trans hgeo)
    hhandle hfptr hclust hsec.symm hpos hlen⟩

/-- Whole sectors are read from the drive. -/
theorem FileSys.Inv.of_fromDrive {cc : U32} (hmod : (files i).ptr % 512 = 0) (hcc : 0 < cc.toNat)
    (hle : 512 * cc.toNat ≤ btr.toNat) (hlen : (files i).ptr + btr.toNat ≤ (files i).size)
    (hrun : (files i).ptr / 512 % s.vol.csize.toNat + cc.toNat ≤ s.vol.csize.toNat) :
    ∃ data, diskRead v'.drive (fun _ _ => 0) (s.vol.place (f i) ((files i).ptr / 512)) cc =
        (.ok, data, { v'.drive with transfers := v'.drive.transfers + 1 }) ∧
      s.Reads i f lost files btr
        (bytesOfSectors (if fp.dirty ∧ fp.sect - s.vol.place (f i) ((files i).ptr / 512) < cc then
          Function.update data (fp.sect - s.vol.place (f i) ((files i).ptr / 512)).toNat fp.buf
        else data) (512 * cc.toNat)) fp
        { v' with drive := { v'.drive with transfers := v'.drive.transfers + 1 } } := by
  have hst := hdata.stores i
  rw [s.set_fil, s.set_vol, hgeo] at hst
  obtain ⟨hcells, hnd⟩ := h.cells i
  obtain ⟨data, hread, hbytes⟩ := diskRead_reliable hdata.reliable (fun _ _ => 0)
    (s.vol.place (f i) ((files i).ptr / 512)) cc
  rw [s.set_vol] at hread hbytes
  have hagree := hst.fromDrive h.sound hcells hnd
    (show (files i).ptr = 512 * ((files i).ptr / 512) by omega) hrun hbytes (by omega)
  have hlength : ∀ data, (bytesOfSectors data (512 * cc.toNat)).length = 512 * cc.toNat := by
    intro data
    rw [bytesOfSectors, List.length_map, List.length_range]
  have hdata' := hdata.again (v'.drive.transfers + 1) rfl (hgeo ▸ hst)
  rw [Function.update_eq_self] at hdata'
  refine ⟨data, hread, ?_, ?_, hagree, hgeo, hhandle, ?_⟩
  · rw [hlength]
    omega
  · rw [hlength]
    exact hle
  · rw [hlength]
    refine h.of_read hdata' hgeo hhandle hfptr (by omega) ?_ (by omega)
    rw [show ((files i).ptr + 512 * cc.toNat - 1) / 512 =
      (files i).ptr / 512 + (cc.toNat - 1) by omega, (h.sound.add_div_mod (by omega)).1]
    exact hclust

end Turn

theorem toNat_clip {g : Geometry} (hd : g.DataSound) (p cc : U32) (hcc : cc.toNat < 2 ^ 23) :
    (g.clip (g.csect p) cc).toNat =
      min cc.toNat (g.csize.toNat - p.toNat / 512 % g.csize.toNat) := by
  have hcs := hd.toNat_csect p
  have hmod := Nat.mod_lt (p.toNat / 512) hd.csize_pos
  have hsize := toNat_csize g
  have hlt := g.csize.isLt
  rw [← hcs] at hmod ⊢
  unfold Geometry.clip
  have hsum : (g.csect p + cc).toNat = (g.csect p).toNat + cc.toNat := by
    rw [BitVec.toNat_add]
    exact Nat.mod_eq_of_lt (by omega)
  split_ifs with hover
  · have := BitVec.lt_def.mp hover
    rw [BitVec.toNat_sub_of_le (BitVec.le_def.mpr (by omega)), hsize]
    omega
  · have := BitVec.le_def.mp (BitVec.not_lt.mp hover)
    omega

/-- A turn reads some of the bytes at the pointer. -/
theorem fReadStep_spec (h : s.Inv f lost files) {btr : U32} (hpos : 0 < btr.toNat)
    (hlen : (files i).ptr + btr.toNat ≤ (files i).size) :
    ∃ bytes fp v', fReadStep s.vol (s.fil i) btr = (.ok bytes, fp, v') ∧
      s.Reads i f lost files btr bytes fp v' := by
  have hp := h.points i
  unfold fReadStep
  by_cases h0 : (s.fil i).fptr % 512#32 = 0#32
  · rw [if_pos h0]
    have hmod := hp.mod_eq_zero.mp h0
    obtain ⟨clst, v₁, htop, hclust, hgeo, hdata⟩ := readTop_spec h.toData hp hmod (by omega)
    simp only
    rw [htop]
    simp only
    have hclust' : (f i)[(s.fil i).fptr.toNat / 512 / s.vol.csize.toNat]? = some clst.toNat := by
      rw [← hp.ptr]
      exact hclust
    obtain ⟨hne, hsect⟩ := h.sound.sect_eq h.owns.sound (h.cells i).1 hclust'
    rw [← hp.ptr] at hsect
    rw [hgeo, if_neg hne, hsect]
    by_cases hcc : 0#32 < btr / 512#32
    · -- whole sectors, from the drive
      rw [if_pos hcc]
      have hdiv : (btr / 512#32).toNat = btr.toNat / 512 := BitVec.toNat_udiv
      have hccpos := BitVec.lt_def.mp hcc
      rw [hdiv] at hccpos
      change 0 < btr.toNat / 512 at hccpos
      have hmax := btr.isLt
      have hclip := toNat_clip h.sound (s.fil i).fptr (btr / 512#32) (by rw [hdiv]; omega)
      rw [hdiv, ← hp.ptr] at hclip
      generalize s.vol.clip (s.vol.csect (s.fil i).fptr) (btr / 512#32) = cc at hclip ⊢
      have hq := Nat.mod_lt ((files i).ptr / 512) h.sound.csize_pos
      have hle : 512 * cc.toNat ≤ btr.toNat := by omega
      obtain ⟨data, hread, hreads⟩ := h.of_fromDrive hdata hgeo rfl rfl hclust hmod (by omega) hle
        hlen (by omega)
      rw [hread]
      exact ⟨_, _, _, rfl, hreads⟩
    · rw [if_neg hcc]
      by_cases hsame : (s.fil i).sect ≠ s.vol.place (f i) ((files i).ptr / 512)
      · -- another sector, after the one that is in the buffer
        rw [if_pos hsame]
        obtain ⟨fp₂, v₂, fp₃, v₃, hflush, hfill, hreads⟩ :=
          h.of_loaded hdata hgeo rfl rfl hclust hpos hlen
        rw [hflush]
        simp only
        rw [hfill]
        exact ⟨_, _, _, rfl, hreads⟩
      · rw [if_neg hsame]
        exact ⟨_, _, _, rfl,
          h.of_fromBuf hdata hgeo rfl rfl hclust (not_not.mp hsame) hpos hlen⟩
  · rw [if_neg h0]
    have hne := mt hp.mod_eq_zero.mpr h0
    exact ⟨_, _, _, rfl, h.of_fromBuf (by rw [s.set_self]; exact h.toData) rfl rfl rfl
      (hp.clust_within hne) (hp.current hne) hpos hlen⟩

/-! ### The loop -/

theorem fReadLoop_spec (fuel : ℕ) {btr : U32} (h : s.Inv f lost files) (hfuel : btr.toNat < fuel)
    (hlen : (files i).ptr + btr.toNat ≤ (files i).size) (buff : List U8) :
    ∃ bytes fp v', fReadLoop fuel s.vol (s.fil i) btr buff = some (.ok, buff ++ bytes, fp, v') ∧
      bytes.length = btr.toNat ∧ Agrees (files i).data (files i).ptr bytes ∧
      v'.toGeometry = s.vol.toGeometry ∧ fp.toHandle = (s.fil i).toHandle ∧
      (s.set i v' fp).Inv f lost
        (Function.update files i ((files i).moved ((files i).ptr + btr.toNat))) := by
  induction fuel generalizing s files btr buff with
  | zero => exact absurd hfuel (Nat.not_lt_zero _)
  | succ fuel ih =>
    unfold fReadLoop
    by_cases h0 : btr = 0#32
    · subst h0
      rw [if_pos rfl]
      refine ⟨[], s.fil i, s.vol, by rw [List.append_nil], rfl, agrees_nil, rfl, rfl, ?_⟩
      rw [s.set_self]
      have hsame : (files i).moved ((files i).ptr + (0#32 : U32).toNat) = files i := rfl
      rw [hsame, Function.update_eq_self]
      exact h
    · rw [if_neg h0]
      have hpos : 0 < btr.toNat := Nat.pos_of_ne_zero fun hz => h0 (BitVec.eq_of_toNat_eq hz)
      obtain ⟨bytes, fp, v₁, hstep, hb, hle, hagree, hgeo, hhandle, hinv⟩ :=
        fReadStep_spec h hpos hlen
      rw [hstep]
      simp only
      have hmax := btr.isLt
      have hcnt : (BitVec.ofNat 32 bytes.length).toNat = bytes.length := by
        rw [BitVec.toNat_ofNat]
        exact Nat.mod_eq_of_lt (by omega)
      have hleft : (btr - BitVec.ofNat 32 bytes.length).toNat = btr.toNat - bytes.length := by
        rw [BitVec.toNat_sub_of_le (BitVec.le_def.mpr (by omega)), hcnt]
      have hrest :
          (Function.update files i ((files i).moved ((files i).ptr + bytes.length)) i).ptr +
          (btr - BitVec.ofNat 32 bytes.length).toNat ≤
            (Function.update files i ((files i).moved ((files i).ptr + bytes.length)) i).size := by
        rw [Function.update_self, hleft]
        show (files i).ptr + bytes.length + _ ≤ (files i).size
        omega
      obtain ⟨more, fp', v₂, hloop, hl, hagree', hgeo', hhandle', hinv'⟩ :=
        ih hinv (show (btr - BitVec.ofNat 32 bytes.length).toNat < fuel by omega) hrest
          (buff ++ bytes)
      rw [s.set_vol, s.set_fil] at hloop
      rw [Function.update_self] at hagree' hinv'
      rw [Function.update_idem, s.set_set, hleft] at hinv'
      refine ⟨bytes ++ more, fp', v₂, ?_, ?_, hagree.append hagree', hgeo'.trans hgeo, ?_, ?_⟩
      · rw [hloop, List.append_assoc]
      · rw [List.length_append, hl, hleft]
        omega
      · rw [s.set_fil] at hhandle'
        exact hhandle'.trans hhandle
      · have hptr : (files i).ptr + btr.toNat =
            (files i).ptr + bytes.length + (btr.toNat - bytes.length) := by omega
        rw [hptr]
        exact hinv'

/-- **`f_read` reads the bytes at the pointer**, as many as are asked for and are there. -/
theorem fRead_spec (h : s.Inv f lost files) (hread : (s.fil i).read = true) (btr : U32) :
    ∃ bytes fp v', fRead s.vol (s.fil i) btr = some (.ok, bytes, fp, v') ∧
      bytes.length = min btr.toNat ((files i).size - (files i).ptr) ∧
      Agrees (files i).data (files i).ptr bytes ∧
      v'.toGeometry = s.vol.toGeometry ∧ fp.toHandle = (s.fil i).toHandle ∧
      (s.set i v' fp).Inv f lost
        (Function.update files i ((files i).moved ((files i).ptr + bytes.length))) := by
  obtain ⟨hvalid, herr⟩ := h.ready i
  have hp := h.points i
  have hsize := (h.stores i).size
  have hin := hp.inside
  unfold fRead
  simp only [hvalid, herr, hread, ne_eq, not_true_eq_false, if_false]
  have hremain : ((s.fil i).objsize - (s.fil i).fptr).toNat = (files i).size - (files i).ptr := by
    rw [hsize, hp.ptr, BitVec.toNat_sub_of_le]
    rw [BitVec.le_def, ← hsize, ← hp.ptr]
    exact hin
  have hbtr : (if (s.fil i).objsize - (s.fil i).fptr < btr then
      (s.fil i).objsize - (s.fil i).fptr else btr).toNat =
        min btr.toNat ((files i).size - (files i).ptr) := by
    split_ifs with hlt
    · have := BitVec.lt_def.mp hlt
      omega
    · have := BitVec.le_def.mp (BitVec.not_lt.mp hlt)
      omega
  generalize (if (s.fil i).objsize - (s.fil i).fptr < btr then
      (s.fil i).objsize - (s.fil i).fptr else btr) = n at hbtr ⊢
  obtain ⟨bytes, fp, v', hloop, hl, hagree, hgeo, hhandle, hinv⟩ :=
    fReadLoop_spec (i := i) (n.toNat + 1) h (Nat.lt_succ_self _) (by omega) []
  refine ⟨bytes, fp, v', hloop, hl.trans hbtr, hagree, hgeo, hhandle, ?_⟩
  rw [hl]
  exact hinv

end GamingConsole
