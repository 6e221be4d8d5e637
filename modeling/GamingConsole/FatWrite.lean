/-
`f_write`.

The bytes are put at the pointer, in the buffer or on the drive; behind the last cluster of
the file a free one is taken.  Where there is none, fewer bytes are written.

* `FileSys.Data.extend` — the cluster after another one, or a new one;
* `fWriteStep_spec` — one turn of the loop;
* `fWrite_spec` — the bytes that are written, and when these are not all.
-/
import GamingConsole.FatRead

namespace GamingConsole

open LinkTable CellFile

variable {ι : Type} [DecidableEq ι] {s : FileSys ι} {f : ι → List ℕ} {lost : Set ℕ}
  {files : ι → File U8} {i : ι}

/-- Every cluster is in one of the chains `f`, or lost. -/
def Geometry.Full (g : Geometry) (f : ι → List ℕ) (lost : Set ℕ) : Prop :=
  ∀ c ∈ g.clusters, (∃ i, c ∈ f i) ∨ c ∈ lost

/-! ### The next cluster -/

/-- `clst` is the cluster before cluster `n` of a chain, and 0 where there is none yet. -/
def IsBefore (l : List ℕ) (clst : U32) (n : ℕ) : Prop :=
  clst = 0#32 ∧ l = [] ∧ n = 0 ∨ ∃ m, n = m + 1 ∧ l[m]? = some clst.toNat

section Before

variable {clst : U32} {n : ℕ}

theorem IsBefore.cell {l : List ℕ} (hc : IsBefore l clst n) (hz : clst ≠ 0#32) :
    ∃ m, n = m + 1 ∧ l[m]? = some clst.toNat :=
  hc.resolve_left fun hnil => hz hnil.1

theorem IsBefore.mem {l : List ℕ} (hc : IsBefore l clst n) :
    clst = 0#32 ∧ l = [] ∨ clst.toNat ∈ l := by
  rcases hc with ⟨hz, hnil, -⟩ | ⟨m, -, hm⟩
  · exact Or.inl ⟨hz, hnil⟩
  · exact Or.inr (List.mem_of_getElem? hm)

omit [DecidableEq ι] in
theorem FileSys.Data.ne_zero_of_cell (h : s.Data f lost files) {m : ℕ}
    (hm : (f i)[m]? = some clst.toNat) : clst ≠ 0#32 := by
  rintro rfl
  exact absurd (((h.owns.allocated.chain i).cells) _ (List.mem_of_getElem? hm)).1 (by decide)

omit [DecidableEq ι] in
/-- Where nothing follows `clst`, the chain has `n` clusters. -/
theorem FileSys.Data.length_of_end (h : s.Data f lost files) (hc : IsBefore (f i) clst n)
    (hend : clst ≠ 0#32 → s.vol.nFatent.toNat ≤ s.vol.entry clst.toNat) : n = (f i).length := by
  rcases hc with ⟨-, hnil, hn⟩ | ⟨m, hn, hm⟩
  · rw [hnil, hn]
    rfl
  · rcases (h.owns.allocated.chain i).next_cases hm with ⟨hcl, -⟩ | ⟨-, hlen⟩
    · exact absurd hcl.2 (Nat.not_lt.mpr (hend (h.ne_zero_of_cell hm)))
    · rw [hn, hlen]

omit [DecidableEq ι] in
theorem FileSys.Data.start_eq_zero_iff (h : s.Data f lost files) (hc : IsBefore (f i) clst n) :
    (s.fil i).sclust = 0#32 ↔ clst = 0#32 := by
  have hstart : (s.fil i).sclust = 0#32 ↔ f i = [] := h.owns.eq_nil_iff.symm
  rw [hstart]
  rcases hc with ⟨hz, hnil, -⟩ | ⟨m, -, hm⟩
  · exact iff_of_true hnil hz
  · refine iff_of_false (fun hnil => ?_) (h.ne_zero_of_cell hm)
    rw [hnil] at hm
    exact absurd hm (by simp)

end Before

/-- `create_chain` for cluster `n` of a file, after the one before. -/
theorem FileSys.Data.extend (h : s.Data f lost files) {clst : U32} {n : ℕ}
    (hc : IsBefore (f i) clst n) :
    ∃ r v', createChain s.vol clst = some (r, v') ∧ v'.toGeometry = s.vol.toGeometry ∧
      (r = 0#32 ∧ n = (f i).length ∧ FileSys.Data ⟨v', s.fil⟩ f lost files ∧
        s.vol.Full f lost ∨
      ∃ f', r.toNat ∈ s.vol.clusters ∧ (∀ j, j ≠ i → f' j = f j) ∧
        (f' i)[n]? = some r.toNat ∧
        ∀ fp : Fil, fp.sclust = (if clst = 0#32 then r else (s.fil i).sclust) →
          (∀ {mem : U32 → Sector} {l : List ℕ} {F : File U8},
            (s.fil i).Stores s.vol.toGeometry mem l F → fp.Stores s.vol.toGeometry mem l F) →
          (s.set i v' fp).Data f' lost files) := by
  have hch := h.owns.allocated.chain i
  have hin : clst ≠ 0#32 → clst.toNat ∈ s.vol.clusters := by
    intro hz
    obtain ⟨m, -, hm⟩ := hc.cell hz
    exact (h.cells i).1 _ (List.mem_of_getElem? hm)
  have hres := createChain_spec h.owns.sound h.owns.coherent hin
  change CreateResult s.vol clst (createChain s.vol clst) at hres
  generalize createChain s.vol clst = out at hres
  cases hres with
  | @follow r v' hz hr hrin hsets =>
    -- the cluster is there, and only the window has moved
    obtain ⟨m, hn, hm⟩ := hc.cell hz
    refine ⟨r, v', rfl, hsets.geometry, Or.inr ⟨f, hrin, fun _ _ => rfl, ?_, fun fp hs hst => ?_⟩⟩
    · rcases hch.next_cases hm with ⟨-, hnext⟩ | ⟨hout, -⟩
      · rw [hn, hr]
        exact hnext
      · exact absurd (hr ▸ hrin) hout
    · rw [if_neg hz] at hs
      have hdata := h.of_sets hsets
      rw [← Function.update_eq_self i files]
      refine hdata.with_fil hs ?_
      have hold := hdata.stores i
      change (s.fil i).Stores v'.toGeometry v'.drive.sectors _ _ at hold
      show fp.Stores v'.toGeometry v'.drive.sectors _ _
      rw [hsets.geometry] at hold ⊢
      exact hst hold
  | @full v' hend hused hsets =>
    refine ⟨0#32, v', rfl, hsets.geometry, Or.inl ⟨rfl, h.length_of_end hc hend, h.of_sets hsets,
      ?_⟩⟩
    exact fun c hc => (h.owns.allocated.used c hc).mp (h.owns.none_free hused c hc)
  | @broken v' c hcell hone hsets =>
    -- a link is never 1, and a cluster of a chain is never marked as free
    rcases hone with hone | ⟨rfl, hzero⟩
    · exact absurd hone (h.owns.links c hcell)
    · obtain ⟨m, -, hm⟩ := hc.cell (by rintro rfl; exact absurd hcell.1 (by decide))
      exact absurd hzero (h.owns.allocated.next_ne (List.mem_of_getElem? hm))
  | @made ncl v' hend hn hfree hsets =>
    obtain ⟨hgeo, -⟩ := v'.took_fields ncl
    have hlen := h.length_of_end hc hend
    refine ⟨ncl, _, rfl, hgeo.trans hsets.geometry, Or.inr ⟨_, hn, fun j hj =>
      Function.update_of_ne hj .., ?_, fun fp hs hst => h.of_made (h.owns.last_iff hc.mem hend) hn
        hfree hsets ?_ hst⟩⟩
    · rw [Function.update_self, hlen]
      simp
    · rw [hs]
      exact h.owns.head_grown hc.mem
  | failed hbad => exact absurd h.reliable hbad

/-! ### The cluster of the pointer -/

theorem ne_of_clust {clst : U32} (h : ¬ clst < 2#32) : clst ≠ 0#32 ∧ clst ≠ 1#32 := by
  constructor
  · rintro rfl
    exact h (by decide)
  · rintro rfl
    exact h (by decide)

omit [DecidableEq ι] in
/-- At a cluster's start, the cluster before the pointer is the one that `f_write` has. -/
theorem FileSys.Data.isBefore_ptr (h : s.Data f lost files)
    (hp : (s.fil i).Points s.vol.toGeometry (f i) (files i)) (hmod : (files i).ptr % 512 = 0)
    (hq : (files i).ptr / 512 % s.vol.csize.toNat = 0)
    (hall : ¬ ((s.fil i).fptr = 0#32 ∧ (s.fil i).sclust ≠ 0#32)) :
    IsBefore (f i) (if (s.fil i).fptr = 0#32 then 0#32 else (s.fil i).clust)
      ((files i).ptr / 512 / s.vol.csize.toNat) := by
  by_cases h0 : (s.fil i).fptr = 0#32
  · have hptr : (files i).ptr = 0 := by rw [hp.ptr, h0]; rfl
    refine Or.inl ⟨if_pos h0, h.owns.eq_nil_iff.mpr (not_not.mp fun hs => hall ⟨h0, hs⟩), ?_⟩
    rw [hptr, Nat.zero_div]
  · have hpos := hp.pos h0
    refine Or.inr ⟨_, (pred_div_add h.sound.csize_pos (by omega) hq).symm, ?_⟩
    rw [if_neg h0, ← hp.clust hpos, show ((files i).ptr - 1) / 512 =
      (files i).ptr / 512 - 1 by omega]

/-- The cluster of the pointer is found, or made, or none is free. -/
theorem writeTop_spec (h : s.Data f lost files)
    (hp : (s.fil i).Points s.vol.toGeometry (f i) (files i)) (hmod : (files i).ptr % 512 = 0) :
    ∃ out v', (if s.vol.csect (s.fil i).fptr = 0#32 then writeClust s.vol (s.fil i)
        else some (.ok (s.fil i), s.vol)) = some (out, v') ∧
      v'.toGeometry = s.vol.toGeometry ∧
      (out = .error .full ∧ FileSys.Data ⟨v', s.fil⟩ f lost files ∧ s.vol.Full f lost ∨
      ∃ fp f', out = .ok fp ∧ (∀ j, j ≠ i → f' j = f j) ∧
        (f' i)[(files i).ptr / 512 / s.vol.csize.toNat]? = some fp.clust.toNat ∧
        fp.toHandle = (s.fil i).toHandle ∧ fp.fptr = (s.fil i).fptr ∧
        (s.set i v' fp).Data f' lost files) := by
  by_cases hcs : s.vol.csect (s.fil i).fptr = 0#32
  · rw [if_pos hcs, writeClust]
    have hq := (h.csect_eq_zero _).mp hcs
    rw [← hp.ptr] at hq
    by_cases hall : (s.fil i).fptr = 0#32 ∧ (s.fil i).sclust ≠ 0#32
    · -- the first cluster is there
      rw [if_pos hall.1, if_neg hall.2]
      have hhead : (f i).headD 0 = (s.fil i).sclust.toNat := h.owns.heads i
      obtain ⟨c, t, hf⟩ :=
        List.exists_cons_of_ne_nil fun hnil => hall.2 (h.owns.eq_nil_iff.mp hnil)
      rw [hf] at hhead
      change c = _ at hhead
      obtain ⟨hb1, -, hb3, -⟩ := h.clust_bounds (hhead ▸ (h.cells i).1 c (by rw [hf]; simp))
      have hptr : (files i).ptr = 0 := by rw [hp.ptr, hall.1]; rfl
      refine ⟨.ok { s.fil i with clust := (s.fil i).sclust }, s.vol, ?_, rfl, Or.inr
        ⟨_, f, rfl, fun _ _ => rfl, ?_, rfl, rfl, ?_⟩⟩
      · simp only [Option.map_some, if_neg hall.2, if_neg (ne_of_clust hb1).2, if_neg hb3]
      · rw [hptr, Nat.zero_div, hf, hhead]
        rfl
      · rw [← Function.update_eq_self i files]
        exact h.with_fil rfl ((h.stores i).of_fields rfl rfl rfl rfl)
    · have hout : (if (s.fil i).fptr = 0#32 then
          if (s.fil i).sclust = 0#32 then createChain s.vol 0#32
          else some ((s.fil i).sclust, s.vol)
        else createChain s.vol (s.fil i).clust) =
          createChain s.vol (if (s.fil i).fptr = 0#32 then 0#32 else (s.fil i).clust) := by
        by_cases h0 : (s.fil i).fptr = 0#32
        · rw [if_pos h0, if_pos h0, if_pos (not_not.mp fun hs => hall ⟨h0, hs⟩)]
        · rw [if_neg h0, if_neg h0]
      simp only [hout]
      have hwhere := h.isBefore_ptr hp hmod hq hall
      obtain ⟨r, v', hchain, hgeo, hres⟩ := h.extend hwhere
      rw [hchain]
      rcases hres with ⟨rfl, -, hdata, hfull⟩ | ⟨f', hr, hf', hclust, hdata⟩
      · exact ⟨_, v', rfl, hgeo, Or.inl ⟨rfl, hdata, hfull⟩⟩
      · obtain ⟨hb1, -, hb3, -⟩ := h.clust_bounds hr
        obtain ⟨h0, h1⟩ := ne_of_clust hb1
        refine ⟨_, v', ?_, hgeo, Or.inr ⟨{ s.fil i with
          clust := r, sclust := if (s.fil i).sclust = 0#32 then r else (s.fil i).sclust }, f', rfl,
          hf', hclust, rfl, rfl, hdata _ ?_ fun hst => hst.of_fields rfl rfl rfl rfl⟩⟩
        · simp only [Option.map_some, if_neg h0, if_neg h1, if_neg hb3]
        · exact if_congr (h.start_eq_zero_iff hwhere) rfl rfl
  · rw [if_neg hcs]
    refine ⟨_, s.vol, rfl, rfl, Or.inr ⟨s.fil i, f, rfl, fun _ _ => rfl,
      hp.clust_inside h.sound fun hq => hcs ?_, rfl, rfl, ?_⟩⟩
    · rw [h.csect_eq_zero, ← hp.ptr]
      exact hq
    · rw [← Function.update_eq_self i files]
      exact h.with_fil rfl (h.stores i)

/-! ### One turn of the loop -/

/-- What a turn has done: some bytes were written, or no cluster is free. -/
def FileSys.Wrote (s : FileSys ι) (i : ι) (f : ι → List ℕ) (lost : Set ℕ) (files : ι → File U8)
    (btw : U32) (wbuff : List U8) (out : WriteEnd) (fp : Fil) (v' : Volume) : Prop :=
  out = .full ∧ fp = s.fil i ∧ s.vol.Full f lost ∧ (s.set i v' fp).Inv f lost files ∨
    ∃ wcnt f', out = .wrote wcnt ∧ 0 < wcnt.toNat ∧ wcnt.toNat ≤ btw.toNat ∧
      fp.toHandle = (s.fil i).toHandle ∧ (∀ j, j ≠ i → f' j = f j) ∧
      (s.set i v' (fp.advance wcnt)).Inv f' lost
        (Function.update files i ((files i).wrote (wbuff.take wcnt.toNat)))

/-- Bytes are written to the buffer. -/
theorem FileSys.Inv.of_intoBuf (h : s.Inv f lost files) {v' : Volume} {fp : Fil} {f' : ι → List ℕ}
    (hdata : (s.set i v' fp).Data f' lost files) (hgeo : v'.toGeometry = s.vol.toGeometry)
    (hf : ∀ j, j ≠ i → f' j = f j) (hhandle : fp.toHandle = (s.fil i).toHandle)
    (hfptr : fp.fptr = (s.fil i).fptr)
    (hclust : (f' i)[(files i).ptr / 512 / s.vol.csize.toNat]? = some fp.clust.toNat)
    (hsect : fp.sect = s.vol.place (f' i) ((files i).ptr / 512)) {btw : U32} (hpos : 0 < btw.toNat)
    {wbuff : List U8} (hlen : btw.toNat ≤ wbuff.length)
    (hover : (files i).ptr + btw.toNat < 2 ^ 32) :
    ∃ out fp', intoBuf fp btw wbuff = (out, fp') ∧
      s.Wrote i f lost files btw wbuff out fp' v' := by
  have hp := h.points i
  have hst := hdata.stores i
  rw [s.set_fil, s.set_vol, hgeo] at hst
  have hmod := Nat.mod_lt (files i).ptr (show 0 < 512 by decide)
  have hq : (files i).ptr / 512 < s.vol.csize.toNat * (f' i).length := by
    rw [Nat.mul_comm]
    refine (Nat.div_lt_iff_lt_mul h.sound.csize_pos).mp ?_
    obtain ⟨hlt, -⟩ := List.getElem?_eq_some_iff.mp hclust
    exact hlt
  obtain ⟨hcells, hnd⟩ := hdata.cells i
  rw [s.set_vol, hgeo] at hcells
  obtain ⟨wcnt, fp', hinto, hcnt, hhandle', hstart, hst', hp'⟩ := hst.intoBuf h.sound hcells hnd
    (hfptr ▸ hp.ptr) hp.inside hsect hq hclust hpos hlen hover
  refine ⟨.wrote wcnt, fp', hinto, Or.inr ⟨wcnt, f', rfl, by omega, by omega,
    hhandle'.trans hhandle, hf, h.of_data ?_ hgeo hf (hhandle'.trans hhandle) hp'⟩⟩
  exact hdata.again v'.drive.transfers hstart (hgeo ▸ hst')

/-- Sectors are written to the drive. -/
theorem FileSys.Inv.of_intoDrive (h : s.Inv f lost files) {v' : Volume} {fp : Fil}
    {f' : ι → List ℕ} (hdata : (s.set i v' fp).Data f' lost files)
    (hgeo : v'.toGeometry = s.vol.toGeometry) (hf : ∀ j, j ≠ i → f' j = f j)
    (hhandle : fp.toHandle = (s.fil i).toHandle) (hfptr : fp.fptr = (s.fil i).fptr)
    (hdirty : fp.dirty = false)
    (hclust : (f' i)[(files i).ptr / 512 / s.vol.csize.toNat]? = some fp.clust.toNat)
    (hmod : (files i).ptr % 512 = 0) {cc : U32} (hpos : 0 < cc.toNat)
    (hrun : (files i).ptr / 512 % s.vol.csize.toNat + cc.toNat ≤ s.vol.csize.toNat)
    {wbuff : List U8} (hlen : 512 * cc.toNat ≤ wbuff.length)
    (hover : (files i).ptr + 512 * cc.toNat < 2 ^ 32) {sect : U32}
    (hsect : sect = s.vol.place (f' i) ((files i).ptr / 512)) {fp' : Fil}
    (hfp : fp' = if fp.sect - sect < cc then
      { fp with buf := sectorsOf wbuff (fp.sect - sect).toNat, dirty := false } else fp) :
    fp'.toHandle = (s.fil i).toHandle ∧
      (s.set i { v' with drive := v'.drive.written (sectorsOf wbuff) sect cc }
        (fp'.advance (512#32 * cc))).Inv f' lost
          (Function.update files i ((files i).wrote (wbuff.take (512 * cc.toNat)))) := by
  have hp := h.points i
  have hst := hdata.stores i
  rw [s.set_fil, s.set_vol, hgeo] at hst
  obtain ⟨hcells, hnd⟩ := hdata.cells i
  rw [s.set_vol, hgeo] at hcells
  have hq : (files i).ptr / 512 < s.vol.csize.toNat * (f' i).length := by
    rw [Nat.mul_comm]
    exact (Nat.div_lt_iff_lt_mul h.sound.csize_pos).mp (List.getElem?_eq_some_iff.mp hclust).1
  have hsame : fp'.toHandle = fp.toHandle ∧ fp'.sclust = fp.sclust := by
    rw [hfp]
    split_ifs <;> exact ⟨rfl, rfl⟩
  subst hsect
  obtain ⟨hst', hp'⟩ := hst.intoDrive h.sound hcells hnd hdirty (hfptr ▸ hp.ptr) hp.inside
    (show (files i).ptr = 512 * ((files i).ptr / 512) by omega) hq hrun hpos hclust hlen hover
    (fun x => (rfl : (v'.drive.written (sectorsOf wbuff)
      (s.vol.place (f' i) ((files i).ptr / 512)) cc).sectors x = _)) hfp
  refine ⟨hsame.1.trans hhandle, h.of_data ?_ hgeo hf (hsame.1.trans hhandle) hp'⟩
  rw [← s.set_set i v' _ fp]
  refine hdata.of_drive rfl (fun x hx => ?_) ?_ ?_
  · refine if_neg fun hlt => ?_
    -- the sector is one of the cluster
    have hj := BitVec.lt_def.mp hlt
    rw [s.set_vol, hgeo] at hx
    refine hx _ (h.sound.add_lt hq
      (show _ + (x - s.vol.place (f' i) ((files i).ptr / 512)).toNat < _ by omega)) ?_
    rw [h.sound.place_add (by omega), BitVec.ofNat_toNat, BitVec.setWidth_eq]
    bv_omega
  · rw [s.set_fil]
    exact hsame.2
  · rw [s.set_vol, hgeo]
    exact hst'

/-- The cluster of the pointer is there, and nothing waits in the buffer. -/
structure FileSys.Flushed (s : FileSys ι) (i : ι) (f : ι → List ℕ) (lost : Set ℕ)
    (files : ι → File U8) (v' : Volume) (fp : Fil) (f' : ι → List ℕ) : Prop where
  data : (s.set i v' fp).Data f' lost files
  geometry : v'.toGeometry = s.vol.toGeometry
  others : ∀ j, j ≠ i → f' j = f j
  handle : fp.toHandle = (s.fil i).toHandle
  fptr : fp.fptr = (s.fil i).fptr
  clean : fp.dirty = false
  clust : (f' i)[(files i).ptr / 512 / s.vol.csize.toNat]? = some fp.clust.toNat

namespace FileSys.Flushed

variable {v₁ v' : Volume} {fp fp₁ : Fil} {f' : ι → List ℕ} {btw : U32} {wbuff : List U8}

/-- The buffer is written back before anything else. -/
theorem of_top (hdata : (s.set i v₁ fp₁).Data f' lost files)
    (hgeo : v₁.toGeometry = s.vol.toGeometry) (hf : ∀ j, j ≠ i → f' j = f j)
    (hhandle : fp₁.toHandle = (s.fil i).toHandle) (hfptr : fp₁.fptr = (s.fil i).fptr)
    (hclust : (f' i)[(files i).ptr / 512 / s.vol.csize.toNat]? = some fp₁.clust.toNat) :
    ∃ v' fp, flushBuf v₁ fp₁ = (.ok, fp, v') ∧ s.Flushed i f lost files v' fp f' := by
  obtain ⟨v', hflush, hdata', hgeo'⟩ := flushBuf_spec hdata i
  rw [s.set_fil, s.set_vol] at hflush
  rw [s.set_fil, s.set_set] at hdata'
  exact ⟨v', _, hflush, hdata', hgeo'.trans hgeo, hf, hhandle, hfptr, rfl, hclust⟩

theorem cells (h : s.Flushed i f lost files v' fp f') :
    (∀ c ∈ f' i, c ∈ s.vol.clusters) ∧ (f' i).Nodup := by
  obtain ⟨hcells, hnd⟩ := h.data.cells i
  rw [s.set_vol, h.geometry] at hcells
  exact ⟨hcells, hnd⟩

theorem stores (h : s.Flushed i f lost files v' fp f') :
    fp.Stores s.vol.toGeometry v'.drive.sectors (f' i) (files i) := by
  have hst := h.data.stores i
  rw [s.set_fil, s.set_vol, h.geometry] at hst
  exact hst

/-- The sector of the pointer. -/
theorem sect_eq (h : s.Flushed i f lost files v' fp f') (hs : s.Inv f lost files) :
    clst2sect s.vol.toGeometry fp.clust ≠ 0#32 ∧
      clst2sect s.vol.toGeometry fp.clust + s.vol.csect (s.fil i).fptr =
        s.vol.place (f' i) ((files i).ptr / 512) := by
  have hptr := (hs.points i).ptr
  have hclust := h.clust
  rw [hptr] at hclust ⊢
  exact hs.sound.sect_eq hs.owns.sound h.cells.1 hclust

/-- Whole sectors, to the drive. -/
theorem intoDrive (h : s.Flushed i f lost files v' fp f') (hs : s.Inv f lost files)
    (hmod : (files i).ptr % 512 = 0) (hlen : btw.toNat ≤ wbuff.length)
    (hover : (files i).ptr + btw.toNat < 2 ^ 32) (hcc : 0#32 < btw / 512#32) {cc sect : U32}
    (hclip : cc = s.vol.clip (s.vol.csect (s.fil i).fptr) (btw / 512#32))
    (hsect : sect = s.vol.place (f' i) ((files i).ptr / 512)) :
    ∃ drive, diskWrite v'.drive (sectorsOf wbuff) sect cc = (.ok, drive) ∧
      s.Wrote i f lost files btw wbuff (.wrote (512#32 * cc))
        (if fp.sect - sect < cc then
          { fp with buf := sectorsOf wbuff (fp.sect - sect).toNat, dirty := false } else fp)
        { v' with drive := drive } := by
  have hdiv : (btw / 512#32).toNat = btw.toNat / 512 := BitVec.toNat_udiv
  have hccpos := BitVec.lt_def.mp hcc
  rw [hdiv] at hccpos
  change 0 < btw.toNat / 512 at hccpos
  have hmax := btw.isLt
  have htoNat := toNat_clip hs.sound (s.fil i).fptr (btw / 512#32) (by rw [hdiv]; omega)
  rw [hdiv, ← (hs.points i).ptr, ← hclip] at htoNat
  have hlt := Nat.mod_lt ((files i).ptr / 512) hs.sound.csize_pos
  have hmul := toNat_bytes (show 512 * cc.toNat < 2 ^ 32 by omega)
  have hrel : v'.drive.Reliable := h.data.reliable
  rw [diskWrite_reliable hrel]
  obtain ⟨hhandle, hinv⟩ := hs.of_intoDrive h.data h.geometry h.others h.handle h.fptr h.clean
    h.clust hmod (show 0 < cc.toNat by omega) (by omega)
    (show 512 * cc.toNat ≤ wbuff.length by omega) (by omega) hsect rfl
  refine ⟨_, rfl, Or.inr ⟨512#32 * cc, f', rfl, by omega, by omega, hhandle, h.others, ?_⟩⟩
  rw [hmul]
  exact hinv

/-- The sector of the pointer is read, and bytes of it are changed. -/
theorem loaded (h : s.Flushed i f lost files v' fp f') (hs : s.Inv f lost files)
    (hpos : 0 < btw.toNat) (hlen : btw.toNat ≤ wbuff.length)
    (hover : (files i).ptr + btw.toNat < 2 ^ 32) {sect : U32}
    (hsect : sect = s.vol.place (f' i) ((files i).ptr / 512)) :
    ∃ fp₁ v₁ out fp₂, fillBuf v' fp sect = (.ok, fp₁, v₁) ∧
      v₁.toGeometry = s.vol.toGeometry ∧
      intoBuf { fp₁ with sect := sect } btw wbuff = (out, fp₂) ∧
      s.Wrote i f lost files btw wbuff out fp₂ v₁ := by
  have hrel : v'.drive.Reliable := h.data.reliable
  rw [fillBuf_reliable hrel]
  have hst := h.stores.loaded h.clean sect
  rw [← h.geometry] at hst
  have hdata := h.data.again (v'.drive.transfers + 1) (by rfl) hst
  rw [Function.update_eq_self] at hdata
  obtain ⟨out, fp₂, hinto, hwrote⟩ := hs.of_intoBuf hdata h.geometry h.others h.handle h.fptr
    h.clust hsect hpos hlen hover
  exact ⟨_, _, out, fp₂, rfl, h.geometry, hinto, hwrote⟩

/-- The sector is in the buffer, or it has nothing of the file. -/
theorem fresh (h : s.Flushed i f lost files v' fp f') (hs : s.Inv f lost files)
    (hmod : (files i).ptr % 512 = 0) (hpos : 0 < btw.toNat) (hlen : btw.toNat ≤ wbuff.length)
    (hover : (files i).ptr + btw.toNat < 2 ^ 32) {sect : U32}
    (hsect : sect = s.vol.place (f' i) ((files i).ptr / 512))
    (hload : ¬ (fp.sect ≠ sect ∧ fp.fptr < fp.objsize)) :
    ∃ out fp₂, intoBuf { fp with sect := sect } btw wbuff = (out, fp₂) ∧
      s.Wrote i f lost files btw wbuff out fp₂ v' := by
  have hst : ({ fp with sect := sect } : Fil).Stores s.vol.toGeometry v'.drive.sectors
      (f' i) (files i) := by
    by_cases hsame : fp.sect = sect
    · exact h.stores.of_fields rfl rfl hsame.symm rfl
    · -- nothing of the file is behind the pointer
      have hend := BitVec.le_def.mp (BitVec.not_lt.mp fun hlt => hload ⟨hsame, hlt⟩)
      rw [h.fptr, ← (hs.points i).ptr, ← h.stores.size] at hend
      refine h.stores.beyond h.clean fun o ho heq => ?_
      rw [hsect] at heq
      have hq : (files i).ptr / 512 < s.vol.csize.toNat * (f' i).length := by
        rw [Nat.mul_comm]
        exact (Nat.div_lt_iff_lt_mul hs.sound.csize_pos).mp
          (List.getElem?_eq_some_iff.mp h.clust).1
      have := hs.sound.place_inj h.cells.1 h.cells.2 (h.stores.sector_lt ho) hq heq
      omega
  rw [← h.geometry] at hst
  have hdata := h.data.again v'.drive.transfers (by rfl) hst
  rw [Function.update_eq_self] at hdata
  exact hs.of_intoBuf hdata h.geometry h.others h.handle h.fptr h.clust hsect hpos hlen hover

end FileSys.Flushed

/-- A turn writes some of the bytes at the pointer. -/
theorem fWriteStep_spec (h : s.Inv f lost files) {btw : U32} (hpos : 0 < btw.toNat)
    {wbuff : List U8} (hlen : btw.toNat ≤ wbuff.length)
    (hover : (files i).ptr + btw.toNat < 2 ^ 32) :
    ∃ out fp v', fWriteStep s.vol (s.fil i) btw wbuff = some (out, fp, v') ∧
      v'.toGeometry = s.vol.toGeometry ∧ s.Wrote i f lost files btw wbuff out fp v' := by
  have hp := h.points i
  unfold fWriteStep
  by_cases h0 : (s.fil i).fptr % 512#32 = 0#32
  · rw [if_pos h0]
    have hmod := hp.mod_eq_zero.mp h0
    obtain ⟨out, v₁, htop, hgeo₁, hres⟩ := writeTop_spec h.toData hp hmod
    simp only
    rw [htop]
    rcases hres with ⟨rfl, hdata, hfull⟩ | ⟨fp₁, f', rfl, hf, hclust, hhandle, hfptr, hdata₁⟩
    · -- no cluster is free
      refine ⟨_, _, _, rfl, hgeo₁, Or.inl ⟨rfl, rfl, hfull, ?_⟩⟩
      rw [← Function.update_eq_self i files] at hdata ⊢
      refine h.of_data ?_ hgeo₁ (fun _ _ => rfl) rfl hp
      have hset : s.set i v₁ (s.fil i) = ⟨v₁, s.fil⟩ :=
        congrArg (FileSys.mk v₁) (Function.update_eq_self ..)
      rw [hset]
      exact hdata
    · obtain ⟨v', fp, hflush, hflushed⟩ :=
        FileSys.Flushed.of_top hdata₁ hgeo₁ hf hhandle hfptr hclust
      obtain ⟨hne, hsect⟩ := hflushed.sect_eq h
      simp only
      rw [hflush]
      simp only
      rw [hflushed.geometry, if_neg hne, hsect]
      generalize hsec : s.vol.place (f' i) ((files i).ptr / 512) = sect
      by_cases hcc : 0#32 < btw / 512#32
      · obtain ⟨drive, hdrive, hwrote⟩ :=
          hflushed.intoDrive h hmod hlen hover hcc rfl hsec.symm
        rw [if_pos hcc, hdrive]
        exact ⟨_, _, _, rfl, hflushed.geometry, hwrote⟩
      · rw [if_neg hcc]
        by_cases hload : fp.sect ≠ sect ∧ fp.fptr < fp.objsize
        · obtain ⟨fp₁, v₁, out, fp₂, hfill, hgeo, hinto, hwrote⟩ :=
            hflushed.loaded h hpos hlen hover hsec.symm
          rw [if_pos hload, hfill]
          simp only
          rw [hinto]
          exact ⟨out, fp₂, v₁, rfl, hgeo, hwrote⟩
        · obtain ⟨out, fp₂, hinto, hwrote⟩ :=
            hflushed.fresh h hmod hpos hlen hover hsec.symm hload
          rw [if_neg hload, hinto]
          exact ⟨out, fp₂, v', rfl, hflushed.geometry, hwrote⟩
  · -- inside of a sector
    have hne := mt hp.mod_eq_zero.mpr h0
    obtain ⟨out, fp', hinto, hwrote⟩ := h.of_intoBuf (by rw [s.set_self]; exact h.toData)
      rfl (fun _ _ => rfl) rfl rfl (hp.clust_within hne) (hp.current hne) hpos hlen hover
    rw [if_neg h0, hinto]
    exact ⟨out, fp', s.vol, rfl, rfl, hwrote⟩

/-! ### The loop -/

/-- `modified` is none of the bytes. -/
theorem FileSys.Inv.modify (h : s.Inv f lost files) (i : ι) :
    (s.set i s.vol { s.fil i with modified := true }).Inv f lost files := by
  rw [← Function.update_eq_self i files]
  exact h.of_data (h.with_fil rfl ((h.stores i).of_fields rfl rfl rfl rfl)) rfl (fun _ _ => rfl) rfl
    ⟨(h.points i).ptr, (h.points i).inside, (h.points i).clust, (h.points i).current⟩

theorem fWriteLoop_spec (fuel : ℕ) {btw : U32} {wbuff : List U8} (h : s.Inv f lost files)
    (hfuel : btw.toNat < fuel) (hlen : btw.toNat ≤ wbuff.length)
    (hover : (files i).ptr + btw.toNat < 2 ^ 32) (bw : U32) :
    ∃ w fp v' f', fWriteLoop fuel s.vol (s.fil i) btw wbuff bw =
        some (.ok, bw + BitVec.ofNat 32 w, fp, v') ∧
      w ≤ btw.toNat ∧ (w < btw.toNat → s.vol.Full f' lost) ∧ v'.toGeometry = s.vol.toGeometry ∧
      fp.toHandle = (s.fil i).toHandle ∧ (∀ j, j ≠ i → f' j = f j) ∧
      (s.set i v' fp).Inv f' lost
        (Function.update files i ((files i).wrote (wbuff.take w))) := by
  induction fuel generalizing s files f btw wbuff bw with
  | zero => exact absurd hfuel (Nat.not_lt_zero _)
  | succ fuel ih =>
    have hzero : bw + BitVec.ofNat 32 0 = bw := BitVec.add_zero bw
    have hnone : (files i).wrote (wbuff.take 0) = files i := by
      rw [List.take_zero, File.wrote_nil _ (h.points i).inside]
    unfold fWriteLoop
    by_cases h0 : btw = 0#32
    · subst h0
      rw [if_pos rfl]
      refine ⟨0, { s.fil i with modified := true }, s.vol, f, by rw [hzero], Nat.zero_le _,
        fun hlt => absurd hlt (Nat.lt_irrefl _), rfl, rfl, fun _ _ => rfl, ?_⟩
      rw [hnone, Function.update_eq_self]
      exact h.modify i
    · rw [if_neg h0]
      have hpos : 0 < btw.toNat := Nat.pos_of_ne_zero fun hz => h0 (BitVec.eq_of_toNat_eq hz)
      obtain ⟨out, fp, v₁, hstep, hgeo, hres⟩ := fWriteStep_spec h hpos hlen hover
      rw [hstep]
      rcases hres with ⟨rfl, rfl, hfull, hinv⟩ | ⟨wcnt, f', rfl, hb, hle, hhandle, hf, hinv⟩
      · refine ⟨0, { s.fil i with modified := true }, v₁, f, by rw [hzero], Nat.zero_le _,
          fun _ => hfull, hgeo, rfl, fun _ _ => rfl, ?_⟩
        have hinv' := hinv.modify i
        rw [s.set_set, s.set_fil, s.set_vol] at hinv'
        rw [hnone, Function.update_eq_self]
        exact hinv'
      · simp only
        have hleft : (btw - wcnt).toNat = btw.toNat - wcnt.toNat :=
          BitVec.toNat_sub_of_le (BitVec.le_def.mpr hle)
        have htake : (wbuff.take wcnt.toNat).length = wcnt.toNat := by
          rw [List.length_take]
          omega
        have hptr : ((files i).wrote (wbuff.take wcnt.toNat)).ptr = (files i).ptr + wcnt.toNat :=
          congrArg ((files i).ptr + ·) htake
        have hrest : (Function.update files i ((files i).wrote (wbuff.take wcnt.toNat)) i).ptr +
            (btw - wcnt).toNat < 2 ^ 32 := by
          rw [Function.update_self, hptr, hleft]
          omega
        -- what is left goes behind it
        obtain ⟨w, fp', v₂, f'', hloop, hw, hfull, hgeo', hhandle', hf', hinv'⟩ :=
          ih hinv (by omega) (show (btw - wcnt).toNat ≤ (wbuff.drop wcnt.toNat).length by
            rw [List.length_drop]; omega) hrest (bw + wcnt)
        rw [s.set_vol, s.set_fil] at hloop
        rw [hleft] at hw hfull
        refine ⟨wcnt.toNat + w, fp', v₂, f'', ?_, by omega, fun hlt => hgeo ▸ hfull (by omega),
          hgeo'.trans hgeo, ?_, fun j hj => (hf' j hj).trans (hf j hj), ?_⟩
        · rw [hloop, BitVec.ofNat_add, BitVec.ofNat_toNat, BitVec.setWidth_eq, BitVec.add_assoc]
        · rw [s.set_fil] at hhandle'
          exact hhandle'.trans hhandle
        · rw [Function.update_self, Function.update_idem, s.set_set, File.wrote_append,
            ← List.take_add] at hinv'
          exact hinv'

/-- **`f_write` writes the bytes at the pointer**: all of them, as far as there are free
clusters and the pointer does not wrap around. -/
theorem fWrite_spec (h : s.Inv f lost files) (hwrite : (s.fil i).write = true) {wbuff : List U8}
    {btw : U32} (hlen : btw.toNat ≤ wbuff.length) :
    ∃ bw fp v' f', fWrite s.vol (s.fil i) wbuff btw = some (.ok, bw, fp, v') ∧
      bw.toNat ≤ min btw.toNat (2 ^ 32 - 1 - (files i).ptr) ∧
      (bw.toNat < min btw.toNat (2 ^ 32 - 1 - (files i).ptr) → s.vol.Full f' lost) ∧
      v'.toGeometry = s.vol.toGeometry ∧ fp.toHandle = (s.fil i).toHandle ∧
      (∀ j, j ≠ i → f' j = f j) ∧
      (s.set i v' fp).Inv f' lost
        (Function.update files i ((files i).wrote (wbuff.take bw.toNat))) := by
  obtain ⟨hvalid, herr⟩ := h.ready i
  have hp := (h.points i).ptr
  have hmax := (s.fil i).fptr.isLt
  have hmax' := btw.isLt
  unfold fWrite
  simp only [hvalid, herr, hwrite, ne_eq, not_true_eq_false, if_false]
  have hbtw : (if (s.fil i).fptr + btw < (s.fil i).fptr then 0xFFFFFFFF#32 - (s.fil i).fptr
      else btw).toNat = min btw.toNat (2 ^ 32 - 1 - (files i).ptr) := by
    have hsum : ((s.fil i).fptr + btw).toNat = ((files i).ptr + btw.toNat) % 2 ^ 32 := by
      rw [BitVec.toNat_add, hp]
    split_ifs with hlt
    · have hlt' := BitVec.lt_def.mp hlt
      rw [BitVec.toNat_sub_of_le (BitVec.le_def.mpr (by show _ ≤ 4294967295; omega)), ← hp]
      show 4294967295 - _ = _
      omega
    · have hle := BitVec.le_def.mp (BitVec.not_lt.mp hlt)
      omega
  generalize (if (s.fil i).fptr + btw < (s.fil i).fptr then 0xFFFFFFFF#32 - (s.fil i).fptr
      else btw) = n at hbtw ⊢
  obtain ⟨w, fp, v', f', hloop, hw, hfull, hgeo, hhandle, hf, hinv⟩ :=
    fWriteLoop_spec (i := i) (n.toNat + 1) h (Nat.lt_succ_self _)
      (show n.toNat ≤ wbuff.length by omega) (by omega) 0#32
  have hcnt : (0#32 + BitVec.ofNat 32 w).toNat = w := by
    rw [BitVec.zero_add, BitVec.toNat_ofNat]
    exact Nat.mod_eq_of_lt (by omega)
  refine ⟨_, fp, v', f', hloop, ?_, ?_, hgeo, hhandle, hf, ?_⟩
  · rw [hcnt]
    omega
  · rw [hcnt]
    exact fun hlt => hfull (by omega)
  · rw [hcnt]
    exact hinv

end GamingConsole
