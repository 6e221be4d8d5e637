/-
`f_truncate`.

The file ends at the pointer, and the clusters behind it are free again.  A buffer that was not
written back may be for a sector of one of these: then it is written there, to no file.

* `Fil.Stores.shrunk`, `FileSys.Data.of_cutOff` — the file is shorter;
* `fTruncate_spec` — the pointer and the other files are as they were.
-/
import GamingConsole.FatSeek

namespace GamingConsole

open LinkTable CellFile

variable {ι : Type} [DecidableEq ι] {s : FileSys ι} {f : ι → List ℕ} {lost : Set ℕ}
  {files : ι → File U8} {i : ι}

/-! ### A file that is shorter -/

/-- Only the bytes before `p` are left, and the sectors of these. -/
theorem Fil.Stores.shrunk {g : Geometry} (hd : g.DataSound) {mem : U32 → Sector} {fp : Fil}
    {l m : List ℕ} {F : File U8} (h : fp.Stores g mem (l ++ m) F) (fp' : Fil) {p : ℕ}
    (hp : p ≤ F.size) (hroom : p ≤ 512 * (g.csize.toNat * l.length)) (hsize : fp'.objsize.toNat = p)
    (hsect : fp'.sect = fp.sect) (hbuf : fp'.buf = fp.buf)
    (hdirty : fp'.dirty = true → fp.dirty = true ∧
      ∃ q < g.csize.toNat * l.length, fp.sect = g.place l q)
    (hclean : fp'.dirty = false → fp.dirty = true →
      ∀ q < g.csize.toNat * l.length, g.place l q ≠ fp.sect) :
    fp'.Stores g mem l { F with size := p } := by
  have hplace : ∀ o < p, g.place l (o / 512) = g.place (l ++ m) (o / 512) := fun o ho =>
    (place_extend hd (by omega)).symm
  refine ⟨hsize.symm, hroom, fun hd => hsect ▸ (hdirty hd).2, fun o b ho hb hs => ?_,
    fun o b ho hb hs => ?_⟩
  · change o < p at ho
    rw [hsect, hplace o ho] at hs
    rw [hbuf]
    exact h.buffered o b (by omega) hb hs
  · change o < p at ho
    rw [hsect] at hs
    have hin : o / 512 < g.csize.toNat * l.length := by omega
    rw [hplace o ho] at hs ⊢
    refine h.stored o b (by omega) hb fun hd => ?_
    by_cases hd' : fp'.dirty = true
    · exact hs hd'
    · rw [← hplace o ho]
      exact hclean (Bool.eq_false_iff.mpr hd') hd _ hin

/-- The clusters `m` of a file have become free. -/
theorem FileSys.Data.of_cutOff (h : s.Data f lost files) {l m : List ℕ} (hi : f i = l ++ m)
    {v' : Volume} (halt : s.vol.Alters v' (cutOff s.vol.fsType s.vol.entry l m))
    (hcount : v'.Counted) (fp : Fil) {F : File U8} (hhead : l.headD 0 = fp.sclust.toNat)
    (hst : fp.Stores s.vol.toGeometry v'.drive.sectors l F) :
    (s.set i v' fp).Data (Function.update f i l) lost (Function.update files i F) := by
  have hgeo := halt.geometry
  refine ⟨?_, ?_, halt.reliable.mpr h.reliable, ?_, fun j => ?_⟩
  · have hnone : {x | x ∈ m ∧ cutOff s.vol.fsType s.vol.entry l m x ≠ 0} = ∅ := by
      refine Set.eq_empty_iff_forall_notMem.mpr fun x hx => hx.2 ?_
      exact if_pos hx.1
    have hheads : ∀ j, (Function.update f i l j).headD 0 =
        ((Function.update s.fil i fp j).sclust).toNat := by
      intro j
      by_cases hj : j = i
      · rw [hj, Function.update_self, Function.update_self]
        exact hhead
      · rw [Function.update_of_ne hj, Function.update_of_ne hj]
        exact h.owns.heads j
    have howns := h.owns.of_cutOff hi (fun _ hx => hx) halt hcount hheads
    change FatState.Owns _ _ (lost ∪ {x | x ∈ m ∧ cutOff s.vol.fsType s.vol.entry l m x ≠ 0})
      at howns
    rw [hnone, Set.union_empty] at howns
    exact howns
  · show v'.DataSound
    rw [hgeo]
    exact h.sound
  · show ∀ c ∈ v'.clusters, ∀ k < v'.csize.toNat, v'.winsect = v'.dataSect c k → c ∈ lost
    rw [hgeo]
    exact fun c hc k hk hw => h.window_of_alters halt hc hk hw
  · show (Function.update s.fil i fp j).Stores v'.toGeometry v'.drive.sectors _ _
    rw [hgeo]
    by_cases hj : j = i
    · rw [hj, Function.update_self, Function.update_self, Function.update_self]
      exact hst
    · rw [Function.update_of_ne hj, Function.update_of_ne hj, Function.update_of_ne hj]
      exact (h.stores j).congr fun q hq => h.place_of_alters halt hq

/-- The buffer is written back after the chain was cut. -/
theorem flushBuf_cut (h : s.Data f lost files) {l m : List ℕ} (hi : f i = l ++ m)
    {v' : Volume} (halt : s.vol.Alters v' (cutOff s.vol.fsType s.vol.entry l m))
    (hcount : v'.Counted) (fp : Fil) (hdirty : fp.dirty = (s.fil i).dirty)
    (hsect : fp.sect = (s.fil i).sect) (hbuf : fp.buf = (s.fil i).buf)
    (hhead : l.headD 0 = fp.sclust.toNat) {p : ℕ} (hsize : fp.objsize.toNat = p)
    (hp : p ≤ (files i).size) (hroom : p ≤ 512 * (s.vol.csize.toNat * l.length)) :
    ∃ v'', flushBuf v' fp = (.ok, { fp with dirty := false }, v'') ∧
      v''.toGeometry = s.vol.toGeometry ∧
      (s.set i v'' { fp with dirty := false }).Data (Function.update f i l) lost
        (Function.update files i { files i with size := p }) := by
  have hst := (h.stores i).congr fun q hq => h.place_of_alters halt hq
  rw [hi] at hst
  by_cases hcut : fp.dirty = true ∧ ∀ q < s.vol.csize.toNat * l.length,
      s.vol.place l q ≠ fp.sect
  · -- the sector is not in the file any more
    obtain ⟨hd, hoff⟩ := hcut
    have hst' := hst.shrunk h.sound { fp with dirty := false } hp hroom hsize hsect hbuf
      (fun hn => Bool.noConfusion hn) fun _ _ q hq => hsect ▸ hoff q hq
    have hdata := h.of_cutOff hi halt hcount { fp with dirty := false } hhead hst'
    have hrel : v'.drive.Reliable := hdata.reliable
    rw [flushBuf, if_pos hd, diskWrite_reliable hrel]
    refine ⟨_, rfl, halt.geometry, ?_⟩
    -- it was, so that no other file has it now
    obtain ⟨q, hq, heq⟩ := (h.stores i).dirty (hdirty ▸ hd)
    have hmem := (h.sound.cell_mem hq).2
    obtain ⟨hc, hlost⟩ := h.cell hmem
    have hgeo : v'.toGeometry = s.vol.toGeometry := halt.geometry
    have hwritten := v'.drive.sectors_written_one (fun _ => fp.buf) fp.sect
    have hfiles : Function.update files i { files i with size := p } =
        Function.update (Function.update files i { files i with size := p }) i
          { files i with size := p } := (Function.update_idem ..).symm
    rw [← s.set_set i v' _ { fp with dirty := false }, hfiles]
    refine hdata.of_written rfl ?_ ?_ ?_
    · intro x hx
      rw [s.set_vol, hgeo]
      refine ⟨_, hc, hlost, fun j hj hin => ?_, q % s.vol.csize.toNat,
        Nat.mod_lt _ h.sound.csize_pos, ?_⟩
      · rw [Function.update_of_ne hj] at hin
        exact hj (h.owns.allocated.apart j i _ hin hmem)
      · rw [s.set_vol, hwritten] at hx
        by_contra hne
        refine hx (Function.update_of_ne ?_ _ _)
        rw [hsect, heq]
        exact hne
    · rw [s.set_fil]
    · rw [s.set_vol, hgeo, Function.update_self]
      refine hst'.congr fun q' hq' => ?_
      rw [hwritten, Function.update_of_ne (hoff q' hq')]
  · have hst' := hst.shrunk h.sound fp hp hroom hsize hsect hbuf (fun hd => ?_)
      fun hd hd' => absurd (hdirty.trans hd') (by rw [hd]; decide)
    · have hdata := h.of_cutOff hi halt hcount fp hhead hst'
      obtain ⟨v'', hflush, hdata', hgeo⟩ := flushBuf_spec hdata i
      rw [s.set_fil, s.set_vol] at hflush
      rw [s.set_fil, s.set_set] at hdata'
      exact ⟨v'', hflush, hgeo.trans halt.geometry, hdata'⟩
    · refine ⟨hdirty ▸ hd, ?_⟩
      by_contra hnone
      exact hcut ⟨hd, fun q hq heq => hnone ⟨q, hq, hsect ▸ heq.symm⟩⟩

/-! ### The function -/

/-- The pointer of a file that is cut there. -/
theorem Fil.Points.truncated {g : Geometry} (hd : g.DataSound) {fp fp' : Fil} {l m : List ℕ}
    {F : File U8} (hp : fp.Points g (l ++ m) F) (hfptr : fp'.fptr = fp.fptr)
    (hclust : fp'.clust = fp.clust) (hsect : fp'.sect = fp.sect)
    (hroom : F.ptr ≤ 512 * (g.csize.toNat * l.length)) : fp'.Points g l F.truncated := by
  refine ⟨hfptr ▸ hp.ptr, Nat.le_refl _, fun hpos => ?_, fun hmod => ?_⟩
  · have hc := hp.clust hpos
    change 0 < F.ptr at hpos
    have hlt := (hd.cell_mem (show (F.ptr - 1) / 512 < g.csize.toNat * l.length by omega)).1
    rw [List.getElem?_append_left hlt] at hc
    rw [hclust]
    exact hc
  · have hs := hp.current hmod
    change F.ptr % 512 ≠ 0 at hmod
    rw [place_extend hd (by omega)] at hs
    rw [hsect]
    exact hs

/-- File `i` has been cut at its pointer; `fp` is its object. -/
structure Truncated (s : FileSys ι) (f : ι → List ℕ) (lost : Set ℕ) (files : ι → File U8) (i : ι)
    (fp : Fil) (v' : Volume) : Prop where
  geometry : v'.toGeometry = s.vol.toGeometry
  handle : fp.toHandle = (s.fil i).toHandle
  inv : ∃ f', (∀ j, j ≠ i → f' j = f j) ∧
    (s.set i v' fp).Inv f' lost (Function.update files i (files i).truncated)

/-- What is done when the clusters are free. -/
theorem truncate_end (h : s.Inv f lost files) {w : Volume}
    (hw : FileSys.Data ⟨w, s.fil⟩ f lost files)
    (hgeo : w.toGeometry = s.vol.toGeometry) {l m : List ℕ} (hi : f i = l ++ m) {v' : Volume}
    (halt : w.Alters v' (cutOff w.fsType w.entry l m)) (hcount : v'.Counted) {start : U32}
    (hhead : l.headD 0 = start.toNat)
    (hroom : (files i).ptr ≤ 512 * (s.vol.csize.toNat * l.length)) :
    ∃ v'' fp, flushBuf v' { s.fil i with
        sclust := start, objsize := (s.fil i).fptr, modified := true } = (.ok, fp, v'') ∧
      Truncated s f lost files i fp v'' := by
  have hp := h.points i
  obtain ⟨v'', hflush, hgeo', hdata⟩ := flushBuf_cut hw hi halt hcount
    { s.fil i with sclust := start, objsize := (s.fil i).fptr, modified := true }
    rfl rfl rfl hhead hp.ptr.symm hp.inside (by rw [hgeo]; exact hroom)
  have hgeo'' : v''.toGeometry = s.vol.toGeometry := hgeo'.trans hgeo
  have hpoints : Fil.Points s.vol.toGeometry { s.fil i with
      sclust := start, objsize := (s.fil i).fptr, modified := true, dirty := false }
      l (files i).truncated := by
    rw [hi] at hp
    exact hp.truncated h.sound rfl rfl rfl hroom
  refine ⟨v'', _, hflush, hgeo'', rfl, Function.update f i l,
    fun j hj => Function.update_of_ne hj .., ?_⟩
  refine h.of_data hdata hgeo'' (fun j hj => Function.update_of_ne hj ..) rfl ?_
  rw [Function.update_self]
  exact hpoints

/-- At the beginning of the file all of its clusters go. -/
theorem truncate_all (h : s.Inv f lost files) (hzero : (files i).ptr = 0)
    (hpos : 0 < (files i).size) : ∃ v' v'' fp,
      removeChain s.vol (s.fil i).sclust 0#32 = some (.ok, v') ∧
      flushBuf v' { s.fil i with
        sclust := 0#32, objsize := (s.fil i).fptr, modified := true } = (.ok, fp, v'') ∧
      Truncated s f lost files i fp v'' := by
  obtain ⟨t, hf⟩ : ∃ t, f i = (s.fil i).sclust.toNat :: t := by
    have hhead := h.owns.heads i
    change (f i).headD 0 = (s.fil i).sclust.toNat at hhead
    cases hf : f i with
    | nil =>
      have hroom := (h.stores i).room
      rw [hf, List.length_nil] at hroom
      omega
    | cons c t =>
      rw [hf] at hhead
      exact ⟨t, by rw [← hhead]; rfl⟩
  have hch := h.owns.allocated.chain i
  rw [hf] at hch
  have hres := removeChain_spec h.owns.sound h.owns.coherent
    (show Chain s.vol.clusters 0 s.vol.entry ([] ++ (s.fil i).sclust.toNat :: t) from hch)
    h.owns.links (show (0#32 : U32) = 0#32 ∧ _ ∨ _ from Or.inl ⟨rfl, rfl⟩)
  change CutResult s.vol _ _ (removeChain s.vol _ _) at hres
  generalize removeChain s.vol (s.fil i).sclust 0#32 = out at hres
  cases hres with
  | @done v' halt hcount =>
    obtain ⟨v'', fp, hflush, hdone⟩ := truncate_end h h.toData rfl
      (show f i = [] ++ _ from hf) halt (hcount h.owns.counted)
      (show ([] : List ℕ).headD 0 = (0#32 : U32).toNat from rfl) (by omega)
    exact ⟨v', v'', fp, rfl, hflush, hdone⟩
  | failed hbad => exact absurd h.reliable hbad

section Behind

variable {v₁ : Volume} {n : ℕ}

/-- The clusters behind the pointer go, from `ncl` on. -/
theorem truncate_behind (h : s.Inv f lost files) (hsets : s.vol.Sets v₁ s.vol.entry)
    (hc : (f i)[n]? = some (s.fil i).clust.toNat) {ncl : U32}
    (hnext : (f i)[n + 1]? = some ncl.toNat)
    (hroom : (files i).ptr ≤ 512 * (s.vol.csize.toNat * (n + 1))) : ∃ v' v'' fp,
      removeChain v₁ ncl (s.fil i).clust = some (.ok, v') ∧
      flushBuf v' { s.fil i with
        objsize := (s.fil i).fptr, modified := true } = (.ok, fp, v'') ∧
      Truncated s f lost files i fp v'' := by
  have hdata := h.of_sets hsets
  have hlen := (List.getElem?_eq_some_iff.mp hnext).1
  have hf : f i = (f i).take (n + 1) ++ ncl.toNat :: (f i).drop (n + 2) := by
    conv_lhs => rw [← List.take_append_drop (n + 1) (f i)]
    rw [List.drop_eq_getElem_cons hlen, (List.getElem?_eq_some_iff.mp hnext).2]
  have hlast : (s.fil i).clust.toNat ∈ ((f i).take (n + 1)).getLast? := by
    rw [List.take_add_one, hc]
    simp
  have hch := hdata.owns.allocated.chain i
  rw [hf] at hch
  have hrem := removeChain_spec hdata.owns.sound hdata.owns.coherent hch hdata.owns.links
    (Or.inr hlast)
  change CutResult v₁ _ _ (removeChain v₁ _ _) at hrem
  generalize removeChain v₁ ncl (s.fil i).clust = out at hrem
  cases hrem with
  | @done v' halt hcount =>
    have hhead : ((f i).take (n + 1)).headD 0 = (s.fil i).sclust.toNat := by
      have hhead := h.owns.heads i
      change (f i).headD 0 = (s.fil i).sclust.toNat at hhead
      rw [← hhead]
      cases f i <;> rfl
    have hkept : ((f i).take (n + 1)).length = n + 1 := by
      rw [List.length_take]
      omega
    obtain ⟨v'', fp, hflush, hdone⟩ := truncate_end h hdata hsets.geometry hf halt
      (hcount hdata.owns.counted) hhead (by rw [hkept]; exact hroom)
    exact ⟨v', v'', fp, rfl, hflush, hdone⟩
  | failed hbad => exact absurd hdata.reliable hbad

/-- No cluster is behind the pointer. -/
theorem truncate_none (h : s.Inv f lost files) (hsets : s.vol.Sets v₁ s.vol.entry)
    (hroom : (files i).ptr ≤ 512 * (s.vol.csize.toNat * (f i).length)) : ∃ v'' fp,
      flushBuf v₁ { s.fil i with
        objsize := (s.fil i).fptr, modified := true } = (.ok, fp, v'') ∧
      Truncated s f lost files i fp v'' := by
  have hdata := h.of_sets hsets
  have hgeo : v₁.toGeometry = s.vol.toGeometry := hsets.geometry
  have hp := h.points i
  have hst := hdata.stores i
  change (s.fil i).Stores v₁.toGeometry v₁.drive.sectors (f i) (files i) at hst
  rw [hgeo, ← List.append_nil (f i)] at hst
  have hcut := hst.shrunk h.sound
    { s.fil i with objsize := (s.fil i).fptr, modified := true } hp.inside hroom
    hp.ptr.symm rfl rfl (fun hd => ⟨hd, (h.stores i).dirty hd⟩)
    fun hd hd' => absurd (hd'.symm.trans hd) (by decide)
  rw [← hgeo] at hcut
  obtain ⟨v'', hflush, hdata', hgeo'⟩ :=
    flushBuf_spec (hdata.with_fil (i := i) (by rfl) hcut) i
  rw [FileSys.set_fil, FileSys.set_vol] at hflush
  rw [FileSys.set_fil, FileSys.set_set] at hdata'
  refine ⟨v'', _, hflush, hgeo'.trans hgeo, rfl, f, fun _ _ => rfl,
    h.of_data hdata' (hgeo'.trans hgeo) (fun _ _ => rfl) rfl ?_⟩
  rw [← List.append_nil (f i)] at hp
  exact hp.truncated h.sound rfl rfl rfl hroom

end Behind

/-- The pointer is in the file: what is behind it is cut off. -/
theorem fTruncate_cut (h : s.Inv f lost files) (hwrite : (s.fil i).write = true)
    (hlt : (s.fil i).fptr < (s.fil i).objsize) : ∃ fp v',
      fTruncate s.vol (s.fil i) = some (.ok, fp, v') ∧ Truncated s f lost files i fp v' := by
  obtain ⟨hvalid, herr⟩ := h.ready i
  have hp := h.points i
  have hlt' := BitVec.lt_def.mp hlt
  rw [← hp.ptr, ← (h.stores i).size] at hlt'
  unfold fTruncate
  simp only [hvalid, herr, hwrite, ne_eq, not_true_eq_false, if_false, if_pos hlt]
  by_cases h0 : (s.fil i).fptr = 0#32
  · have hptr : (files i).ptr = 0 := by rw [hp.ptr, h0]; rfl
    obtain ⟨v', v'', fp, hrem, hflush, hdone⟩ := truncate_all h hptr (by omega)
    refine ⟨fp, v'', ?_, hdone⟩
    rw [if_pos h0, hrem]
    simp only [Option.map_some, if_true, hflush]
  · rw [if_neg h0]
    have hpos := hp.pos h0
    have hc := hp.clust hpos
    have hroom : (files i).ptr ≤
        512 * (s.vol.csize.toNat * (((files i).ptr - 1) / 512 / s.vol.csize.toNat + 1)) := by
      have := Nat.lt_mul_div_succ (((files i).ptr - 1) / 512) h.sound.csize_pos
      omega
    generalize ((files i).ptr - 1) / 512 / s.vol.csize.toNat = n at hc hroom
    have hmem := (h.cells i).1 _ (List.mem_of_getElem? hc)
    obtain ⟨hsets, hres, hff⟩ := h.getFat_cell hmem
    have hone := h.owns.links _ hmem
    change s.vol.entry (s.fil i).clust.toNat ≠ 1 at hone
    have hzero := h.owns.allocated.next_ne (List.mem_of_getElem? hc)
    change s.vol.entry (s.fil i).clust.toNat ≠ 0 at hzero
    have hnext := (h.owns.allocated.chain i).next_cases hc
    change s.vol.entry _ ∈ s.vol.clusters ∧ (f i)[n + 1]? = some (s.vol.entry _) ∨
      s.vol.entry _ ∉ s.vol.clusters ∧ _ at hnext
    rw [← hres] at hone hnext hzero
    generalize getFat s.vol (s.fil i).clust = out at hsets hff hone hnext hzero
    obtain ⟨ncl, v₁⟩ := out
    have hgeo : v₁.toGeometry = s.vol.toGeometry := hsets.geometry
    simp only
    -- clusters behind that of the pointer are given back, if there are any
    rcases hnext with ⟨hin, hnext⟩ | ⟨hout, hend⟩
    · obtain ⟨hb1, -, hb3, hb4⟩ := h.clust_bounds hin
      obtain ⟨v', v'', fp, hrem, hflush, hdone⟩ := truncate_behind h hsets hc hnext hroom
      refine ⟨fp, v'', ?_, hdone⟩
      rw [if_neg hb3, if_neg (ne_of_clust hb1).2, hgeo, if_pos (BitVec.not_le.mp hb4), hrem]
      simp only [Option.map_some, if_true]
      rw [hflush]
    · have hge : ¬ ncl < v₁.nFatent := by
        intro hlt'
        have := BitVec.lt_def.mp hlt'
        rw [hgeo] at this
        change ncl.toNat ≠ 0 at hzero
        change ncl.toNat ≠ 1 at hone
        exact hout ⟨show 2 ≤ ncl.toNat by omega, this⟩
      have h1 : ncl ≠ 1#32 := by
        rintro rfl
        exact hone rfl
      obtain ⟨v'', fp, hflush, hdone⟩ := truncate_none h hsets (by rw [← hend]; exact hroom)
      refine ⟨fp, v'', ?_, hdone⟩
      rw [if_neg hff, if_neg h1, if_neg hge]
      simp only [Option.map_some, if_true]
      rw [hflush]

/-- **`f_truncate` ends the file at the pointer.** -/
theorem fTruncate_spec (h : s.Inv f lost files) (hwrite : (s.fil i).write = true) :
    ∃ fp v' f', fTruncate s.vol (s.fil i) = some (.ok, fp, v') ∧
      v'.toGeometry = s.vol.toGeometry ∧ fp.toHandle = (s.fil i).toHandle ∧
      (∀ j, j ≠ i → f' j = f j) ∧
      (s.set i v' fp).Inv f' lost (Function.update files i (files i).truncated) := by
  by_cases hlt : (s.fil i).fptr < (s.fil i).objsize
  · obtain ⟨fp, v', hrun, hgeo, hhandle, f', hother, hinv⟩ := fTruncate_cut h hwrite hlt
    exact ⟨fp, v', f', hrun, hgeo, hhandle, hother, hinv⟩
  · -- the pointer is at the end already
    obtain ⟨hvalid, herr⟩ := h.ready i
    have hp := h.points i
    have hin := hp.inside
    have hle := BitVec.le_def.mp (BitVec.not_lt.mp hlt)
    rw [← hp.ptr, ← (h.stores i).size] at hle
    have hsize : (files i).ptr = (files i).size := by omega
    have hsame : (files i).truncated = files i :=
      congrArg (fun n => { files i with size := n }) hsize
    unfold fTruncate
    simp only [hvalid, herr, hwrite, ne_eq, not_true_eq_false, if_false, if_neg hlt]
    refine ⟨_, _, f, rfl, rfl, rfl, fun _ _ => rfl, ?_⟩
    rw [hsame, Function.update_eq_self, s.set_self]
    exact h

end GamingConsole
