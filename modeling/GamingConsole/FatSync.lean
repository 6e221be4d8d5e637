/-
`f_sync`.

The buffer is written back, the directory entry gets the size and the first cluster, and what
waits in the window is written.  What is on the drive then is enough to open the file again, on
a volume that is mounted anew.

* `ldClust_syncEntry`, `ld32_syncEntry` — what is read from the directory entry;
* `fSync_spec` — the files are as they were, and nothing waits;
* `reopened` — the file that is opened from the directory entry has the same bytes.
-/
import GamingConsole.FatTruncate

namespace GamingConsole

open LinkTable CellFile WriteBack

/-! ### The directory entry -/

section Entry

variable {s s' : Sector} {p k : ℕ}

theorem byteAt_st16_off (hp : p + 2 ≤ 512) (hk : k < p ∨ p + 2 ≤ k) (hin : k < 512) (x : U16) :
    byteAt (st16 s p x) k = byteAt s k := by
  unfold st16
  rw [byteAt_putByte, if_neg (by omega), byteAt_putByte, if_neg (by omega)]

theorem byteAt_st32_off (hp : p + 4 ≤ 512) (hk : k < p ∨ p + 4 ≤ k) (hin : k < 512) (x : U32) :
    byteAt (st32 s p x) k = byteAt s k := by
  unfold st32
  rw [byteAt_putByte, if_neg (by omega), byteAt_putByte, if_neg (by omega), byteAt_putByte,
    if_neg (by omega), byteAt_putByte, if_neg (by omega)]

theorem ld16_congr (h : ∀ k, p ≤ k → k < p + 2 → byteAt s k = byteAt s' k) :
    ld16 s p = ld16 s' p := by
  rw [ld16, ld16, h p (by omega) (by omega), h (p + 1) (by omega) (by omega)]

theorem ld32_congr (h : ∀ k, p ≤ k → k < p + 4 → byteAt s k = byteAt s' k) :
    ld32 s p = ld32 s' p := by
  rw [ld32, ld32, h p (by omega) (by omega), h (p + 1) (by omega) (by omega),
    h (p + 2) (by omega) (by omega), h (p + 3) (by omega) (by omega)]

/-- What is stored is loaded again. -/
theorem ld16_st16 (x : U16) : ld16 (st16 s p x) p = x := by
  refine BitVec.eq_of_toNat_eq ?_
  have hlt := x.isLt
  rw [toNat_ld16]
  unfold st16
  rw [byteAt_putByte, if_neg (by omega), byteAt_putByte, if_pos rfl, byteAt_putByte, if_pos rfl,
    byte_ofNat, BitVec.toNat_setWidth, BitVec.toNat_ofNat]
  omega

theorem ld32_st32 (x : U32) : ld32 (st32 s p x) p = x := by
  refine BitVec.eq_of_toNat_eq ?_
  have hlt := x.isLt
  rw [toNat_ld32]
  unfold st32
  simp only [byteAt_putByte, byte_ofNat, if_true]
  rw [if_neg (by omega), if_neg (by omega), if_neg (by omega), if_neg (by omega),
    if_neg (by omega), if_neg (by omega)]
  simp only [BitVec.toNat_setWidth, BitVec.toNat_ofNat]
  omega

/-- The parts of a word are put together again. -/
theorem or_halves (x : U32) :
    ((x.setWidth 16 : U16).setWidth 32 : U32) |||
      ((x >>> 16).setWidth 16 : U16).setWidth 32 <<< 16 = x := by
  refine BitVec.eq_of_getLsbD_eq fun i hi => ?_
  simp only [BitVec.getLsbD_or, BitVec.getLsbD_setWidth, BitVec.getLsbD_shiftLeft,
    BitVec.getLsbD_ushiftRight]
  by_cases h : i < 16
  · simp [h, hi]
  · have h1 : i - 16 < 16 := by omega
    have h2 : i - 16 < 32 := by omega
    rw [show 16 + (i - 16) = i by omega]
    simp [h, hi, h1, h2]

variable {win : Sector} {fp : Fil} {t : FsType}

/-- The size is in the entry. -/
theorem ld32_syncEntry (hp : fp.dirPtr + 32 ≤ 512) :
    ld32 (syncEntry t win fp) (fp.dirPtr + 28) = fp.objsize := by
  unfold syncEntry
  rw [ld32_congr fun k h1 h2 => byteAt_st16_off (by omega) (by omega) (by omega) _,
    ld32_congr fun k h1 h2 => byteAt_st32_off (by omega) (by omega) (by omega) _,
    ld32_st32]

/-- The first cluster is in the entry. -/
theorem ldClust_syncEntry (hp : fp.dirPtr + 32 ≤ 512)
    (ht : t ≠ .fat32 → fp.sclust.toNat < 2 ^ 16) :
    ldClust t (syncEntry t win fp) fp.dirPtr = fp.sclust := by
  have hload : ∀ q, (q = fp.dirPtr + 20 ∨ q = fp.dirPtr + 26) →
      ld16 (syncEntry t win fp) q = ld16 (stClust t (putByte win (fp.dirPtr + 11)
        (byteAt win (fp.dirPtr + 11) ||| 0x20#8)) fp.dirPtr fp.sclust) q := by
    intro q hq
    unfold syncEntry
    rw [ld16_congr fun k h1 h2 => byteAt_st16_off (by omega) (by omega) (by omega) _,
      ld16_congr fun k h1 h2 => byteAt_st32_off (by omega) (by omega) (by omega) _,
      ld16_congr fun k h1 h2 => byteAt_st32_off (by omega) (by omega) (by omega) _]
  unfold ldClust
  simp only [hload _ (Or.inl rfl), hload _ (Or.inr rfl)]
  unfold stClust
  by_cases h32 : t = .fat32
  · simp only [h32, if_true]
    rw [ld16_congr fun k h1 h2 => byteAt_st16_off (by omega) (by omega) (by omega) _,
      ld16_st16, ld16_st16]
    exact or_halves _
  · simp only [if_neg h32]
    rw [ld16_st16]
    refine BitVec.eq_of_toNat_eq ?_
    have hlt := ht h32
    rw [BitVec.toNat_setWidth, BitVec.toNat_setWidth, Nat.mod_eq_of_lt hlt]
    exact Nat.mod_eq_of_lt (by omega)

end Entry

/-! ### A sector that is changed in the window -/

/-- A sector is shown in the window, and becomes `w`. -/
theorem moveWindow_change {v : Volume} (h : v.Coherent) (hrel : v.drive.Reliable) {sect : U32}
    (hs : sect ∈ v.served) : ∃ v₂, moveWindow v sect = (.ok, v₂) ∧ v₂.win = v.view sect ∧
      v₂.toGeometry = v.toGeometry ∧ v₂.freeClst = v.freeClst ∧
      v₂.drive.fault = v.drive.fault ∧ v₂.winsect = sect ∧
      ∀ w : Sector, Volume.Coherent { v₂ with win := w, wflag := true } ∧
        (v.Mirrored → Volume.Mirrored { v₂ with win := w, wflag := true }) ∧
        ∀ x ∈ v.served, Volume.view { v₂ with win := w, wflag := true } x =
          if x = sect then w else v.view x := by
  obtain ⟨hkeep, hres⟩ := moveWindow_keeps h hs
  obtain ⟨hok, hsect, hwin⟩ := hres.resolve_right fun hbad => hbad.2 hrel
  generalize hmove : moveWindow v sect = out at hkeep hok hsect hwin
  obtain ⟨res, v₂⟩ := out
  replace hok : res = .ok := hok
  subst hok
  replace hsect : v₂.winsect = sect := hsect
  replace hkeep : v.Keeps v₂ := hkeep
  refine ⟨v₂, rfl, hwin, hkeep.geometry, hkeep.freeClst, hkeep.fault, hsect, fun w => ⟨?_, ?_, ?_⟩⟩
  · refine Buffered.coherent_modify (b := v₂.window) (S := v₂.served) ?_ w
    show v₂.winsect ∈ v₂.served
    rw [hkeep.geometry, hsect]
    exact hs
  · intro hm hrel' htwo x hx hne
    exact hkeep.mirrored hm hrel' htwo x hx fun _ => hne rfl
  · intro x hx
    show (if x = v₂.winsect then w else v₂.drive.sectors x) = _
    rw [hsect]
    by_cases hxs : x = sect
    · rw [if_pos hxs, if_pos hxs]
    · have hold := hkeep.view x hx
      change v₂.window.view x = v.view x at hold
      rw [if_neg hxs, if_neg hxs, ← hold]
      exact (v₂.window.view_of_ne (show x ≠ v₂.winsect from hsect ▸ hxs)).symm

/-- `sync_fs` writes what waits. -/
theorem syncFs_reliable {v : Volume} (h : v.Coherent) (hrel : v.drive.Reliable) :
    ∃ v', syncFs v = (.ok, v') ∧ v'.wflag = false := by
  have hok : (syncFs v).1 = .ok := by
    obtain ⟨-, -, hres⟩ := syncWindow_keeps h
    unfold syncFs
    generalize syncWindow v = out at hres
    obtain ⟨res, v₁⟩ := out
    rcases hres with ⟨rfl, -⟩ | ⟨rfl, hbad⟩
    · simp only
      split_ifs <;> rfl
    · exact absurd hrel hbad
  exact ⟨_, Prod.ext hok rfl, syncFs_clean h hok⟩

/-- A buffer that is written back changes its sector only. -/
theorem flushBuf_view {v : Volume} {fp : Fil} {x : U32} (hx : fp.dirty = true → x ≠ fp.sect) :
    (flushBuf v fp).2.2.view x = v.view x := by
  unfold flushBuf
  split_ifs with hd
  · obtain ⟨data, hdata, -, -⟩ := diskWrite_one v.drive fp.buf fp.sect
    generalize diskWrite v.drive (fun _ => fp.buf) fp.sect 1 = out at hdata
    obtain ⟨res, drive⟩ := out
    have hsame : drive.sectors x = v.drive.sectors x := by
      rw [show drive.sectors = _ from hdata, Function.update_of_ne (hx hd)]
    cases res <;>
      exact congrArg (fun y => if x = v.winsect then v.win else y) hsame
  · rfl

/-! ### A sector that is of no file -/

/-- The directory entry is in a sector that is neither of a FAT nor of a file. -/
structure Handle.AtEntry (g : Geometry) (lost : Set ℕ) (h : Handle) : Prop where
  served : h.dirSect ∈ g.served
  behind : g.fsize ≤ h.dirSect - g.fatbase
  apart : ∀ c ∈ g.clusters, ∀ k < g.csize.toNat, h.dirSect = g.dataSect c k → c ∈ lost
  inside : h.dirPtr + 32 ≤ 512

variable {ι : Type} {s : FileSys ι} {f : ι → List ℕ} {lost : Set ℕ} {files : ι → File U8} {i : ι}

/-- Only `sect` is read otherwise than before. -/
theorem FileSys.Data.of_view (h : s.Data f lost files) {v' : Volume} {sect : U32}
    (hgeo : v'.toGeometry = s.vol.toGeometry) (hfree : v'.freeClst = s.vol.freeClst)
    (hfault : v'.drive.fault = s.vol.drive.fault) (hcoh : v'.Coherent) (hmir : v'.Mirrored)
    (hview : ∀ x ∈ s.vol.served, x ≠ sect → v'.view x = s.vol.view x)
    (hbehind : s.vol.fsize ≤ sect - s.vol.fatbase)
    (hapart : ∀ c ∈ s.vol.clusters, ∀ k < s.vol.csize.toNat, sect = s.vol.dataSect c k → c ∈ lost)
    (hwin : v'.winsect = sect ∨ v'.winsect ∈ s.vol.system) :
    FileSys.Data ⟨v', s.fil⟩ f lost files := by
  have hsound := h.owns.sound
  refine ⟨h.owns.of_view hgeo hfree hfault hcoh hmir (fun x hx hlt => hview x hx fun heq => ?_)
    fun _ => rfl, hgeo ▸ h.sound, fun n => (congrFun hfault n).trans (h.reliable n), ?_,
    fun j => ?_⟩
  · exact absurd (heq ▸ hlt) (BitVec.not_lt.mpr hbehind)
  · show ∀ c ∈ v'.clusters, ∀ k < v'.csize.toNat, v'.winsect = v'.dataSect c k → c ∈ lost
    rw [hgeo]
    intro c hc k hk hw
    rcases hwin with heq | hsys
    · exact hapart c hc k hk (heq ▸ hw)
    · rw [hw] at hsys
      exact absurd hsys (h.sound.dataSect_off hsound hc hk).2.1
  · show (s.fil j).Stores v'.toGeometry v'.drive.sectors (f j) (files j)
    rw [hgeo]
    refine (h.stores j).congr fun q hq => ?_
    obtain ⟨hc, hlost⟩ := h.cell (h.sound.cell_mem hq).2
    have hmod := Nat.mod_lt q h.sound.csize_pos
    obtain ⟨hserved, hne, -⟩ := h.dataSect_off hc hlost hmod
    have hsect : s.vol.place (f j) q ≠ sect := fun heq => hlost (hapart _ hc _ hmod heq.symm)
    have hne' : s.vol.place (f j) q ≠ v'.winsect := by
      intro heq
      rcases hwin with hw | hw
      · exact hsect (heq.trans hw)
      · rw [← heq] at hw
        exact (h.sound.dataSect_off hsound hc hmod).2.1 hw
    have hsame := hview _ hserved hsect
    change v'.view (s.vol.place (f j) q) = s.vol.view (s.vol.place (f j) q) at hsame
    change s.vol.place (f j) q ≠ _ at hne
    rwa [Volume.view, v'.window.view_of_ne hne', Volume.view, s.vol.window.view_of_ne hne] at hsame

/-! ### The function -/

variable [DecidableEq ι]

/-- **`f_sync` leaves the files as they are**, and of a file that was changed nothing waits: the
directory entry on the drive is that of the file. -/
theorem fSync_spec (h : s.Inv f lost files)
    (hentry : (s.fil i).toHandle.AtEntry s.vol.toGeometry lost) :
    ∃ fp v', fSync s.vol (s.fil i) = (.ok, fp, v') ∧ v'.toGeometry = s.vol.toGeometry ∧
      fp.toHandle = (s.fil i).toHandle ∧ (s.set i v' fp).Inv f lost files ∧
      ((s.fil i).modified = true → fp.dirty = false ∧ v'.wflag = false ∧
        v'.drive.sectors fp.dirSect = syncEntry s.vol.fsType (s.vol.view fp.dirSect) fp) := by
  obtain ⟨hvalid, -⟩ := h.ready i
  have hp := h.points i
  unfold fSync
  simp only [hvalid, ne_eq, not_true_eq_false, if_false]
  by_cases hmod : (s.fil i).modified = true
  · rw [if_pos hmod]
    obtain ⟨v₁, hflush, hdata₁, hgeo₁⟩ := flushBuf_spec h.toData i
    -- the buffer was for another sector: that of the entry is of no file
    have hview₁ : v₁.view (s.fil i).dirSect = s.vol.view (s.fil i).dirSect := by
      have hview := @flushBuf_view s.vol (s.fil i) (s.fil i).dirSect fun hd heq => by
        obtain ⟨q, hq, hsect⟩ := (h.stores i).dirty hd
        obtain ⟨hc, hlost⟩ := h.cell (h.sound.cell_mem hq).2
        exact hlost (hentry.apart _ hc _ (Nat.mod_lt _ h.sound.csize_pos) (heq.trans hsect))
      rwa [hflush] at hview
    rw [hflush]
    simp only
    have hcoh₁ : v₁.Coherent := hdata₁.owns.coherent
    have hserved : (s.fil i).dirSect ∈ v₁.served := hgeo₁ ▸ hentry.served
    obtain ⟨v₂, hmove, hwin₂, hgeo₂, hfree₂, hfault₂, hsect₂, hchange⟩ :=
      moveWindow_change hcoh₁ hdata₁.reliable hserved
    rw [hmove]
    simp only
    have htype : v₂.fsType = s.vol.fsType := congrArg Geometry.fsType (hgeo₂.trans hgeo₁)
    obtain ⟨hcoh₃, hmir₃, hview₃⟩ :=
      hchange (syncEntry v₂.fsType v₂.win { s.fil i with dirty := false })
    -- the new entry waits in the window for `sync_fs`
    obtain ⟨v₃, hv₃⟩ : ∃ v₃ : Volume, v₃ = { v₂ with
      win := syncEntry v₂.fsType v₂.win { s.fil i with dirty := false }, wflag := true } := ⟨_, rfl⟩
    rw [← hv₃] at hcoh₃ hmir₃ hview₃ ⊢
    have hgeo₃ : v₃.toGeometry = v₁.toGeometry := by rw [hv₃]; exact hgeo₂
    have hfree₃ : v₃.freeClst = v₁.freeClst := by rw [hv₃]; exact hfree₂
    have hfault₃ : v₃.drive.fault = v₁.drive.fault := by rw [hv₃]; exact hfault₂
    have hsect₃ : v₃.winsect = (s.fil i).dirSect := by rw [hv₃]; exact hsect₂
    have hinfo : v₃.fsType = .fat32 → v₃.volbase.toNat + 1 < v₃.fatbase.toNat := by
      rw [hgeo₃]
      exact hdata₁.owns.sound.info
    have hrel₃ : v₃.drive.Reliable := fun n => (congrFun hfault₃ n).trans (hdata₁.reliable n)
    obtain ⟨v', hsync, hclean⟩ := syncFs_reliable hcoh₃ hrel₃
    have hkeep := syncFs_keeps hcoh₃ hinfo
    have hwin := syncFs_winsect hcoh₃ hinfo
    rw [hsync] at hkeep hwin ⊢
    have hgeo : v'.toGeometry = v₁.toGeometry := hkeep.geometry.trans hgeo₃
    have hview : ∀ x ∈ v₁.served, x ≠ (s.fil i).dirSect → v'.view x = v₁.view x := by
      intro x hx hne
      have h1 := hkeep.view x (hgeo₃ ▸ hx)
      have h2 := hview₃ x hx
      rw [if_neg hne] at h2
      exact h1.trans h2
    have hdata' := hdata₁.of_view hgeo (hkeep.freeClst.trans hfree₃) (hkeep.fault.trans hfault₃)
      hkeep.coherent (hkeep.mirrored (hmir₃ hdata₁.owns.mirrored)) hview
      (by rw [s.set_vol, hgeo₁]; exact hentry.behind)
      (by rw [s.set_vol, hgeo₁]; exact hentry.apart)
      (hwin.imp (fun heq => heq.trans hsect₃) fun hsys => hgeo₃ ▸ hsys)
    have hdata : (s.set i v' { s.fil i with dirty := false }).Data f lost files := hdata'
    have hst := hdata.stores i
    rw [s.set_fil, s.set_vol] at hst
    have hdone := hdata.again v'.drive.transfers
      (show ({ s.fil i with dirty := false, modified := false } : Fil).sclust = _ from rfl)
      (hst.of_fields rfl rfl rfl rfl)
    refine ⟨_, v', rfl, hgeo.trans hgeo₁, rfl, ?_, fun _ => ⟨rfl, hclean, ?_⟩⟩
    · rw [← Function.update_eq_self i files]
      exact h.of_data hdone (hgeo.trans hgeo₁) (fun _ _ => rfl) rfl
        ⟨hp.ptr, hp.inside, hp.clust, hp.current⟩
    · have hin : (s.fil i).dirSect ∈ v'.served := by
        rw [hgeo]
        exact hserved
      have hstore := hkeep.coherent.store_eq_view hclean hin
      have h1 := hkeep.view _ (show (s.fil i).dirSect ∈ v₃.served from hgeo₃ ▸ hserved)
      have h2 := hview₃ _ hserved
      rw [if_pos rfl, htype, hwin₂, hview₁] at h2
      exact hstore.trans (h1.trans h2)
  · rw [if_neg hmod]
    exact ⟨_, _, rfl, rfl, rfl, by rw [s.set_self]; exact h, fun hm => absurd hm hmod⟩

/-! ### The file is opened again -/

/-- `w` is mounted anew over the drive of `v`, and has `sect` in its window. -/
structure Volume.Remounted (v : Volume) (sect : U32) (w : Volume) : Prop where
  geometry : ∃ id, w.toGeometry = { v.toGeometry with id := id }
  sectors : w.drive.sectors = v.drive.sectors
  reliable : w.drive.Reliable
  clean : w.wflag = false
  winsect : w.winsect = sect
  shows : w.win = w.drive.sectors w.winsect
  counted : w.Counted

/-- The volume as it is mounted anew, with `sect` read and the free clusters not known. -/
def Volume.remount (v : Volume) (id : U16) (sect : U32) : Volume :=
  { v with
    id := id
    wflag := false
    freeClst := 0xFFFFFFFF#32
    winsect := sect
    win := v.drive.sectors sect }

theorem Volume.remounted_remount {v : Volume} (hg : v.FatSound) (hrel : v.drive.Reliable) (id : U16)
    (sect : U32) : v.Remounted sect (v.remount id sect) := by
  refine ⟨⟨id, rfl⟩, rfl, hrel, rfl, rfl, rfl, fun hvalid => ?_⟩
  change 2 ^ 32 - 1 ≤ v.nFatent.toNat - 2 at hvalid
  have hlt := v.nFatent.isLt
  have hlower := hg.lower
  omega

section Remounted

variable {v w : Volume} {sect : U32}

theorem Volume.Remounted.coherent (hw : v.Remounted sect w) : w.Coherent :=
  ⟨fun _ _ => hw.shows, fun hd => absurd (hw.clean.symm.trans hd) (by decide)⟩

/-- Where nothing waited in the window, every sector reads as before. -/
theorem Volume.Remounted.view (hw : v.Remounted sect w) (hc : v.Coherent)
    (hclean : v.wflag = false) {x : U32} (hx : x ∈ v.served) : w.view x = v.view x := by
  obtain ⟨id, hgeo⟩ := hw.geometry
  have h1 := hw.coherent.store_eq_view hw.clean (show x ∈ w.served by rw [hgeo]; exact hx)
  have h2 := hc.store_eq_view hclean hx
  exact h1.symm.trans ((congrFun hw.sectors x).trans h2)

theorem Volume.Remounted.entry (hw : v.Remounted sect w) (hg : v.FatSound) (hc : v.Coherent)
    (hclean : v.wflag = false) {c : ℕ} (hin : c < v.nFatent.toNat) : w.entry c = v.entry c := by
  obtain ⟨id, hgeo⟩ := hw.geometry
  rw [Volume.entry, hgeo]
  refine FsType.number_congr hin fun k hk => ?_
  have hinside : k < 512 * v.fsize.toNat := hk.trans_le hg.fits
  rw [Volume.fatBytes_eq, Volume.fatBytes_eq, hgeo]
  exact congrArg (byteAt · k) (hw.view hc hclean (hg.fatSect_mem hinside))

end Remounted

omit [DecidableEq ι] in
/-- Only FAT32 has the upper half of a cluster number in the directory entry. -/
theorem FileSys.Inv.sclust_lt (h : s.Inv f lost files) (ht : s.vol.fsType ≠ .fat32) :
    (s.fil i).sclust.toNat < 2 ^ 16 := by
  have hupper := h.owns.sound.upper
  have hmax : s.vol.fsType.maxFatent < 2 ^ 16 := by
    cases htype : s.vol.fsType with
    | fat32 => exact absurd htype ht
    | _ => decide
  have hhead := h.owns.heads i
  change (f i).headD 0 = (s.fil i).sclust.toNat at hhead
  rw [← hhead]
  cases hf : f i with
  | nil => exact Nat.two_pow_pos 16
  | cons c l =>
    have hc := (h.cell (show c ∈ f i by rw [hf]; exact List.mem_cons_self ..)).1.2
    change c < 2 ^ 16
    change c < s.vol.nFatent.toNat at hc
    change s.vol.nFatent.toNat ≤ s.vol.fsType.maxFatent at hupper
    omega

omit [DecidableEq ι] in
/-- **What is on the drive is the file**: a file of which nothing waits is there again after the
volume was mounted anew, at its beginning. -/
theorem reopened (h : s.Inv f lost files) (hclean : s.vol.wflag = false)
    (hdirty : (s.fil i).dirty = false) (hat : (s.fil i).toHandle.AtEntry s.vol.toGeometry lost)
    {old : Sector} (hentry : s.vol.drive.sectors (s.fil i).dirSect =
      syncEntry s.vol.fsType old (s.fil i)) {w : Volume}
    (hw : s.vol.Remounted (s.fil i).dirSect w) (read write : Bool) (clust : U32) :
    (⟨w, fun _ => openFil w read write (s.fil i).dirPtr clust⟩ : FileSys Unit).Inv (fun _ => f i)
      (lost ∪ {c | ∃ j, j ≠ i ∧ c ∈ f j}) fun _ => (files i).moved 0 := by
  have hsound := h.owns.sound
  have hst := h.stores i
  have hwcoh := hw.coherent
  have hentries : ∀ c < s.vol.nFatent.toNat, w.entry c = s.vol.entry c := fun _ hc =>
    hw.entry hsound h.owns.coherent hclean hc
  obtain ⟨⟨id, hgeo⟩, hsame, hrel, hw, hwin, hshow, hcount⟩ := hw
  have hload : w.win = syncEntry s.vol.fsType old (s.fil i) := by
    rw [hshow, hwin, hsame, hentry]
  have hstart : (openFil w read write (s.fil i).dirPtr clust).sclust = (s.fil i).sclust := by
    show ldClust w.fsType w.win _ = _
    rw [hload, hgeo]
    exact ldClust_syncEntry hat.inside h.sclust_lt
  have hsize : (openFil w read write (s.fil i).dirPtr clust).objsize = (s.fil i).objsize := by
    show ld32 w.win _ = _
    rw [hload]
    exact ld32_syncEntry hat.inside
  have hall := h.owns.allocated
  refine ⟨⟨⟨?_, hwcoh, ?_, hcount, ?_, ?_, fun _ => ?_⟩, ?_, hrel, ?_, fun _ => ?_⟩, fun _ => ?_,
    fun _ => ?_⟩
  · show w.FatSound
    rw [hgeo]
    exact ⟨hsound.info, hsound.nFats, hsound.inside, hsound.fits, hsound.lower, hsound.upper⟩
  · show w.Mirrored
    intro _ htwo x hx _
    rw [hsame]
    rw [hgeo] at htwo hx ⊢
    exact h.owns.mirrored h.reliable htwo x hx fun hd => absurd (hclean.symm.trans hd) (by decide)
  · show ∀ c ∈ w.clusters, w.entry c ≠ 1
    rw [hgeo]
    exact fun c hc => hentries c hc.2 ▸ h.owns.links c hc
  · show Allocated w.clusters 0 w.entry (fun _ : Unit => f i) _
    rw [hgeo]
    exact (hall.only i).congr fun c hc => hentries c hc.2
  · show _ = (openFil w read write (s.fil i).dirPtr clust).sclust.toNat
    rw [hstart]
    exact h.owns.heads i
  · show w.DataSound
    rw [hgeo]
    exact ⟨h.sound.pow, h.sound.behind, h.sound.fits⟩
  · show ∀ c ∈ w.clusters, ∀ k < w.csize.toNat, w.winsect = w.dataSect c k → _
    rw [hgeo, hwin]
    exact fun c hc k hk heq => Or.inl (hat.apart c hc k hk heq)
  · show Fil.Stores w.toGeometry w.drive.sectors _ _ _
    rw [hgeo, hsame]
    refine ⟨hst.size.trans (congrArg BitVec.toNat hsize.symm), hst.room, ?_, ?_, ?_⟩
    · exact fun hd => Bool.noConfusion hd
    · intro o b ho _ hsect
      exfalso
      obtain ⟨hc, -⟩ := h.cell (h.sound.cell_mem (hst.sector_lt ho)).2
      exact h.sound.dataSect_ne_zero hsound hc (Nat.mod_lt _ h.sound.csize_pos) hsect
    · intro o b ho hb _
      exact hst.stored o b ho hb fun hd => absurd (hdirty.symm.trans hd) (by decide)
  · exact ⟨rfl, Nat.zero_le _, fun hpos => absurd hpos (Nat.lt_irrefl 0), fun hne => absurd rfl hne⟩
  · refine ⟨?_, rfl⟩
    have hvalid := (h.ready i).1
    unfold validate at hvalid
    split_ifs at hvalid with hv
    show validate w.toGeometry _ = _
    unfold validate
    refine if_pos ⟨rfl, ?_, rfl, ?_⟩
    · rw [hgeo]
      exact hv.2.1
    · rw [hgeo]
      exact hv.2.2.2

end GamingConsole
