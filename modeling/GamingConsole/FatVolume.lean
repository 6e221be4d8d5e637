/-
The volume under FatFs and its window (`ff.c`, `ffconf.h`).

FatFs sees a drive through `disk_read` and `disk_write`, and keeps one sector of it in
`win[]`: the FAT and the directories are read and written there.  A transfer may fail at any
time; a read that fails leaves anything in the buffer, a write that fails anything in the
sectors it was to write.

* `Volume.Keeps` — the window has moved, and what is read through it is the same;
* `syncWindow_keeps`, `moveWindow_keeps`, `syncFs_keeps` — whether the transfers succeed
  or not;
* `Volume.Mirrored` — the second FAT is a copy of the first, but for what waits in the window.

The configuration is the one of `ffconf.h`: one volume, sectors of 512 bytes, no exFAT, no
locks.
-/
import GamingConsole.Sd
import GamingConsole.Library.WriteBack

namespace GamingConsole

open WriteBack

/-! ### The drive -/

/-- `BYTE[512]`. -/
abbrev Sector : Type := Fin 512 → U8

/-- The place of an offset; the offsets of the source are below 512. -/
def inSector (i : ℕ) : Fin 512 := ⟨i % 512, Nat.mod_lt i (Nat.zero_lt_succ 511)⟩

def byteAt (s : Sector) (i : ℕ) : U8 := s (inSector i)

def putByte (s : Sector) (i : ℕ) (b : U8) : Sector := Function.update s (inSector i) b

/-- `DRESULT`. -/
inductive DResult where
  | ok
  | error
  deriving DecidableEq

/-- The card behind `diskio.c`. -/
structure Drive where
  sectors : U32 → Sector
  /-- The transfers that fail, with what they leave behind. -/
  fault : ℕ → Option (ℕ → Sector)
  /-- The transfers so far. -/
  transfers : ℕ

/-- The drive after `count` sectors from `sector` on have become those of `buff`. -/
def Drive.written (d : Drive) (buff : ℕ → Sector) (sector count : U32) : Drive :=
  { d with
    sectors := fun s => if s - sector < count then buff (s - sector).toNat else d.sectors s
    transfers := d.transfers + 1 }

/-- `disk_read`, with what is in `buff` afterwards. -/
def diskRead (d : Drive) (buff : ℕ → Sector) (sector count : U32) :
    DResult × (ℕ → Sector) × Drive :=
  let filled (data : ℕ → Sector) : ℕ → Sector := fun i => if i < count.toNat then data i else buff i
  match d.fault d.transfers with
  | none => (.ok, filled fun i => d.sectors (sector + BitVec.ofNat 32 i),
      { d with transfers := d.transfers + 1 })
  | some junk => (.error, filled junk, { d with transfers := d.transfers + 1 })

/-- `disk_write`. -/
def diskWrite (d : Drive) (buff : ℕ → Sector) (sector count : U32) : DResult × Drive :=
  match d.fault d.transfers with
  | none => (.ok, d.written buff sector count)
  | some junk => (.error, d.written junk sector count)

/-! ### The filesystem object -/

/-- `fs_type`. -/
inductive FsType where
  | none
  | fat12
  | fat16
  | fat32
  deriving DecidableEq

/-- The fields of `FATFS` that `mount_volume` sets and nothing changes afterwards, and the
status of the drive. -/
structure Geometry where
  fsType : FsType
  id : U16
  /-- `STA_NOINIT` in `disk_status`. -/
  noInit : Bool
  nFats : U8
  nRootdir : U16
  csize : U16
  nFatent : U32
  fsize : U32
  volbase : U32
  fatbase : U32
  dirbase : U32
  database : U32
  deriving DecidableEq

/-- `FATFS`. -/
structure FatFs extends Geometry where
  wflag : Bool
  fsiFlag : U8
  lastClst : U32
  freeClst : U32
  winsect : U32
  win : Sector

/-- The filesystem object and the drive behind it. -/
structure Volume extends FatFs where
  drive : Drive

/-- `FRESULT`, as far as it is used here. -/
inductive FResult where
  | ok
  | diskErr
  | intErr
  | notReady
  | denied
  | invalidObject
  | noFilesystem
  deriving DecidableEq

/-! ### Words of a sector -/

/-- `ld_16`. -/
def ld16 (s : Sector) (p : ℕ) : U16 := byteAt s (p + 1) ++ byteAt s p

/-- `ld_32`. -/
def ld32 (s : Sector) (p : ℕ) : U32 :=
  byteAt s (p + 3) ++ byteAt s (p + 2) ++ byteAt s (p + 1) ++ byteAt s p

/-- `st_16`. -/
def st16 (s : Sector) (p : ℕ) (val : U16) : Sector :=
  putByte (putByte s p (val.setWidth 8)) (p + 1) ((val >>> 8).setWidth 8)

/-- `st_32`. -/
def st32 (s : Sector) (p : ℕ) (val : U32) : Sector :=
  putByte (putByte (putByte (putByte s p (val.setWidth 8)) (p + 1) ((val >>> 8).setWidth 8))
    (p + 2) ((val >>> 16).setWidth 8)) (p + 3) ((val >>> 24).setWidth 8)

/-! ### The window -/

/-- `sync_window`. -/
def syncWindow (v : Volume) : FResult × Volume :=
  if v.wflag then
    match diskWrite v.drive (fun _ => v.win) v.winsect 1 with
    | (.ok, drive) =>
      let v := { v with drive := drive, wflag := false }
      if v.winsect - v.fatbase < v.fsize then
        if v.nFats = 2#8 then
          -- reflected to the second FAT, whether or not that succeeds
          let (_, drive) := diskWrite v.drive (fun _ => v.win) (v.winsect + v.fsize) 1
          (.ok, { v with drive := drive })
        else (.ok, v)
      else (.ok, v)
    | (.error, drive) => (.diskErr, { v with drive := drive })
  else (.ok, v)

/-- `move_window`. -/
def moveWindow (v : Volume) (sect : U32) : FResult × Volume :=
  if sect ≠ v.winsect then
    match syncWindow v with
    | (.ok, v) =>
      match diskRead v.drive (fun _ => v.win) sect 1 with
      | (.ok, buff, drive) => (.ok, { v with win := buff 0, winsect := sect, drive := drive })
      | (.error, buff, drive) =>
        (.diskErr, { v with win := buff 0, winsect := 0 - 1, drive := drive })
    | (res, v) => (res, v)
  else (.ok, v)

/-- The FSInfo sector that `sync_fs` makes. -/
def fsInfo (freeClst lastClst : U32) : Sector :=
  let win : Sector := fun _ => 0
  let win := st32 win 0 0x41615252#32
  let win := st32 win 484 0x61417272#32
  let win := st32 win 488 freeClst
  let win := st32 win 492 lastClst
  st32 win 508 0xAA550000#32

/-- `sync_fs`; `CTRL_SYNC` always succeeds in `diskio.c`. -/
def syncFs (v : Volume) : FResult × Volume :=
  match syncWindow v with
  | (.ok, v) =>
    if v.fsiFlag = 1#8 then
      let v := { v with fsiFlag := 0 }
      if v.fsType = .fat32 then
        let v := { v with win := fsInfo v.freeClst v.lastClst, winsect := v.volbase + 1 }
        let (_, drive) := diskWrite v.drive (fun _ => v.win) v.winsect 1
        (.ok, { v with drive := drive })
      else (.ok, v)
    else (.ok, v)
  | (res, v) => (res, v)

/-! ### One sector at a time -/

theorem Drive.sectors_written_one (d : Drive) (buff : ℕ → Sector) (s : U32) :
    (d.written buff s 1).sectors = Function.update d.sectors s (buff 0) := by
  funext x
  have hx : x - s < 1#32 ↔ x = s := by
    constructor
    · intro h
      bv_omega
    · rintro rfl
      simp
  by_cases hxs : x = s
  · rw [hxs, Function.update_self]
    show (if s - s < 1#32 then buff (s - s).toNat else _) = _
    simp
  · rw [Function.update_of_ne hxs]
    exact if_neg fun h => hxs (hx.mp h)

/-- No transfer of the drive fails. -/
def Drive.Reliable (d : Drive) : Prop := ∀ n, d.fault n = none

/-- A write of one sector succeeds, or leaves anything there. -/
theorem diskWrite_one (d : Drive) (w : Sector) (s : U32) :
    ∃ data, (diskWrite d (fun _ => w) s 1).2.sectors = Function.update d.sectors s data ∧
      (diskWrite d (fun _ => w) s 1).2.fault = d.fault ∧
      ((diskWrite d (fun _ => w) s 1).1 = .ok ∧ data = w ∨
        (diskWrite d (fun _ => w) s 1).1 = .error ∧ ¬ d.Reliable) := by
  unfold diskWrite
  cases hf : d.fault d.transfers with
  | none => exact ⟨w, d.sectors_written_one _ s, rfl, Or.inl ⟨rfl, rfl⟩⟩
  | some junk =>
    refine ⟨junk 0, d.sectors_written_one junk s, rfl, Or.inr ⟨rfl, fun hd => ?_⟩⟩
    exact Option.some_ne_none junk (hf.symm.trans (hd d.transfers))

/-- A read of one sector leaves the drive as it is. -/
theorem diskRead_one (d : Drive) (buff : ℕ → Sector) (s : U32) :
    (diskRead d buff s 1).2.2.sectors = d.sectors ∧
      (diskRead d buff s 1).2.2.fault = d.fault ∧
      ((diskRead d buff s 1).1 = .ok ∧ (diskRead d buff s 1).2.1 0 = d.sectors s ∨
        (diskRead d buff s 1).1 = .error ∧ ¬ d.Reliable) := by
  unfold diskRead
  cases hf : d.fault d.transfers with
  | none => exact ⟨rfl, rfl, Or.inl ⟨rfl, by simp⟩⟩
  | some junk =>
    refine ⟨rfl, rfl, Or.inr ⟨rfl, fun hd => ?_⟩⟩
    exact Option.some_ne_none junk (hf.symm.trans (hd d.transfers))

/-! ### What is read through the window -/

/-- The sectors of the second FAT. -/
def Geometry.secondFat (g : Geometry) (s : U32) : Prop :=
  g.nFats = 2#8 ∧ s - (g.fatbase + g.fsize) < g.fsize

/-- The sectors that the window is for: from the first FAT on, but for the second one. -/
def Geometry.served (g : Geometry) : Set U32 :=
  {s | g.fatbase ≤ s ∧ ¬ g.secondFat s ∧ s ≠ 0 - 1}

/-- Where the window may be after work on the FAT: in front of the data, or nowhere. -/
def Geometry.system (g : Geometry) : Set U32 :=
  {s | s < g.fatbase ∨ s - g.fatbase < g.fsize ∨ s = 0 - 1}

/-- The drive with the window in front of it. -/
def Volume.window (v : Volume) : Buffered U32 Sector := ⟨v.drive.sectors, v.winsect, v.win, v.wflag⟩

/-- The sector as it is read through the window. -/
def Volume.view (v : Volume) (s : U32) : Sector := v.window.view s

/-- A clean window holds its sector, and a dirty one is a sector that it is for. -/
def Volume.Coherent (v : Volume) : Prop := v.window.Coherent v.served

/-- There are two FATs on the drive, one behind the other. -/
def Geometry.TwoFats (g : Geometry) : Prop :=
  g.nFats = 2#8 ∧ g.fatbase.toNat + 2 * g.fsize.toNat ≤ 2 ^ 32

/-- If no transfer fails, the second FAT is a copy of the first, but for what waits in the
window. -/
def Volume.Mirrored (v : Volume) : Prop :=
  v.drive.Reliable → v.TwoFats → ∀ s, s - v.fatbase < v.fsize →
    (v.wflag = true → s ≠ v.winsect) → v.drive.sectors (s + v.fsize) = v.drive.sectors s

/-- Only the window has moved. -/
structure Volume.Keeps (v v' : Volume) : Prop where
  geometry : v'.toGeometry = v.toGeometry
  lastClst : v'.lastClst = v.lastClst
  freeClst : v'.freeClst = v.freeClst
  fault : v'.drive.fault = v.drive.fault
  view : Buffered.SameView v.served v.window v'.window
  coherent : v'.Coherent
  mirrored : v.Mirrored → v'.Mirrored

theorem Volume.Keeps.refl {v : Volume} (h : v.Coherent) : v.Keeps v :=
  ⟨rfl, rfl, rfl, rfl, fun _ _ => rfl, h, id⟩

theorem Volume.Keeps.trans {v v' v'' : Volume} (h : v.Keeps v') (h' : v'.Keeps v'') :
    v.Keeps v'' where
  geometry := h'.geometry.trans h.geometry
  lastClst := h'.lastClst.trans h.lastClst
  freeClst := h'.freeClst.trans h.freeClst
  fault := h'.fault.trans h.fault
  view := h.view.trans (h.geometry ▸ h'.view)
  coherent := h'.coherent
  mirrored := fun hm => h'.mirrored (h.mirrored hm)

/-- The sectors of the two FATs are where they should be. -/
theorem Geometry.TwoFats.sector {g : Geometry} (h : g.TwoFats) {s : U32}
    (hs : s - g.fatbase < g.fsize) : s.toNat = g.fatbase.toNat + (s - g.fatbase).toNat ∧
      (s + g.fsize).toNat = s.toNat + g.fsize.toNat := by
  have h2 := h.2
  have hlt := BitVec.lt_def.mp hs
  have hfirst : s.toNat = g.fatbase.toNat + (s - g.fatbase).toNat := by
    have := BitVec.toNat_add g.fatbase (s - g.fatbase)
    rw [show g.fatbase + (s - g.fatbase) = s by bv_omega] at this
    rw [this]
    exact Nat.mod_eq_of_lt (by omega)
  refine ⟨hfirst, ?_⟩
  rw [BitVec.toNat_add]
  exact Nat.mod_eq_of_lt (by omega)

/-- With nothing in the window, the FATs on the drive are all that counts. -/
theorem Volume.Mirrored.of_clean {v v' : Volume} (h : v.Mirrored) (hw : v.wflag = false)
    (hgeo : v'.toGeometry = v.toGeometry) (hfault : v'.drive.fault = v.drive.fault)
    (hs : v.TwoFats → ∀ s, s - v.fatbase < v.fsize →
      v'.drive.sectors s = v.drive.sectors s ∧
        v'.drive.sectors (s + v.fsize) = v.drive.sectors (s + v.fsize)) : v'.Mirrored := by
  intro hrel htwo s hlt _
  rw [Drive.Reliable, hfault] at hrel
  rw [hgeo] at htwo hlt ⊢
  obtain ⟨h1, h2⟩ := hs htwo s hlt
  rw [h1, h2]
  exact h hrel htwo s hlt fun hd => absurd (hw.symm.trans hd) (by decide)

/-- The window is written to its sector, and to the second FAT if it is of the first. -/
theorem Volume.Mirrored.of_flush {v v' : Volume} (h : v.Mirrored) (hin : v.winsect ∈ v.served)
    (hgeo : v'.toGeometry = v.toGeometry) (hfault : v'.drive.fault = v.drive.fault)
    (hs : v.drive.Reliable → v'.drive.sectors = if v.winsect - v.fatbase < v.fsize ∧ v.nFats = 2#8
      then Function.update (Function.update v.drive.sectors v.winsect v.win)
        (v.winsect + v.fsize) v.win
      else Function.update v.drive.sectors v.winsect v.win) : v'.Mirrored := by
  intro hrel htwo s hlt _
  rw [Drive.Reliable, hfault] at hrel
  rw [hgeo] at htwo hlt ⊢
  rw [hs hrel]
  obtain ⟨h1, h2⟩ := htwo.sector hlt
  have hlt' := BitVec.lt_def.mp hlt
  have hoff : v.winsect ≠ s + v.fsize := by
    intro heq
    refine hin.2.1 ⟨htwo.1, ?_⟩
    rw [heq, show s + v.fsize - (v.fatbase + v.fsize) = s - v.fatbase by bv_omega]
    exact hlt
  have hold := fun hne : s ≠ v.winsect => h hrel htwo s hlt fun _ => hne
  by_cases hfirst : v.winsect - v.fatbase < v.fsize
  · obtain ⟨h3, h4⟩ := htwo.sector hfirst
    have hlt'' := BitVec.lt_def.mp hfirst
    have hoff' : s ≠ v.winsect + v.fsize := by
      intro heq
      have := congrArg BitVec.toNat heq
      omega
    rw [if_pos ⟨hfirst, htwo.1⟩, Function.update_of_ne hoff']
    by_cases hsw : s = v.winsect
    · rw [hsw, Function.update_self, Function.update_self]
    · have hne : s + v.fsize ≠ v.winsect + v.fsize := fun heq => hsw (by bv_omega)
      rw [Function.update_of_ne hne, Function.update_of_ne hoff.symm, Function.update_of_ne hsw]
      exact hold hsw
  · have hsw : s ≠ v.winsect := fun heq => hfirst (heq ▸ hlt)
    rw [if_neg fun h => hfirst h.1, Function.update_of_ne hoff.symm, Function.update_of_ne hsw]
    exact hold hsw

/-- What the window is reflected to is not a sector that it is for. -/
theorem Geometry.mirror_not_served {g : Geometry} {s : U32} (hn : g.nFats = 2#8)
    (hs : s - g.fatbase < g.fsize) : s + g.fsize ∉ g.served := by
  intro h
  refine h.2.1 ⟨hn, ?_⟩
  rw [show s + g.fsize - (g.fatbase + g.fsize) = s - g.fatbase by bv_omega]
  exact hs

/-- `sync_window` has nothing to do, fails, or writes the window and perhaps its mirror. -/
theorem syncWindow_cases (v : Volume) :
    (v.wflag = false ∧ syncWindow v = (.ok, v)) ∨
    (v.wflag = true ∧ ∃ drive data, syncWindow v = (.diskErr, { v with drive := drive }) ∧
      drive.fault = v.drive.fault ∧ ¬ v.drive.Reliable ∧
      drive.sectors = Function.update v.drive.sectors v.winsect data) ∨
    (v.wflag = true ∧ ∃ drive, syncWindow v = (.ok, { v with drive := drive, wflag := false }) ∧
      drive.fault = v.drive.fault ∧
      (∀ s ∈ v.served, drive.sectors s = Function.update v.drive.sectors v.winsect v.win s) ∧
      (v.drive.Reliable → drive.sectors = if v.winsect - v.fatbase < v.fsize ∧ v.nFats = 2#8
        then Function.update (Function.update v.drive.sectors v.winsect v.win)
          (v.winsect + v.fsize) v.win
        else Function.update v.drive.sectors v.winsect v.win)) := by
  cases hw : v.wflag with
  | false => exact Or.inl ⟨rfl, by rw [syncWindow, hw]; rfl⟩
  | true =>
    refine Or.inr ?_
    obtain ⟨data, hdata, hfault, hok⟩ := diskWrite_one v.drive v.win v.winsect
    rw [syncWindow, hw, if_pos rfl]
    generalize diskWrite v.drive (fun _ => v.win) v.winsect 1 = out at hdata hfault hok
    obtain ⟨res, drive⟩ := out
    rcases hok with ⟨rfl, rfl⟩ | ⟨rfl, hbad⟩
    · refine Or.inr ⟨rfl, ?_⟩
      replace hdata : drive.sectors = Function.update v.drive.sectors v.winsect v.win := hdata
      by_cases hfirst : v.winsect - v.fatbase < v.fsize
      · by_cases hn : v.nFats = 2#8
        · obtain ⟨data', hdata', hfault', hok'⟩ := diskWrite_one drive v.win (v.winsect + v.fsize)
          refine ⟨(diskWrite drive (fun _ => v.win) (v.winsect + v.fsize) 1).2, ?_,
            hfault'.trans hfault, ?_, fun hrel => ?_⟩
          · simp only [hfirst, hn, if_true]
          · intro s hs
            have hne : s ≠ v.winsect + v.fsize := fun h =>
              Geometry.mirror_not_served hn hfirst (h ▸ hs)
            rw [hdata', Function.update_of_ne hne, hdata]
          · rw [Drive.Reliable, ← hfault] at hrel
            rw [hdata', (hok'.resolve_right fun h => h.2 hrel).2, hdata, if_pos ⟨hfirst, hn⟩]
        · exact ⟨drive, by simp only [hfirst, hn, if_true, if_false], hfault,
            fun s _ => by rw [hdata], fun _ => by rw [hdata, if_neg fun h => hn h.2]⟩
      · exact ⟨drive, by simp only [hfirst, if_false], hfault, fun s _ => by rw [hdata],
          fun _ => by rw [hdata, if_neg fun h => hfirst h.1]⟩
    · exact Or.inl ⟨rfl, drive, data, rfl, hfault, hbad, hdata⟩

/-- `sync_window` changes nothing that is read; where it succeeds, nothing waits. -/
theorem syncWindow_keeps {v : Volume} (h : v.Coherent) :
    v.Keeps (syncWindow v).2 ∧ (syncWindow v).2.winsect = v.winsect ∧
      ((syncWindow v).1 = .ok ∧ (syncWindow v).2.wflag = false ∨
        (syncWindow v).1 = .diskErr ∧ ¬ v.drive.Reliable) := by
  rcases syncWindow_cases v with ⟨hw, heq⟩ | ⟨hw, drive, data, heq, hfault, hbad, hdrive⟩ |
    ⟨hw, drive, heq, hfault, hdrive, hboth⟩
  · rw [heq]
    exact ⟨Volume.Keeps.refl h, rfl, Or.inl ⟨rfl, hw⟩⟩
  · have hwin : Volume.window { v with drive := drive } = v.window.tear data := by
      show Buffered.mk drive.sectors v.winsect v.win v.wflag = _
      rw [hdrive]
      rfl
    rw [heq]
    refine ⟨⟨rfl, rfl, rfl, hfault, ?_, ?_, fun _ hrel => ?_⟩, rfl, Or.inr ⟨rfl, hbad⟩⟩
    · rw [hwin]
      exact Buffered.sameView_tear _ _ _
    · show Buffered.Coherent v.served (Volume.window { v with drive := drive })
      rw [hwin]
      exact Buffered.Coherent.tear h hw data
    · exact absurd (fun n => hfault ▸ hrel n) hbad
  · have hflush := Buffered.coherent_flush v.served v.window
    have hview := Buffered.sameView_flush v.served v.window
    rw [heq]
    refine ⟨⟨rfl, rfl, rfl, hfault, ?_, ?_, ?_⟩, rfl, Or.inl ⟨rfl, rfl⟩⟩
    · exact hview.trans (Buffered.sameView_of_off (b := v.window.flush) hdrive)
    · exact hflush.of_off hdrive
    · exact fun hm => hm.of_flush (h.inside hw) rfl hfault hboth

/-- `move_window` changes nothing that is read, and shows the sector where it succeeds. -/
theorem moveWindow_keeps {v : Volume} (h : v.Coherent) {sect : U32} (hs : sect ∈ v.served) :
    v.Keeps (moveWindow v sect).2 ∧
      ((moveWindow v sect).1 = .ok ∧ (moveWindow v sect).2.winsect = sect ∧
        (moveWindow v sect).2.win = v.view sect ∨
        (moveWindow v sect).1 = .diskErr ∧ ¬ v.drive.Reliable) := by
  unfold moveWindow
  by_cases hsect : sect = v.winsect
  · rw [if_neg (not_not.mpr hsect)]
    refine ⟨Volume.Keeps.refl h, Or.inl ⟨rfl, hsect.symm, ?_⟩⟩
    rw [hsect]
    exact v.window.view_addr.symm
  · rw [if_pos hsect]
    obtain ⟨hkeep, _, hres⟩ := syncWindow_keeps h
    generalize syncWindow v = out at hkeep hres
    obtain ⟨res, v₁⟩ := out
    rcases hres with ⟨rfl, hw⟩ | ⟨rfl, hbad⟩
    · -- what waited in the window is on the drive now
      replace hw : v₁.wflag = false := hw
      obtain ⟨hdrive, hfault, hok⟩ := diskRead_one v₁.drive (fun _ => v₁.win) sect
      simp only
      generalize diskRead v₁.drive (fun _ => v₁.win) sect 1 = out at hdrive hfault hok
      obtain ⟨res, buff, drive⟩ := out
      replace hdrive : drive.sectors = v₁.drive.sectors := hdrive
      rcases hok with ⟨rfl, hbuff⟩ | ⟨rfl, hbad⟩
      · replace hbuff : buff 0 = v₁.drive.sectors sect := hbuff
        have hwin : Volume.window { v₁ with win := buff 0, winsect := sect, drive := drive } =
            v₁.window.load sect := by
          show Buffered.mk drive.sectors sect (buff 0) v₁.wflag = _
          rw [hdrive, hbuff]
          rfl
        have hcoh : v₁.window.Coherent v₁.served := hkeep.coherent
        have hs₁ : sect ∈ v₁.served := by rw [hkeep.geometry]; exact hs
        refine ⟨hkeep.trans ⟨rfl, rfl, rfl, hfault, ?_, ?_, ?_⟩, Or.inl ⟨rfl, rfl, ?_⟩⟩
        · rw [hwin]
          exact hcoh.sameView_load hw sect
        · show Buffered.Coherent v₁.served (Volume.window _)
          rw [hwin]
          exact Buffered.coherent_load _ hw sect
        · exact fun hm => hm.of_clean hw rfl hfault fun _ s _ => by rw [hdrive]; exact ⟨rfl, rfl⟩
        · show buff 0 = v.view sect
          rw [hbuff]
          exact (hcoh.store_eq_view hw hs₁).trans (hkeep.view sect hs)
      · -- after a read that failed the window is of no sector
        have hoff : (0 - 1 : U32) ∉ v₁.served := fun h => h.2.2 rfl
        have hwin : Volume.window { v₁ with win := buff 0, winsect := 0 - 1, drive := drive } =
            v₁.window.forget (0 - 1) (buff 0) := by
          show Buffered.mk drive.sectors _ (buff 0) v₁.wflag = _
          rw [hdrive]
          rfl
        have hbad' : ¬ v.drive.Reliable := by
          unfold Drive.Reliable at hbad ⊢
          rwa [← hkeep.fault]
        refine ⟨hkeep.trans ⟨rfl, rfl, rfl, hfault, ?_, ?_, ?_⟩, Or.inr ⟨rfl, hbad'⟩⟩
        · rw [hwin]
          exact Buffered.Coherent.sameView_forget hkeep.coherent hw hoff _
        · show Buffered.Coherent v₁.served (Volume.window _)
          rw [hwin]
          exact Buffered.coherent_forget hw hoff _
        · exact fun hm => hm.of_clean hw rfl hfault fun _ s _ => by rw [hdrive]; exact ⟨rfl, rfl⟩
    · exact ⟨hkeep, Or.inr ⟨rfl, hbad⟩⟩

theorem moveWindow_winsect {v : Volume} (h : v.Coherent) (sect : U32) :
    (moveWindow v sect).2.winsect = v.winsect ∨ (moveWindow v sect).2.winsect = sect ∨
      (moveWindow v sect).2.winsect = 0 - 1 := by
  unfold moveWindow
  split_ifs with hsect
  · obtain ⟨-, hwin, -⟩ := syncWindow_keeps h
    generalize syncWindow v = out at hwin
    obtain ⟨res, v₁⟩ := out
    cases res with
    | ok =>
      simp only
      generalize diskRead v₁.drive _ sect 1 = out
      obtain ⟨res, buff, drive⟩ := out
      cases res
      · exact Or.inr (Or.inl rfl)
      · exact Or.inr (Or.inr rfl)
    | _ => exact Or.inl hwin
  · exact Or.inl rfl

/-- `sync_fs` leaves the window where it was, or in front of the FAT. -/
theorem syncFs_winsect {v : Volume} (h : v.Coherent)
    (hinfo : v.fsType = .fat32 → v.volbase.toNat + 1 < v.fatbase.toNat) :
    (syncFs v).2.winsect = v.winsect ∨ (syncFs v).2.winsect ∈ v.system := by
  obtain ⟨hkeep, hwin, -⟩ := syncWindow_keeps h
  unfold syncFs
  generalize syncWindow v = out at hkeep hwin
  obtain ⟨res, v₁⟩ := out
  cases res with
  | ok =>
    simp only
    split_ifs with hf ht
    · refine Or.inr (Or.inl (BitVec.lt_def.mpr ?_))
      replace hkeep : v₁.toGeometry = v.toGeometry := hkeep.geometry
      rw [hkeep] at ht ⊢
      have := hinfo ht
      bv_omega
    · exact Or.inl hwin
    · exact Or.inl hwin
  | _ => exact Or.inl hwin

/-- `sync_fs` changes nothing that is read, as the FSInfo sector is in front of the FAT. -/
theorem syncFs_keeps {v : Volume} (h : v.Coherent)
    (hinfo : v.fsType = .fat32 → v.volbase.toNat + 1 < v.fatbase.toNat) :
    v.Keeps (syncFs v).2 := by
  obtain ⟨hkeep, _, hres⟩ := syncWindow_keeps h
  unfold syncFs
  generalize syncWindow v = out at hkeep hres
  obtain ⟨res, v₁⟩ := out
  rcases hres with ⟨rfl, hw⟩ | ⟨rfl, -⟩
  · replace hw : v₁.wflag = false := hw
    replace hkeep : v.Keeps v₁ := hkeep
    simp only
    by_cases hf : v₁.fsiFlag = 1#8
    · rw [if_pos hf]
      by_cases ht : v₁.fsType = .fat32
      · rw [if_pos ht]
        simp only
        have hoff : v₁.volbase + 1 ∉ v₁.served := by
          intro hs
          have hle := BitVec.le_def.mp hs.1
          rw [hkeep.geometry] at hle ht
          have := hinfo ht
          bv_omega
        obtain ⟨data, hdata, hfault, -⟩ :=
          diskWrite_one v₁.drive (fsInfo v₁.freeClst v₁.lastClst) (v₁.volbase + 1)
        have hstore : ∀ s ∈ v₁.served, (diskWrite v₁.drive
            (fun _ => fsInfo v₁.freeClst v₁.lastClst) (v₁.volbase + 1) 1).2.sectors s =
              v₁.drive.sectors s := by
          intro s hs
          rw [hdata, Function.update_of_ne fun heq : s = v₁.volbase + 1 => hoff (heq ▸ hs)]
        have hcoh : v₁.window.Coherent v₁.served := hkeep.coherent
        have hview := hcoh.sameView_forget hw hoff (fsInfo v₁.freeClst v₁.lastClst)
        have hforget := Buffered.coherent_forget (b := v₁.window) hw hoff
          (fsInfo v₁.freeClst v₁.lastClst)
        refine hkeep.trans ⟨rfl, rfl, rfl, hfault, hview.trans (Buffered.sameView_of_off
          (b := v₁.window.forget _ _) hstore), hforget.of_off hstore, fun hm => ?_⟩
        -- the FSInfo sector is in none of the FATs
        refine hm.of_clean hw rfl hfault fun htwo s hs => ?_
        obtain ⟨h1, h2⟩ := htwo.sector hs
        have hlt : v₁.volbase.toNat + 1 < v₁.fatbase.toNat := by
          rw [hkeep.geometry] at ht ⊢
          exact hinfo ht
        rw [hdata]
        exact ⟨Function.update_of_ne (by bv_omega) _ _, Function.update_of_ne (by bv_omega) _ _⟩
      · rw [if_neg ht]
        exact hkeep.trans ⟨rfl, rfl, rfl, rfl, fun _ _ => rfl, hkeep.coherent, id⟩
    · rw [if_neg hf]
      exact hkeep
  · exact hkeep

end GamingConsole
