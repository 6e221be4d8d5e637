/-
The entries of the FAT (`get_fat`, `put_fat`).

The FAT is a table of numbers in bytes, and the bytes are read and written through the
window, one sector at a time.  An entry of 12 bits may lie in two sectors, so that its two
bytes are stored under two positions of the window, and the second may not be reached.

* `Volume.entry` — the number that a FAT entry holds;
* `getFat_spec` — `get_fat` returns it, or reports a disk error;
* `putFat_spec` — `put_fat` changes this entry and no other one, also where it fails;
* `fatCalls_array` — the calls, one after the other, work on an array of numbers.
-/
import GamingConsole.FatVolume
import GamingConsole.Library.PackedTable

namespace GamingConsole

open WriteBack PackedTable BitFields

/-! ### The functions -/

/-- `get_fat`: `0xFFFFFFFF` for a disk error, 1 for an internal one. -/
def getFat (v : Volume) (clst : U32) : U32 × Volume :=
  if clst < 2#32 ∨ v.nFatent ≤ clst then (1#32, v)
  else
    match v.fsType with
    | .fat12 =>
      let bc := clst + clst / 2#32
      match moveWindow v (v.fatbase + bc / 512#32) with
      | (.ok, v) =>
        let wc : U32 := (byteAt v.win bc.toNat).setWidth 32
        let bc := bc + 1#32
        match moveWindow v (v.fatbase + bc / 512#32) with
        | (.ok, v) =>
          let wc := wc ||| (byteAt v.win bc.toNat).setWidth 32 <<< 8
          (if clst &&& 1#32 ≠ 0#32 then wc >>> 4 else wc &&& 0xFFF#32, v)
        | (_, v) => (0xFFFFFFFF#32, v)
      | (_, v) => (0xFFFFFFFF#32, v)
    | .fat16 =>
      match moveWindow v (v.fatbase + clst / 256#32) with
      | (.ok, v) => ((ld16 v.win (clst * 2#32 % 512#32).toNat).setWidth 32, v)
      | (_, v) => (0xFFFFFFFF#32, v)
    | .fat32 =>
      match moveWindow v (v.fatbase + clst / 128#32) with
      | (.ok, v) => (ld32 v.win (clst * 4#32 % 512#32).toNat &&& 0x0FFFFFFF#32, v)
      | (_, v) => (0xFFFFFFFF#32, v)
    | .none => (1#32, v)

/-- The first byte of a 12-bit entry, as `put_fat` makes it. -/
def firstByte (p : U8) (clst val : U32) : U8 :=
  if clst &&& 1#32 ≠ 0#32 then p &&& 0x0F#8 ||| val.setWidth 8 <<< 4 else val.setWidth 8

/-- The second one. -/
def secondByte (p : U8) (clst val : U32) : U8 :=
  if clst &&& 1#32 ≠ 0#32 then (val >>> 4).setWidth 8
  else p &&& 0xF0#8 ||| (val >>> 8).setWidth 8 &&& 0x0F#8

/-- `put_fat`. -/
def putFat (v : Volume) (clst val : U32) : FResult × Volume :=
  if 2#32 ≤ clst ∧ clst < v.nFatent then
    match v.fsType with
    | .fat12 =>
      let bc := clst + clst / 2#32
      match moveWindow v (v.fatbase + bc / 512#32) with
      | (.ok, v) =>
        let p := byteAt v.win bc.toNat
        let v := { v with win := putByte v.win bc.toNat (firstByte p clst val), wflag := true }
        let bc := bc + 1#32
        match moveWindow v (v.fatbase + bc / 512#32) with
        | (.ok, v) =>
          let p := byteAt v.win bc.toNat
          (.ok, { v with win := putByte v.win bc.toNat (secondByte p clst val), wflag := true })
        | (res, v) => (res, v)
      | (res, v) => (res, v)
    | .fat16 =>
      match moveWindow v (v.fatbase + clst / 256#32) with
      | (.ok, v) =>
        (.ok, { v with win := st16 v.win (clst * 2#32 % 512#32).toNat (val.setWidth 16)
                       wflag := true })
      | (res, v) => (res, v)
    | .fat32 =>
      match moveWindow v (v.fatbase + clst / 128#32) with
      | (.ok, v) =>
        let old := ld32 v.win (clst * 4#32 % 512#32).toNat
        let val := val &&& 0x0FFFFFFF#32 ||| old &&& 0xF0000000#32
        (.ok, { v with win := st32 v.win (clst * 4#32 % 512#32).toNat val, wflag := true })
      | (res, v) => (res, v)
    | .none => (.intErr, v)
  else (.intErr, v)

/-- `clst2sect`: 0 for an invalid cluster number. -/
def clst2sect (g : Geometry) (clst : U32) : U32 :=
  let clst := clst - 2#32
  if g.nFatent - 2#32 ≤ clst then 0#32 else g.database + g.csize.setWidth 32 * clst

/-! ### The table of the FAT -/

/-- How many entries a FAT of the type may have (`MAX_FAT12`, `MAX_FAT16`, `MAX_FAT32`). -/
def FsType.maxFatent : FsType → ℕ
  | .none => 0
  | .fat12 => 0xFF5 + 2
  | .fat16 => 0xFFF5 + 2
  | .fat32 => 0x0FFFFFF5 + 2

/-- The bytes that `n` entries take. -/
def FsType.tableBytes (t : FsType) (n : ℕ) : ℕ :=
  match t with
  | .none => 0
  | .fat12 => n * 3 / 2 + n % 2
  | .fat16 => n * 2
  | .fat32 => n * 4

/-- The FATs are on the drive, behind the FSInfo sector, and have room for the entries. -/
structure Geometry.FatSound (g : Geometry) : Prop where
  info : g.fsType = .fat32 → g.volbase.toNat + 1 < g.fatbase.toNat
  nFats : g.nFats = 1#8 ∨ g.nFats = 2#8
  inside : g.fatbase.toNat + g.nFats.toNat * g.fsize.toNat < 2 ^ 32
  fits : g.fsType.tableBytes g.nFatent.toNat ≤ 512 * g.fsize.toNat
  lower : 2 < g.nFatent.toNat
  upper : g.nFatent.toNat ≤ g.fsType.maxFatent

/-- The sector with byte `k` of the FAT. -/
def Geometry.fatSect (g : Geometry) (k : ℕ) : U32 := g.fatbase + BitVec.ofNat 32 (k / 512)

/-- The bytes of the FAT, as they are read. -/
def Volume.fatBytes (v : Volume) : Bytes := fun k => byteAt (v.view (v.fatSect k)) k

/-- Number `c` of a FAT. -/
def FsType.number (t : FsType) (b : Bytes) (c : ℕ) : ℕ :=
  match t with
  | .none => 1
  | .fat12 => triple b c
  | .fat16 => word b (2 * c) 2
  | .fat32 => word b (4 * c) 4 % 2 ^ 28

/-- What FAT entry `c` holds. -/
def Volume.entry (v : Volume) (c : ℕ) : ℕ := v.fsType.number v.fatBytes c

theorem Volume.entry_eq (v : Volume) : v.entry = v.fsType.number v.fatBytes := rfl

/-- An entry holds numbers below this one. -/
def FsType.modulus : FsType → ℕ
  | .none => 1
  | .fat12 => 2 ^ 12
  | .fat16 => 2 ^ 16
  | .fat32 => 2 ^ 28

/-! ### Where the FAT is -/

section Sectors

variable {g : Geometry} {k k' : ℕ}

theorem Geometry.FatSound.fsize_le (hg : g.FatSound) :
    g.fatbase.toNat + g.fsize.toNat < 2 ^ 32 ∧
      (g.nFats = 2#8 → g.fatbase.toNat + 2 * g.fsize.toNat < 2 ^ 32) := by
  have h := hg.inside
  rcases hg.nFats with hn | hn <;> rw [hn] at h ⊢
  · exact ⟨by simpa using h, nofun⟩
  · have h2 : (2#8 : U8).toNat = 2 := rfl
    rw [h2] at h
    exact ⟨by omega, fun _ => h⟩

theorem Geometry.FatSound.toNat_fatSect (hg : g.FatSound) (hk : k < 512 * g.fsize.toNat) :
    (g.fatSect k).toNat = g.fatbase.toNat + k / 512 := by
  have h := hg.fsize_le.1
  rw [Geometry.fatSect, BitVec.toNat_add, BitVec.toNat_ofNat]
  omega

/-- The window is for the sectors of the first FAT. -/
theorem Geometry.FatSound.fatSect_mem (hg : g.FatSound) (hk : k < 512 * g.fsize.toNat) :
    g.fatSect k ∈ g.served := by
  have hs := hg.toNat_fatSect hk
  obtain ⟨h1, h2⟩ := hg.fsize_le
  refine ⟨?_, ?_, ?_⟩
  · rw [BitVec.le_def]
    omega
  · rintro ⟨hn, hlt⟩
    have h2 := h2 hn
    bv_omega
  · intro h
    have : (g.fatSect k).toNat = 2 ^ 32 - 1 := by rw [h]; rfl
    omega

theorem Geometry.FatSound.fatSect_sub (hg : g.FatSound) (hk : k < 512 * g.fsize.toNat) :
    g.fatSect k - g.fatbase < g.fsize := by
  have hs := hg.toNat_fatSect hk
  have h1 := hg.fsize_le.1
  bv_omega

theorem Geometry.FatSound.fatSect_inj (hg : g.FatSound) (hk : k < 512 * g.fsize.toNat)
    (hk' : k' < 512 * g.fsize.toNat) (h : g.fatSect k = g.fatSect k') : k / 512 = k' / 512 := by
  have h1 := hg.toNat_fatSect hk
  have h2 := hg.toNat_fatSect hk'
  rw [h] at h1
  omega

end Sectors

/-! ### Bytes of a sector -/

theorem byteAt_congr {s : Sector} {i j : ℕ} (h : i % 512 = j % 512) : byteAt s i = byteAt s j := by
  unfold byteAt
  congr 1
  exact Fin.ext h

theorem putByte_congr {s : Sector} {i j : ℕ} (h : i % 512 = j % 512) (x : U8) :
    putByte s i x = putByte s j x := by
  unfold putByte
  congr 1
  exact Fin.ext h

theorem byteAt_putByte (s : Sector) (i j : ℕ) (x : U8) :
    byteAt (putByte s i x) j = if j % 512 = i % 512 then x else byteAt s j := by
  unfold byteAt putByte
  by_cases h : j % 512 = i % 512
  · rw [if_pos h, show inSector j = inSector i from Fin.ext h, Function.update_self]
  · rw [if_neg h, Function.update_of_ne fun heq => h (congrArg Fin.val heq)]

theorem toNat_ld16 (s : Sector) (p : ℕ) :
    (ld16 s p).toNat = (byteAt s p).toNat + 256 * (byteAt s (p + 1)).toNat := by
  have h := (byteAt s p).isLt
  rw [ld16, BitVec.toNat_append, ← Nat.shiftLeft_add_eq_or_of_lt h, Nat.shiftLeft_eq]
  omega

theorem toNat_ld32 (s : Sector) (p : ℕ) :
    (ld32 s p).toNat = (byteAt s p).toNat + 256 * ((byteAt s (p + 1)).toNat +
      256 * ((byteAt s (p + 2)).toNat + 256 * (byteAt s (p + 3)).toNat)) := by
  have h0 := (byteAt s p).isLt
  have h1 := (byteAt s (p + 1)).isLt
  have h2 := (byteAt s (p + 2)).isLt
  rw [ld32, BitVec.toNat_append, ← Nat.shiftLeft_add_eq_or_of_lt h0, BitVec.toNat_append,
    ← Nat.shiftLeft_add_eq_or_of_lt h1, BitVec.toNat_append, ← Nat.shiftLeft_add_eq_or_of_lt h2]
  simp only [Nat.shiftLeft_eq]
  omega

/-! ### The bytes of the FAT change -/

/-- The bytes of the FAT have become `b`, and nothing else that is read has changed. -/
structure Volume.Stores (v v' : Volume) (b : Bytes) : Prop where
  geometry : v'.toGeometry = v.toGeometry
  lastClst : v'.lastClst = v.lastClst
  freeClst : v'.freeClst = v.freeClst
  fault : v'.drive.fault = v.drive.fault
  coherent : v'.Coherent
  bytes : ∀ k < 512 * v.fsize.toNat, v'.fatBytes k = b k
  rest : ∀ s ∈ v.served, v.fsize ≤ s - v.fatbase → v'.view s = v.view s
  mirrored : v.Mirrored → v'.Mirrored
  winsect : v'.winsect = v.winsect ∨ v'.winsect ∈ v.system

section Stores

variable {v v' : Volume} {b : Bytes} {k : ℕ}

theorem Volume.fatBytes_eq (v : Volume) (k : ℕ) :
    v.fatBytes k = byteAt (v.view (v.fatSect k)) k := rfl

/-- Moving the window changes no byte. -/
theorem Volume.Stores.keeps {v'' : Volume} (hg : v.FatSound) (h : v.Stores v' b)
    (hkeep : v'.Keeps v'') (hwin : v''.winsect = v'.winsect ∨ v''.winsect ∈ v.system) :
    v.Stores v'' b where
  geometry := hkeep.geometry.trans h.geometry
  lastClst := hkeep.lastClst.trans h.lastClst
  freeClst := hkeep.freeClst.trans h.freeClst
  fault := hkeep.fault.trans h.fault
  coherent := hkeep.coherent
  bytes := by
    intro k hk
    have hmem : v'.fatSect k ∈ v'.served := by
      rw [h.geometry]
      exact hg.fatSect_mem hk
    rw [← h.bytes k hk, v''.fatBytes_eq, v'.fatBytes_eq, hkeep.geometry]
    exact congrArg (byteAt · k) (hkeep.view _ hmem)
  rest := fun s hs hoff => (hkeep.view s (h.geometry ▸ hs)).trans (h.rest s hs hoff)
  mirrored := fun hm => hkeep.mirrored (h.mirrored hm)
  winsect := hwin.elim (fun heq => heq ▸ h.winsect) Or.inr

theorem Volume.Stores.refl (h : v.Coherent) : v.Stores v v.fatBytes :=
  ⟨rfl, rfl, rfl, rfl, h, fun _ _ => rfl, fun _ _ _ => rfl, id, Or.inl rfl⟩

/-- The window is moved to a sector of the FAT, and shows its bytes. -/
theorem Volume.Stores.moved (hg : v.FatSound) (h : v.Stores v' b)
    (hk : k < 512 * v.fsize.toNat) {sect : U32} (hsect : sect = v.fatSect k) :
    v.Stores (moveWindow v' sect).2 b ∧
      ((moveWindow v' sect).1 = .ok ∧
        (moveWindow v' sect).2.winsect = v.fatSect k ∧
        (∀ j, j / 512 = k / 512 → j < 512 * v.fsize.toNat →
          byteAt (moveWindow v' sect).2.win j = b j) ∨
        (moveWindow v' sect).1 = .diskErr ∧ ¬ v.drive.Reliable) := by
  subst hsect
  have hmem : v.fatSect k ∈ v'.served := by
    rw [h.geometry]
    exact hg.fatSect_mem hk
  obtain ⟨hkeep, hres⟩ := moveWindow_keeps h.coherent hmem
  have hpos := moveWindow_winsect h.coherent (v.fatSect k)
  generalize moveWindow v' (v.fatSect k) = out at hkeep hres hpos ⊢
  have hsys : out.2.winsect = v'.winsect ∨ out.2.winsect ∈ v.system := by
    rcases hpos with hpos | hpos | hpos
    · exact Or.inl hpos
    · rw [hpos]
      exact Or.inr (Or.inr (Or.inl (hg.fatSect_sub hk)))
    · rw [hpos]
      exact Or.inr (Or.inr (Or.inr rfl))
  refine ⟨h.keeps hg hkeep hsys, ?_⟩
  rcases hres with ⟨hok, hwin, hbytes⟩ | ⟨herr, hbad⟩
  · refine Or.inl ⟨hok, hwin, fun j hj hlt => ?_⟩
    rw [hbytes, ← h.bytes j hlt, v'.fatBytes_eq, h.geometry]
    rw [show v.fatSect j = v.fatSect k by rw [Geometry.fatSect, Geometry.fatSect, hj]]
  · refine Or.inr ⟨herr, ?_⟩
    unfold Drive.Reliable at hbad ⊢
    rwa [← h.fault]

/-- A byte of the sector in the window is changed. -/
theorem Volume.Stores.changed (hg : v.FatSound) (h : v.Stores v' b)
    (hk : k < 512 * v.fsize.toNat) (hwin : v'.winsect = v.fatSect k) (x : U8) :
    v.Stores { v' with win := putByte v'.win k x, wflag := true } (Function.update b k x) := by
  have hview : ∀ s, Volume.view { v' with win := putByte v'.win k x, wflag := true } s =
      if s = v.fatSect k then putByte (v'.view (v.fatSect k)) k x else v'.view s := by
    intro s
    have hline : v'.view (v.fatSect k) = v'.win := by
      rw [← hwin]
      exact v'.window.view_addr
    rw [hline, ← hwin]
    exact v'.window.view_modify _ s
  have hmem := hg.fatSect_mem hk
  refine ⟨h.geometry, h.lastClst, h.freeClst, h.fault, ?_, ?_, ?_, ?_, h.winsect⟩
  · refine Buffered.coherent_modify (b := v'.window) (S := v'.served) ?_ _
    show v'.winsect ∈ v'.served
    rw [hwin, h.geometry]
    exact hmem
  · intro j hj
    rw [Volume.fatBytes_eq, hview]
    show byteAt (if v'.fatSect j = _ then _ else _) j = _
    rw [h.geometry]
    by_cases hsect : v.fatSect j = v.fatSect k
    · have hdiv := hg.fatSect_inj hj hk hsect
      have hold : byteAt (v'.view (v.fatSect k)) j = b j := by
        rw [← h.bytes j hj, v'.fatBytes_eq, h.geometry, hsect]
      rw [if_pos hsect, byteAt_putByte, hold]
      by_cases hjk : j = k
      · rw [hjk, Function.update_self, if_pos rfl]
      · rw [Function.update_of_ne hjk, if_neg (by omega)]
    · have hjk : j ≠ k := fun heq => hsect (heq ▸ rfl)
      rw [if_neg hsect, Function.update_of_ne hjk, ← h.bytes j hj, v'.fatBytes_eq, h.geometry]
  · intro s hs hoff
    have hne : s ≠ v.fatSect k := by
      rintro rfl
      have := hg.fatSect_sub hk
      bv_omega
    rw [hview, if_neg hne]
    exact h.rest s hs hoff
  · intro hm hrel htwo s hs hne
    exact h.mirrored hm hrel htwo s hs fun _ => hne rfl

theorem byte_ofNat {w : ℕ} (x : BitVec w) (i : ℕ) :
    (x >>> i).setWidth 8 = BitVec.ofNat 8 (x.toNat / 2 ^ i) := by
  refine BitVec.eq_of_toNat_eq ?_
  rw [BitVec.toNat_setWidth, BitVec.toNat_ushiftRight, Nat.shiftRight_eq_div_pow,
    BitVec.toNat_ofNat]

/-- A word of 16 bits of the FAT is stored. -/
theorem Volume.Stores.changed_st16 (hg : v.FatSound) (h : v.Stores v' b)
    (hk : k + 1 < 512 * v.fsize.toNat) (heven : k % 2 = 0) (hwin : v'.winsect = v.fatSect k)
    (val : U32) :
    v.Stores { v' with win := st16 v'.win (k % 512) (val.setWidth 16), wflag := true }
      (putWord b k val.toNat 2) := by
  have h0 : (val.setWidth 16).setWidth 8 = BitVec.ofNat 8 val.toNat := by
    refine BitVec.eq_of_toNat_eq ?_
    rw [BitVec.toNat_setWidth, BitVec.toNat_setWidth, BitVec.toNat_ofNat]
    omega
  have h1 : ((val.setWidth 16 : U16) >>> 8).setWidth 8 = BitVec.ofNat 8 (val.toNat / 256) := by
    refine BitVec.eq_of_toNat_eq ?_
    rw [byte_ofNat, BitVec.toNat_ofNat, BitVec.toNat_ofNat, BitVec.toNat_setWidth]
    omega
  have hsect : v.fatSect (k + 1) = v.fatSect k := by
    rw [Geometry.fatSect, Geometry.fatSect, show (k + 1) / 512 = k / 512 by omega]
  rw [st16, h0, h1, putByte_congr (i := k % 512) (j := k) (by omega),
    putByte_congr (i := k % 512 + 1) (j := k + 1) (by omega)]
  exact (h.changed hg (by omega) hwin _).changed hg hk (hwin.trans hsect.symm) _

/-- A word of 32 bits of the FAT is stored. -/
theorem Volume.Stores.changed_st32 (hg : v.FatSound) (h : v.Stores v' b)
    (hk : k + 3 < 512 * v.fsize.toNat) (hfour : k % 4 = 0) (hwin : v'.winsect = v.fatSect k)
    (val : U32) :
    v.Stores { v' with win := st32 v'.win (k % 512) val, wflag := true }
      (putWord b k val.toNat 4) := by
  have h0 : val.setWidth 8 = BitVec.ofNat 8 val.toNat := by
    refine BitVec.eq_of_toNat_eq ?_
    rw [BitVec.toNat_setWidth, BitVec.toNat_ofNat]
  have hsect : ∀ i < 4, v.fatSect (k + i) = v.fatSect k := by
    intro i hi
    rw [Geometry.fatSect, Geometry.fatSect, show (k + i) / 512 = k / 512 by omega]
  have hbytes : putWord b k val.toNat 4 =
      Function.update (Function.update (Function.update (Function.update b k
        (val.setWidth 8)) (k + 1) ((val >>> 8).setWidth 8)) (k + 2) ((val >>> 16).setWidth 8))
        (k + 3) ((val >>> 24).setWidth 8) := by
    rw [h0, byte_ofNat, byte_ofNat, byte_ofNat]
    simp only [putWord, Nat.div_div_eq_div_mul]
    rfl
  rw [hbytes, st32, putByte_congr (i := k % 512) (j := k) (by omega),
    putByte_congr (i := k % 512 + 1) (j := k + 1) (by omega),
    putByte_congr (i := k % 512 + 2) (j := k + 2) (by omega),
    putByte_congr (i := k % 512 + 3) (j := k + 3) (by omega)]
  have h1 := h.changed hg (by omega) hwin (val.setWidth 8)
  have h2 := h1.changed hg (k := k + 1) (by omega) (hwin.trans (hsect 1 (by omega)).symm)
    ((val >>> 8).setWidth 8)
  have h3 := h2.changed hg (k := k + 2) (by omega) (hwin.trans (hsect 2 (by omega)).symm)
    ((val >>> 16).setWidth 8)
  exact h3.changed hg hk (hwin.trans (hsect 3 (by omega)).symm) ((val >>> 24).setWidth 8)

end Stores

/-! ### The entries change -/

/-- The entries of the FAT have become `fat`, and nothing else that is read has changed. -/
structure Volume.Alters (v v' : Volume) (fat : ℕ → ℕ) : Prop where
  geometry : v'.toGeometry = v.toGeometry
  fault : v'.drive.fault = v.drive.fault
  coherent : v'.Coherent
  entry : ∀ c < v.nFatent.toNat, v'.entry c = fat c
  rest : ∀ s ∈ v.served, v.fsize ≤ s - v.fatbase → v'.view s = v.view s
  mirrored : v.Mirrored → v'.Mirrored
  winsect : v'.winsect = v.winsect ∨ v'.winsect ∈ v.system

/-- The allocation information is also what it was. -/
structure Volume.Sets (v v' : Volume) (fat : ℕ → ℕ) : Prop extends Volume.Alters v v' fat where
  lastClst : v'.lastClst = v.lastClst
  freeClst : v'.freeClst = v.freeClst

theorem FsType.tableBytes_fat12 (n : ℕ) : FsType.fat12.tableBytes n = (3 * n + 1) / 2 := by
  show n * 3 / 2 + n % 2 = _
  obtain ⟨i, rfl | rfl⟩ := Nat.even_or_odd' n <;> omega

theorem tripleAt_inside (c : ℕ) : tripleAt c + 1 < FsType.fat12.tableBytes (c + 1) := by
  rw [FsType.tableBytes_fat12]
  unfold tripleAt
  obtain ⟨i, rfl | rfl⟩ := Nat.even_or_odd' c <;> omega

/-- The bytes of an entry are in the table. -/
theorem FsType.number_congr {t : FsType} {b b' : Bytes} {n c : ℕ} (hc : c < n)
    (h : ∀ k < t.tableBytes n, b' k = b k) : t.number b' c = t.number b c := by
  cases t with
  | none => rfl
  | fat12 =>
    have hin : tripleAt c + 1 < FsType.fat12.tableBytes n := by
      refine (tripleAt_inside c).trans_le ?_
      rw [FsType.tableBytes_fat12, FsType.tableBytes_fat12]
      omega
    exact triple_congr (h _ (Nat.lt_of_succ_lt hin)) (h _ hin)
  | fat16 => exact word_congr fun k _ hk => h k (by show k < n * 2; omega)
  | fat32 =>
    show word b' _ _ % _ = word b _ _ % _
    rw [word_congr fun k _ hk => h k (by show k < n * 4; omega)]

theorem Volume.Stores.sets {v v' : Volume} {b : Bytes} (hg : v.FatSound) (h : v.Stores v' b) :
    v.Sets v' (v.fsType.number b) where
  geometry := h.geometry
  lastClst := h.lastClst
  freeClst := h.freeClst
  fault := h.fault
  coherent := h.coherent
  entry := by
    intro c hc
    rw [Volume.entry, h.geometry]
    exact FsType.number_congr hc fun k hk => h.bytes k (hk.trans_le hg.fits)
  rest := h.rest
  mirrored := h.mirrored
  winsect := h.winsect

theorem toNat_add_half {c : U32} (hc : c.toNat < 2 ^ 31) :
    (c + c / 2#32).toNat = tripleAt c.toNat := by
  rw [BitVec.toNat_add, BitVec.toNat_udiv]
  show (c.toNat + c.toNat / 2) % _ = c.toNat + c.toNat / 2
  omega

theorem add_div_eq_fatSect {g : Geometry} {x y : U32} {k : ℕ}
    (h : x.toNat / y.toNat = k / 512) : g.fatbase + x / y = g.fatSect k := by
  rw [Geometry.fatSect]
  congr 1
  refine BitVec.eq_of_toNat_eq ?_
  have hx : x.toNat / y.toNat ≤ x.toNat := Nat.div_le_self _ _
  have := x.isLt
  rw [BitVec.toNat_udiv, h, BitVec.toNat_ofNat]
  omega

theorem odd_iff (c : U32) : c &&& 1#32 ≠ 0#32 ↔ c.toNat % 2 = 1 := by
  have h : (c &&& 1#32).toNat = c.toNat % 2 := toNat_and_lowMask c (n := 1) (by omega)
  constructor
  · intro hne
    have : (c &&& 1#32).toNat ≠ 0 := fun h0 => hne (BitVec.eq_of_toNat_eq h0)
    omega
  · intro h1 h0
    rw [h0] at h
    have : (0#32).toNat = 0 := rfl
    omega

/-- What `get_fat` makes of the two bytes of a 12-bit entry. -/
theorem toNat_of_bytes (x y : U8) (c : U32) :
    (if c &&& 1#32 ≠ 0#32 then (x.setWidth 32 ||| y.setWidth 32 <<< 8) >>> 4
      else (x.setWidth 32 ||| y.setWidth 32 <<< 8) &&& 0xFFF#32 : U32).toNat =
      if c.toNat % 2 = 1 then (x.toNat + 256 * y.toNat) / 16
      else (x.toNat + 256 * y.toNat) % 4096 := by
  have hx := x.isLt
  have hy := y.isLt
  have hlow : (x.setWidth 32 : U32).toNat < 2 ^ 8 := by
    rw [BitVec.toNat_setWidth]
    omega
  have hhigh : (y.setWidth 32 <<< 8 : U32).toNat = 256 * y.toNat := by
    rw [BitVec.toNat_shiftLeft, BitVec.toNat_setWidth, Nat.shiftLeft_eq]
    omega
  have hwc : (x.setWidth 32 ||| y.setWidth 32 <<< 8 : U32).toNat = x.toNat + 256 * y.toNat := by
    rw [BitVec.or_comm, toNat_or_of_low (n := 8) (by omega) hlow, hhigh, BitVec.toNat_setWidth]
    omega
  simp only [odd_iff]
  split
  · rw [BitVec.toNat_ushiftRight, hwc, Nat.shiftRight_eq_div_pow]
  · rw [show (0xFFF#32 : U32) = lowMask 32 12 from rfl, toNat_and_lowMask _ (by omega), hwc]
    rfl

/-- The upper four bits of a 32-bit entry are kept. -/
theorem toNat_merge28 (x y : U32) :
    (x &&& 0x0FFFFFFF#32 ||| y &&& 0xF0000000#32).toNat =
      x.toNat % 2 ^ 28 + y.toNat / 2 ^ 28 * 2 ^ 28 := by
  have h1 : (x &&& 0x0FFFFFFF#32).toNat = x.toNat % 2 ^ 28 :=
    toNat_and_lowMask x (n := 28) (by omega)
  have h2 : (y &&& 0xF0000000#32).toNat = y.toNat / 2 ^ 28 * 2 ^ 28 :=
    toNat_and_highMask y (n := 28) (by omega)
  rw [BitVec.or_comm, toNat_or_of_low (n := 28) (by omega) (by omega), h1, h2, Nat.add_comm]

theorem firstByte_eq (x : U8) (c val : U32) :
    firstByte x c val = lowByte x c.toNat val.toNat := by
  have hx := x.isLt
  unfold firstByte lowByte
  simp only [odd_iff]
  refine BitVec.eq_of_toNat_eq ?_
  split
  · have h1 : (x &&& 0x0F#8).toNat = x.toNat % 16 := toNat_and_lowMask x (n := 4) (by omega)
    have h2 : (val.setWidth 8 <<< 4 : U8).toNat = 16 * (val.toNat % 16) := by
      rw [BitVec.toNat_shiftLeft, BitVec.toNat_setWidth, Nat.shiftLeft_eq]
      omega
    rw [BitVec.or_comm, toNat_or_of_low (n := 4) (by omega) (by omega), h1, h2,
      BitVec.toNat_ofNat]
    omega
  · rw [BitVec.toNat_setWidth, BitVec.toNat_ofNat]

theorem secondByte_eq (x : U8) (c val : U32) :
    secondByte x c val = highByte x c.toNat val.toNat := by
  have hx := x.isLt
  unfold secondByte highByte
  simp only [odd_iff]
  refine BitVec.eq_of_toNat_eq ?_
  split
  · rw [BitVec.toNat_setWidth, BitVec.toNat_ushiftRight, Nat.shiftRight_eq_div_pow,
      BitVec.toNat_ofNat]
  · have h1 : (x &&& 0xF0#8).toNat = x.toNat / 16 * 16 := toNat_and_highMask x (n := 4) (by omega)
    have h2 : ((val >>> 8).setWidth 8 &&& 0x0F#8 : U8).toNat = val.toNat / 256 % 16 := by
      refine (toNat_and_lowMask _ (n := 4) (by omega)).trans ?_
      rw [BitVec.toNat_setWidth, BitVec.toNat_ushiftRight, Nat.shiftRight_eq_div_pow]
      omega
    rw [toNat_or_of_low (n := 4) (by omega) (by omega), h1, h2, BitVec.toNat_ofNat]
    omega

/-! ### `get_fat` and `put_fat` -/

section Entries

variable {v : Volume} {clst : U32}

/-- A cluster number in range is far below `2³¹`, and the bytes of its entry are in the FAT. -/
theorem Geometry.FatSound.entry_inside {g : Geometry} (hg : g.FatSound) {c k : ℕ}
    (hc : c < g.nFatent.toNat) (hk : k < g.fsType.tableBytes (c + 1)) :
    c < 2 ^ 31 ∧ k < 512 * g.fsize.toNat := by
  have hu := hg.upper
  have hf := hg.fits
  cases ht : g.fsType with
  | none =>
    rw [ht] at hu
    exact absurd hg.lower (by rw [FsType.maxFatent] at hu; omega)
  | fat12 =>
    rw [ht] at hu hf hk
    rw [FsType.tableBytes_fat12] at hf hk
    simp only [FsType.maxFatent] at hu
    omega
  | fat16 =>
    rw [ht] at hu hf hk
    simp only [FsType.maxFatent, FsType.tableBytes] at hu hf hk
    omega
  | fat32 =>
    rw [ht] at hu hf hk
    simp only [FsType.maxFatent, FsType.tableBytes] at hu hf hk
    omega

theorem Geometry.FatSound.ne_none {g : Geometry} (hg : g.FatSound) : g.fsType ≠ .none := by
  intro ht
  have hu := hg.upper
  rw [ht] at hu
  exact absurd hg.lower (by rw [FsType.maxFatent] at hu; omega)

/-- Where the two bytes of a 12-bit entry are. -/
theorem Geometry.FatSound.place12 {g : Geometry} (hg : g.FatSound) (ht : g.fsType = .fat12)
    (hn : clst < g.nFatent) :
    tripleAt clst.toNat + 1 < 512 * g.fsize.toNat ∧
      (clst + clst / 2#32).toNat = tripleAt clst.toNat ∧
      (clst + clst / 2#32 + 1#32).toNat = tripleAt clst.toNat + 1 := by
  obtain ⟨hsmall, hk⟩ := hg.entry_inside (k := tripleAt clst.toNat + 1) (BitVec.lt_def.mp hn) (by
    rw [ht]
    exact tripleAt_inside _)
  have hbc := toNat_add_half hsmall
  have hbound : tripleAt clst.toNat < 2 ^ 32 - 1 := by unfold tripleAt; omega
  exact ⟨hk, hbc, by bv_omega⟩

/-- Where a 16-bit entry is. -/
theorem Geometry.FatSound.place16 {g : Geometry} (hg : g.FatSound) (ht : g.fsType = .fat16)
    (hn : clst < g.nFatent) :
    2 * clst.toNat + 1 < 512 * g.fsize.toNat ∧
      (clst * 2#32 % 512#32).toNat = 2 * clst.toNat % 512 ∧
      g.fatbase + clst / 256#32 = g.fatSect (2 * clst.toNat) := by
  obtain ⟨hsmall, hk⟩ := hg.entry_inside (k := 2 * clst.toNat + 1) (BitVec.lt_def.mp hn) (by
    rw [ht]
    show _ < (clst.toNat + 1) * 2
    omega)
  refine ⟨hk, ?_, add_div_eq_fatSect (by show clst.toNat / 256 = _; omega)⟩
  rw [BitVec.toNat_umod, BitVec.toNat_mul]
  show clst.toNat * 2 % 2 ^ 32 % 512 = _
  omega

/-- Where a 32-bit entry is. -/
theorem Geometry.FatSound.place32 {g : Geometry} (hg : g.FatSound) (ht : g.fsType = .fat32)
    (hn : clst < g.nFatent) :
    4 * clst.toNat + 3 < 512 * g.fsize.toNat ∧
      (clst * 4#32 % 512#32).toNat = 4 * clst.toNat % 512 ∧
      g.fatbase + clst / 128#32 = g.fatSect (4 * clst.toNat) := by
  obtain ⟨hsmall, hk⟩ := hg.entry_inside (k := 4 * clst.toNat + 3) (BitVec.lt_def.mp hn) (by
    rw [ht]
    show _ < (clst.toNat + 1) * 4
    omega)
  refine ⟨hk, ?_, add_div_eq_fatSect (by show clst.toNat / 128 = _; omega)⟩
  rw [BitVec.toNat_umod, BitVec.toNat_mul]
  show clst.toNat * 4 % 2 ^ 32 % 512 = _
  omega

section Window

variable {s : Sector} {b : Bytes} {k n : ℕ}

/-- A word of 16 bits in a sector that shows a part of the table. -/
theorem toNat_ld16_shown (hshow : ∀ j, j / 512 = k / 512 → j < n → byteAt s j = b j)
    (hk : k + 1 < n) (heven : k % 2 = 0) : (ld16 s (k % 512)).toNat = word b k 2 := by
  rw [toNat_ld16, byteAt_congr (j := k) (by omega), hshow _ rfl (by omega),
    byteAt_congr (j := k + 1) (by omega), hshow _ (by omega) hk]
  simp only [word, Nat.mul_zero, Nat.add_zero]

theorem toNat_ld32_shown (hshow : ∀ j, j / 512 = k / 512 → j < n → byteAt s j = b j)
    (hk : k + 3 < n) (hfour : k % 4 = 0) : (ld32 s (k % 512)).toNat = word b k 4 := by
  rw [toNat_ld32, byteAt_congr (j := k) (by omega), hshow _ rfl (by omega),
    byteAt_congr (j := k + 1) (by omega), hshow _ (by omega) (by omega),
    byteAt_congr (j := k + 2) (by omega), hshow _ (by omega) (by omega),
    byteAt_congr (j := k + 3) (by omega), hshow _ (by omega) hk]
  simp only [word, Nat.mul_zero, Nat.add_zero]

end Window

/-- What `get_fat` returns for entry `clst`. -/
def GetResult (v : Volume) (clst : U32) (out : U32 × Volume) : Prop :=
  v.Sets out.2 v.entry ∧
    (out.1.toNat = v.entry clst.toNat ∨ out.1 = 0xFFFFFFFF#32 ∧ ¬ v.drive.Reliable)

theorem not_outside (h2 : 2#32 ≤ clst) (hn : clst < v.nFatent) :
    ¬ (clst < 2#32 ∨ v.nFatent ≤ clst) := by
  rintro (h | h) <;> bv_omega

section Get

variable (hg : v.FatSound) (hc : v.Coherent) (h2 : 2#32 ≤ clst) (hn : clst < v.nFatent)
include hg hc h2 hn

/-- The two bytes are read one after the other, each from the sector that it is in. -/
theorem getFat_fat12 (ht : v.fsType = .fat12) : GetResult v clst (getFat v clst) := by
  obtain ⟨hk1, hbc, hbc1⟩ := hg.place12 ht hn
  have hk0 : tripleAt clst.toNat < 512 * v.fsize.toNat := by omega
  have hsect : v.fatbase + (clst + clst / 2#32) / 512#32 = v.fatSect (tripleAt clst.toNat) :=
    add_div_eq_fatSect (by rw [hbc]; rfl)
  unfold getFat
  rw [if_neg (not_outside h2 hn), ht]
  simp only
  obtain ⟨hst, hres⟩ := (Volume.Stores.refl hc).moved hg hk0 hsect
  generalize moveWindow v (v.fatbase + (clst + clst / 2#32) / 512#32) = out at hst hres
  obtain ⟨res, v₁⟩ := out
  rcases hres with ⟨rfl, _, hwin⟩ | ⟨rfl, hbad⟩
  · simp only
    have hgeo : v₁.toGeometry = v.toGeometry := hst.geometry
    -- the second byte, which may be in the next sector
    have hsect : v₁.fatbase + (clst + clst / 2#32 + 1#32) / 512#32 =
        v.fatSect (tripleAt clst.toNat + 1) := by
      rw [hgeo]
      exact add_div_eq_fatSect (by rw [hbc1]; rfl)
    obtain ⟨hst', hres'⟩ := hst.moved hg hk1 hsect
    generalize moveWindow v₁ _ = out' at hst' hres'
    obtain ⟨res', v₂⟩ := out'
    rcases hres' with ⟨rfl, _, hwin'⟩ | ⟨rfl, hbad⟩
    · refine ⟨hst'.sets hg, Or.inl ?_⟩
      simp only
      rw [toNat_of_bytes, hbc, hbc1, hwin _ rfl hk0, hwin' _ rfl hk1, Volume.entry, ht]
      simp only [FsType.number, triple, word, Nat.mul_zero, Nat.add_zero]
    · exact ⟨hst'.sets hg, Or.inr ⟨rfl, hbad⟩⟩
  · exact ⟨hst.sets hg, Or.inr ⟨rfl, hbad⟩⟩

theorem getFat_fat16 (ht : v.fsType = .fat16) : GetResult v clst (getFat v clst) := by
  obtain ⟨hk, hoff, hsect⟩ := hg.place16 ht hn
  unfold getFat
  rw [if_neg (not_outside h2 hn), ht]
  simp only
  obtain ⟨hst, hres⟩ := (Volume.Stores.refl hc).moved hg (by omega) hsect
  generalize moveWindow v _ = out at hst hres
  obtain ⟨res, v₁⟩ := out
  rcases hres with ⟨rfl, _, hwin⟩ | ⟨rfl, hbad⟩
  · refine ⟨hst.sets hg, Or.inl ?_⟩
    have hword := toNat_ld16_shown hwin hk (by omega)
    have hlt := (ld16 v₁.win (2 * clst.toNat % 512)).isLt
    simp only
    rw [BitVec.toNat_setWidth, hoff, Nat.mod_eq_of_lt (by omega), hword, Volume.entry, ht]
    rfl
  · exact ⟨hst.sets hg, Or.inr ⟨rfl, hbad⟩⟩

/-- The upper four bits of a 32-bit entry are left out. -/
theorem getFat_fat32 (ht : v.fsType = .fat32) : GetResult v clst (getFat v clst) := by
  obtain ⟨hk, hoff, hsect⟩ := hg.place32 ht hn
  unfold getFat
  rw [if_neg (not_outside h2 hn), ht]
  simp only
  obtain ⟨hst, hres⟩ := (Volume.Stores.refl hc).moved hg (by omega) hsect
  generalize moveWindow v _ = out at hst hres
  obtain ⟨res, v₁⟩ := out
  rcases hres with ⟨rfl, _, hwin⟩ | ⟨rfl, hbad⟩
  · refine ⟨hst.sets hg, Or.inl ?_⟩
    simp only
    rw [show (0x0FFFFFFF#32 : U32) = lowMask 32 28 from rfl, toNat_and_lowMask _ (by omega),
      hoff, toNat_ld32_shown hwin hk (by omega), Volume.entry, ht]
    rfl
  · exact ⟨hst.sets hg, Or.inr ⟨rfl, hbad⟩⟩

/-- `get_fat` returns what the entry holds, or reports a disk error; it changes nothing. -/
theorem getFat_spec : v.Sets (getFat v clst).2 v.entry ∧
    ((getFat v clst).1.toNat = v.entry clst.toNat ∨
      (getFat v clst).1 = 0xFFFFFFFF#32 ∧ ¬ v.drive.Reliable) := by
  cases ht : v.fsType with
  | none => exact absurd ht hg.ne_none
  | fat12 => exact getFat_fat12 hg hc h2 hn ht
  | fat16 => exact getFat_fat16 hg hc h2 hn ht
  | fat32 => exact getFat_fat32 hg hc h2 hn ht

end Get

/-- The bytes of a FAT with a new number in it. -/
def FsType.put (t : FsType) (b : Bytes) (c val : ℕ) : Bytes :=
  match t with
  | .none => b
  | .fat12 => putHigh (putLow b c val) c val
  | .fat16 => putWord b (2 * c) val 2
  | .fat32 => putWord b (4 * c) (val % 2 ^ 28 + word b (4 * c) 4 / 2 ^ 28 * 2 ^ 28) 4

/-- The new number is there, as far as it fits; the others are what they were. -/
theorem FsType.number_put {t : FsType} (ht : t ≠ .none) (b : Bytes) (c val d : ℕ) :
    t.number (t.put b c val) d = Function.update (t.number b) c (val % t.modulus) d := by
  by_cases hd : d = c
  · rw [hd, Function.update_self]
    cases t with
    | none => exact absurd rfl ht
    | fat12 => exact triple_put b c val
    | fat16 => exact word_putWord b (2 * c) val 2
    | fat32 =>
      have hw := word_lt b (4 * c) 4
      show word (putWord _ _ _ _) _ _ % _ = _
      rw [word_putWord]
      show _ = val % 2 ^ 28
      omega
  · rw [Function.update_of_ne hd]
    cases t with
    | none => rfl
    | fat12 =>
      show triple (putHigh _ _ _) d = triple b d
      rw [triple_putHigh_of_ne hd, triple_putLow_of_ne hd]
    | fat16 => exact word_putWord_of_off (by omega)
    | fat32 =>
      show word (putWord _ _ _ _) _ _ % _ = word b _ _ % _
      rw [word_putWord_of_off (by omega)]

/-- After the first byte of a 12-bit entry alone, the others are what they were. -/
theorem number_putLow {b : Bytes} {c val d : ℕ} :
    FsType.fat12.number (putLow b c val) d =
      Function.update (FsType.fat12.number b) c (FsType.fat12.number (putLow b c val) c) d := by
  by_cases hd : d = c
  · rw [hd, Function.update_self]
  · rw [Function.update_of_ne hd]
    exact triple_putLow_of_ne hd

theorem Volume.Alters.congr {v v' : Volume} {fat fat' : ℕ → ℕ} (h : v.Alters v' fat)
    (hfat : ∀ c < v.nFatent.toNat, fat c = fat' c) : v.Alters v' fat' :=
  { h with entry := fun c hc => (h.entry c hc).trans (hfat c hc) }

theorem Volume.Sets.congr {v v' : Volume} {fat fat' : ℕ → ℕ} (h : v.Sets v' fat)
    (hfat : ∀ c < v.nFatent.toNat, fat c = fat' c) : v.Sets v' fat' :=
  { h with toAlters := h.toAlters.congr hfat }

/-- What `put_fat` may do to entry `clst`. -/
def PutResult (v : Volume) (clst val : U32) (out : FResult × Volume) : Prop :=
  (out.1 = .ok ∧
    v.Sets out.2 (Function.update v.entry clst.toNat (val.toNat % v.fsType.modulus))) ∨
  (out.1 = .diskErr ∧ ¬ v.drive.Reliable ∧ ∃ x, (v.fsType ≠ .fat12 → x = v.entry clst.toNat) ∧
    v.Sets out.2 (Function.update v.entry clst.toNat x))

theorem PutResult.failed {v v' : Volume} {val : U32} {b : Bytes} (hg : v.FatSound)
    (h : v.Stores v' b) (hbad : ¬ v.drive.Reliable)
    (hb : ∃ x, (v.fsType ≠ .fat12 → x = v.entry clst.toNat) ∧
      ∀ d, v.fsType.number b d = Function.update v.entry clst.toNat x d) :
    PutResult v clst val (.diskErr, v') := by
  obtain ⟨x, hx, hb⟩ := hb
  exact Or.inr ⟨rfl, hbad, x, hx, (h.sets hg).congr fun d _ => hb d⟩

theorem PutResult.unchanged {v v' : Volume} {val : U32} (hg : v.FatSound)
    (h : v.Stores v' v.fatBytes) (hbad : ¬ v.drive.Reliable) :
    PutResult v clst val (.diskErr, v') :=
  PutResult.failed hg h hbad
    ⟨v.entry clst.toNat, fun _ => rfl, fun d => by rw [Function.update_eq_self]; rfl⟩

theorem PutResult.done {v v' : Volume} {val : U32} (hg : v.FatSound) (ht : v.fsType ≠ .none)
    (h : v.Stores v' (v.fsType.put v.fatBytes clst.toNat val.toNat)) :
    PutResult v clst val (.ok, v') :=
  Or.inl ⟨rfl, (h.sets hg).congr fun _ _ => FsType.number_put ht ..⟩

section Put

variable (hg : v.FatSound) (hc : v.Coherent) (h2 : 2#32 ≤ clst) (hn : clst < v.nFatent)
include hg hc h2 hn

/-- The first byte stays changed where the sector of the second one is not reached. -/
theorem putFat_fat12 (ht : v.fsType = .fat12) (val : U32) :
    PutResult v clst val (putFat v clst val) := by
  obtain ⟨hk1, hbc, hbc1⟩ := hg.place12 ht hn
  have hk0 : tripleAt clst.toNat < 512 * v.fsize.toNat := by omega
  have hsect : v.fatbase + (clst + clst / 2#32) / 512#32 = v.fatSect (tripleAt clst.toNat) :=
    add_div_eq_fatSect (by rw [hbc]; rfl)
  unfold putFat
  rw [if_pos ⟨h2, hn⟩, ht]
  simp only
  obtain ⟨hst, hres⟩ := (Volume.Stores.refl hc).moved hg hk0 hsect
  generalize moveWindow v (v.fatbase + (clst + clst / 2#32) / 512#32) = out at hst hres
  obtain ⟨res, v₁⟩ := out
  rcases hres with ⟨rfl, hsect₁, hwin⟩ | ⟨rfl, hbad⟩
  · simp only
    rw [hbc, hbc1]
    have hlow : firstByte (byteAt v₁.win (tripleAt clst.toNat)) clst val =
        lowByte (v.fatBytes (tripleAt clst.toNat)) clst.toNat val.toNat := by
      rw [firstByte_eq]
      exact congrArg (lowByte · _ _) (hwin _ rfl hk0)
    rw [hlow]
    -- from here on the entry has half of its new number
    have hst₁ : v.Stores { v₁ with win := putByte v₁.win (tripleAt clst.toNat) _, wflag := true }
        (putLow v.fatBytes clst.toNat val.toNat) := hst.changed hg hk0 hsect₁ _
    have hgeo : v₁.toGeometry = v.toGeometry := hst.geometry
    have hsect' : v₁.fatbase + (clst + clst / 2#32 + 1#32) / 512#32 =
        v.fatSect (tripleAt clst.toNat + 1) := by
      rw [hgeo]
      exact add_div_eq_fatSect (by rw [hbc1]; rfl)
    obtain ⟨hst', hres'⟩ := hst₁.moved hg hk1 hsect'
    generalize moveWindow _ _ = out' at hst' hres'
    obtain ⟨res', v₂⟩ := out'
    rcases hres' with ⟨rfl, hsect₂, hwin'⟩ | ⟨rfl, hbad⟩
    · refine PutResult.done hg hg.ne_none ?_
      rw [ht, secondByte_eq, hwin' _ rfl hk1]
      exact hst'.changed hg hk1 hsect₂ _
    · exact PutResult.failed hg hst' hbad ⟨_, fun hne => absurd ht hne, fun d => by
        rw [v.entry_eq, ht]
        exact number_putLow⟩
  · exact PutResult.unchanged hg hst hbad

theorem putFat_fat16 (ht : v.fsType = .fat16) (val : U32) :
    PutResult v clst val (putFat v clst val) := by
  obtain ⟨hk, hoff, hsect⟩ := hg.place16 ht hn
  unfold putFat
  rw [if_pos ⟨h2, hn⟩, ht]
  simp only
  obtain ⟨hst, hres⟩ := (Volume.Stores.refl hc).moved hg (by omega) hsect
  generalize moveWindow v _ = out at hst hres
  obtain ⟨res, v₁⟩ := out
  rcases hres with ⟨rfl, hsect₁, _⟩ | ⟨rfl, hbad⟩
  · refine PutResult.done hg hg.ne_none ?_
    rw [ht, hoff]
    exact hst.changed_st16 hg hk (by omega) hsect₁ _
  · exact PutResult.unchanged hg hst hbad

/-- The upper four bits of a 32-bit entry are those that it had. -/
theorem putFat_fat32 (ht : v.fsType = .fat32) (val : U32) :
    PutResult v clst val (putFat v clst val) := by
  obtain ⟨hk, hoff, hsect⟩ := hg.place32 ht hn
  unfold putFat
  rw [if_pos ⟨h2, hn⟩, ht]
  simp only
  obtain ⟨hst, hres⟩ := (Volume.Stores.refl hc).moved hg (by omega) hsect
  generalize moveWindow v _ = out at hst hres
  obtain ⟨res, v₁⟩ := out
  rcases hres with ⟨rfl, hsect₁, hwin⟩ | ⟨rfl, hbad⟩
  · refine PutResult.done hg hg.ne_none ?_
    rw [ht, hoff]
    have hstore := hst.changed_st32 hg hk (by omega) hsect₁
      (val &&& 0x0FFFFFFF#32 ||| ld32 v₁.win (4 * clst.toNat % 512) &&& 0xF0000000#32)
    rwa [toNat_merge28, toNat_ld32_shown hwin hk (by omega)] at hstore
  · exact PutResult.unchanged hg hst hbad

/-- `put_fat` stores the value in its entry, or reports a disk error; whatever it has done to
the entry then, no other one has changed. -/
theorem putFat_spec (val : U32) : PutResult v clst val (putFat v clst val) := by
  cases ht : v.fsType with
  | none => exact absurd ht hg.ne_none
  | fat12 => exact putFat_fat12 hg hc h2 hn ht val
  | fat16 => exact putFat_fat16 hg hc h2 hn ht val
  | fat32 => exact putFat_fat32 hg hc h2 hn ht val

end Put

/-! ### One after the other -/

theorem Volume.Sets.refl (hc : v.Coherent) : v.Sets v v.entry :=
  ⟨⟨rfl, rfl, hc, fun _ _ => rfl, fun _ _ _ => rfl, id, Or.inl rfl⟩, rfl, rfl⟩

theorem Volume.Alters.trans {v' v'' : Volume} {fat fat' : ℕ → ℕ} (h : v.Alters v' fat)
    (h' : v'.Alters v'' fat') : v.Alters v'' fat' where
  geometry := h'.geometry.trans h.geometry
  fault := h'.fault.trans h.fault
  coherent := h'.coherent
  entry := h.geometry ▸ h'.entry
  rest := fun s hs hoff =>
    (h'.rest s (h.geometry ▸ hs) (h.geometry ▸ hoff)).trans (h.rest s hs hoff)
  mirrored := fun hm => h'.mirrored (h.mirrored hm)
  winsect := h'.winsect.elim (fun heq => heq ▸ h.winsect) fun hs => Or.inr (h.geometry ▸ hs)

theorem Volume.Sets.trans {v' v'' : Volume} {fat fat' : ℕ → ℕ} (h : v.Sets v' fat)
    (h' : v'.Sets v'' fat') : v.Sets v'' fat' :=
  ⟨h.toAlters.trans h'.toAlters, h'.lastClst.trans h.lastClst, h'.freeClst.trans h.freeClst⟩

theorem Volume.Alters.reliable {v' : Volume} {fat : ℕ → ℕ} (h : v.Alters v' fat) :
    v'.drive.Reliable ↔ v.drive.Reliable := by
  unfold Drive.Reliable
  rw [h.fault]

theorem FsType.number_lt (t : FsType) (b : Bytes) (c : ℕ) : t.number b c < 2 ^ 28 := by
  cases t with
  | none => exact Nat.one_lt_two_pow (by omega)
  | fat12 => exact (triple_lt b c).trans_le (by omega)
  | fat16 => exact (word_lt b (2 * c) 2).trans_le (by omega)
  | fat32 => exact Nat.mod_lt _ (Nat.two_pow_pos 28)

/-- No entry is `0xFFFFFFFF`, which stands for a disk error. -/
theorem Volume.Sets.lt {v' : Volume} {fat : ℕ → ℕ} (h : v.Sets v' fat) {c : ℕ}
    (hc : c < v.nFatent.toNat) : fat c < 2 ^ 28 := by
  rw [← h.entry c hc]
  exact FsType.number_lt ..

/-- The window has moved: the FAT is what it was. -/
theorem Volume.Keeps.sets {v' : Volume} (hg : v.FatSound) (hv : v.Coherent) (h : v.Keeps v')
    (hwin : v'.winsect = v.winsect ∨ v'.winsect ∈ v.system) : v.Sets v' v.entry :=
  ((Volume.Stores.refl hv).keeps hg h hwin).sets hg

/-- `get_fat`, where the FAT has become `fat`. -/
theorem Volume.Sets.get {v' : Volume} {fat : ℕ → ℕ} (hg : v.FatSound) (h : v.Sets v' fat)
    (h2 : 2#32 ≤ clst) (hn : clst < v.nFatent) :
    v.Sets (getFat v' clst).2 fat ∧
      ((getFat v' clst).1.toNat = fat clst.toNat ∧ (getFat v' clst).1 ≠ 0xFFFFFFFF#32 ∨
        (getFat v' clst).1 = 0xFFFFFFFF#32 ∧ ¬ v.drive.Reliable) := by
  obtain ⟨hsets, hres⟩ := getFat_spec (h.geometry ▸ hg) h.coherent h2 (h.geometry ▸ hn)
  have hentry := h.entry clst.toNat (BitVec.lt_def.mp hn)
  rw [hentry, h.reliable] at hres
  have htrans := h.trans hsets
  refine ⟨{ htrans with entry := fun c hc => (htrans.entry c hc).trans (h.entry c hc) }, ?_⟩
  refine hres.imp (fun heq => ⟨heq, fun hff => ?_⟩) id
  have hlt := h.lt (BitVec.lt_def.mp hn)
  rw [← heq, hff] at hlt
  exact absurd hlt (by show ¬ (4294967295 : ℕ) < 2 ^ 28; omega)

/-- `put_fat`, where the FAT has become `fat`. -/
theorem Volume.Sets.put {v' : Volume} {fat : ℕ → ℕ} (hg : v.FatSound) (h : v.Sets v' fat)
    (h2 : 2#32 ≤ clst) (hn : clst < v.nFatent) (val : U32) :
    ((putFat v' clst val).1 = .ok ∧ v.Sets (putFat v' clst val).2
      (Function.update fat clst.toNat (val.toNat % v.fsType.modulus))) ∨
    ((putFat v' clst val).1 = .diskErr ∧ ¬ v.drive.Reliable ∧
      ∃ x, (v.fsType ≠ .fat12 → x = fat clst.toNat) ∧
        v.Sets (putFat v' clst val).2 (Function.update fat clst.toNat x)) := by
  have hentry := h.entry clst.toNat (BitVec.lt_def.mp hn)
  have hupd : ∀ {out : FResult × Volume} {x : ℕ},
      v'.Sets out.2 (Function.update v'.entry clst.toNat x) →
        v.Sets out.2 (Function.update fat clst.toNat x) := by
    intro out x hsets
    have htrans := h.trans hsets
    refine { htrans with entry := fun c hc => (htrans.entry c hc).trans ?_ }
    by_cases hcc : c = clst.toNat
    · rw [hcc, Function.update_self, Function.update_self]
    · rw [Function.update_of_ne hcc, Function.update_of_ne hcc]
      exact h.entry c hc
  rcases putFat_spec (h.geometry ▸ hg) h.coherent h2 (h.geometry ▸ hn) val with
    ⟨hok, hsets⟩ | ⟨herr, hbad, x, hx, hsets⟩
  · refine Or.inl ⟨hok, ?_⟩
    rw [h.geometry] at hsets
    exact hupd hsets
  · rw [h.reliable] at hbad
    rw [hentry, h.geometry] at hx
    exact Or.inr ⟨herr, hbad, x, hx, hupd hsets⟩

end Entries

/-! ### A small volume -/

/-- Two clusters, both of them free, on a drive that does not fail. -/
def blankVolume : Volume where
  fsType := .fat16
  id := 1#16
  noInit := false
  nFats := 2#8
  nRootdir := 16#16
  csize := 1#16
  nFatent := 4#32
  fsize := 1#32
  volbase := 0#32
  fatbase := 1#32
  dirbase := 3#32
  database := 4#32
  wflag := false
  fsiFlag := 0#8
  lastClst := 0xFFFFFFFF#32
  freeClst := 2#32
  winsect := 0 - 1
  win := fun _ => 0
  drive := ⟨fun _ _ => 0, fun _ => none, 0⟩

theorem blankVolume_reliable : blankVolume.drive.Reliable := fun _ => rfl

theorem blankVolume_entry (c : ℕ) : blankVolume.entry c = 0 := by
  have hbytes : blankVolume.fatBytes = fun _ => 0 := by
    funext k
    rw [blankVolume.fatBytes_eq]
    unfold Volume.view WriteBack.Buffered.view
    split_ifs <;> rfl
  rw [Volume.entry, hbytes]
  rfl

theorem blankVolume_sound : blankVolume.FatSound := by
  constructor <;> decide

theorem blankVolume_coherent : blankVolume.Coherent :=
  ⟨fun _ hs => absurd rfl hs.2.2, nofun⟩

/-! ### Any calls -/

/-- What is asked of the FAT. -/
inductive FatCall where
  | get (clst : U32)
  | put (clst val : U32)
  | sync

/-- What `get_fat` returns, and what the others do. -/
inductive FatAnswer where
  | number (n : U32)
  | result (res : FResult)

def FatCall.run (v : Volume) : FatCall → FatAnswer × Volume
  | .get clst => let (n, v) := getFat v clst; (.number n, v)
  | .put clst val => let (res, v) := putFat v clst val; (.result res, v)
  | .sync => let (res, v) := syncFs v; (.result res, v)

/-- The answers to the calls, one after the other. -/
def fatCalls (v : Volume) : List FatCall → List FatAnswer × Volume
  | [] => ([], v)
  | call :: calls =>
    let (ans, v) := call.run v
    let (answers, v) := fatCalls v calls
    (ans :: answers, v)

/-- The clusters of the calls are those of the volume. -/
def FatCall.Inside (g : Geometry) : FatCall → Prop
  | .get clst => 2#32 ≤ clst ∧ clst < g.nFatent
  | .put clst _ => 2#32 ≤ clst ∧ clst < g.nFatent
  | .sync => True

instance (g : Geometry) : DecidablePred (FatCall.Inside g)
  | .get _ => inferInstanceAs (Decidable (_ ∧ _))
  | .put _ _ => inferInstanceAs (Decidable (_ ∧ _))
  | .sync => inferInstanceAs (Decidable True)

/-- The answer for a disk error. -/
def FatCall.failure : FatCall → FatAnswer
  | .get _ => .number 0xFFFFFFFF#32
  | _ => .result .diskErr

/-- The calls as they are answered from an array of numbers; a call may fail, which leaves the
array as it is. -/
inductive ArrayRun (t : FsType) (mayFail : Prop) :
    (ℕ → ℕ) → List FatCall → List FatAnswer → (ℕ → ℕ) → Prop
  | nil (fat : ℕ → ℕ) : ArrayRun t mayFail fat [] [] fat
  | get {fat fat' : ℕ → ℕ} {calls : List FatCall} {answers : List FatAnswer} {clst n : U32}
      (hn : n.toNat = fat clst.toNat) (h : ArrayRun t mayFail fat calls answers fat') :
      ArrayRun t mayFail fat (.get clst :: calls) (.number n :: answers) fat'
  | put {fat fat' : ℕ → ℕ} {calls : List FatCall} {answers : List FatAnswer} {clst val : U32}
      (h : ArrayRun t mayFail (Function.update fat clst.toNat (val.toNat % t.modulus)) calls
        answers fat') :
      ArrayRun t mayFail fat (.put clst val :: calls) (.result .ok :: answers) fat'
  | sync {fat fat' : ℕ → ℕ} {calls : List FatCall} {answers : List FatAnswer}
      (h : ArrayRun t mayFail fat calls answers fat') :
      ArrayRun t mayFail fat (.sync :: calls) (.result .ok :: answers) fat'
  | fail {fat fat' : ℕ → ℕ} {calls : List FatCall} {answers : List FatAnswer} {call : FatCall}
      (hmay : mayFail) (h : ArrayRun t mayFail fat calls answers fat') :
      ArrayRun t mayFail fat (call :: calls) (call.failure :: answers) fat'

section Calls

variable {v v' : Volume} {fat : ℕ → ℕ}

theorem syncFs_result (hv : v.Coherent) :
    (syncFs v).1 = .ok ∨ (syncFs v).1 = .diskErr ∧ ¬ v.drive.Reliable := by
  obtain ⟨-, -, hres⟩ := syncWindow_keeps hv
  unfold syncFs
  generalize syncWindow v = out at hres
  obtain ⟨res, v₁⟩ := out
  rcases hres with ⟨rfl, -⟩ | ⟨rfl, hbad⟩
  · simp only
    split_ifs <;> exact Or.inl rfl
  · exact Or.inr ⟨rfl, hbad⟩

/-- `sync_fs`, where the FAT has become `fat`. -/
theorem Volume.Sets.sync (hg : v.FatSound) (h : v.Sets v' fat) : v.Sets (syncFs v').2 fat := by
  have hg' : v'.FatSound := h.geometry ▸ hg
  have htrans := h.trans ((syncFs_keeps h.coherent hg'.info).sets hg' h.coherent
    (syncFs_winsect h.coherent hg'.info))
  exact { htrans with entry := fun c hc => (htrans.entry c hc).trans (h.entry c hc) }

/-- However the calls come, and whichever transfers fail, the FAT is an array of numbers. -/
theorem fatCalls_run (hg : v.FatSound) (hrel : v.fsType = .fat12 → v.drive.Reliable)
    (h : v.Sets v' fat) (calls : List FatCall) (hin : ∀ call ∈ calls, call.Inside v.toGeometry) :
    ∃ fat', ArrayRun v.fsType (¬ v.drive.Reliable) fat calls (fatCalls v' calls).1 fat' ∧
      v.Sets (fatCalls v' calls).2 fat' := by
  induction calls generalizing v' fat with
  | nil => exact ⟨fat, .nil fat, h⟩
  | cons call calls ih =>
    have hcall := hin call (by simp)
    have hcalls := fun c hc => hin c (List.mem_cons_of_mem call hc)
    cases call with
    | get clst =>
      obtain ⟨hsets, hres⟩ := h.get hg hcall.1 hcall.2
      obtain ⟨fat', hrun, hend⟩ := ih hsets hcalls
      refine ⟨fat', ?_, hend⟩
      rcases hres with ⟨hn, -⟩ | ⟨hff, hbad⟩
      · exact .get hn hrun
      · show ArrayRun _ _ _ _ (.number (getFat v' clst).1 :: _) _
        rw [hff]
        exact .fail hbad hrun
    | put clst val =>
      rcases h.put hg hcall.1 hcall.2 val with ⟨hok, hsets⟩ | ⟨herr, hbad, x, hx, hsets⟩
      · obtain ⟨fat', hrun, hend⟩ := ih hsets hcalls
        refine ⟨fat', ?_, hend⟩
        show ArrayRun _ _ _ _ (.result (putFat v' clst val).1 :: _) _
        rw [hok]
        exact .put hrun
      · -- on FAT12 the drive is reliable, and so the entry is what it was
        rw [hx fun ht => hbad (hrel ht), Function.update_eq_self] at hsets
        obtain ⟨fat', hrun, hend⟩ := ih hsets hcalls
        refine ⟨fat', ?_, hend⟩
        show ArrayRun _ _ _ _ (.result (putFat v' clst val).1 :: _) _
        rw [herr]
        exact .fail hbad hrun
    | sync =>
      obtain ⟨fat', hrun, hend⟩ := ih (h.sync hg) hcalls
      refine ⟨fat', ?_, hend⟩
      rcases syncFs_result h.coherent with hok | ⟨herr, hbad⟩
      · show ArrayRun _ _ _ _ (.result (syncFs v').1 :: _) _
        rw [hok]
        exact .sync hrun
      · rw [h.reliable] at hbad
        show ArrayRun _ _ _ _ (.result (syncFs v').1 :: _) _
        rw [herr]
        exact .fail hbad hrun

/-- The FAT is an array of numbers, from any state of the window on. -/
theorem fatCalls_array (hg : v.FatSound) (hv : v.Coherent)
    (hrel : v.fsType = .fat12 → v.drive.Reliable) (calls : List FatCall)
    (hin : ∀ call ∈ calls, call.Inside v.toGeometry) :
    ∃ fat, ArrayRun v.fsType (¬ v.drive.Reliable) v.entry calls (fatCalls v calls).1 fat ∧
      ∀ c < v.nFatent.toNat, (fatCalls v calls).2.entry c = fat c := by
  obtain ⟨fat, hrun, hend⟩ := fatCalls_run hg hrel (Volume.Sets.refl hv) calls hin
  exact ⟨fat, hrun, hend.entry⟩

theorem fatCalls_array_blank : ∃ fat, ArrayRun .fat16 (¬ blankVolume.drive.Reliable)
    blankVolume.entry [.put 2#32 3#32, .sync, .get 2#32]
    (fatCalls blankVolume [.put 2#32 3#32, .sync, .get 2#32]).1 fat ∧
      ∀ c < 4, (fatCalls blankVolume [.put 2#32 3#32, .sync, .get 2#32]).2.entry c = fat c :=
  fatCalls_array blankVolume_sound blankVolume_coherent (fun _ => blankVolume_reliable) _
    (by decide)

end Calls

end GamingConsole
