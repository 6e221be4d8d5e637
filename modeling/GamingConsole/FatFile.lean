/-
File objects of FatFs (`f_read`, `f_write`, `f_lseek`, `f_truncate`, `f_sync`, `f_close`).

A file object has a sector buffer of its own (`buf[]`), and a pointer with the cluster that it
is in.  Whole sectors go from and to the drive at once, up to the end of a cluster; other
bytes go through the buffer, which is written back when another sector is wanted.

The functions follow `ff.c` without exFAT, fast seek and the tiny configuration.  The loops
have fuel; `none` would be a loop that has used it up.  `ABORT` is the error that stays in
`err`.
-/
import GamingConsole.FatChains

namespace GamingConsole

/-! ### The file object -/

/-- The fields of `FIL` that `f_open` sets, and `err`. -/
structure Handle where
  /-- `obj.fs` is set. -/
  fs : Bool
  id : U16
  /-- `FA_READ` and `FA_WRITE` of `flag`. -/
  read : Bool
  write : Bool
  err : FResult
  dirSect : U32
  /-- `dir_ptr`, from the start of `win[]`. -/
  dirPtr : ℕ
  deriving DecidableEq

/-- `FIL`. -/
structure Fil extends Handle where
  sclust : U32
  objsize : U32
  /-- `FA_MODIFIED` and `FA_DIRTY` of `flag`. -/
  modified : Bool
  dirty : Bool
  fptr : U32
  clust : U32
  sect : U32
  buf : Sector

/-- `validate`. -/
def validate (g : Geometry) (fp : Handle) : FResult :=
  if fp.fs ∧ g.fsType ≠ .none ∧ fp.id = g.id ∧ ¬ g.noInit then .ok else .invalidObject

/-- `csect`: the number of the pointer's sector in its cluster. -/
def Geometry.csect (g : Geometry) (fptr : U32) : U32 :=
  fptr / 512#32 &&& (g.csize.setWidth 32 - 1#32)

/-- `cc`, clipped at the end of the cluster. -/
def Geometry.clip (g : Geometry) (csect cc : U32) : U32 :=
  if g.csize.setWidth 32 < csect + cc then g.csize.setWidth 32 - csect else cc

/-- A dirty buffer is written back. -/
def flushBuf (v : Volume) (fp : Fil) : FResult × Fil × Volume :=
  if fp.dirty then
    match diskWrite v.drive (fun _ => fp.buf) fp.sect 1 with
    | (.ok, drive) => (.ok, { fp with dirty := false }, { v with drive := drive })
    | (.error, drive) => (.diskErr, fp, { v with drive := drive })
  else (.ok, fp, v)

/-- The buffer is filled from the drive. -/
def fillBuf (v : Volume) (fp : Fil) (sect : U32) : FResult × Fil × Volume :=
  match diskRead v.drive (fun _ => fp.buf) sect 1 with
  | (.ok, buff, drive) => (.ok, { fp with buf := buff 0 }, { v with drive := drive })
  | (.error, buff, drive) => (.diskErr, { fp with buf := buff 0 }, { v with drive := drive })

/-! ### `f_read` -/

/-- The cluster of the pointer, where one begins. -/
def readClust (v : Volume) (fp : Fil) : Except FResult Fil × Volume :=
  let (clst, v) := if fp.fptr = 0#32 then (fp.sclust, v) else getFat v fp.clust
  if clst < 2#32 then (.error .intErr, v)
  else if clst = 0xFFFFFFFF#32 then (.error .diskErr, v)
  else (.ok { fp with clust := clst }, v)

/-- The first `n` bytes of sectors. -/
def bytesOfSectors (data : ℕ → Sector) (n : ℕ) : List U8 :=
  (List.range n).map fun k => byteAt (data (k / 512)) k

/-- What is read from the buffer at the pointer. -/
def fromBuf (fp : Fil) (btr : U32) : List U8 :=
  let rcnt := 512#32 - fp.fptr % 512#32
  let rcnt := if btr < rcnt then btr else rcnt
  (List.range rcnt.toNat).map fun k => byteAt fp.buf ((fp.fptr % 512#32).toNat + k)

/-- One turn of the loop of `f_read`: the bytes that it reads, or the error. -/
def fReadStep (v : Volume) (fp : Fil) (btr : U32) : Except FResult (List U8) × Fil × Volume :=
  if fp.fptr % 512#32 = 0#32 then
    let csect := v.csect fp.fptr
    match if csect = 0#32 then readClust v fp else (.ok fp, v) with
    | (.error res, v) => (.error res, fp, v)
    | (.ok fp, v) =>
      let sect := clst2sect v.toGeometry fp.clust
      if sect = 0#32 then (.error .intErr, fp, v)
      else
        let sect := sect + csect
        let cc := btr / 512#32
        if 0#32 < cc then
          let cc := v.clip csect cc
          match diskRead v.drive (fun _ _ => 0) sect cc with
          | (.error, _, drive) => (.error .diskErr, fp, { v with drive := drive })
          | (.ok, data, drive) =>
            -- what is not written back yet is in the buffer
            let data := if fp.dirty ∧ fp.sect - sect < cc then
              Function.update data (fp.sect - sect).toNat fp.buf else data
            (.ok (bytesOfSectors data (512 * cc.toNat)), fp, { v with drive := drive })
        else if fp.sect ≠ sect then
          match flushBuf v fp with
          | (.ok, fp, v) =>
            match fillBuf v fp sect with
            | (.ok, fp, v) => (.ok (fromBuf fp btr), { fp with sect := sect }, v)
            | (res, fp, v) => (.error res, fp, v)
          | (res, fp, v) => (.error res, fp, v)
        else (.ok (fromBuf fp btr), fp, v)
  else (.ok (fromBuf fp btr), fp, v)

def fReadLoop : ℕ → Volume → Fil → U32 → List U8 → Option (FResult × List U8 × Fil × Volume)
  | 0, _, _, _, _ => none
  | fuel + 1, v, fp, btr, buff =>
    if btr = 0#32 then some (.ok, buff, fp, v)
    else
      match fReadStep v fp btr with
      | (.error res, fp, v) => some (res, buff, { fp with err := res }, v)
      | (.ok bytes, fp, v) =>
        let rcnt := BitVec.ofNat 32 bytes.length
        fReadLoop fuel v { fp with fptr := fp.fptr + rcnt } (btr - rcnt) (buff ++ bytes)

/-- `f_read`, with the `*br` bytes that it has read. -/
def fRead (v : Volume) (fp : Fil) (btr : U32) : Option (FResult × List U8 × Fil × Volume) :=
  let res := validate v.toGeometry fp.toHandle
  if res ≠ .ok then some (res, [], fp, v)
  else if fp.err ≠ .ok then some (fp.err, [], fp, v)
  else if ¬ fp.read then some (.denied, [], fp, v)
  else
    let remain := fp.objsize - fp.fptr
    let btr := if remain < btr then remain else btr
    fReadLoop (btr.toNat + 1) v fp btr []

/-! ### `f_write` -/

/-- How a turn of the loop of `f_write` ends. -/
inductive WriteEnd where
  | wrote (wcnt : U32)
  /-- There is no free cluster. -/
  | full
  | abort (res : FResult)

/-- The cluster of the pointer where one begins, a new one behind the last. -/
def writeClust (v : Volume) (fp : Fil) : Option (Except WriteEnd Fil × Volume) :=
  let out :=
    if fp.fptr = 0#32 then
      if fp.sclust = 0#32 then createChain v 0#32 else some (fp.sclust, v)
    else createChain v fp.clust
  out.map fun (clst, v) =>
    if clst = 0#32 then (.error .full, v)
    else if clst = 1#32 then (.error (.abort .intErr), v)
    else if clst = 0xFFFFFFFF#32 then (.error (.abort .diskErr), v)
    else (.ok { fp with clust := clst
                        sclust := if fp.sclust = 0#32 then clst else fp.sclust }, v)

/-- Sectors of a buffer. -/
def sectorsOf (wbuff : List U8) : ℕ → Sector := fun i k => wbuff.getD (512 * i + k) 0

/-- Bytes go to the buffer at the pointer. -/
def intoBuf (fp : Fil) (btw : U32) (wbuff : List U8) : WriteEnd × Fil :=
  let ofs := (fp.fptr % 512#32).toNat
  let wcnt := 512#32 - fp.fptr % 512#32
  let wcnt := if btw < wcnt then btw else wcnt
  (.wrote wcnt, { fp with
    buf := fun k => if ofs ≤ k ∧ k < ofs + wcnt.toNat then wbuff.getD (k - ofs) 0 else fp.buf k
    dirty := true })

/-- One turn of the loop of `f_write`. -/
def fWriteStep (v : Volume) (fp : Fil) (btw : U32) (wbuff : List U8) :
    Option (WriteEnd × Fil × Volume) :=
  if fp.fptr % 512#32 = 0#32 then
    let csect := v.csect fp.fptr
    match if csect = 0#32 then writeClust v fp else some (.ok fp, v) with
    | none => none
    | some (.error out, v) => some (out, fp, v)
    | some (.ok fp, v) =>
      match flushBuf v fp with
      | (.ok, fp, v) =>
        let sect := clst2sect v.toGeometry fp.clust
        if sect = 0#32 then some (.abort .intErr, fp, v)
        else
          let sect := sect + csect
          let cc := btw / 512#32
          if 0#32 < cc then
            let cc := v.clip csect cc
            match diskWrite v.drive (sectorsOf wbuff) sect cc with
            | (.error, drive) => some (.abort .diskErr, fp, { v with drive := drive })
            | (.ok, drive) =>
              let fp := if fp.sect - sect < cc then
                { fp with buf := sectorsOf wbuff (fp.sect - sect).toNat, dirty := false } else fp
              some (.wrote (512#32 * cc), fp, { v with drive := drive })
          else if fp.sect ≠ sect ∧ fp.fptr < fp.objsize then
            match fillBuf v fp sect with
            | (.ok, fp, v) =>
              let (out, fp) := intoBuf { fp with sect := sect } btw wbuff
              some (out, fp, v)
            | (res, fp, v) => some (.abort res, fp, v)
          else
            let (out, fp) := intoBuf { fp with sect := sect } btw wbuff
            some (out, fp, v)
      | (res, fp, v) => some (.abort res, fp, v)
  else
    let (out, fp) := intoBuf fp btw wbuff
    some (out, fp, v)

/-- The pointer behind what was written, and the size. -/
def Fil.advance (fp : Fil) (wcnt : U32) : Fil :=
  let fptr := fp.fptr + wcnt
  { fp with fptr := fptr, objsize := if fp.objsize < fptr then fptr else fp.objsize }

def fWriteLoop : ℕ → Volume → Fil → U32 → List U8 → U32 → Option (FResult × U32 × Fil × Volume)
  | 0, _, _, _, _, _ => none
  | fuel + 1, v, fp, btw, wbuff, bw =>
    if btw = 0#32 then some (.ok, bw, { fp with modified := true }, v)
    else
      match fWriteStep v fp btw wbuff with
      | none => none
      | some (.full, fp, v) => some (.ok, bw, { fp with modified := true }, v)
      | some (.abort res, fp, v) => some (res, bw, { fp with err := res }, v)
      | some (.wrote wcnt, fp, v) =>
        fWriteLoop fuel v (fp.advance wcnt) (btw - wcnt) (wbuff.drop wcnt.toNat) (bw + wcnt)

/-- `f_write`, with `*bw`. -/
def fWrite (v : Volume) (fp : Fil) (wbuff : List U8) (btw : U32) :
    Option (FResult × U32 × Fil × Volume) :=
  let res := validate v.toGeometry fp.toHandle
  if res ≠ .ok then some (res, 0#32, fp, v)
  else if fp.err ≠ .ok then some (fp.err, 0#32, fp, v)
  else if ¬ fp.write then some (.denied, 0#32, fp, v)
  else
    let btw := if fp.fptr + btw < fp.fptr then 0xFFFFFFFF#32 - fp.fptr else btw
    fWriteLoop (btw.toNat + 1) v fp btw wbuff 0#32

/-! ### `f_lseek` -/

/-- The size of a cluster (`bcs`). -/
def Geometry.bcs (g : Geometry) : U32 := g.csize.setWidth 32 * 512#32

/-- Where the way to `ofs` starts: the cluster, and how far it is from there. -/
def seekStart (v : Volume) (fp : Fil) (ifptr ofs : U32) :
    Option (Except FResult (U32 × U32) × Fil × Volume) :=
  if 0#32 < ifptr ∧ (ifptr - 1#32) / v.bcs ≤ (ofs - 1#32) / v.bcs then
    let fptr := (ifptr - 1#32) &&& ~~~(v.bcs - 1#32)
    some (.ok (fp.clust, ofs - fptr), { fp with fptr := fptr }, v)
  else if fp.sclust = 0#32 then
    (createChain v 0#32).map fun (clst, v) =>
      if clst = 1#32 then (.error .intErr, { fp with fptr := 0#32 }, v)
      else if clst = 0xFFFFFFFF#32 then (.error .diskErr, { fp with fptr := 0#32 }, v)
      else (.ok (clst, ofs), { fp with fptr := 0#32, sclust := clst, clust := clst }, v)
  else some (.ok (fp.sclust, ofs), { fp with fptr := 0#32, clust := fp.sclust }, v)

/-- The loop of `f_lseek` over the clusters. -/
def seekLoop : ℕ → Volume → Fil → U32 → U32 → Option (Except FResult (U32 × U32) × Fil × Volume)
  | 0, _, _, _, _ => none
  | fuel + 1, v, fp, clst, ofs =>
    if v.bcs < ofs then
      let ofs := ofs - v.bcs
      let fp := { fp with fptr := fp.fptr + v.bcs }
      match if fp.write then createChain v clst else some (getFat v clst) with
      | none => none
      | some (clst, v) =>
        if fp.write ∧ clst = 0#32 then some (.ok (clst, 0#32), fp, v)
        else if clst = 0xFFFFFFFF#32 then some (.error .diskErr, fp, v)
        else if clst ≤ 1#32 ∨ v.nFatent ≤ clst then some (.error .intErr, fp, v)
        else seekLoop fuel v { fp with clust := clst } clst ofs
    else some (.ok (clst, ofs), fp, v)

/-- What `f_lseek` does when it has got to the cluster: the pointer, and its sector or 0. -/
def seekSector (v : Volume) (fp : Fil) (clst ofs : U32) : Except FResult U32 × Fil :=
  let fp := { fp with fptr := fp.fptr + ofs }
  if ofs % 512#32 ≠ 0#32 then
    let nsect := clst2sect v.toGeometry clst
    if nsect = 0#32 then (.error .intErr, fp) else (.ok (nsect + ofs / 512#32), fp)
  else (.ok 0#32, fp)

/-- The end of `f_lseek`: the size, and the buffer. -/
def seekEnd (v : Volume) (fp : Fil) (nsect : U32) : FResult × Fil × Volume :=
  let fp := if fp.objsize < fp.fptr then
    { fp with objsize := fp.fptr, modified := true } else fp
  if fp.fptr % 512#32 ≠ 0#32 ∧ nsect ≠ fp.sect then
    match flushBuf v fp with
    | (.ok, fp, v) =>
      match fillBuf v fp nsect with
      | (.ok, fp, v) => (.ok, { fp with sect := nsect }, v)
      | (res, fp, v) => (res, { fp with err := res }, v)
    | (res, fp, v) => (res, { fp with err := res }, v)
  else (.ok, fp, v)

/-- `f_lseek`. -/
def fLseek (v : Volume) (fp : Fil) (ofs : U32) : Option (FResult × Fil × Volume) :=
  let res := validate v.toGeometry fp.toHandle
  if res ≠ .ok then some (res, fp, v)
  else if fp.err ≠ .ok then some (fp.err, fp, v)
  else
    let ofs := if fp.objsize < ofs ∧ ¬ fp.write then fp.objsize else ofs
    if 0#32 < ofs then
      match seekStart v fp fp.fptr ofs with
      | none => none
      | some (.error res, fp, v) => some (res, { fp with err := res }, v)
      | some (.ok (clst, ofs), fp, v) =>
        if clst ≠ 0#32 then
          match seekLoop (ofs.toNat + 1) v fp clst ofs with
          | none => none
          | some (.error res, fp, v) => some (res, { fp with err := res }, v)
          | some (.ok (clst, ofs), fp, v) =>
            match seekSector v fp clst ofs with
            | (.error res, fp) => some (res, { fp with err := res }, v)
            | (.ok nsect, fp) => some (seekEnd v fp nsect)
        else some (seekEnd v fp 0#32)
    else some (seekEnd v { fp with fptr := 0#32 } 0#32)

/-! ### `f_truncate` -/

/-- `f_truncate`. -/
def fTruncate (v : Volume) (fp : Fil) : Option (FResult × Fil × Volume) :=
  let res := validate v.toGeometry fp.toHandle
  if res ≠ .ok then some (res, fp, v)
  else if fp.err ≠ .ok then some (fp.err, fp, v)
  else if ¬ fp.write then some (.denied, fp, v)
  else if fp.fptr < fp.objsize then
    let out :=
      if fp.fptr = 0#32 then
        (removeChain v fp.sclust 0#32).map fun (res, v) => (res, { fp with sclust := 0#32 }, v)
      else
        let (ncl, v) := getFat v fp.clust
        if ncl = 0xFFFFFFFF#32 then some (.diskErr, fp, v)
        else if ncl = 1#32 then some (.intErr, fp, v)
        else if ncl < v.nFatent then
          (removeChain v ncl fp.clust).map fun (res, v) => (res, fp, v)
        else some (.ok, fp, v)
    out.map fun (res, fp, v) =>
      let fp := { fp with objsize := fp.fptr, modified := true }
      if res = .ok then
        match flushBuf v fp with
        | (.ok, fp, v) => (.ok, fp, v)
        | (res, fp, v) => (res, { fp with err := res }, v)
      else (res, { fp with err := res }, v)
  else some (.ok, fp, v)

/-! ### `f_sync`, `f_open` -/

/-- `ld_clust`, for the directory entry at `dir`. -/
def ldClust (t : FsType) (win : Sector) (dir : ℕ) : U32 :=
  let cl : U32 := (ld16 win (dir + 26)).setWidth 32
  if t = .fat32 then cl ||| (ld16 win (dir + 20)).setWidth 32 <<< 16 else cl

/-- `st_clust`. -/
def stClust (t : FsType) (win : Sector) (dir : ℕ) (cl : U32) : Sector :=
  let win := st16 win (dir + 26) (cl.setWidth 16)
  if t = .fat32 then st16 win (dir + 20) ((cl >>> 16).setWidth 16) else win

/-- `GET_FATTIME`, without a clock: the first day of 2025. -/
def getFattime : U32 := (2025#32 - 1980#32) <<< 25 ||| 1#32 <<< 21 ||| 1#32 <<< 16

/-- The directory entry as `f_sync` makes it. -/
def syncEntry (t : FsType) (win : Sector) (fp : Fil) : Sector :=
  let win := putByte win (fp.dirPtr + 11) (byteAt win (fp.dirPtr + 11) ||| 0x20#8)
  let win := stClust t win fp.dirPtr fp.sclust
  let win := st32 win (fp.dirPtr + 28) fp.objsize
  let win := st32 win (fp.dirPtr + 22) getFattime
  st16 win (fp.dirPtr + 18) 0#16

/-- `f_sync`. -/
def fSync (v : Volume) (fp : Fil) : FResult × Fil × Volume :=
  let res := validate v.toGeometry fp.toHandle
  if res ≠ .ok then (res, fp, v)
  else if fp.modified then
    match flushBuf v fp with
    | (.ok, fp, v) =>
      match moveWindow v fp.dirSect with
      | (.ok, v) =>
        let v := { v with win := syncEntry v.fsType v.win fp, wflag := true }
        let (res, v) := syncFs v
        (res, { fp with modified := false }, v)
      | (res, v) => (res, fp, v)
    | (res, fp, v) => (res, fp, v)
  else (.ok, fp, v)

/-- What `f_open` makes of the file whose directory entry is at `dir` in the window; `clust` is
what the file object had there. -/
def openFil (v : Volume) (read write : Bool) (dir : ℕ) (clust : U32) : Fil where
  fs := true
  id := v.id
  read := read
  write := write
  err := .ok
  dirSect := v.winsect
  dirPtr := dir
  sclust := ldClust v.fsType v.win dir
  objsize := ld32 v.win (dir + 28)
  modified := false
  dirty := false
  fptr := 0#32
  clust := clust
  sect := 0#32
  buf := fun _ => 0

end GamingConsole
