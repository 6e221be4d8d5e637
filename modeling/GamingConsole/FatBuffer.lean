/-
The buffer of a file object, and transfers of whole sectors.

Bytes of a file are read and written in the buffer, or as whole sectors on the drive.  Each
way does to the file what it should: the bytes at the pointer are those that are read, or
become those that are written.

* `flushBuf_spec`, `fillBuf_reliable` — the buffer is exchanged;
* `Fil.Stores.fromBuf`, `Fil.Stores.intoBuf` — bytes of the buffer;
* `Fil.Stores.fromDrive`, `Fil.Stores.intoDrive` — sectors in a row.
-/
import GamingConsole.FatContents

namespace GamingConsole

open LinkTable CellFile

variable {ι : Type}

/-! ### Transfers that do not fail -/

theorem diskWrite_reliable {d : Drive} (hd : d.Reliable) (buff : ℕ → Sector) (sect cc : U32) :
    diskWrite d buff sect cc = (.ok, d.written buff sect cc) := by
  unfold diskWrite
  rw [hd]

theorem diskRead_reliable {d : Drive} (hd : d.Reliable) (buff : ℕ → Sector) (sect cc : U32) :
    ∃ data, diskRead d buff sect cc = (.ok, data, { d with transfers := d.transfers + 1 }) ∧
      ∀ i < cc.toNat, data i = d.sectors (sect + BitVec.ofNat 32 i) := by
  unfold diskRead
  rw [hd]
  exact ⟨_, rfl, fun i hi => if_pos hi⟩

theorem fillBuf_reliable {v : Volume} (hd : v.drive.Reliable) (fp : Fil) (sect : U32) :
    fillBuf v fp sect = (.ok, { fp with buf := v.drive.sectors sect },
      { v with drive := { v.drive with transfers := v.drive.transfers + 1 } }) := by
  obtain ⟨data, hread, hdata⟩ := diskRead_reliable hd (fun _ => fp.buf) sect 1
  have hfirst := hdata 0 (by decide)
  rw [show BitVec.ofNat 32 0 = (0#32 : U32) from rfl, BitVec.add_zero] at hfirst
  rw [fillBuf, hread]
  simp only [hfirst]

/-! ### The buffer is exchanged -/

section Exchange

variable [DecidableEq ι] {s : FileSys ι} {f : ι → List ℕ} {lost : Set ℕ} {files : ι → File U8}
  {i : ι}

/-- The file object is changed, and nothing is written. -/
theorem FileSys.Data.set_fil (h : s.Data f lost files) {drive : Drive} {fp : Fil} {F : File U8}
    (hfault : drive.fault = s.vol.drive.fault) (hsect : drive.sectors = s.vol.drive.sectors)
    (hstart : fp.sclust = (s.fil i).sclust)
    (hst : fp.Stores s.vol.toGeometry s.vol.drive.sectors (f i) F) :
    (s.set i { s.vol with drive := drive } fp).Data f lost (Function.update files i F) :=
  h.of_drive hfault (fun x _ => by rw [hsect]) hstart (by rw [hsect]; exact hst)

/-- The same, in the course of a call: there may have been a transfer. -/
theorem FileSys.Data.again {v : Volume} {fp fp' : Fil} {F : File U8}
    (h : (s.set i v fp).Data f lost files) (n : ℕ) (hstart : fp'.sclust = fp.sclust)
    (hst : fp'.Stores v.toGeometry v.drive.sectors (f i) F) :
    (s.set i { v with drive := { v.drive with transfers := n } } fp').Data f lost
      (Function.update files i F) := by
  rw [← s.set_set i v _ fp]
  exact h.set_fil rfl rfl (by rw [s.set_fil]; exact hstart) hst

/-- A dirty buffer is written to its sector. -/
theorem flushBuf_spec (h : s.Data f lost files) (i : ι) :
    ∃ v', flushBuf s.vol (s.fil i) = (.ok, { s.fil i with dirty := false }, v') ∧
      (s.set i v' { s.fil i with dirty := false }).Data f lost files ∧
      v'.toGeometry = s.vol.toGeometry := by
  have hst := h.stores i
  unfold flushBuf
  by_cases hdirty : (s.fil i).dirty = true
  · rw [if_pos hdirty, diskWrite_reliable h.reliable]
    obtain ⟨q, hq, hsect⟩ := hst.dirty hdirty
    refine ⟨_, rfl, ?_, rfl⟩
    have hwritten := s.vol.drive.sectors_written_one (fun _ => (s.fil i).buf) (s.fil i).sect
    rw [← Function.update_eq_self i files]
    refine h.of_drive rfl (fun x hx => ?_) rfl
      ⟨hst.size, hst.room, nofun, hst.buffered, fun o b ho hb _ => ?_⟩
    · rw [hwritten, Function.update_of_ne]
      exact hsect ▸ hx q hq
    · rw [hwritten]
      by_cases ho' : s.vol.place (f i) (o / 512) = (s.fil i).sect
      · rw [ho', Function.update_self]
        exact hst.buffered o b ho hb ho'
      · rw [Function.update_of_ne ho']
        exact hst.stored o b ho hb fun _ => ho'
  · rw [if_neg hdirty]
    have heq : { s.fil i with dirty := false } = s.fil i := by
      rw [← Bool.eq_false_iff.mpr hdirty]
    rw [heq]
    refine ⟨s.vol, rfl, ?_, rfl⟩
    rw [s.set_self]
    exact h

end Exchange

/-! ### Bytes of the buffer -/

section Bytes

variable {g : Geometry} {mem : U32 → Sector} {fp : Fil} {l : List ℕ} {F : File U8} {q : ℕ}

/-- Nothing waits in a clean buffer. -/
theorem Fil.not_dirty (fp : Fil) (hdirty : fp.dirty = false) {p : Prop} (h : fp.dirty = true) : p :=
  absurd (hdirty.symm.trans h) Bool.false_ne_true

/-- A clean buffer is filled with another sector. -/
theorem Fil.Stores.loaded (h : fp.Stores g mem l F) (hdirty : fp.dirty = false) (x : U32) :
    Fil.Stores g mem { fp with buf := mem x, sect := x } l F := by
  refine ⟨h.size, h.room, fp.not_dirty hdirty, fun o b ho hb hsect => ?_, fun o b ho hb _ => ?_⟩
  · have hold := h.stored o b ho hb (fp.not_dirty hdirty)
    rwa [show g.place l (o / 512) = x from hsect] at hold
  · exact h.stored o b ho hb (fp.not_dirty hdirty)

/-- The buffer is taken for a sector behind the end, with whatever is in it. -/
theorem Fil.Stores.beyond (h : fp.Stores g mem l F) (hdirty : fp.dirty = false) {x : U32}
    (hx : ∀ o < F.size, g.place l (o / 512) ≠ x) : Fil.Stores g mem { fp with sect := x } l F := by
  exact ⟨h.size, h.room, fp.not_dirty hdirty, fun o b ho _ hsect => absurd hsect (hx o ho),
    fun o b ho hb _ => h.stored o b ho hb (fp.not_dirty hdirty)⟩

theorem toNat_mod_sector (p : U32) : (p % 512#32).toNat = p.toNat % 512 := BitVec.toNat_umod

theorem toNat_rest (p : U32) : (512#32 - p % 512#32).toNat = 512 - p.toNat % 512 := by
  have h := toNat_mod_sector p
  have hlt := Nat.mod_lt p.toNat (show 0 < 512 by decide)
  have hle : p % 512#32 ≤ 512#32 := BitVec.le_def.mpr (h.le.trans hlt.le)
  rw [BitVec.toNat_sub_of_le hle, h]
  rfl

/-- As far as the end of the sector. -/
theorem toNat_part (p n : U32) :
    (if n < 512#32 - p % 512#32 then n else 512#32 - p % 512#32).toNat =
      min n.toNat (512 - p.toNat % 512) := by
  have hrest := toNat_rest p
  split_ifs with hn
  · rw [BitVec.lt_def, hrest] at hn
    omega
  · rw [BitVec.lt_def, hrest] at hn
    rw [hrest]
    omega

/-- The size of a file that was written up to `b`. -/
theorem toNat_larger (a b : U32) : (if a < b then b else a).toNat = max a.toNat b.toNat := by
  split_ifs with h
  · exact (max_eq_right (BitVec.le_of_lt h)).symm
  · exact (max_eq_left (BitVec.not_lt.mp h)).symm

theorem toNat_bytes {cc : U32} (h : 512 * cc.toNat < 2 ^ 32) :
    (512#32 * cc).toNat = 512 * cc.toNat := by
  rw [BitVec.toNat_mul]
  exact Nat.mod_eq_of_lt h

/-- What is read from the buffer are the bytes of the file. -/
theorem Fil.Stores.fromBuf (h : fp.Stores g mem l F) (hptr : F.ptr = fp.fptr.toNat)
    (hsect : fp.sect = g.place l (F.ptr / 512)) {btr : U32} (hlen : F.ptr + btr.toNat ≤ F.size) :
    (fromBuf fp btr).length = min btr.toNat (512 - F.ptr % 512) ∧
      Agrees F.data F.ptr (fromBuf fp btr) := by
  have hmod := toNat_mod_sector fp.fptr
  have hrcnt := toNat_part fp.fptr btr
  have hlt := Nat.mod_lt F.ptr (show 0 < 512 by decide)
  rw [← hptr] at hmod hrcnt
  unfold GamingConsole.fromBuf
  simp only
  rw [hrcnt, hmod]
  refine ⟨by rw [List.length_map, List.length_range], fun k b c hk hc => ?_⟩
  obtain ⟨hk', hget⟩ := List.getElem?_eq_some_iff.mp hk
  rw [List.length_map, List.length_range] at hk'
  rw [List.getElem_map, List.getElem_range] at hget
  have hdiv : (F.ptr + k) / 512 = F.ptr / 512 := by omega
  rw [← hget, ← h.buffered (F.ptr + k) c (by omega) hc (by rw [hdiv, hsect])]
  exact byteAt_congr (by omega)

/-- The buffer after bytes were put into it at the pointer has the bytes of the file. -/
theorem Fil.Stores.byte_part (hd : g.DataSound) (hl : ∀ c ∈ l, c ∈ g.clusters) (hnd : l.Nodup)
    (h : fp.Stores g mem l F) (hsect : fp.sect = g.place l (F.ptr / 512))
    (hq : F.ptr / 512 < g.csize.toNat * l.length) (hin : F.ptr ≤ F.size) {n : ℕ}
    (hn : F.ptr % 512 + n ≤ 512) {w : List U8} (hlen : n ≤ w.length) {o : ℕ} {b : U8}
    (ho : o < max F.size (F.ptr + n)) (hb : put F.data F.ptr (w.take n) o = some b)
    (hs : g.place l (o / 512) = fp.sect) :
    (if F.ptr % 512 ≤ o % 512 ∧ o % 512 < F.ptr % 512 + n then w.getD (o % 512 - F.ptr % 512) 0
      else byteAt fp.buf o) = b := by
  have hroom := h.room
  have hdiv : o / 512 = F.ptr / 512 := by
    by_cases hlow : o < F.ptr
    · exact hd.place_inj hl hnd (by omega) hq (hs.trans hsect)
    · by_cases hhigh : o < F.size
      · exact hd.place_inj hl hnd (h.sector_lt hhigh) hq (hs.trans hsect)
      · omega
  rcases put_take_cases hlen hb with ⟨hr, hb⟩ | ⟨hr, hb⟩
  · rw [if_pos (by omega), List.getD_eq_getElem?_getD,
      show o % 512 - F.ptr % 512 = o - F.ptr by omega, hb]
    rfl
  · rw [if_neg (by omega)]
    exact h.buffered o b (by omega) hb hs

/-- Bytes of the file are put into the buffer. -/
theorem Fil.Stores.intoBuf (hd : g.DataSound) (hl : ∀ c ∈ l, c ∈ g.clusters) (hnd : l.Nodup)
    (h : fp.Stores g mem l F) (hptr : F.ptr = fp.fptr.toNat) (hin : F.ptr ≤ F.size)
    (hsect : fp.sect = g.place l (F.ptr / 512)) (hq : F.ptr / 512 < g.csize.toNat * l.length)
    (hclust : l[F.ptr / 512 / g.csize.toNat]? = some fp.clust.toNat) {btw : U32}
    (hpos : 0 < btw.toNat) {wbuff : List U8} (hlen : btw.toNat ≤ wbuff.length)
    (hover : F.ptr + btw.toNat < 2 ^ 32) :
    ∃ wcnt fp', GamingConsole.intoBuf fp btw wbuff = (.wrote wcnt, fp') ∧
      wcnt.toNat = min btw.toNat (512 - F.ptr % 512) ∧ fp'.toHandle = fp.toHandle ∧
      fp'.sclust = fp.sclust ∧
      (fp'.advance wcnt).Stores g mem l (F.wrote (wbuff.take wcnt.toNat)) ∧
      (fp'.advance wcnt).Points g l (F.wrote (wbuff.take wcnt.toNat)) := by
  have hmod := toNat_mod_sector fp.fptr
  have hwcnt := toNat_part fp.fptr btw
  have hlt := Nat.mod_lt F.ptr (show 0 < 512 by decide)
  rw [← hptr] at hmod hwcnt
  unfold GamingConsole.intoBuf
  simp only
  generalize (if btw < 512#32 - fp.fptr % 512#32 then btw else 512#32 - fp.fptr % 512#32) = wcnt
    at hwcnt ⊢
  rw [hmod]
  have htake : (wbuff.take wcnt.toNat).length = wcnt.toNat :=
    List.length_take_of_le (by omega)
  have hnext : (fp.fptr + wcnt).toNat = F.ptr + wcnt.toNat := by
    rw [BitVec.toNat_add, ← hptr]
    exact Nat.mod_eq_of_lt (by omega)
  have hroom := h.room
  refine ⟨wcnt, _, rfl, hwcnt, rfl, rfl, ⟨?_, ?_, fun _ => ⟨_, hq, hsect⟩, ?_, ?_⟩, ?_⟩
  · show max F.size _ = (if fp.objsize < fp.fptr + wcnt then fp.fptr + wcnt else fp.objsize).toNat
    rw [htake, h.size, toNat_larger, hnext]
  · show max F.size _ ≤ _
    rw [htake]
    omega
  · intro o b ho hb hs
    change o < max F.size _ at ho
    rw [htake] at ho
    exact h.byte_part hd hl hnd hsect hq hin (by omega) (by omega) ho hb hs
  · intro o b ho hb hs
    have hne := hs rfl
    change g.place l (o / 512) ≠ fp.sect at hne
    change o < max F.size _ at ho
    rw [htake] at ho
    rcases put_take_cases (by omega) hb with ⟨hr, -⟩ | ⟨hr, hb⟩
    · refine absurd ?_ hne
      rw [hsect, show o / 512 = F.ptr / 512 by omega]
    · exact h.stored o b (by omega) hb fun _ => hne
  · refine ⟨?_, ?_, fun _ => ?_, fun hmod => ?_⟩
    · show F.ptr + _ = (fp.fptr + wcnt).toNat
      rw [htake, hnext]
    · exact Nat.le_max_right _ _
    · show l[(F.ptr + (wbuff.take wcnt.toNat).length - 1) / 512 / g.csize.toNat]? = _
      have hdiv : (F.ptr + wcnt.toNat - 1) / 512 = F.ptr / 512 := by omega
      rw [htake, hdiv]
      exact hclust
    · change (F.ptr + _) % 512 ≠ 0 at hmod
      show fp.sect = g.place l ((F.ptr + (wbuff.take wcnt.toNat).length) / 512)
      rw [htake] at hmod ⊢
      rw [hsect, show (F.ptr + wcnt.toNat) / 512 = F.ptr / 512 by omega]

/-! ### Sectors in a row -/

/-- The sectors of a chain that a transfer within a cluster is about. -/
theorem Geometry.DataSound.mem_run (hd : g.DataSound) (hl : ∀ c ∈ l, c ∈ g.clusters)
    (hnd : l.Nodup) {cc : U32} {q' : ℕ} (hq : q < g.csize.toNat * l.length)
    (hrun : q % g.csize.toNat + cc.toNat ≤ g.csize.toNat) (hq' : q' < g.csize.toNat * l.length) :
    (g.place l q' - g.place l q < cc ↔ q ≤ q' ∧ q' < q + cc.toNat) ∧
      (q ≤ q' ∧ q' < q + cc.toNat → (g.place l q' - g.place l q).toNat = q' - q) := by
  have hback : q ≤ q' ∧ q' < q + cc.toNat → (g.place l q' - g.place l q).toNat = q' - q := by
    rintro ⟨h1, h2⟩
    have hadd : g.place l q' = g.place l q + BitVec.ofNat 32 (q' - q) := by
      rw [← hd.place_add (by omega), show q + (q' - q) = q' by omega]
    have hcc := cc.isLt
    rw [hadd, show ∀ a b : U32, a + b - a = b by intro a b; bv_omega, BitVec.toNat_ofNat]
    exact Nat.mod_eq_of_lt (by omega)
  refine ⟨⟨fun hlt => ?_, fun h => ?_⟩, hback⟩
  · have hj := BitVec.lt_def.mp hlt
    have hadd : g.place l q' = g.place l (q + (g.place l q' - g.place l q).toNat) := by
      rw [hd.place_add (by omega), BitVec.ofNat_toNat, BitVec.setWidth_eq]
      bv_omega
    have := hd.place_inj hl hnd hq' (hd.add_lt hq (by omega)) hadd
    omega
  · rw [BitVec.lt_def, hback h]
    omega

/-- What is read from the drive, with what is still in the buffer, are the bytes of the file. -/
theorem Fil.Stores.fromDrive (hd : g.DataSound) (hl : ∀ c ∈ l, c ∈ g.clusters) (hnd : l.Nodup)
    (h : fp.Stores g mem l F) {cc : U32} (hq : F.ptr = 512 * q)
    (hrun : q % g.csize.toNat + cc.toNat ≤ g.csize.toNat) {data : ℕ → Sector}
    (hdata : ∀ i < cc.toNat, data i = mem (g.place l q + BitVec.ofNat 32 i))
    (hlen : F.ptr + 512 * cc.toNat ≤ F.size) :
    Agrees F.data F.ptr (bytesOfSectors (if fp.dirty = true ∧ fp.sect - g.place l q < cc then
      Function.update data (fp.sect - g.place l q).toNat fp.buf else data) (512 * cc.toNat)) := by
  intro k b c hk hc
  unfold bytesOfSectors at hk
  obtain ⟨hk', hget⟩ := List.getElem?_eq_some_iff.mp hk
  rw [List.length_map, List.length_range] at hk'
  rw [List.getElem_map, List.getElem_range] at hget
  have hdiv : (F.ptr + k) / 512 = q + k / 512 := by omega
  have hroom := h.room
  have hcell : q + k / 512 < g.csize.toNat * l.length := by omega
  obtain ⟨hmem, hsub⟩ := hd.mem_run hl hnd (by omega : q < _) hrun hcell
  have hin : q ≤ q + k / 512 ∧ q + k / 512 < q + cc.toNat := by omega
  have hval : data (k / 512) = mem (g.place l ((F.ptr + k) / 512)) := by
    rw [hdata _ (by omega), hdiv, hd.place_add (by omega)]
  rw [← hget, byteAt_congr (show k % 512 = (F.ptr + k) % 512 by omega)]
  by_cases hsect : g.place l ((F.ptr + k) / 512) = fp.sect
  · have hbuf := h.buffered _ c (by omega) hc hsect
    by_cases hdirty : fp.dirty = true
    · rw [hdiv] at hsect
      rw [← hsect, if_pos ⟨hdirty, hmem.mpr hin⟩, hsub hin,
        show q + k / 512 - q = k / 512 by omega, Function.update_self]
      exact hbuf
    · rw [if_neg fun h => hdirty h.1, hval]
      exact h.stored _ c (by omega) hc fun h => absurd h hdirty
  · have hst := h.stored _ c (by omega) hc fun _ => hsect
    rw [← hval] at hst
    split_ifs with hover
    · rw [Function.update_of_ne]
      · exact hst
      · -- the buffer is for another one of the sectors
        intro heq
        refine hsect ?_
        rw [hdiv, hd.place_add (by omega), heq, BitVec.ofNat_toNat, BitVec.setWidth_eq]
        bv_omega
    · exact hst

/-- A byte of the file after sectors were written from the pointer on, and its sector. -/
theorem Fil.Stores.byte_run (hd : g.DataSound) (hl : ∀ c ∈ l, c ∈ g.clusters) (hnd : l.Nodup)
    (h : fp.Stores g mem l F) (hin : F.ptr ≤ F.size) {cc : U32} (hq : F.ptr = 512 * q)
    (hqlt : q < g.csize.toNat * l.length)
    (hrun : q % g.csize.toNat + cc.toNat ≤ g.csize.toNat) {wbuff : List U8}
    (hlen : 512 * cc.toNat ≤ wbuff.length) {o : ℕ} {b : U8}
    (ho : o < max F.size (F.ptr + 512 * cc.toNat))
    (hb : put F.data F.ptr (wbuff.take (512 * cc.toNat)) o = some b) :
    g.place l (o / 512) - g.place l q < cc ∧
      byteAt (sectorsOf wbuff (g.place l (o / 512) - g.place l q).toNat) o = b ∨
    ¬ g.place l (o / 512) - g.place l q < cc ∧ o < F.size ∧ F.data o = some b := by
  have hroom := h.room
  rcases put_take_cases hlen hb with ⟨hr, hb⟩ | ⟨hr, hb⟩
  · have hdiv : q ≤ o / 512 ∧ o / 512 < q + cc.toNat := by omega
    have hcell : o / 512 < g.csize.toNat * l.length := by
      rw [show o / 512 = q + (o / 512 - q) by omega]
      exact hd.add_lt hqlt (by omega)
    obtain ⟨hmr, hsub⟩ := hd.mem_run hl hnd hqlt hrun hcell
    refine Or.inl ⟨hmr.mpr hdiv, ?_⟩
    rw [hsub hdiv]
    show wbuff.getD (512 * (o / 512 - q) + o % 512) 0 = b
    rw [show 512 * (o / 512 - q) + o % 512 = o - F.ptr by omega, List.getD_eq_getElem?_getD, hb]
    rfl
  · have ho' : o < F.size := by omega
    obtain ⟨hmr, -⟩ := hd.mem_run hl hnd hqlt hrun (h.sector_lt ho')
    exact Or.inr ⟨fun hlt => hr (by have := hmr.mp hlt; omega), ho', hb⟩

/-- Sectors are written to the drive. -/
theorem Fil.Stores.intoDrive (hd : g.DataSound) (hl : ∀ c ∈ l, c ∈ g.clusters) (hnd : l.Nodup)
    (h : fp.Stores g mem l F) (hdirty : fp.dirty = false) (hptr : F.ptr = fp.fptr.toNat)
    (hin : F.ptr ≤ F.size) {cc : U32} (hq : F.ptr = 512 * q)
    (hqlt : q < g.csize.toNat * l.length)
    (hrun : q % g.csize.toNat + cc.toNat ≤ g.csize.toNat) (hpos : 0 < cc.toNat)
    (hclust : l[q / g.csize.toNat]? = some fp.clust.toNat) {wbuff : List U8}
    (hlen : 512 * cc.toNat ≤ wbuff.length) (hover : F.ptr + 512 * cc.toNat < 2 ^ 32)
    {mem' : U32 → Sector} (hmem : ∀ x, mem' x = if x - g.place l q < cc then
      sectorsOf wbuff (x - g.place l q).toNat else mem x) {fp' : Fil}
    (hfp : fp' = if fp.sect - g.place l q < cc then
      { fp with buf := sectorsOf wbuff (fp.sect - g.place l q).toNat, dirty := false } else fp) :
    (fp'.advance (512#32 * cc)).Stores g mem' l (F.wrote (wbuff.take (512 * cc.toNat))) ∧
      (fp'.advance (512#32 * cc)).Points g l (F.wrote (wbuff.take (512 * cc.toNat))) := by
  have hmul := toNat_bytes (show 512 * cc.toNat < 2 ^ 32 by omega)
  have htake : (wbuff.take (512 * cc.toNat)).length = 512 * cc.toNat :=
    List.length_take_of_le hlen
  have hnext : (fp.fptr + 512#32 * cc).toNat = F.ptr + 512 * cc.toNat := by
    rw [BitVec.toNat_add, hmul, ← hptr]
    exact Nat.mod_eq_of_lt (by omega)
  have hrest : fp'.objsize = fp.objsize ∧ fp'.fptr = fp.fptr ∧ fp'.clust = fp.clust ∧
      fp'.sect = fp.sect ∧ fp'.dirty = false := by
    rw [hfp]
    split_ifs
    · exact ⟨rfl, rfl, rfl, rfl, rfl⟩
    · exact ⟨rfl, rfl, rfl, rfl, hdirty⟩
  obtain ⟨hsize, hfptr, hcl, hsect, hclean⟩ := hrest
  have hroom := h.room
  refine ⟨⟨?_, ?_, ?_, ?_, ?_⟩, ⟨?_, Nat.le_max_right _ _, fun _ => ?_, fun hne => ?_⟩⟩
  · show max F.size _ = (if fp'.objsize < fp'.fptr + 512#32 * cc then fp'.fptr + 512#32 * cc
      else fp'.objsize).toNat
    rw [htake, hsize, hfptr, h.size, toNat_larger, hnext]
  · show max F.size _ ≤ _
    rw [htake]
    have hcell := hd.add_lt hqlt (show q % g.csize.toNat + (cc.toNat - 1) < _ by omega)
    omega
  · exact fun h' => absurd (hclean.symm.trans h') (by decide)
  · intro o b ho hb hs
    change o < max F.size _ at ho
    rw [htake] at ho
    replace hs : g.place l (o / 512) = fp.sect := hs.trans hsect
    show byteAt fp'.buf o = b
    rcases h.byte_run hd hl hnd hin hq hqlt hrun hlen ho hb with ⟨hlt, heq⟩ | ⟨hge, ho', hb'⟩
    · rw [hfp, if_pos (hs ▸ hlt)]
      rw [hs] at heq
      exact heq
    · rw [hfp, if_neg (hs ▸ hge)]
      exact h.buffered o b ho' hb' hs
  · intro o b ho hb _
    change o < max F.size _ at ho
    rw [htake] at ho
    rw [hmem]
    rcases h.byte_run hd hl hnd hin hq hqlt hrun hlen ho hb with ⟨hlt, heq⟩ | ⟨hge, ho', hb'⟩
    · rw [if_pos hlt]
      exact heq
    · rw [if_neg hge]
      exact h.stored o b ho' hb' (fp.not_dirty hdirty)
  · show F.ptr + _ = (fp'.fptr + 512#32 * cc).toNat
    rw [htake, hfptr, hnext]
  · show l[(F.ptr + (wbuff.take (512 * cc.toNat)).length - 1) / 512 / g.csize.toNat]? =
      some fp'.clust.toNat
    have hdiv : (F.ptr + 512 * cc.toNat - 1) / 512 = q + (cc.toNat - 1) := by omega
    rw [htake, hdiv, (hd.add_div_mod (by omega)).1, hcl]
    exact hclust
  · change (F.ptr + _) % 512 ≠ 0 at hne
    rw [htake] at hne
    omega

end Bytes

end GamingConsole
