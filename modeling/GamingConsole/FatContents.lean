/-
What the file objects stand for.

A file is the bytes that its clusters hold, but for the sector that is in the buffer of its
file object.  Some of the bytes may be undefined: `f_lseek` makes a file longer without
writing, and a buffer that was filled before then need not be what is on the drive.

* `Fil.Stores`, `Fil.Points` — the bytes, and the pointer;
* `FileSys.Data` — the bytes of all files that are open;
* `Data.of_sets`, `Data.of_made`, `Data.of_written` — the FAT changes, or the data of one file.

No transfer fails here.
-/
import GamingConsole.FatRuns
import GamingConsole.FatPlaces
import GamingConsole.Library.CellFile

namespace GamingConsole

open LinkTable WriteBack CellFile

variable {ι : Type}

/-- The volume and the file objects. -/
structure FileSys (ι : Type) where
  vol : Volume
  fil : ι → Fil

def FileSys.chains (s : FileSys ι) : FatState ι := ⟨s.vol, fun i => (s.fil i).sclust⟩

/-- The bytes of the file `F` are in the sectors of its chain `l`, or in the buffer. -/
structure Fil.Stores (g : Geometry) (mem : U32 → Sector) (fp : Fil) (l : List ℕ)
    (F : File U8) : Prop where
  size : F.size = fp.objsize.toNat
  room : F.size ≤ 512 * (g.csize.toNat * l.length)
  dirty : fp.dirty = true → ∃ q < g.csize.toNat * l.length, fp.sect = g.place l q
  buffered : ∀ o b, o < F.size → F.data o = some b → g.place l (o / 512) = fp.sect →
    byteAt fp.buf o = b
  stored : ∀ o b, o < F.size → F.data o = some b →
    (fp.dirty = true → g.place l (o / 512) ≠ fp.sect) → byteAt (mem (g.place l (o / 512))) o = b

/-- The pointer of the file object is that of `F`: the cluster is the one before the pointer, and
the buffer has the pointer's sector where the pointer is inside of one. -/
structure Fil.Points (g : Geometry) (fp : Fil) (l : List ℕ) (F : File U8) : Prop where
  ptr : F.ptr = fp.fptr.toNat
  inside : F.ptr ≤ F.size
  clust : 0 < F.ptr → l[(F.ptr - 1) / 512 / g.csize.toNat]? = some fp.clust.toNat
  current : F.ptr % 512 ≠ 0 → fp.sect = g.place l (F.ptr / 512)

/-- The bytes of the files are in their chains, where the window is not. -/
structure FileSys.Data (s : FileSys ι) (f : ι → List ℕ) (lost : Set ℕ)
    (files : ι → File U8) : Prop where
  owns : s.chains.Owns f lost
  sound : s.vol.DataSound
  reliable : s.vol.drive.Reliable
  window : ∀ c ∈ s.vol.clusters, ∀ k < s.vol.csize.toNat,
    s.vol.winsect = s.vol.dataSect c k → c ∈ lost
  stores : ∀ i, (s.fil i).Stores s.vol.toGeometry s.vol.drive.sectors (f i) (files i)

/-! ### The bytes of one file -/

section Stores

variable {g : Geometry} {mem mem' : U32 → Sector} {fp fp' : Fil} {l m : List ℕ} {F : File U8}
  {o : ℕ}

theorem Fil.Stores.sector_lt (h : fp.Stores g mem l F) (ho : o < F.size) :
    o / 512 < g.csize.toNat * l.length := by
  have := h.room
  omega

theorem Fil.Stores.congr (h : fp.Stores g mem l F)
    (hmem : ∀ q < g.csize.toNat * l.length, mem' (g.place l q) = mem (g.place l q)) :
    fp.Stores g mem' l F := by
  refine { h with stored := fun o b ho hb hd => ?_ }
  rw [hmem _ (h.sector_lt ho)]
  exact h.stored o b ho hb hd

/-- The chain has become longer. -/
theorem Fil.Stores.append (hd : g.DataSound) (h : fp.Stores g mem l F) :
    fp.Stores g mem (l ++ m) F := by
  have hle : g.csize.toNat * l.length ≤ g.csize.toNat * (l ++ m).length := by
    rw [List.length_append]
    exact Nat.mul_le_mul_left _ (Nat.le_add_right _ _)
  refine ⟨h.size, h.room.trans (Nat.mul_le_mul_left _ hle), fun hdirty => ?_, ?_, ?_⟩
  · obtain ⟨q, hq, heq⟩ := h.dirty hdirty
    exact ⟨q, hq.trans_le hle, by rw [heq, place_extend hd hq]⟩
  · intro o b ho hb hsect
    rw [place_extend hd (h.sector_lt ho)] at hsect
    exact h.buffered o b ho hb hsect
  · intro o b ho hb hsect
    rw [place_extend hd (h.sector_lt ho)] at hsect ⊢
    exact h.stored o b ho hb hsect

/-- Only the buffer counts, and what is in it. -/
theorem Fil.Stores.of_fields (h : fp.Stores g mem l F) (hsize : fp'.objsize = fp.objsize)
    (hdirty : fp'.dirty = fp.dirty) (hsect : fp'.sect = fp.sect) (hbuf : fp'.buf = fp.buf) :
    fp'.Stores g mem l F := by
  refine ⟨hsize ▸ h.size, h.room, ?_, ?_, ?_⟩
  · rw [hdirty, hsect]
    exact h.dirty
  · rw [hsect, hbuf]
    exact h.buffered
  · rw [hdirty, hsect]
    exact h.stored

theorem Fil.Points.pos (hp : fp.Points g l F) (h0 : fp.fptr ≠ 0#32) : 0 < F.ptr := by
  rw [hp.ptr]
  exact Nat.pos_of_ne_zero fun hz => h0 (BitVec.eq_of_toNat_eq hz)

theorem Fil.Points.mod_eq_zero (hp : fp.Points g l F) :
    fp.fptr % 512#32 = 0#32 ↔ F.ptr % 512 = 0 := by
  rw [hp.ptr, BitVec.toNat_eq, BitVec.toNat_umod]
  rfl

/-- Inside of a sector the cluster is that of the sector. -/
theorem Fil.Points.clust_within (hp : fp.Points g l F) (hne : F.ptr % 512 ≠ 0) :
    l[F.ptr / 512 / g.csize.toNat]? = some fp.clust.toNat := by
  have hc := hp.clust (by omega)
  rwa [show (F.ptr - 1) / 512 = F.ptr / 512 by omega] at hc

/-- The pointer is none of the bytes. -/
theorem Fil.Stores.moved (h : fp.Stores g mem l F) (p : ℕ) : fp.Stores g mem l (F.moved p) :=
  ⟨h.size, h.room, h.dirty, h.buffered, h.stored⟩

end Stores

/-! ### The FAT changes -/

section Fat

variable {s : FileSys ι} {f : ι → List ℕ} {lost : Set ℕ} {files : ι → File U8}
  {v' : Volume} {fat : ℕ → ℕ} {i : ι}

/-- The cells of a file are clusters, and the window is on none of them. -/
theorem FileSys.Data.cell (h : s.Data f lost files) {c : ℕ} (hc : c ∈ f i) :
    c ∈ s.vol.clusters ∧ c ∉ lost :=
  ⟨(h.owns.allocated.chain i).cells c hc, h.owns.allocated.kept i c hc⟩

/-- What `get_fat` finds for a cluster. -/
theorem FileSys.Data.getFat_cell (h : s.Data f lost files) {clst : U32}
    (hin : clst.toNat ∈ s.vol.clusters) : s.vol.Sets (getFat s.vol clst).2 s.vol.entry ∧
      (getFat s.vol clst).1.toNat = s.vol.entry clst.toNat ∧
      (getFat s.vol clst).1 ≠ 0xFFFFFFFF#32 := by
  obtain ⟨hsets, hres⟩ := (Volume.Sets.refl h.owns.coherent).get h.owns.sound
    (BitVec.le_def.mpr hin.1) (BitVec.lt_def.mpr hin.2)
  exact ⟨hsets, hres.resolve_right fun hbad => hbad.2 h.reliable⟩

/-- The data are not touched by what is done to the FAT. -/
theorem FileSys.Data.sectors_of_alters (h : s.Data f lost files) (halt : s.vol.Alters v' fat)
    {c k : ℕ} (hc : c ∈ s.vol.clusters) (hlost : c ∉ lost) (hk : k < s.vol.csize.toNat) :
    v'.drive.sectors (s.vol.dataSect c k) = s.vol.drive.sectors (s.vol.dataSect c k) := by
  obtain ⟨hserved, hsys, hoff⟩ := h.sound.dataSect_off h.owns.sound hc hk
  have hne : s.vol.dataSect c k ≠ s.vol.winsect := fun heq => hlost (h.window c hc k hk heq.symm)
  have hne' : s.vol.dataSect c k ≠ v'.winsect := by
    intro heq
    rcases halt.winsect with hw | hw
    · exact hne (heq.trans hw)
    · exact hsys (heq ▸ hw)
  have hview := halt.rest _ hserved hoff
  rwa [Volume.view, v'.window.view_of_ne hne', Volume.view, s.vol.window.view_of_ne hne] at hview

theorem FileSys.Data.place_of_alters (h : s.Data f lost files) (halt : s.vol.Alters v' fat)
    {j : ι} {q : ℕ} (hq : q < s.vol.csize.toNat * (f j).length) :
    v'.drive.sectors (s.vol.place (f j) q) = s.vol.drive.sectors (s.vol.place (f j) q) := by
  obtain ⟨hc, hlost⟩ := h.cell (h.sound.cell_mem hq).2
  exact h.sectors_of_alters halt hc hlost (Nat.mod_lt _ h.sound.csize_pos)

theorem FileSys.Data.window_of_alters (h : s.Data f lost files) (halt : s.vol.Alters v' fat)
    {c k : ℕ} (hc : c ∈ s.vol.clusters) (hk : k < s.vol.csize.toNat)
    (hw : v'.winsect = s.vol.dataSect c k) : c ∈ lost := by
  rcases halt.winsect with hw' | hw'
  · exact h.window c hc k hk (hw'.symm.trans hw)
  · rw [hw] at hw'
    exact absurd hw' (h.sound.dataSect_off h.owns.sound hc hk).2.1

/-- The window has moved. -/
theorem FileSys.Data.of_sets (h : s.Data f lost files) (hsets : s.vol.Sets v' s.vol.entry) :
    FileSys.Data ⟨v', s.fil⟩ f lost files := by
  have hgeo := hsets.geometry
  refine ⟨h.owns.of_sets hsets, hgeo ▸ h.sound, hsets.reliable.mpr h.reliable, ?_, fun j => ?_⟩
  · show ∀ c ∈ v'.clusters, ∀ k < v'.csize.toNat, v'.winsect = v'.dataSect c k → c ∈ lost
    rw [hgeo]
    exact fun c hc k hk hw => h.window_of_alters hsets.toAlters hc hk hw
  · show (s.fil j).Stores v'.toGeometry v'.drive.sectors (f j) (files j)
    rw [hgeo]
    exact (h.stores j).congr fun q hq => h.place_of_alters hsets.toAlters hq

/-- A sector of a cluster that is not lost is neither one of the FATs nor the one in the window. -/
theorem FileSys.Data.dataSect_off (h : s.Data f lost files) {c k : ℕ} (hc : c ∈ s.vol.clusters)
    (hlost : c ∉ lost) (hk : k < s.vol.csize.toNat) :
    s.vol.dataSect c k ∈ s.vol.served ∧ s.vol.dataSect c k ≠ s.vol.winsect ∧
      s.vol.fsize ≤ s.vol.dataSect c k - s.vol.fatbase := by
  obtain ⟨hserved, -, hoff⟩ := h.sound.dataSect_off h.owns.sound hc hk
  exact ⟨hserved, fun heq => hlost (h.window _ hc _ hk heq.symm), hoff⟩

variable [DecidableEq ι]

/-- The state after something was done to file `i`. -/
def FileSys.set (s : FileSys ι) (i : ι) (v : Volume) (fp : Fil) : FileSys ι :=
  ⟨v, Function.update s.fil i fp⟩

@[simp] theorem FileSys.set_vol (s : FileSys ι) (i : ι) (v : Volume) (fp : Fil) :
    (s.set i v fp).vol = v := rfl

@[simp] theorem FileSys.set_fil (s : FileSys ι) (i : ι) (v : Volume) (fp : Fil) :
    (s.set i v fp).fil i = fp := Function.update_self ..

theorem FileSys.set_fil_of_ne (s : FileSys ι) {i j : ι} (hj : j ≠ i) (v : Volume) (fp : Fil) :
    (s.set i v fp).fil j = s.fil j := Function.update_of_ne hj ..

theorem FileSys.set_set (s : FileSys ι) (i : ι) (v v' : Volume) (fp fp' : Fil) :
    (s.set i v fp).set i v' fp' = s.set i v' fp' :=
  congrArg (FileSys.mk v') (Function.update_idem ..)

@[simp] theorem FileSys.set_self (s : FileSys ι) (i : ι) : s.set i s.vol (s.fil i) = s :=
  congrArg (FileSys.mk s.vol) (Function.update_eq_self ..)

/-- A file has one more cluster. -/
theorem FileSys.Data.of_made (h : s.Data f lost files) {clst ncl : U32} {fp : Fil}
    (hlast : ∀ d, d ∈ (f i).getLast? ↔ clst ≠ 0#32 ∧ d = clst.toNat)
    (hn : ncl.toNat ∈ s.vol.clusters) (hfree : s.vol.entry ncl.toNat = 0)
    (hsets : s.vol.Sets v' (linked s.vol.fsType s.vol.entry clst.toNat ncl.toNat))
    (hhead : (f i ++ [ncl.toNat]).headD 0 = fp.sclust.toNat)
    (hfp : ∀ {mem : U32 → Sector} {l : List ℕ} {F : File U8},
      (s.fil i).Stores s.vol.toGeometry mem l F → fp.Stores s.vol.toGeometry mem l F) :
    (s.set i (v'.took ncl) fp).Data (Function.update f i (f i ++ [ncl.toNat])) lost files := by
  obtain ⟨hgeo, hdrive, hwin, -⟩ := v'.took_fields ncl
  have hgeo' : (v'.took ncl).toGeometry = s.vol.toGeometry := hgeo.trans hsets.geometry
  have halt := hsets.toAlters.of_fields hgeo hdrive hwin
  refine ⟨h.owns.of_made hlast hn hfree hsets fun j => ?_, ?_, ?_, ?_, fun j => ?_⟩
  · by_cases hj : j = i
    · rw [hj, Function.update_self, s.set_fil]
      exact hhead
    · rw [Function.update_of_ne hj, s.set_fil_of_ne hj]
      exact h.owns.heads j
  · show (v'.took ncl).DataSound
    rw [hgeo']
    exact h.sound
  · exact halt.reliable.mpr h.reliable
  · show ∀ c ∈ (v'.took ncl).clusters, ∀ k < (v'.took ncl).csize.toNat,
      (v'.took ncl).winsect = (v'.took ncl).dataSect c k → c ∈ lost
    rw [hgeo']
    exact fun c hc k hk hw => h.window_of_alters halt hc hk hw
  · show (Function.update s.fil i fp j).Stores (v'.took ncl).toGeometry
      (v'.took ncl).drive.sectors _ _
    rw [hgeo']
    have hj := (h.stores j).congr fun q hq => h.place_of_alters halt hq
    by_cases hji : j = i
    · subst hji
      rw [Function.update_self, Function.update_self]
      exact hfp (hj.append h.sound)
    · rw [Function.update_of_ne hji, Function.update_of_ne hji]
      exact hj

/-! ### The data change -/

/-- Clusters are written that are not of the other files. -/
theorem FileSys.Data.of_written (h : s.Data f lost files) {drive : Drive} {fp : Fil} {F : File U8}
    (hfault : drive.fault = s.vol.drive.fault)
    (hoff : ∀ x, drive.sectors x ≠ s.vol.drive.sectors x →
      ∃ c ∈ s.vol.clusters, c ∉ lost ∧ (∀ j, j ≠ i → c ∉ f j) ∧
        ∃ k < s.vol.csize.toNat, x = s.vol.dataSect c k)
    (hstart : fp.sclust = (s.fil i).sclust)
    (hst : fp.Stores s.vol.toGeometry drive.sectors (f i) F) :
    (s.set i { s.vol with drive := drive } fp).Data f lost (Function.update files i F) := by
  -- neither the FATs nor the window's sector are written
  have hsame : ∀ x, (∀ c ∈ s.vol.clusters, c ∉ lost → ∀ k < s.vol.csize.toNat,
      x ≠ s.vol.dataSect c k) → drive.sectors x = s.vol.drive.sectors x := by
    intro x hx
    by_contra hne
    obtain ⟨c, hc, hlost, -, k, hk, heq⟩ := hoff x hne
    exact hx c hc hlost k hk heq
  have hfat : ∀ x, x - s.vol.fatbase < s.vol.fsize →
      drive.sectors x = s.vol.drive.sectors x := by
    refine fun x hx => hsame x fun c hc hlost k hk heq => ?_
    exact absurd (heq ▸ hx) (BitVec.not_lt.mpr (h.dataSect_off hc hlost hk).2.2)
  have hsecond : ∀ x, s.vol.secondFat x → drive.sectors x = s.vol.drive.sectors x := by
    refine fun x hx => hsame x fun c hc hlost k hk heq => ?_
    exact (h.dataSect_off hc hlost hk).1.2.1 (heq ▸ hx)
  have hwin : drive.sectors s.vol.winsect = s.vol.drive.sectors s.vol.winsect :=
    hsame _ fun c hc hlost k hk heq => (h.dataSect_off hc hlost hk).2.1 heq.symm
  have hmir : Volume.Mirrored { s.vol with drive := drive } := by
    intro hrel htwo x hx hne
    have hold := h.owns.mirrored h.reliable htwo x hx hne
    have hx2 : s.vol.secondFat (x + s.vol.fsize) := by
      refine ⟨htwo.1, ?_⟩
      rw [show x + s.vol.fsize - (s.vol.fatbase + s.vol.fsize) = x - s.vol.fatbase by bv_omega]
      exact hx
    show drive.sectors (x + s.vol.fsize) = drive.sectors x
    rw [hfat x hx, hsecond _ hx2]
    exact hold
  have hcoh : Volume.Coherent { s.vol with drive := drive } :=
    ⟨fun hw hs => (h.owns.coherent.clean hw hs).trans hwin.symm, h.owns.coherent.inside⟩
  refine ⟨h.owns.of_view rfl rfl hfault hcoh hmir (fun x _ hx => ?_) fun j => ?_, h.sound,
    fun n => (congrFun hfault n).trans (h.reliable n), h.window, fun j => ?_⟩
  · show (if x = s.vol.winsect then s.vol.win else drive.sectors x) =
      if x = s.vol.winsect then s.vol.win else s.vol.drive.sectors x
    rw [hfat x hx]
  · show (Function.update s.fil i fp j).sclust = _
    by_cases hj : j = i
    · rw [hj, Function.update_self]
      exact hstart
    · rw [Function.update_of_ne hj]
      rfl
  · show (Function.update s.fil i fp j).Stores s.vol.toGeometry drive.sectors _ _
    by_cases hj : j = i
    · rw [hj, Function.update_self, Function.update_self]
      exact hst
    · rw [Function.update_of_ne hj, Function.update_of_ne hj]
      refine (h.stores j).congr fun q hq => ?_
      by_contra hne
      obtain ⟨c, hc, -, hother, k, hk, heq⟩ := hoff _ hne
      have hcell := (h.sound.cell_mem hq).2
      have hcc := h.sound.dataSect_inj ((h.owns.allocated.chain j).cells _ hcell) hc
        (Nat.mod_lt _ h.sound.csize_pos) hk heq
      exact hother j hj (hcc.1 ▸ hcell)

/-- Data of a file are written to the drive. -/
theorem FileSys.Data.of_drive (h : s.Data f lost files) {drive : Drive} {fp : Fil} {F : File U8}
    (hfault : drive.fault = s.vol.drive.fault)
    (hoff : ∀ x, (∀ q < s.vol.csize.toNat * (f i).length, x ≠ s.vol.place (f i) q) →
      drive.sectors x = s.vol.drive.sectors x)
    (hstart : fp.sclust = (s.fil i).sclust)
    (hst : fp.Stores s.vol.toGeometry drive.sectors (f i) F) :
    (s.set i { s.vol with drive := drive } fp).Data f lost (Function.update files i F) := by
  refine h.of_written hfault (fun x hne => ?_) hstart hst
  obtain ⟨q, hq, heq⟩ : ∃ q < s.vol.csize.toNat * (f i).length, x = s.vol.place (f i) q := by
    by_contra hnone
    exact hne (hoff x fun q hq heq => hnone ⟨q, hq, heq⟩)
  have hmem := (h.sound.cell_mem hq).2
  obtain ⟨hc, hlost⟩ := h.cell hmem
  exact ⟨_, hc, hlost, fun j hj hin => hj (h.owns.allocated.apart j i _ hin hmem), _,
    Nat.mod_lt _ h.sound.csize_pos, heq⟩

end Fat

end GamingConsole
