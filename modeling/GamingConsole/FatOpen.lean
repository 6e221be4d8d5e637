/-
Any calls on files that are open.

Several files are open on one volume, and the functions are called for them in any order.  Each
call does to its file what it says, and nothing to the others: what is read is what was written
last, as if every file were a list of bytes of its own.  The one thing the files share is the
room, and that is the one thing that can make a call do less than it was asked for.

* `FileCall.Does` — what a call does to the files;
* `fileCall_does` — one call;
* `fileCalls_do` — any calls;
* `FilesDo.reads_written` — bytes that were written are read again.

No transfer fails here.
-/
import GamingConsole.FatSync

namespace GamingConsole

open LinkTable CellFile

/-! ### Calls -/

/-- A call for one of the files `ι`. -/
inductive FileCall (ι : Type) where
  | read (i : ι) (btr : U32)
  | write (i : ι) (wbuff : List U8) (btw : U32)
  | lseek (i : ι) (ofs : U32)
  | truncate (i : ι)
  | sync (i : ι)

/-- What a call returns, and how many clusters are free then. -/
structure FileAnswer where
  res : FResult
  /-- What `f_read` has read. -/
  buff : List U8
  /-- `*bw`. -/
  bw : U32
  free : ℕ

variable {ι : Type}

def FileCall.file : FileCall ι → ι
  | .read i _ | .write i _ _ | .lseek i _ | .truncate i | .sync i => i

/-- The buffer of the caller is as long as it says. -/
def FileCall.Legal : FileCall ι → Prop
  | .write _ wbuff btw => btw.toNat ≤ wbuff.length
  | _ => True

section Run

variable [DecidableEq ι]

def FileSys.done (s : FileSys ι) (i : ι) (res : FResult) (buff : List U8) (bw : U32) (fp : Fil)
    (v : Volume) : FileAnswer × FileSys ι :=
  (⟨res, buff, bw, v.freeCount⟩, s.set i v fp)

def FileCall.run (s : FileSys ι) : FileCall ι → Option (FileAnswer × FileSys ι)
  | .read i btr =>
    (fRead s.vol (s.fil i) btr).map fun (res, buff, fp, v) => s.done i res buff 0#32 fp v
  | .write i wbuff btw =>
    (fWrite s.vol (s.fil i) wbuff btw).map fun (res, bw, fp, v) => s.done i res [] bw fp v
  | .lseek i ofs => (fLseek s.vol (s.fil i) ofs).map fun (res, fp, v) => s.done i res [] 0#32 fp v
  | .truncate i => (fTruncate s.vol (s.fil i)).map fun (res, fp, v) => s.done i res [] 0#32 fp v
  | .sync i =>
    let (res, fp, v) := fSync s.vol (s.fil i)
    some (s.done i res [] 0#32 fp v)

/-- The calls, one after the other. -/
def fileCalls (s : FileSys ι) : List (FileCall ι) → Option (List FileAnswer × FileSys ι)
  | [] => some ([], s)
  | call :: calls =>
    match call.run s with
    | none => none
    | some (ans, s) =>
      match fileCalls s calls with
      | none => none
      | some (answers, s) => some (ans :: answers, s)

/-- What a call does to the files, where `h` says how they were opened. -/
inductive FileCall.Does (h : ι → Handle) (files : ι → File U8) :
    FileCall ι → FileAnswer → (ι → File U8) → Prop
  | read {i : ι} {btr : U32} {bytes : List U8} {free : ℕ} (hmode : (h i).read = true)
      (hlen : bytes.length = min btr.toNat ((files i).size - (files i).ptr))
      (hbytes : Agrees (files i).data (files i).ptr bytes) :
      Does h files (.read i btr) ⟨.ok, bytes, 0#32, free⟩
        (Function.update files i ((files i).moved ((files i).ptr + bytes.length)))
  | write {i : ι} {wbuff : List U8} {btw bw : U32} {free : ℕ} (hmode : (h i).write = true)
      (hle : bw.toNat ≤ min btw.toNat (2 ^ 32 - 1 - (files i).ptr))
      (hfree : free ≠ 0 → bw.toNat = min btw.toNat (2 ^ 32 - 1 - (files i).ptr)) :
      Does h files (.write i wbuff btw) ⟨.ok, [], bw, free⟩
        (Function.update files i ((files i).wrote (wbuff.take bw.toNat)))
  | lseek {i : ι} {ofs : U32} {p free : ℕ}
      (hle : p ≤ if (h i).write then ofs.toNat else min ofs.toNat (files i).size)
      (hfree : p < (files i).size ∨ free ≠ 0 →
        p = if (h i).write then ofs.toNat else min ofs.toNat (files i).size) :
      Does h files (.lseek i ofs) ⟨.ok, [], 0#32, free⟩
        (Function.update files i (((files i).grown p).moved p))
  | truncate {i : ι} {free : ℕ} (hmode : (h i).write = true) :
      Does h files (.truncate i) ⟨.ok, [], 0#32, free⟩
        (Function.update files i (files i).truncated)
  | sync {i : ι} {free : ℕ} : Does h files (.sync i) ⟨.ok, [], 0#32, free⟩ files
  | denied {call : FileCall ι} {free : ℕ} (hmode : match call with
      | .read i _ => (h i).read = false
      | .write i _ _ | .truncate i => (h i).write = false
      | _ => False) : Does h files call ⟨.denied, [], 0#32, free⟩ files

/-- What the calls do, one after the other. -/
inductive FilesDo (h : ι → Handle) :
    (ι → File U8) → List (FileCall ι) → List FileAnswer → (ι → File U8) → Prop
  | nil (files : ι → File U8) : FilesDo h files [] [] files
  | cons {files files' files'' : ι → File U8} {call : FileCall ι} {ans : FileAnswer}
      {calls : List (FileCall ι)} {answers : List FileAnswer} (hcall : call.Does h files ans files')
      (hrest : FilesDo h files' calls answers files'') :
      FilesDo h files (call :: calls) (ans :: answers) files''

/-! ### One call -/

/-- The files `files` are open. -/
def FileSys.Open (s : FileSys ι) (files : ι → File U8) : Prop :=
  ∃ f lost, s.Inv f lost files ∧ ∀ i, (s.fil i).toHandle.AtEntry s.vol.toGeometry lost

variable {s : FileSys ι} {f : ι → List ℕ} {lost : Set ℕ} {files : ι → File U8} {i : ι}
  {v' : Volume} {fp : Fil}

omit [DecidableEq ι] in
/-- Where every cluster is in use, none is free. -/
theorem FileSys.Data.freeCount_full (h : s.Data f lost files) (hfull : s.vol.Full f lost) :
    s.vol.freeCount = 0 := by
  by_contra hne
  obtain ⟨c, hc, hfree⟩ := freeCells_pos.mp (Nat.pos_of_ne_zero hne)
  have hc := mem_cells.mp hc
  exact (h.owns.allocated.used c hc).mpr (hfull c hc) hfree

theorem FileSys.set_handle (s : FileSys ι) (i : ι) (v : Volume)
    (hhandle : fp.toHandle = (s.fil i).toHandle) (j : ι) :
    ((s.set i v fp).fil j).toHandle = (s.fil j).toHandle := by
  by_cases hj : j = i
  · rw [hj, s.set_fil, hhandle]
  · rw [s.set_fil_of_ne hj]

theorem FileSys.Inv.opened (hat : ∀ i, (s.fil i).toHandle.AtEntry s.vol.toGeometry lost)
    (hgeo : v'.toGeometry = s.vol.toGeometry) (hhandle : fp.toHandle = (s.fil i).toHandle)
    {f' : ι → List ℕ} {files' : ι → File U8} (h : (s.set i v' fp).Inv f' lost files') :
    (s.set i v' fp).Open files' := by
  refine ⟨f', lost, h, fun j => ?_⟩
  rw [s.set_handle i v' hhandle, s.set_vol, hgeo]
  exact hat j

/-- **A call does to its file what it says.** -/
theorem fileCall_does (h : s.Open files) (call : FileCall ι) (hleg : call.Legal) :
    ∃ ans s' files', call.run s = some (ans, s') ∧
      call.Does (fun i => (s.fil i).toHandle) files ans files' ∧ s'.Open files' ∧
      ∀ i, (s'.fil i).toHandle = (s.fil i).toHandle := by
  obtain ⟨f, lost, h, hat⟩ := h
  -- a call that has stopped short leaves no cluster free
  have hfree : ∀ {i : ι} {v' : Volume} {fp : Fil} {f' : ι → List ℕ} {files' : ι → File U8},
      (s.set i v' fp).Inv f' lost files' → v'.toGeometry = s.vol.toGeometry → v'.freeCount ≠ 0 →
        ¬ s.vol.Full f' lost := by
    intro i v' fp f' files' hinv hgeo hne hfull
    exact hne (hinv.freeCount_full (by rw [s.set_vol, hgeo]; exact hfull))
  have hsame : ∀ i, (s.set i s.vol (s.fil i)).Open files := fun i =>
    (show (s.set i s.vol (s.fil i)).Inv f lost files by rw [s.set_self]; exact h).opened hat rfl rfl
  cases call with
  | read i btr =>
    by_cases hmode : (s.fil i).read = true
    · obtain ⟨bytes, fp, v', hrun, hlen, hbytes, hgeo, hhandle, hinv⟩ := fRead_spec h hmode btr
      exact ⟨_, _, _, by rw [FileCall.run, hrun]; rfl, .read hmode hlen hbytes,
        hinv.opened hat hgeo hhandle, s.set_handle i v' hhandle⟩
    · obtain ⟨hvalid, herr⟩ := h.ready i
      have hrun : fRead s.vol (s.fil i) btr = some (.denied, [], s.fil i, s.vol) := by
        simp [fRead, hvalid, herr, hmode]
      exact ⟨_, _, files, by rw [FileCall.run, hrun]; rfl, .denied (Bool.eq_false_iff.mpr hmode),
        hsame i, s.set_handle i s.vol rfl⟩
  | write i wbuff btw =>
    by_cases hmode : (s.fil i).write = true
    · obtain ⟨bw, fp, v', f', hrun, hle, hfull, hgeo, hhandle, -, hinv⟩ := fWrite_spec h hmode hleg
      refine ⟨_, _, _, by rw [FileCall.run, hrun]; rfl, .write hmode hle fun hne => ?_,
        hinv.opened hat hgeo hhandle, s.set_handle i v' hhandle⟩
      by_contra hlt
      exact hfree hinv hgeo hne (hfull (by omega))
    · obtain ⟨hvalid, herr⟩ := h.ready i
      have hrun : fWrite s.vol (s.fil i) wbuff btw = some (.denied, 0#32, s.fil i, s.vol) := by
        simp [fWrite, hvalid, herr, hmode]
      exact ⟨_, _, files, by rw [FileCall.run, hrun]; rfl, .denied (Bool.eq_false_iff.mpr hmode),
        hsame i, s.set_handle i s.vol rfl⟩
  | lseek i ofs =>
    obtain ⟨fp, v', f', p, hrun, hle, hfull, hgeo, hhandle, -, hinv⟩ := fLseek_spec h (i := i) ofs
    refine ⟨_, _, _, by rw [FileCall.run, hrun]; rfl, .lseek hle fun hor => ?_,
      hinv.opened hat hgeo hhandle, s.set_handle i v' hhandle⟩
    by_contra hne
    obtain ⟨hsize, hfull⟩ := hfull (lt_of_le_of_ne hle hne)
    exact hor.elim (fun hlt => absurd hsize (Nat.not_le.mpr hlt)) fun hne =>
      hfree hinv hgeo hne hfull
  | truncate i =>
    by_cases hmode : (s.fil i).write = true
    · obtain ⟨fp, v', f', hrun, hgeo, hhandle, -, hinv⟩ := fTruncate_spec h hmode
      exact ⟨_, _, _, by rw [FileCall.run, hrun]; rfl, .truncate hmode,
        hinv.opened hat hgeo hhandle, s.set_handle i v' hhandle⟩
    · obtain ⟨hvalid, herr⟩ := h.ready i
      have hrun : fTruncate s.vol (s.fil i) = some (.denied, s.fil i, s.vol) := by
        simp [fTruncate, hvalid, herr, hmode]
      exact ⟨_, _, files, by rw [FileCall.run, hrun]; rfl, .denied (Bool.eq_false_iff.mpr hmode),
        hsame i, s.set_handle i s.vol rfl⟩
  | sync i =>
    obtain ⟨fp, v', hrun, hgeo, hhandle, hinv, -⟩ := fSync_spec h (hat i)
    exact ⟨_, _, files, by rw [FileCall.run, hrun]; rfl, .sync, hinv.opened hat hgeo hhandle,
      s.set_handle i v' hhandle⟩

/-! ### The small volume -/

/-- Two files on the small volume that were just created. -/
def blankFiles : FileSys Bool where
  vol := blankVolume
  fil i :=
    { fs := true
      id := 1#16
      read := true
      write := true
      err := .ok
      dirSect := 3#32
      dirPtr := if i then 32 else 0
      sclust := 0#32
      objsize := 0#32
      modified := true
      dirty := false
      fptr := 0#32
      clust := 0#32
      sect := 0#32
      buf := fun _ => 0 }

theorem blankVolume_dataSound : blankVolume.DataSound :=
  ⟨⟨0, by decide, rfl⟩, by decide, by decide⟩

theorem blankFiles_open : blankFiles.Open fun _ => ⟨fun _ => none, 0, 0⟩ := by
  have hat : ∀ c ∈ blankVolume.clusters, ∀ k < blankVolume.csize.toNat,
      3#32 = blankVolume.dataSect c k → c ∈ (∅ : Set ℕ) := by
    intro c hc k hk heq
    have hnum := (blankVolume_dataSound.toNat_dataSect hc hk).1
    rw [← heq] at hnum
    have hdata : blankVolume.database.toNat = 4 := rfl
    have hthree : (3#32 : U32).toNat = 3 := rfl
    omega
  refine ⟨fun _ => [], ∅, ?_, fun i => ?_⟩
  · exact
      { owns := blankVolume_owns
        sound := blankVolume_dataSound
        reliable := blankVolume_reliable
        window := fun c hc k hk heq =>
          absurd heq.symm (blankVolume_dataSound.dataSect_off blankVolume_sound hc hk).1.2.2
        stores := fun i =>
          { size := rfl
            room := Nat.zero_le _
            dirty := nofun
            buffered := fun o b ho _ => absurd ho (Nat.not_lt_zero o)
            stored := fun o b ho _ => absurd ho (Nat.not_lt_zero o) }
        points := fun i =>
          { ptr := rfl
            inside := Nat.le_refl 0
            clust := fun h => absurd h (Nat.lt_irrefl 0)
            current := fun h => absurd rfl h }
        ready := fun i => ⟨by cases i <;> decide, rfl⟩ }
  · exact
      { served := ⟨(by decide : 1#32 ≤ 3#32),
          fun h => absurd h.2 (by decide : ¬ 3#32 - 2#32 < 1#32), (by decide : 3#32 ≠ 0 - 1)⟩
        behind := (by decide : 1#32 ≤ 3#32 - 1#32)
        apart := hat
        inside := by cases i <;> decide }

/-! ### Any calls -/

theorem FileSys.Open.fileCalls (h : s.Open files) (calls : List (FileCall ι))
    (hleg : ∀ call ∈ calls, call.Legal) : ∃ answers s' files',
      GamingConsole.fileCalls s calls = some (answers, s') ∧
      FilesDo (fun i => (s.fil i).toHandle) files calls answers files' ∧ s'.Open files' ∧
      ∀ i, (s'.fil i).toHandle = (s.fil i).toHandle := by
  induction calls generalizing s files with
  | nil => exact ⟨[], s, files, rfl, .nil files, h, fun _ => rfl⟩
  | cons call calls ih =>
    obtain ⟨ans, s₁, files₁, hrun, hdoes, hopen, hhandle⟩ :=
      fileCall_does h call (hleg call (List.mem_cons_self ..))
    obtain ⟨answers, s₂, files₂, hruns, hdo, hopen', hhandle'⟩ :=
      ih hopen fun call hc => hleg call (List.mem_cons_of_mem _ hc)
    simp only [hhandle] at hdo
    exact ⟨ans :: answers, s₂, files₂, by rw [GamingConsole.fileCalls, hrun]; simp only [hruns],
      .cons hdoes hdo, hopen', fun i => (hhandle' i).trans (hhandle i)⟩

/-- **Every file is a list of bytes of its own**: whatever calls are made, in any order, each does
to its file what it says, and less only where no cluster is free. -/
theorem fileCalls_do (h : s.Open files) (calls : List (FileCall ι))
    (hleg : ∀ call ∈ calls, call.Legal) : ∃ answers s' files',
      fileCalls s calls = some (answers, s') ∧
      FilesDo (fun i => (s.fil i).toHandle) files calls answers files' ∧ s'.Open files' := by
  obtain ⟨answers, s', files', hrun, hdo, hopen, -⟩ := h.fileCalls calls hleg
  exact ⟨answers, s', files', hrun, hdo, hopen⟩

theorem fileCalls_do_blank : ∃ answers s' files',
    fileCalls blankFiles [.write true [1#8] 1#32, .sync true, .truncate false] =
      some (answers, s') ∧
    FilesDo (fun i => (blankFiles.fil i).toHandle) (fun _ => ⟨fun _ => none, 0, 0⟩)
      [.write true [1#8] 1#32, .sync true, .truncate false] answers files' ∧ s'.Open files' :=
  fileCalls_do blankFiles_open _ (by simp [FileCall.Legal])

/-! ### What the calls do to one file -/

variable {h : ι → Handle} {files' files'' : ι → File U8} {call : FileCall ι} {ans : FileAnswer}
  {calls : List (FileCall ι)} {answers : List FileAnswer}

theorem FileCall.Does.other (hd : call.Does h files ans files') (hi : call.file ≠ i) :
    files' i = files i := by
  cases hd with
  | read | write | lseek | truncate => exact Function.update_of_ne hi.symm ..
  | sync | denied => rfl

/-- Calls for other files do not matter. -/
theorem FilesDo.other (hd : FilesDo h files calls answers files')
    (hi : ∀ call ∈ calls, call.file ≠ i) : files' i = files i := by
  induction hd with
  | nil => rfl
  | cons hcall _ ih =>
    rw [ih fun call hc => hi call (List.mem_cons_of_mem _ hc)]
    exact hcall.other (hi _ (List.mem_cons_self ..))

theorem FilesDo.append_inv {calls' : List (FileCall ι)}
    (hd : FilesDo h files (calls ++ calls') answers files'') : ∃ a a' files', answers = a ++ a' ∧
      FilesDo h files calls a files' ∧ FilesDo h files' calls' a' files'' := by
  induction calls generalizing files answers with
  | nil => exact ⟨[], answers, files, rfl, .nil files, hd⟩
  | cons call calls ih =>
    cases hd with
    | cons hcall hrest =>
      obtain ⟨a, a', files', rfl, hd, hd'⟩ := ih hrest
      exact ⟨_ :: a, a', files', rfl, .cons hcall hd, hd'⟩

/-- Bytes that were written are read again, whatever is done to other files. -/
theorem FilesDo.reads_written {calls' : List (FileCall ι)} {wbuff : List U8} {btw p btr : U32}
    (hread : (h i).read = true) (hwrite : (h i).write = true) (hlen : btw.toNat ≤ wbuff.length)
    (hp : p.toNat = (files i).ptr) (hi : ∀ call ∈ calls, call.file ≠ i)
    (hi' : ∀ call ∈ calls', call.file ≠ i)
    (hd : FilesDo h files (.write i wbuff btw :: (calls ++ .lseek i p :: (calls' ++ [.read i btr])))
      answers files') : ∃ first last, answers.head? = some first ∧ answers.getLast? = some last ∧
        last.buff.take first.bw.toNat = wbuff.take (min first.bw.toNat btr.toNat) := by
  cases hd with
  | @cons _ files₁ _ _ _ _ _ hw hrest =>
  obtain ⟨a, a', files₂, rfl, hd, hrest⟩ := hrest.append_inv
  cases hrest with
  | @cons _ files₃ _ _ _ _ _ hs hrest =>
  obtain ⟨b, b', files₄, rfl, hd', hrest⟩ := hrest.append_inv
  cases hrest with
  | @cons _ files₅ _ _ ans _ _ hr hnil =>
  cases hnil
  have h21 := hd.other hi
  have h43 := hd'.other hi'
  cases hw with
  | denied hmode => exact absurd (hwrite.symm.trans hmode) (by decide)
  | @write _ _ _ bw _ _ hle _ =>
  cases hs with
  | denied hmode => exact hmode.elim
  | @lseek _ _ q _ hq hfree =>
  cases hr with
  | denied hmode => exact absurd (hread.symm.trans hmode) (by decide)
  | @read _ _ bytes free _ hlength hbytes =>
  have hlast : ∀ (x y : FileAnswer), (x :: (a ++ y :: (b ++ [⟨.ok, bytes, 0#32, free⟩]))).getLast? =
      some ⟨.ok, bytes, 0#32, free⟩ := by
    intro x y
    rw [show x :: (a ++ y :: (b ++ [⟨.ok, bytes, 0#32, free⟩])) =
      (x :: (a ++ y :: b)) ++ [⟨.ok, bytes, 0#32, free⟩] by simp, List.getLast?_concat]
  refine ⟨_, _, rfl, hlast _ _, ?_⟩
  show bytes.take bw.toNat = wbuff.take (min bw.toNat btr.toNat)
  -- the file when it is read
  have htake : (wbuff.take bw.toNat).length = bw.toNat := by
    rw [List.length_take]
    omega
  rw [if_pos hwrite, h21, Function.update_self] at hfree
  rw [if_pos hwrite] at hq
  have hsize : ((files i).wrote (wbuff.take bw.toNat)).size =
      max (files i).size ((files i).ptr + bw.toNat) := by
    show max (files i).size ((files i).ptr + _) = _
    rw [htake]
  have hqp : q = (files i).ptr := by
    rw [hsize] at hfree
    by_cases hlt : q < max (files i).size ((files i).ptr + bw.toNat)
    · exact (hfree (Or.inl hlt)).trans hp
    · omega
  subst hqp
  rw [h43, Function.update_self, h21, Function.update_self] at hlength hbytes
  replace hlength : bytes.length = min btr.toNat (max ((files i).wrote (wbuff.take bw.toNat)).size
    (files i).ptr - (files i).ptr) := hlength
  rw [hsize] at hlength
  have hwritten := hbytes.take_eq (l := wbuff.take bw.toNat) fun k hk => by
    rw [htake] at hk
    show (if (files i).ptr + k < ((files i).wrote (wbuff.take bw.toNat)).size then
      put (files i).data (files i).ptr (wbuff.take bw.toNat) ((files i).ptr + k) else none) = _
    rw [if_pos (by omega), put_inside (by omega), Nat.add_sub_cancel_left]
  rw [htake, List.take_take] at hwritten
  rw [hwritten, show min bytes.length bw.toNat = min bw.toNat btr.toNat by omega]

/-- **What was written is read again**, with any calls for other files in between. -/
theorem fileCalls_read_back (hs : s.Open files) (hread : (s.fil i).read = true)
    (hwrite : (s.fil i).write = true) {wbuff : List U8} {btw btr : U32}
    (hlen : btw.toNat ≤ wbuff.length) (calls calls' : List (FileCall ι))
    (hleg : ∀ call ∈ calls ++ calls', call.Legal)
    (hother : ∀ call ∈ calls ++ calls', call.file ≠ i) : ∃ first last answers s',
      fileCalls s (.write i wbuff btw ::
        (calls ++ .lseek i (s.fil i).fptr :: (calls' ++ [.read i btr]))) = some (answers, s') ∧
      answers.head? = some first ∧ answers.getLast? = some last ∧
      last.buff.take first.bw.toNat = wbuff.take (min first.bw.toNat btr.toNat) := by
  obtain ⟨answers, s', files', hrun, hdo, -⟩ := hs.fileCalls (.write i wbuff btw ::
    (calls ++ .lseek i (s.fil i).fptr :: (calls' ++ [.read i btr]))) (by
      intro call hc
      simp only [List.mem_cons, List.mem_append, List.not_mem_nil, or_false] at hc
      rcases hc with rfl | hc | rfl | hc | rfl
      · exact hlen
      · exact hleg call (List.mem_append_left _ hc)
      · exact trivial
      · exact hleg call (List.mem_append_right _ hc)
      · exact trivial)
  have hptr : (s.fil i).fptr.toNat = (files i).ptr := by
    obtain ⟨f, lost, hinv, -⟩ := hs
    exact (hinv.points i).ptr.symm
  obtain ⟨first, last, hfirst, hlast, heq⟩ := FilesDo.reads_written (i := i)
    (h := fun i => (s.fil i).toHandle) hread hwrite hlen hptr
    (fun call hc => hother call (List.mem_append_left _ hc))
    (fun call hc => hother call (List.mem_append_right _ hc)) hdo
  exact ⟨first, last, answers, s', hrun, hfirst, hlast, heq⟩

theorem fileCalls_read_back_blank : ∃ first last answers s',
    fileCalls blankFiles [.write true [1#8, 2#8] 2#32, .write false [3#8] 1#32,
      .lseek true 0#32, .sync false, .read true 2#32] = some (answers, s') ∧
    answers.head? = some first ∧ answers.getLast? = some last ∧
    last.buff.take first.bw.toNat = [1#8, 2#8].take (min first.bw.toNat 2) :=
  fileCalls_read_back blankFiles_open (i := true) rfl rfl (by decide) [.write false [3#8] 1#32]
    [.sync false] (by simp [FileCall.Legal]) (by simp [FileCall.file])

/-! ### What is kept -/

/-- **What `f_sync` has written is there after the volume was mounted anew**: whatever was done to
the files before, a file that was changed and synced is read as it was. -/
theorem fileCalls_durable (hs : s.Open files) (hleg : ∀ call ∈ calls, call.Legal)
    {s' : FileSys ι} (hrun : fileCalls s calls = some (answers, s'))
    (hmod : (s'.fil i).modified = true) : ∃ files' fp v',
      FilesDo (fun i => (s.fil i).toHandle) files calls answers files' ∧
      fSync s'.vol (s'.fil i) = (.ok, fp, v') ∧
      ∀ w, v'.Remounted (s'.fil i).dirSect w → ∀ write clust btr, ∃ bytes fp₂ w',
        fRead w (openFil w true write (s'.fil i).dirPtr clust) btr = some (.ok, bytes, fp₂, w') ∧
        bytes.length = min btr.toNat (files' i).size ∧ Agrees (files' i).data 0 bytes := by
  obtain ⟨answers', s₁, files', hrun', hdo, ⟨f, lost, hinv, hat⟩, -⟩ :=
    hs.fileCalls calls hleg
  obtain ⟨rfl, rfl⟩ : answers' = answers ∧ s₁ = s' := by
    rw [hrun'] at hrun
    exact Prod.mk.inj (Option.some.inj hrun)
  obtain ⟨fp, v', hsync, hgeo, hhandle, hinv', hsaved⟩ := fSync_spec hinv (hat i)
  obtain ⟨hdirty, hclean, hentry⟩ := hsaved hmod
  have hsect : fp.dirSect = (s₁.fil i).dirSect := congrArg Handle.dirSect hhandle
  have hptr : fp.dirPtr = (s₁.fil i).dirPtr := congrArg Handle.dirPtr hhandle
  have hfil : (s₁.set i v' fp).fil i = fp := s₁.set_fil i v' fp
  refine ⟨files', fp, v', hdo, hsync, fun w hw write clust btr => ?_⟩
  have hfil' : (s₁.set i v' fp).vol.drive.sectors ((s₁.set i v' fp).fil i).dirSect =
      syncEntry (s₁.set i v' fp).vol.fsType (s₁.vol.view fp.dirSect)
        ((s₁.set i v' fp).fil i) := by
    rw [hfil, s₁.set_vol, hgeo]
    exact hentry
  have hone := reopened hinv' hclean (by rw [hfil]; exact hdirty)
    (by rw [s₁.set_handle i v' hhandle, s₁.set_vol, hgeo]; exact hat i) hfil'
    (show (s₁.set i v' fp).vol.Remounted _ w by rw [hfil, hsect, s₁.set_vol]; exact hw) true write
      clust
  rw [hfil, hptr] at hone
  obtain ⟨bytes, fp₂, w', hread, hlen, hbytes, -⟩ := fRead_spec hone (i := ()) rfl btr
  exact ⟨bytes, fp₂, w', hread, hlen, hbytes⟩

/-- It can be mounted anew. -/
theorem exists_remounted (hs : s.Open files) (hleg : ∀ call ∈ calls, call.Legal)
    {s' : FileSys ι} (hrun : fileCalls s calls = some (answers, s')) {fp : Fil} {v' : Volume}
    (hsync : fSync s'.vol (s'.fil i) = (.ok, fp, v')) (id : U16) :
    v'.Remounted (s'.fil i).dirSect (v'.remount id (s'.fil i).dirSect) := by
  obtain ⟨answers', s₁, files', hrun', -, ⟨f, lost, hinv, hat⟩, -⟩ := hs.fileCalls calls hleg
  rw [hrun', Option.some_inj, Prod.mk.injEq] at hrun
  obtain ⟨rfl, rfl⟩ := hrun
  obtain ⟨fp₁, v₁, hsync₁, -, -, hinv', -⟩ := fSync_spec hinv (hat i)
  rw [hsync₁, Prod.mk.injEq, Prod.mk.injEq] at hsync
  obtain ⟨-, rfl, rfl⟩ := hsync
  exact Volume.remounted_remount hinv'.owns.sound hinv'.reliable _ _

/-- The files after a byte was written to one of them. -/
def blankWritten : List FileAnswer × FileSys Bool :=
  (fileCalls blankFiles [.write true [1#8] 1#32]).get (by decide)

/-- The byte is read after the volume was mounted with another id. -/
theorem fileCalls_durable_blank : ∃ files' fp v' w bytes fp₂ w',
    FilesDo (fun i => (blankFiles.fil i).toHandle) (fun _ => ⟨fun _ => none, 0, 0⟩)
      [.write true [1#8] 1#32] blankWritten.1 files' ∧
    fSync blankWritten.2.vol (blankWritten.2.fil true) = (.ok, fp, v') ∧
    v'.Remounted (blankWritten.2.fil true).dirSect w ∧
    fRead w (openFil w true false (blankWritten.2.fil true).dirPtr 0#32) 8#32 =
      some (.ok, bytes, fp₂, w') ∧
    bytes.length = min 8 (files' true).size ∧ Agrees (files' true).data 0 bytes := by
  have hrun : fileCalls blankFiles [.write true [1#8] 1#32] =
      some (blankWritten.1, blankWritten.2) := (Option.some_get (by decide)).symm
  have hleg : ∀ call ∈ [FileCall.write true [1#8] 1#32], call.Legal := by simp [FileCall.Legal]
  obtain ⟨files', fp, v', hdo, hsync, hread⟩ :=
    fileCalls_durable blankFiles_open hleg hrun (i := true) (by decide)
  have hmount := exists_remounted blankFiles_open hleg hrun hsync 2#16
  obtain ⟨bytes, fp₂, w', hbytes⟩ := hread _ hmount false 0#32 8#32
  exact ⟨files', fp, v', _, bytes, fp₂, w', hdo, hsync, hmount, hbytes⟩

end Run

end GamingConsole
