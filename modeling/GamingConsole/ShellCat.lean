/-
The shell's `cat` command.

`cmd_cat` reads a file in chunks of 127 bytes, writes a terminator behind each of them and
prints the chunk as a string.  A zero byte in a chunk ends the string, and the rest of the
chunk is not printed.

* `catLoop_runs` — the loop ends, in its buffer, with `catText` of what was left of the file;
* `catText_eq_iff` — that is the file where it has no zero byte;
* `cat_exact_iff` — so for the command, from its arguments to the line end that it prints last.
-/
import GamingConsole.ShellWrite

namespace GamingConsole

open CString

/-! ### The code -/

/-- What a call of `f_read` does: whether it returns `FR_OK`, the bytes that it stores, `*br` of
them, and the file behind it. -/
structure FileRead (F : Type) where
  ok : Bool
  bytes : List U8
  file : F

/-- Why a run has no result. -/
inductive CatStop where
  | outOfBounds
  | outOfFuel

/-- The end of the loop: what has been printed, and whether `res` is `FR_OK`. -/
structure CatEnd where
  printed : List U8
  ok : Bool

variable {F : Type}

/-- What is done with a chunk: the buffer behind the terminator, and the string that is
printed. -/
def printChunk (buf : List U8) (br : ℕ) : Option (List U8 × List U8) := do
  let buf ← store buf br 0
  let s ← read 0 buf 0
  some (buf, s)

/-- The loop of `cmd_cat`. -/
def catLoop (fRead : F → ℕ → FileRead F) :
    ℕ → F → List U8 → List U8 → Except CatStop CatEnd
  | 0, _, _, _ => .error .outOfFuel
  | fuel + 1, file, buf, printed =>
    let r := fRead file (128 - 1)
    if r.bytes.length ≤ buf.length then
      let buf := overlay r.bytes buf
      if r.ok ∧ 0 < r.bytes.length then
        match printChunk buf r.bytes.length with
        | none => .error .outOfBounds
        | some (buf, s) => catLoop fRead fuel r.file buf (printed ++ s)
      else .ok ⟨printed, r.ok⟩
    else .error .outOfBounds

/-- `cmd_cat`, with `buf` as the call finds it: what it prints. -/
def cmdCat (fOpen : List U8 → Option F) (fRead : F → ℕ → FileRead F) (fuel : ℕ) (a : Args)
    (buf : List U8) : Except CatStop (List U8) :=
  if a.argc < 2 then .ok (bytesOf "cat: missing file\r\n")
  else
    match a.argv[1]?.bind (read 0 a.line) with
    | none => .error .outOfBounds
    | some path =>
      match fOpen path with
      | none => .ok (bytesOf "cat: not found\r\n")
      | some file =>
        (catLoop fRead fuel file buf []).map fun e =>
          e.printed ++ if e.ok then bytesOf "\r\n" else bytesOf "cat: read error\r\n"

/-! ### What `cat` prints -/

/-- `f_read` returns the next bytes of the file, as many as are asked for and are there. -/
def Streams (fRead : F → ℕ → FileRead F) (left : F → List U8) : Prop :=
  ∀ file n, (fRead file n).ok = true ∧ (fRead file n).bytes = (left file).take n ∧
    left (fRead file n).file = (left file).drop n

/-- Chunks, each of them up to its first zero byte. -/
def catText (content : List U8) : List U8 :=
  if _h : content = [] then []
  else ((content.take 127).takeWhile fun c => decide (c ≠ 0)) ++ catText (content.drop 127)
termination_by content.length
decreasing_by
  have hpos := List.length_pos_iff.mpr _h
  rw [List.length_drop]
  omega

variable {fOpen : List U8 → Option F} {fRead : F → ℕ → FileRead F} {left : F → List U8}
  {content buf printed : List U8} {file : F} {a : Args}

theorem catText_nil : catText [] = [] := by rw [catText, dif_pos rfl]

theorem catText_of_ne_nil (h : content ≠ []) :
    catText content =
      ((content.take 127).takeWhile fun c => decide (c ≠ 0)) ++ catText (content.drop 127) := by
  rw [catText, dif_neg h]

/-- A zero byte is never printed. -/
theorem nul_not_mem_catText (content : List U8) : 0 ∉ catText content := by
  induction content using catText.induct with
  | case1 =>
    rw [catText_nil]
    exact List.not_mem_nil
  | case2 content h ih =>
    rw [catText_of_ne_nil h, List.mem_append]
    rintro (hchunk | hrest)
    · have hpass := List.mem_takeWhile_imp hchunk
      exact of_decide_eq_true hpass rfl
    · exact ih hrest

/-- **`cat` prints the file exactly where it has no zero byte.** -/
theorem catText_eq_iff : catText content = content ↔ 0 ∉ content := by
  refine ⟨fun h => h ▸ nul_not_mem_catText content, fun hnul => ?_⟩
  induction content using catText.induct with
  | case1 => exact catText_nil
  | case2 content h ih =>
    -- without a zero byte each chunk is printed whole
    have hchunk : (content.take 127).takeWhile (fun c => decide (c ≠ 0)) = content.take 127 := by
      rw [List.takeWhile_eq_self_iff]
      exact fun c hc => decide_eq_true fun hzero => hnul (hzero ▸ List.mem_of_mem_take hc)
    rw [catText_of_ne_nil h, hchunk, ih fun hrest => hnul (List.mem_of_mem_drop hrest),
      List.take_append_drop]

/-! ### The loop -/

/-- A chunk that fits with its terminator is printed up to its first zero byte. -/
theorem printChunk_overlay {bytes : List U8} (hfits : bytes.length < buf.length) :
    printChunk (overlay bytes buf) bytes.length =
      some (overlay (bytes ++ [0]) buf, bytes.takeWhile fun c => decide (c ≠ 0)) := by
  have hcells : overlay (bytes ++ [0]) buf =
      bytes ++ 0 :: buf.drop (bytes ++ [0]).length := by
    rw [overlay, List.append_assoc, List.singleton_append]
  rw [printChunk, store_overlay hfits, Option.bind_eq_bind, Option.bind_some,
    read_of_holds (hcells ▸ holds_takeWhile), Option.bind_some]

theorem catLoop_succ (fuel : ℕ) :
    catLoop fRead (fuel + 1) file buf printed =
      if (fRead file 127).bytes.length ≤ buf.length then
        if (fRead file 127).ok ∧ 0 < (fRead file 127).bytes.length then
          match printChunk (overlay (fRead file 127).bytes buf) (fRead file 127).bytes.length with
          | none => .error .outOfBounds
          | some (buf, s) => catLoop fRead fuel (fRead file 127).file buf (printed ++ s)
        else .ok ⟨printed, (fRead file 127).ok⟩
      else .error .outOfBounds := rfl

/-- **The loop ends, stays in its buffer and prints the chunks.** -/
theorem catLoop_runs (hread : Streams fRead left) (hbuf : buf.length = 128) {fuel : ℕ}
    (hfuel : (left file).length < fuel) :
    catLoop fRead fuel file buf printed = .ok ⟨printed ++ catText (left file), true⟩ := by
  induction fuel generalizing file buf printed with
  | zero => exact absurd hfuel (Nat.not_lt_zero _)
  | succ fuel ih =>
    obtain ⟨hok, hbytes, hleft⟩ := hread file 127
    have hlen : (fRead file 127).bytes.length = min 127 (left file).length := by
      rw [hbytes, List.length_take]
    rw [catLoop_succ, if_pos (by omega)]
    by_cases hdone : left file = []
    · -- at the end of the file nothing is read
      have hzero : ¬ ((fRead file 127).ok = true ∧ 0 < (fRead file 127).bytes.length) := by
        rintro ⟨-, hpos⟩
        rw [hlen, hdone] at hpos
        exact absurd hpos (by decide)
      rw [if_neg hzero, hdone, catText_nil, List.append_nil, hok]
    · -- a chunk leaves one of the 128 bytes for its terminator
      have hpos := List.length_pos_iff.mpr hdone
      have hmore : (fRead file 127).ok = true ∧ 0 < (fRead file 127).bytes.length :=
        ⟨hok, by omega⟩
      rw [if_pos hmore, printChunk_overlay (by omega)]
      have hbuf' : (overlay ((fRead file 127).bytes ++ [0]) buf).length = 128 := by
        rw [length_overlay (by rw [List.length_append, List.length_singleton]; omega), hbuf]
      show catLoop fRead fuel (fRead file 127).file _ _ = _
      rw [ih hbuf' (by rw [hleft, List.length_drop]; omega), hleft, catText_of_ne_nil hdone, hbytes,
        List.append_assoc]

/-! ### The command -/

/-- The command ends, has kept to its buffer and has printed `out` before its last line end. -/
def CatPrints (fOpen : List U8 → Option F) (fRead : F → ℕ → FileRead F) (a : Args)
    (buf out : List U8) : Prop :=
  ∃ n, ∀ fuel ≥ n, cmdCat fOpen fRead fuel a buf = .ok (out ++ bytesOf "\r\n")

theorem catPrints_iff {path out : List U8} {p : ℕ} (hread : Streams fRead left)
    (hp : a.argv[1]? = some p) (hpath : Holds 0 a.line p path) (hopen : fOpen path = some file)
    (hbuf : buf.length = 128) :
    CatPrints fOpen fRead a buf out ↔ out = catText (left file) := by
  have hargc : ¬ a.argc < 2 := by
    have hlt := (List.getElem?_eq_some_iff.mp hp).1
    rw [Args.argc]
    omega
  have hname : a.argv[1]?.bind (read 0 a.line) = some path := by
    rw [hp, Option.bind_some, read_of_holds hpath]
  have hruns : ∀ fuel > (left file).length,
      cmdCat fOpen fRead fuel a buf = .ok (catText (left file) ++ bytesOf "\r\n") := by
    intro fuel hfuel
    rw [cmdCat, if_neg hargc, hname]
    show (match fOpen path with | none => _ | some file => _) = _
    rw [hopen]
    show (catLoop fRead fuel file buf []).map _ = _
    rw [catLoop_runs hread hbuf hfuel]
    rfl
  constructor
  · rintro ⟨n, hout⟩
    -- both of the runs end with the larger of the two amounts of fuel
    have h := (hout (max n ((left file).length + 1)) (le_max_left _ _)).symm.trans
      (hruns _ (Nat.lt_of_succ_le (le_max_right _ _)))
    exact List.append_cancel_right (Except.ok.inj h)
  · rintro rfl
    exact ⟨(left file).length + 1, hruns⟩

/-- **`cat` never leaves its buffer, and streams a file unchanged where it has no zero byte.** -/
theorem cat_exact_iff {F : Type} {fOpen : List U8 → Option F} {fRead : F → ℕ → FileRead F}
    {left : F → List U8} {a : Args} {buf path : List U8} {p : ℕ} {file : F}
    (hread : Streams fRead left) (hp : a.argv[1]? = some p) (hpath : Holds 0 a.line p path)
    (hopen : fOpen path = some file) (hbuf : buf.length = 128) :
    (∃ out, CatPrints fOpen fRead a buf out) ∧
      (CatPrints fOpen fRead a buf (left file) ↔ 0 ∉ left file) := by
  refine ⟨⟨_, (catPrints_iff hread hp hpath hopen hbuf).mpr rfl⟩, ?_⟩
  rw [catPrints_iff hread hp hpath hopen hbuf, eq_comm]
  exact catText_eq_iff

/-- A file that is the bytes that are left of it. -/
def listRead (file : List U8) (n : ℕ) : FileRead (List U8) := ⟨true, file.take n, file.drop n⟩

theorem streams_listRead : Streams listRead id := fun _ _ => ⟨rfl, rfl, rfl⟩

/-- A file system with one file, under any name. -/
def oneFile (content : List U8) (_path : List U8) : Option (List U8) := some content

/-- `cat f`, split. -/
def catLine : Args := ⟨[0x63, 0x61, 0x74, 0, 0x66, 0], [0, 4]⟩

theorem holds_catLine : Holds 0 catLine.line 4 [0x66] :=
  ⟨by decide, [0x63, 0x61, 0x74, 0], [], rfl, rfl⟩

/-- A file of three bytes with a zero in the middle: the last byte is not printed. -/
theorem cat_loses_bytes :
    Streams listRead id ∧
      ¬ CatPrints (oneFile [0x61, 0, 0x62]) listRead catLine (List.replicate 128 0)
        [0x61, 0, 0x62] := by
  refine ⟨streams_listRead, fun h => ?_⟩
  have hopen : oneFile [0x61, 0, 0x62] [0x66] = some [0x61, 0, 0x62] := rfl
  have hprinted := (catPrints_iff streams_listRead rfl holds_catLine hopen
      List.length_replicate).mp h
  exact absurd (catText_eq_iff.mp hprinted.symm) (by decide)

theorem cat_prints_text :
    CatPrints (oneFile [0x68, 0x69]) listRead catLine (List.replicate 128 0) [0x68, 0x69] := by
  have hopen : oneFile [0x68, 0x69] [0x66] = some [0x68, 0x69] := rfl
  refine (cat_exact_iff streams_listRead rfl holds_catLine hopen List.length_replicate).2.mpr ?_
  show (0 : U8) ∉ [0x68, 0x69]
  decide

end GamingConsole
