/-
The shell's `write` command, from the line that is read to the file.

A line of `read_line` is split by `parse_args` into at most `MAX_ARGS` words, the verb is
looked up, and `cmd_write` joins the words behind the file's name.  The words that find no
room in `argv` are gone without a message.

* `findCommand_of_holds` — the chain of `seq` calls is a table lookup;
* `shellLine_text`, `cmdWrite_words` — what is done with a line of words, and what is handed
  to `f_write`;
* `write_keeps_text_iff` — all the text is written where the line has at most `MAX_ARGS` words.
-/
import GamingConsole.ShellArgs

namespace GamingConsole

open CString Words

/-! ### The code -/

/-- `MAX_ARGS`. -/
def maxArgs : ℕ := 16

/-- The bytes of a string literal. -/
def bytesOf (s : String) : List U8 := s.toList.map fun c => BitVec.ofNat 8 c.toNat

/-- The handlers of `shell_run`. -/
inductive Command where
  | help | ls | pwd | cd | mkdir | touch | cat | write | rm | clear | kernel | shutdown
  | uptime | meminfo | crash | resolution | setres

/-- The verbs, in the order in which `shell_run` compares them. -/
def verbs : List (List U8 × Command) :=
  [(bytesOf "help", .help), (bytesOf "ls", .ls), (bytesOf "pwd", .pwd), (bytesOf "cd", .cd),
    (bytesOf "mkdir", .mkdir), (bytesOf "touch", .touch), (bytesOf "cat", .cat),
    (bytesOf "write", .write), (bytesOf "rm", .rm), (bytesOf "clear", .clear),
    (bytesOf "kernel", .kernel), (bytesOf "shutdown", .shutdown), (bytesOf "uptime", .uptime),
    (bytesOf "meminfo", .meminfo), (bytesOf "crash", .crash),
    (bytesOf "resolution", .resolution), (bytesOf "setres", .setres)]

/-- The chain of `seq(argv[0], ..)`; the inner `none` is "command not found". -/
def findCommand (line : List U8) (verb : ℕ) : List (List U8 × Command) → Option (Option Command)
  | [] => some none
  | (name, command) :: rest => do
    let hit ← equal 0 line verb (name ++ [0]) 0
    if hit then some (some command) else findCommand line verb rest

/-- What `shell_run` does with a line. -/
inductive LineRun where
  | nothing
  | notFound (a : Args)
  | run (command : Command) (a : Args)

/-- The body of `shell_run`'s loop behind `read_line`, up to the handler's call. -/
def shellLine (r : LineRead) : Option LineRun :=
  if r.count = 0 then some .nothing
  else do
    let a ← parseArgs ((List.range maxLine).map r.buf) maxArgs
    if a.argc = 0 then some .nothing
    else
      let verb ← a.argv[0]?
      match ← findCommand a.line verb verbs with
      | none => some (.notFound a)
      | some command => some (.run command a)

/-- The file system, as `write` uses it: whether `f_open` finds a path, and what `f_write` makes
of the bytes that it is handed, its success and `*bw`. -/
structure WriteFs where
  opens : List U8 → Bool
  write : List U8 → Bool × U32

/-- What a run of `cmd_write` has done: the bytes of its `f_write` calls, and its messages. -/
structure WriteRun where
  handed : List (List U8)
  printed : List String

/-- `cmd_write`, with `text` as the call finds it. -/
def cmdWrite (fs : WriteFs) (a : Args) (text : List U8) : Option WriteRun :=
  if a.argc < 3 then some ⟨[], ["write: usage: write <file> <text>\r\n"]⟩
  else do
    let name ← a.argv[1]?
    let path ← read 0 a.line name
    if !fs.opens path then some ⟨[], ["write: not found\r\n"]⟩
    else
      let text ← joinArgs text a.line a.argv 2 a.argc
      let n ← scan (fun c => decide (c ≠ 0)) text 0
      let len : U32 := BitVec.ofNat 32 n
      let bytes := text.take len.toNat
      let (ok, written) := fs.write bytes
      some ⟨[bytes], if !ok || written != len then ["write: failed\r\n"] else []⟩

variable {line text : List U8} {argv : List ℕ} {verb : ℕ} {word : List U8} {r : LineRead}

/-! ### The verb -/

theorem findCommand_of_holds (hverb : Holds 0 line verb word) (table : List (List U8 × Command))
    (htable : ∀ entry ∈ table, 0 ∉ entry.1) :
    findCommand line verb table = some (table.lookup word) := by
  induction table with
  | nil => rfl
  | cons entry table ih =>
    obtain ⟨name, command⟩ := entry
    have hname : Holds 0 (name ++ [0]) 0 name :=
      ⟨htable _ List.mem_cons_self, [], [], rfl, rfl⟩
    rw [findCommand, equal_of_holds hverb hname, List.lookup_cons,
      ih fun e he => htable e (List.mem_cons_of_mem _ he)]
    by_cases hword : word = name
    · simp [hword]
    · simp [hword, beq_eq_false_iff_ne.mpr hword]

/-! ### A line -/

/-- The object that holds the line: the characters, the terminator and what is behind. -/
theorem LineRead.cells_eq (hcount : r.count < maxLine) (hend : r.buf r.count = 0) :
    ∃ rest, (List.range maxLine).map r.buf = r.text ++ 0 :: rest := by
  obtain ⟨k, hk⟩ := Nat.exists_eq_add_of_lt hcount
  refine ⟨(List.range k).map fun j => r.buf (r.count + 1 + j), ?_⟩
  rw [hk, show r.count + k + 1 = r.count + 1 + k by omega, List.range_add, List.map_append,
    List.range_succ, List.map_append, List.map_singleton, hend, List.append_assoc, List.map_map]
  rfl

theorem HoldsWords.length_eq {ws : List (List U8)} (h : HoldsWords line argv ws) :
    argv.length = ws.length := List.Forall₂.length_eq h

/-- A word that a line holds, by its pointer. -/
theorem HoldsWords.getElem? {ws : List (List U8)} {i : ℕ} (h : HoldsWords line argv ws)
    (hword : ws[i]? = some word) : ∃ p, argv[i]? = some p ∧ Holds 0 line p word := by
  obtain ⟨hlt, rfl⟩ := List.getElem?_eq_some_iff.mp hword
  have hlt' : i < argv.length := by rw [h.length_eq]; exact hlt
  exact ⟨argv[i], List.getElem?_eq_getElem hlt', h.get hlt' hlt⟩

/-- A line with a verb: it is split, as far as there is room, and the verb is looked up. -/
theorem shellLine_text (hcount : r.count < maxLine) (hnul : 0 ∉ r.text) (hend : r.buf r.count = 0)
    (hverb : (words isSpace r.text)[0]? = some word) :
    ∃ a, HoldsWords a.line a.argv ((words isSpace r.text).take maxArgs) ∧
      shellLine r = some (match verbs.lookup word with
        | none => .notFound a
        | some command => .run command a) := by
  obtain ⟨rest, hcells⟩ := r.cells_eq hcount hend
  obtain ⟨cut, -, hparse, hholds⟩ := parseArgs_text hnul maxArgs
  have hwords := holdsWords_take fun i hi => hholds i hi rest
  refine ⟨⟨cut ++ 0 :: rest, (starts isSpace r.text).take maxArgs⟩, hwords, ?_⟩
  have htake : ((words isSpace r.text).take maxArgs)[0]? = some word :=
    (List.getElem?_take_of_lt (by decide)).trans hverb
  obtain ⟨p, hp, hholdsVerb⟩ := hwords.getElem? htake
  have hargc : ¬ ((starts isSpace r.text).take maxArgs).length = 0 := by
    have hlt := (List.getElem?_eq_some_iff.mp hp).1
    omega
  -- a line without characters has no verb
  have hne : ¬ r.count = 0 := by
    intro hzero
    have hnil : r.text = [] := by rw [LineRead.text, hzero]; rfl
    rw [hnil] at hverb
    cases hverb
  rw [shellLine, if_neg hne, hcells, hparse]
  simp only [Option.bind_eq_bind, Option.bind_some, Args.argc]
  rw [if_neg hargc, hp, Option.bind_some, findCommand_of_holds hholdsVerb verbs (by decide),
    Option.bind_some]
  cases verbs.lookup word <;> rfl

/-! ### The text -/

/-- A joined text is a string. -/
theorem HoldsWords.nul_not_mem {ws : List (List U8)} (h : HoldsWords line argv ws) (k : ℕ) :
    0 ∉ [0x20].intercalate (ws.drop k) := by
  intro hmem
  rcases eq_or_mem_of_mem_intercalate hmem with hspace | ⟨word, hword, hzero⟩
  · exact absurd hspace (by decide)
  · obtain ⟨i, hi⟩ := List.mem_iff_getElem?.mp (List.mem_of_mem_drop hword)
    obtain ⟨p, -, hp⟩ := h.getElem? hi
    exact hp.1 hzero

/-- **`cmd_write` hands the words behind the file's name to `f_write`.** -/
theorem cmdWrite_words {fs : WriteFs} {a : Args} {ws : List (List U8)} {path : List U8}
    (text : List U8) (hws : HoldsWords a.line a.argv ws) (hthree : 3 ≤ ws.length)
    (hpath : ws[1]? = some path)
    (hopen : fs.opens path = true)
    (hroom : ([0x20].intercalate (ws.drop 2)).length < text.length)
    (htext : text.length ≤ maxLine) :
    cmdWrite fs a text = some ⟨[[0x20].intercalate (ws.drop 2)],
      if !(fs.write ([0x20].intercalate (ws.drop 2))).1 ||
          (fs.write ([0x20].intercalate (ws.drop 2))).2 !=
            BitVec.ofNat 32 ([0x20].intercalate (ws.drop 2)).length
        then ["write: failed\r\n"] else []⟩ := by
  obtain ⟨p, hp, hholds⟩ := hws.getElem? hpath
  have hargc : ¬ a.argc < 3 := by rw [Args.argc, hws.length_eq]; omega
  have hjoin := joinArgs_words hws 2 hroom
  have hnul := hws.nul_not_mem 2
  generalize [0x20].intercalate (ws.drop 2) = joined at *
  have hjoined : Holds 0 (overlay (joined ++ [0]) text) 0 joined :=
    ⟨hnul, [], text.drop (joined ++ [0]).length, by simp [overlay], rfl⟩
  -- the length is kept in 32 bits, and the buffer is far shorter
  have hlen : (BitVec.ofNat 32 joined.length).toNat = joined.length := by
    rw [BitVec.toNat_ofNat]
    exact Nat.mod_eq_of_lt (by have : maxLine = 256 := rfl; omega)
  have hbytes : (overlay (joined ++ [0]) text).take joined.length = joined := by
    rw [overlay, List.append_assoc, List.take_left]
  rw [cmdWrite, if_neg hargc, hp]
  simp only [Option.bind_eq_bind, Option.bind_some]
  rw [read_of_holds hholds, Option.bind_some, hopen, Bool.not_true, if_neg Bool.false_ne_true,
    Args.argc, hjoin, Option.bind_some, scan_of_holds hjoined, Option.bind_some, Nat.zero_add, hlen,
    hbytes]

/-! ### The command -/

/-- The words behind the file's name have been handed to `f_write`, all of them and as one text,
or the command has said that it failed. -/
def KeepsText (fs : WriteFs) (text : List U8) (r : LineRead) : Prop :=
  ∃ a run, shellLine r = some (.run .write a) ∧ cmdWrite fs a text = some run ∧
    (run.handed = [[0x20].intercalate ((words isSpace r.text).drop 2)] ∨ run.printed ≠ [])

/-- `f_open` and `f_write` succeed, and all that is handed over is written. -/
structure WriteFs.Succeeds (fs : WriteFs) : Prop where
  opens : ∀ path, fs.opens path = true
  write : ∀ bytes, fs.write bytes = (true, BitVec.ofNat 32 bytes.length)

variable {fs : WriteFs} {buf : ℕ → U8} {keys : List U8}

/-- What reaches the file is what the words that were taken join to. -/
theorem keepsText_iff_join (hread : readLine buf maxLine keys = some r)
    (hverb : (words isSpace r.text)[0]? = some (bytesOf "write"))
    (hthree : 3 ≤ (words isSpace r.text).length) (hfs : fs.Succeeds)
    (htext : text.length = maxLine) :
    KeepsText fs text r ↔
      [0x20].intercalate (((words isSpace r.text).take maxArgs).drop 2) =
        [0x20].intercalate ((words isSpace r.text).drop 2) := by
  obtain ⟨hcount, hchars, hend⟩ := readLine_text (by decide) hread
  have hnul : 0 ∉ r.text := fun h => absurd (hchars 0 h) (by decide)
  obtain ⟨a, hwords, hline⟩ := shellLine_text hcount hnul hend hverb
  have hlookup : verbs.lookup (bytesOf "write") = some .write := rfl
  rw [hlookup] at hline
  have hlen : ((words isSpace r.text).take maxArgs).length =
      min maxArgs (words isSpace r.text).length := List.length_take
  have hargs : maxArgs = 16 := rfl
  have hpath : ((words isSpace r.text).take maxArgs)[1]? =
      some ((words isSpace r.text).take maxArgs)[1] := List.getElem?_eq_getElem (by omega)
  have hfits : ([0x20].intercalate (((words isSpace r.text).take maxArgs).drop 2)).length ≤
      r.text.length := length_intercalate_le ((List.drop_sublist _ _).trans (List.take_sublist _ _))
  have hcells : r.text.length = r.count := by rw [LineRead.text, List.length_map, List.length_range]
  have hrun := cmdWrite_words text hwords (by omega) hpath (hfs.opens _) (by omega)
    (by omega)
  rw [hfs.write] at hrun
  constructor
  · -- the run is that one, and as the write succeeds it prints nothing
    rintro ⟨a', run, hline', hrun', hkept⟩
    rw [hline] at hline'
    cases hline'
    rw [hrun] at hrun'
    cases hrun'
    rcases hkept with hhanded | hfailed
    · exact (List.cons.inj hhanded).1
    · exact absurd (if_neg (by simp)) hfailed
  · intro hjoin
    exact ⟨a, _, hline, hrun, Or.inl (congrArg (fun bytes => [bytes]) hjoin)⟩

/-- **`write` loses no text where the line has at most `MAX_ARGS` words.** -/
theorem write_keeps_text_iff {fs : WriteFs} {buf : ℕ → U8} {keys text : List U8} {r : LineRead}
    (hread : readLine buf maxLine keys = some r)
    (hverb : (words isSpace r.text)[0]? = some (bytesOf "write"))
    (hthree : 3 ≤ (words isSpace r.text).length) (hfs : fs.Succeeds)
    (htext : text.length = maxLine) :
    KeepsText fs text r ↔ (words isSpace r.text).length ≤ maxArgs := by
  rw [keepsText_iff_join hread hverb hthree hfs htext]
  constructor
  · intro hjoin
    by_contra hmany
    -- the words beyond the limit are missed, as there are words before it
    have hsplit : (words isSpace r.text).drop 2 =
        ((words isSpace r.text).take maxArgs).drop 2 ++ (words isSpace r.text).drop maxArgs := by
      conv_lhs => rw [← List.take_append_drop maxArgs (words isSpace r.text)]
      refine List.drop_append_of_le_length ?_
      rw [List.length_take]
      have hargs : maxArgs = 16 := rfl
      omega
    refine intercalate_append_ne (c := 0x20) ?_ ?_ (hsplit ▸ hjoin.symm)
    · rw [Ne, List.drop_eq_nil_iff, List.length_take]
      have hargs : maxArgs = 16 := rfl
      omega
    · rw [Ne, List.drop_eq_nil_iff]
      exact hmany
  · intro hfew
    rw [List.take_of_length_le hfew]

/-- A file system that takes everything. -/
def goodFs : WriteFs := ⟨fun _ => true, fun bytes => (true, BitVec.ofNat 32 bytes.length)⟩

theorem goodFs_succeeds : goodFs.Succeeds := ⟨fun _ => rfl, fun _ => rfl⟩

/-- Fifteen words of text: the last one is not written, and nothing is said. -/
theorem write_drops_word :
    ∃ r, readLine (fun _ => 0) maxLine
        (bytesOf "write f a b c d e f g h i j k l m n o" ++ [0x0D]) = some r ∧
      (words isSpace r.text)[0]? = some (bytesOf "write") ∧ 3 ≤ (words isSpace r.text).length ∧
      ¬ KeepsText goodFs (List.replicate maxLine 0) r := by
  obtain ⟨r, hread, htext⟩ := readLine_typed (fun _ => 0) maxLine
    (bytesOf "write f a b c d e f g h i j k l m n o") (by decide) (by decide)
  have hverb : (words isSpace r.text)[0]? = some (bytesOf "write") := by rw [htext]; decide
  have hthree : 3 ≤ (words isSpace r.text).length := by rw [htext]; decide
  refine ⟨r, hread, hverb, hthree, ?_⟩
  rw [keepsText_iff_join hread hverb hthree goodFs_succeeds List.length_replicate, htext]
  decide

/-- Two words of text, and a blank before each. -/
theorem write_keeps_words :
    ∃ r, readLine (fun _ => 0) maxLine (bytesOf "write f  hi  there" ++ [0x0D]) = some r ∧
      KeepsText goodFs (List.replicate maxLine 0) r := by
  obtain ⟨r, hread, htext⟩ := readLine_typed (fun _ => 0) maxLine (bytesOf "write f  hi  there")
    (by decide) (by decide)
  refine ⟨r, hread, ?_⟩
  refine (write_keeps_text_iff hread ?_ ?_ goodFs_succeeds List.length_replicate).mpr ?_
  · rw [htext]; decide
  · rw [htext]; decide
  · rw [htext]; decide

end GamingConsole
