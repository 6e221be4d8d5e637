/-
`read_line`, the shell's line editor.

What it is for comes first: a line is a list of characters, and a key appends one, takes
one back or does nothing (`lineKey`).  `editLine` reads keys until the line ends.  The
code keeps its line in a buffer, and tells the keys apart by conditions that overlap: a
DEL is a delete key, and at least 32.

* `read_line_iff` — `read_line` is that editor, unless a DEL that arrives on the empty
  line is still held when the line ends.
-/
import GamingConsole.Sd
import Mathlib.Logic.Function.Basic

namespace GamingConsole

/-- `MAX_LINE`. -/
def maxLine : ℕ := 256

/-! ### The code -/

/-- `read_line` at work: the buffer, `i`, and the bytes it has echoed. -/
structure LineEdit where
  buf : ℕ → U8
  i : ℕ
  echo : List U8

namespace LineEdit

/-- `printf` and `io_putc`. -/
def print (bytes : List U8) (e : LineEdit) : LineEdit :=
  { e with echo := e.echo ++ bytes }

/-- What the loop does with a key that does not end the line. -/
def key (c : U8) (e : LineEdit) : LineEdit :=
  if (c = 127 ∨ c = 0x08) ∧ 0 < e.i then
    LineEdit.print [0x08, 0x20, 0x08] { e with i := e.i - 1 }
  else if 32 ≤ c then
    LineEdit.print [c] { e with buf := Function.update e.buf e.i c, i := e.i + 1 }
  else e

/-- The characters that are held. -/
def held (e : LineEdit) : List U8 := (List.range e.i).map e.buf

end LineEdit

/-- The loop of `read_line`: it waits for a key, or it has ended before the keys `rest`. -/
inductive Reading where
  | waiting (e : LineEdit)
  | ended (e : LineEdit) (rest : List U8)

/-- The editor, reading or not. -/
def Reading.editor : Reading → LineEdit
  | .waiting e => e
  | .ended e _ => e

/-- The loop of `read_line` on the bytes that `uart_getc` returns. -/
def readLoop (max : ℕ) : List U8 → LineEdit → Reading
  | [], e => if e.i < max - 1 then .waiting e else .ended e []
  | c :: keys, e =>
    if e.i < max - 1 then
      if c = 0x0D ∨ c = 0x0A then .ended (e.print [0x0D, 0x0A]) keys
      else readLoop max keys (e.key c)
    else .ended e (c :: keys)

/-- What `read_line` leaves: the buffer, its result, and the keys it has not read. -/
structure LineRead where
  buf : ℕ → U8
  count : ℕ
  rest : List U8

/-- The end of `read_line`. -/
def Reading.line : Reading → Option LineRead
  | .waiting _ => none
  | .ended e rest => some ⟨Function.update e.buf e.i 0, e.i, rest⟩

/-- `read_line`; `none` while it waits for a key. -/
def readLine (buf : ℕ → U8) (max : ℕ) (keys : List U8) : Option LineRead :=
  (readLoop max keys ⟨buf, 0, []⟩).line

/-! ### The editor that it is meant to be -/

/-- A key, on a line. -/
def lineKey (line : List U8) (c : U8) : List U8 :=
  if 32 ≤ c ∧ c ≤ 126 then line ++ [c]
  else if c = 0x08 ∨ c = 127 then line.dropLast
  else line

/-- Keys until the line ends, by a CR or LF or with `max - 1` characters: the line, and
the keys that are left. -/
def editLine (max : ℕ) :
    List U8 → List U8 → Option (List U8 × List U8)
  | [], line => if line.length < max - 1 then none else some (line, [])
  | c :: keys, line =>
    if line.length < max - 1 then
      if c = 0x0D ∨ c = 0x0A then some (line, keys) else editLine max keys (lineKey line c)
    else some (line, c :: keys)

variable {buf buf₀ : ℕ → U8} {max : ℕ} {keys rest line line' : List U8} {c : U8}

/-- The line is the fold of the keys that were read, of which the one that ends it does
nothing. -/
theorem exists_foldl_of_editLine (h : editLine max keys line = some (line', rest)) :
    ∃ consumed, keys = consumed ++ rest ∧ line' = consumed.foldl lineKey line := by
  induction keys generalizing line with
  | nil =>
    rw [editLine] at h
    split at h
    · cases h
    · cases h
      exact ⟨[], rfl, rfl⟩
  | cons c keys ih =>
    rw [editLine] at h
    split at h
    · split at h
      · rename_i hend
        cases h
        refine ⟨[c], rfl, ?_⟩
        rcases hend with rfl | rfl <;> rfl
      · obtain ⟨consumed, hkeys, hline⟩ := ih h
        exact ⟨c :: consumed, by rw [hkeys]; rfl, hline⟩
    · cases h
      exact ⟨[], rfl, rfl⟩

/-- A line that is not full ends after another key. -/
theorem length_rest_lt (h : editLine max keys line = some (line', rest))
    (hlen : line.length < max - 1) : rest.length < keys.length := by
  cases keys with
  | nil =>
    rw [editLine, if_pos hlen] at h
    cases h
  | cons c keys =>
    rw [editLine, if_pos hlen] at h
    split at h
    · cases h
      exact Nat.lt_succ_self _
    · obtain ⟨consumed, hkeys, -⟩ := exists_foldl_of_editLine h
      rw [List.length_cons, hkeys, List.length_append]
      omega

/-! ### The two of them on the same keys -/

/-- `read_line` has left `line` in the buffer, with its terminator, and nothing behind
the buffer's `max` bytes. -/
structure HoldsLine (buf₀ : ℕ → U8) (max : ℕ) (r : LineRead) (line : List U8) :
    Prop where
  count : r.count = line.length
  length_lt : line.length < max
  chars : (List.range line.length).map r.buf = line
  terminator : r.buf line.length = 0
  outside : ∀ j, max ≤ j → r.buf j = buf₀ j

/-- Both wait, or both have ended, after the same keys and with the same line. -/
def Agrees (buf₀ : ℕ → U8) (max : ℕ) (r : Option LineRead)
    (s : Option (List U8 × List U8)) : Prop :=
  (r = none ∧ s = none) ∨
    ∃ r' line rest, r = some r' ∧ s = some (line, rest) ∧ r'.rest = rest ∧
      HoldsLine buf₀ max r' line

/-- `read_line` is a line editor on these keys. -/
def EditsLine (buf : ℕ → U8) (max : ℕ) (keys : List U8) : Prop :=
  Agrees buf max (readLine buf max keys) (editLine max keys [])

/-- Whether a DEL stands before the line, after one more key: on the empty line a DEL
puts one there, and either delete key takes it back. -/
def strayKey (line : List U8) (c : U8) (stray : Bool) : Bool :=
  if line = [] ∧ (c = 127 ∨ c = 0x08) then decide (c = 127) && !stray else stray

/-- Whether a DEL from the empty line is held when the line ends. -/
def holdsDelete (max : ℕ) : List U8 → List U8 → Bool → Bool
  | [], line, stray => if line.length + stray.toNat < max - 1 then false else stray
  | c :: keys, line, stray =>
    if line.length + stray.toNat < max - 1 then
      if c = 0x0D ∨ c = 0x0A then stray
      else holdsDelete max keys (lineKey line c) (strayKey line c stray)
    else stray

/-- The code's line is `line`, after a DEL if there is a stray one. -/
structure Tracks (buf₀ : ℕ → U8) (max : ℕ) (e : LineEdit) (line : List U8)
    (stray : Bool) : Prop where
  held : e.held = if stray then 127 :: line else line
  bound : e.i ≤ max - 1
  outside : ∀ j, max ≤ j → e.buf j = buf₀ j

variable {e : LineEdit} {stray : Bool}

@[simp] theorem LineEdit.length_held (e : LineEdit) : e.held.length = e.i := by
  rw [held, List.length_map, List.length_range]

theorem Tracks.i_eq (h : Tracks buf₀ max e line stray) : e.i = line.length + stray.toNat := by
  rw [← e.length_held, h.held]
  cases stray <;> rfl

namespace LineEdit

theorem key_erase (hdel : c = 127 ∨ c = 0x08) (hpos : 0 < e.i) :
    e.key c = ⟨e.buf, e.i - 1, e.echo ++ [0x08, 0x20, 0x08]⟩ := if_pos ⟨hdel, hpos⟩

theorem key_store (hdel : ¬ ((c = 127 ∨ c = 0x08) ∧ 0 < e.i)) (hstore : 32 ≤ c) :
    e.key c = ⟨Function.update e.buf e.i c, e.i + 1, e.echo ++ [c]⟩ :=
  (if_neg hdel).trans (if_pos hstore)

theorem key_ignore (hdel : ¬ ((c = 127 ∨ c = 0x08) ∧ 0 < e.i)) (hstore : ¬ 32 ≤ c) :
    e.key c = e := (if_neg hdel).trans (if_neg hstore)

/-- A key that takes a character back. -/
theorem held_key_erase (hdel : c = 127 ∨ c = 0x08) (hpos : 0 < e.i) :
    (e.key c).held = e.held.dropLast := by
  rw [key_erase hdel hpos, held, held]
  obtain ⟨i, hi⟩ := Nat.exists_eq_add_one_of_ne_zero hpos.ne'
  rw [hi, List.range_succ, List.map_append, List.map_singleton, List.dropLast_concat]
  rfl

/-- A key that is stored. -/
theorem held_key_store (hdel : ¬ ((c = 127 ∨ c = 0x08) ∧ 0 < e.i)) (hstore : 32 ≤ c) :
    (e.key c).held = e.held ++ [c] := by
  rw [key_store hdel hstore, held, held, List.range_succ, List.map_append, List.map_singleton]
  show List.map (Function.update e.buf e.i c) _ ++ [Function.update e.buf e.i c e.i] = _
  rw [Function.update_self]
  refine congrArg (· ++ [c]) (List.map_congr_left fun j hj => ?_)
  exact Function.update_of_ne (List.mem_range.mp hj).ne _ _

end LineEdit

theorem lineKey_of_delete (hdel : c = 127 ∨ c = 0x08) : lineKey line c = line.dropLast := by
  rcases hdel with rfl | rfl <;> rfl

theorem lineKey_of_printable (hdel : ¬ (c = 127 ∨ c = 0x08)) (hascii : c ≤ 127)
    (hstore : 32 ≤ c) : lineKey line c = line ++ [c] := by
  refine if_pos ⟨hstore, ?_⟩
  have hne : c.toNat ≠ 127 := fun h => hdel (Or.inl (BitVec.toNat_inj.mp h))
  change c.toNat ≤ 127 at hascii
  show c.toNat ≤ 126
  omega

theorem lineKey_of_control (hdel : ¬ (c = 127 ∨ c = 0x08)) (hstore : ¬ 32 ≤ c) :
    lineKey line c = line := by
  rw [lineKey, if_neg (fun h => hstore h.1), if_neg (fun h => hdel h.symm)]

/-- A delete key on the empty line: a DEL is stored, and a stray DEL is taken back. -/
theorem Tracks.key_empty (h : Tracks buf₀ max e [] stray) (hroom : e.i < max - 1)
    (hdel : c = 127 ∨ c = 0x08) :
    Tracks buf₀ max (e.key c) [] (decide (c = 127) && !stray) := by
  have hi := h.i_eq
  cases stray
  · have hzero : ¬ ((c = 127 ∨ c = 0x08) ∧ 0 < e.i) := fun hc => hc.2.ne' hi
    rcases hdel with rfl | rfl
    · have hheld : (e.key 127).held = [127] := by
        rw [LineEdit.held_key_store hzero (by decide), h.held]
        rfl
      rw [LineEdit.key_store hzero (by decide)] at hheld ⊢
      exact ⟨hheld, hroom, fun j hj => (Function.update_of_ne (by omega) _ _).trans
        (h.outside j hj)⟩
    · rw [LineEdit.key_ignore hzero (by decide)]
      exact h
  · have hpos : 0 < e.i := by rw [hi]; exact Nat.one_pos
    have hheld : (e.key c).held = [] := by
      rw [LineEdit.held_key_erase hdel hpos, h.held]
      rfl
    rw [LineEdit.key_erase hdel hpos, Bool.not_true, Bool.and_false] at *
    exact ⟨hheld, (Nat.sub_le _ _).trans h.bound, h.outside⟩

/-- **A key keeps the two lines together.** -/
theorem Tracks.key (h : Tracks buf₀ max e line stray) (hroom : e.i < max - 1)
    (hascii : c ≤ 127) :
    Tracks buf₀ max (e.key c) (lineKey line c) (strayKey line c stray) := by
  have hi := h.i_eq
  rw [strayKey]
  by_cases hdel : c = 127 ∨ c = 0x08
  · rw [lineKey_of_delete hdel]
    by_cases hempty : line = []
    · subst hempty
      rw [if_pos ⟨rfl, hdel⟩]
      exact h.key_empty hroom hdel
    · have hpos : 0 < e.i := by
        rw [hi]
        exact Nat.add_pos_left (List.length_pos_iff.mpr hempty) _
      -- a stray 127 is in front of the line, and is never what is taken back
      have hheld : (e.key c).held = if stray then 127 :: line.dropLast else line.dropLast := by
        rw [LineEdit.held_key_erase hdel hpos, h.held]
        cases stray
        · rfl
        · exact List.dropLast_cons_of_ne_nil hempty
      rw [if_neg (fun hc => hempty hc.1)]
      rw [LineEdit.key_erase hdel hpos] at hheld ⊢
      exact ⟨hheld, (Nat.sub_le _ _).trans h.bound, h.outside⟩
  · have hno : ¬ ((c = 127 ∨ c = 0x08) ∧ 0 < e.i) := fun hc => hdel hc.1
    rw [if_neg (fun hc => hdel hc.2)]
    by_cases hstore : 32 ≤ c
    · have hheld : (e.key c).held = if stray then 127 :: (line ++ [c]) else line ++ [c] := by
        rw [LineEdit.held_key_store hno hstore, h.held]
        cases stray <;> rfl
      rw [lineKey_of_printable hdel hascii hstore]
      rw [LineEdit.key_store hno hstore] at hheld ⊢
      exact ⟨hheld, hroom, fun j hj => (Function.update_of_ne (by omega) _ _).trans
        (h.outside j hj)⟩
    · rw [LineEdit.key_ignore hno hstore, lineKey_of_control hdel hstore]
      exact h

/-- A line that ends while the editor that is meant ends its own. -/
theorem Tracks.agrees_ended (h : Tracks buf₀ max e line stray) (hmax : 1 ≤ max) :
    Agrees buf₀ max (Reading.ended e rest).line (some (line, rest)) ↔ stray = false := by
  have hi := h.i_eq
  have hfit := h.bound
  constructor
  · rintro (⟨hnone, -⟩ | ⟨r, line', rest', hr, hs, -, hholds⟩)
    · cases hnone
    · cases hr
      cases hs
      have hcount := hholds.count
      change e.i = line.length at hcount
      cases stray
      · rfl
      · exact absurd (hi.symm.trans hcount) (Nat.succ_ne_self _)
  · rintro rfl
    change e.i = line.length + 0 at hi
    have hchars := h.held
    refine Or.inr ⟨_, line, rest, rfl, rfl, rfl, ⟨hi, by omega, ?_, ?_, fun j hj => ?_⟩⟩
    · rw [LineEdit.held, hi] at hchars
      refine Eq.trans (List.map_congr_left fun j hj => ?_) hchars
      have hj' := List.mem_range.mp hj
      exact Function.update_of_ne (by omega) _ _
    · show Function.update e.buf e.i 0 line.length = 0
      rw [hi]
      exact Function.update_self _ _ _
    · exact (Function.update_of_ne (by omega) _ _).trans (h.outside j hj)

/-- A line that ends because the buffer is full. -/
theorem Tracks.agrees_full (h : Tracks buf₀ max e line stray) (hmax : 1 ≤ max)
    (hfull : ¬ e.i < max - 1) :
    Agrees buf₀ max (Reading.ended e keys).line (editLine max keys line) ↔ stray = false := by
  have hi := h.i_eq
  have hfit := h.bound
  cases stray
  · have hnot : ¬ line.length < max - 1 := by change e.i = line.length + 0 at hi; omega
    have hedit : editLine max keys line = some (line, keys) := by
      cases keys <;> exact if_neg hnot
    rw [hedit]
    exact h.agrees_ended hmax
  · -- the editor that is meant has room for one more character
    have hroom : line.length < max - 1 := by change e.i = line.length + 1 at hi; omega
    refine iff_of_false ?_ Bool.noConfusion
    rintro (⟨hnone, -⟩ | ⟨r, line', rest', hr, hs, hrest, -⟩)
    · cases hnone
    · cases hr
      change keys = rest' at hrest
      exact absurd (length_rest_lt hs hroom) (by rw [hrest]; exact lt_irrefl _)

theorem Tracks.agrees_iff (h : Tracks buf₀ max e line stray) (hmax : 1 ≤ max)
    (hascii : ∀ c ∈ keys, c ≤ 127) :
    Agrees buf₀ max (readLoop max keys e).line (editLine max keys line) ↔
      holdsDelete max keys line stray = false := by
  induction keys generalizing e line stray with
  | nil =>
    have hi := h.i_eq
    rw [readLoop, holdsDelete, ← hi]
    by_cases hroom : e.i < max - 1
    · have hwait : editLine max [] line = none := if_pos (by omega)
      rw [if_pos hroom, if_pos hroom, hwait]
      exact iff_of_true (Or.inl ⟨rfl, rfl⟩) rfl
    · rw [if_neg hroom, if_neg hroom]
      exact h.agrees_full hmax hroom
  | cons c keys ih =>
    have hi := h.i_eq
    rw [readLoop, holdsDelete, ← hi]
    by_cases hroom : e.i < max - 1
    · have hedit : editLine max (c :: keys) line =
          if c = 0x0D ∨ c = 0x0A then some (line, keys)
          else editLine max keys (lineKey line c) := if_pos (by omega)
      rw [if_pos hroom, if_pos hroom, hedit]
      by_cases hend : c = 0x0D ∨ c = 0x0A
      · rw [if_pos hend, if_pos hend, if_pos hend]
        -- the line end is echoed, and the line is as it was
        have hprint : Tracks buf₀ max (e.print [0x0D, 0x0A]) line stray :=
          ⟨h.held, h.bound, h.outside⟩
        exact hprint.agrees_ended hmax
      · rw [if_neg hend, if_neg hend, if_neg hend]
        exact ih (h.key hroom (hascii c List.mem_cons_self)) fun d hd =>
          hascii d (List.mem_cons_of_mem c hd)
    · rw [if_neg hroom, if_neg hroom]
      exact h.agrees_full hmax hroom

/-- **`read_line` is a line editor where no stray DEL is held when the line ends.** -/
theorem read_line_iff {buf : ℕ → U8} {max : ℕ} {keys : List U8} (hmax : 1 ≤ max)
    (hascii : ∀ c ∈ keys, c ≤ 127) :
    EditsLine buf max keys ↔ holdsDelete max keys [] false = false := by
  have hstart : Tracks buf max ⟨buf, 0, []⟩ [] false := ⟨rfl, Nat.zero_le _, fun _ _ => rfl⟩
  exact hstart.agrees_iff hmax hascii

/-- DEL, then Return: the DEL is the line. -/
theorem read_line_keeps_delete :
    (∀ c ∈ ([127, 0x0D] : List U8), c ≤ 127) ∧ ¬ EditsLine (fun _ => 0) maxLine [127, 0x0D] := by
  refine ⟨by decide, fun hedits => ?_⟩
  rcases hedits with ⟨hnone, -⟩ | ⟨r, line, rest, hr, hs, -, hholds⟩
  · cases hnone
  · cases hr
    cases hs
    exact absurd hholds.count (by decide)

/-- A key, a DEL, a DEL on the empty line, a backspace that takes it back, a key, Return. -/
theorem read_line_edits : EditsLine (fun _ => 0) maxLine [0x61, 127, 127, 0x08, 0x62, 0x0D] :=
  (read_line_iff (by decide) (by decide)).mpr (by decide)

/-! ### What a line holds, whatever is typed -/

/-- The characters of the line. -/
def LineRead.text (r : LineRead) : List U8 := (List.range r.count).map r.buf

/-- The characters that are held are no control characters, and there is room for the
terminator. -/
structure LineEdit.Printable (max : ℕ) (e : LineEdit) : Prop where
  bound : e.i ≤ max - 1
  held : ∀ c ∈ e.held, 32 ≤ c

theorem LineEdit.Printable.key (h : e.Printable max) (hroom : e.i < max - 1) :
    (e.key c).Printable max := by
  by_cases hdel : (c = 127 ∨ c = 0x08) ∧ 0 < e.i
  · have hheld := LineEdit.held_key_erase hdel.1 hdel.2
    have hbound := h.bound
    refine ⟨?_, fun d hd => h.held d (List.dropLast_subset _ (hheld ▸ hd))⟩
    rw [LineEdit.key_erase hdel.1 hdel.2]
    show e.i - 1 ≤ max - 1
    omega
  · by_cases hstore : 32 ≤ c
    · have hheld := LineEdit.held_key_store hdel hstore
      refine ⟨?_, fun d hd => ?_⟩
      · rw [LineEdit.key_store hdel hstore]
        exact hroom
      · rw [hheld, List.mem_append, List.mem_singleton] at hd
        rcases hd with hd | rfl
        · exact h.held d hd
        · exact hstore
    · rw [LineEdit.key_ignore hdel hstore]
      exact h

theorem LineEdit.Printable.readLoop (h : e.Printable max) {e' : LineEdit}
    (hread : readLoop max keys e = .ended e' rest) : e'.Printable max := by
  induction keys generalizing e with
  | nil =>
    rw [GamingConsole.readLoop] at hread
    split at hread
    · cases hread
    · cases hread
      exact h
  | cons c keys ih =>
    rw [GamingConsole.readLoop] at hread
    split at hread
    · rename_i hroom
      split at hread
      · cases hread
        exact ⟨h.bound, h.held⟩
      · exact ih (h.key hroom) hread
    · cases hread
      exact h

/-- **A line that is read has no control characters and is shorter than the buffer**, whatever
the keys were, and its terminator is behind it. -/
theorem readLine_text {r : LineRead} (hmax : 1 ≤ max) (hread : readLine buf max keys = some r) :
    r.count < max ∧ (∀ c ∈ r.text, 32 ≤ c) ∧ r.buf r.count = 0 := by
  have hstart : LineEdit.Printable max ⟨buf, 0, []⟩ := by
    refine ⟨Nat.zero_le _, fun c hc => ?_⟩
    cases hc
  rcases hloop : readLoop max keys ⟨buf, 0, []⟩ with e | ⟨e, rest⟩
  · rw [readLine, hloop] at hread
    cases hread
  · rw [readLine, hloop] at hread
    cases hread
    have hend := hstart.readLoop hloop
    have hbound := hend.bound
    refine ⟨?_, fun c hc => hend.held c ?_, Function.update_self _ _ _⟩
    · show e.i < max
      omega
    · -- the terminator is behind the characters
      have hsame : (List.range e.i).map (Function.update e.buf e.i 0) = e.held :=
        List.map_congr_left fun j hj => Function.update_of_ne (List.mem_range.mp hj).ne _ _
      rw [← hsame]
      exact hc

theorem readLoop_typed {text : List U8}
    (htext : text.all (fun c => decide (32 ≤ c ∧ c ≠ 127)) = true)
    (hroom : e.i + text.length < max - 1) :
    ∃ e', readLoop max (text ++ [0x0D]) e = .ended e' [] ∧ e'.held = e.held ++ text := by
  induction text generalizing e with
  | nil =>
    refine ⟨e.print [0x0D, 0x0A], ?_, (List.append_nil _).symm⟩
    rw [List.nil_append, readLoop, if_pos (by simpa using hroom), if_pos (Or.inl rfl)]
  | cons c text ih =>
    rw [List.all_cons, Bool.and_eq_true] at htext
    obtain ⟨hstore, hne⟩ := of_decide_eq_true htext.1
    rw [List.length_cons] at hroom
    -- a printable character neither ends the line nor takes one back
    have hend : ¬ (c = 0x0D ∨ c = 0x0A) := by
      rintro (rfl | rfl)
      · exact absurd hstore (by decide)
      · exact absurd hstore (by decide)
    have hdel : ¬ ((c = 127 ∨ c = 0x08) ∧ 0 < e.i) := by
      rintro ⟨rfl | rfl, -⟩
      · exact hne rfl
      · exact absurd hstore (by decide)
    have hi : (e.key c).i = e.i + 1 := by rw [LineEdit.key_store hdel hstore]
    obtain ⟨e', hloop, hheld⟩ := ih (e := e.key c) htext.2 (by omega)
    refine ⟨e', ?_, ?_⟩
    · rw [List.cons_append, readLoop, if_pos (by omega), if_neg hend, hloop]
    · rw [hheld, LineEdit.held_key_store hdel hstore, List.append_assoc, List.singleton_append]

/-- Text that is typed, and Return. -/
theorem readLine_typed (buf : ℕ → U8) (max : ℕ) (text : List U8)
    (htext : text.all (fun c => decide (32 ≤ c ∧ c ≠ 127)) = true) (hroom : text.length < max - 1) :
    ∃ r, readLine buf max (text ++ [0x0D]) = some r ∧ r.text = text := by
  obtain ⟨e, hloop, hheld⟩ := readLoop_typed (e := ⟨buf, 0, []⟩) htext (by simpa using hroom)
  refine ⟨_, congrArg Reading.line hloop, Eq.trans ?_ hheld⟩
  exact List.map_congr_left fun j hj => Function.update_of_ne (List.mem_range.mp hj).ne _ _

end GamingConsole
