/-
The screen beside the serial terminal.

Every byte that `io_putc` is given goes to both.  A serial terminal moves its cursor to the
first column at a carriage return and down a row at a line feed; `term_putc` begins a row at
either (`serialPutc`, `textPutc`).  So the two agree on characters and wraps, and part ways at
the line ends, which are `"\r\n"` throughout the kernel: the screen goes down two rows.

* `text_runCalls`, `serial_runCalls` — the two sides of a stream, whichever of `io_putc`,
  `io_puts` and `_write` it comes through;
* **`mirrors_iff`** — the streams with `n` line ends look the same on both if and only if
  `n` is zero or the grid is too small to tell: a single row, or two rows of one column.
-/
import GamingConsole.TerminalPixels

namespace GamingConsole

/-! ### Output -/

/-- What the serial terminal does with a byte. -/
def serialPutc (c : U8) (g : TextGrid U8) : TextGrid U8 :=
  if c = 0x0D then g.carriageReturn else if c = 0x0A then g.lineFeed 0x20 else g.put 0x20 c

/-- `EBADF`. -/
def ebadf : ℕ := 9

/-- The screen, and what the terminal on the serial line shows. -/
structure Terminals where
  screen : Screen
  serial : TextGrid U8

namespace Terminals

/-- `io_putc`. -/
def ioPutc (s : Terminals) (c : U8) : Terminals where
  screen := s.screen.termPutc c
  serial := serialPutc c s.serial

/-- `io_puts`, of the characters before the terminating zero. -/
def ioPuts (str : List U8) (s : Terminals) : Terminals where
  screen := s.screen.termPuts str
  serial := str.foldl (fun g c => serialPutc c g) s.serial

/-- `_write`.  An error is the `errno` with which it returns -1. -/
def write (fd : ℤ) (buf : List U8) (s : Terminals) : Except ℕ ℤ × Terminals :=
  if fd = 1 ∨ fd = 2 then (.ok (BitVec.ofNat 32 buf.length).toInt, buf.foldl ioPutc s)
  else (.error ebadf, s)

/-- `term_clear`, after which both terminals are empty. -/
def termClear (t : Screen) : Terminals where
  screen := t.termClear
  serial := t.text.clear 0x20

/-- The grid shows on the screen what the serial terminal shows. -/
def Mirrors (s : Terminals) : Prop :=
  ∀ r < s.screen.termRows.toNat, ∀ k < s.screen.termCols.toNat,
    s.screen.termBuffer (r * maxTermCols + k) = s.serial.cell r k

end Terminals

/-- A call that prints. -/
inductive IoCall
  | putc (c : U8)
  | puts (str : List U8)
  | write (fd : ℤ) (buf : List U8)

/-- The bytes that a call prints. -/
def IoCall.bytes : IoCall → List U8
  | .putc c => [c]
  | .puts str => str
  | .write fd buf => if fd = 1 ∨ fd = 2 then buf else []

/-- A piece of a text stream: a printable character or a line end. -/
inductive Piece
  | printable (c : { c : U8 // 0x20 ≤ c ∧ c ≤ 0x7E })
  | lineEnd

/-- A piece on the line. -/
def Piece.bytes : Piece → List U8
  | .printable c => [c.1]
  | .lineEnd => [0x0D, 0x0A]

/-- The line ends of a text. -/
def lineEnds (ps : List Piece) : ℕ :=
  ps.countP fun | .lineEnd => true | .printable _ => false

namespace Terminals

/-- One call. -/
def call (s : Terminals) : IoCall → Terminals
  | .putc c => s.ioPutc c
  | .puts str => s.ioPuts str
  | .write fd buf => (s.write fd buf).2

/-- Calls one after the other. -/
def runCalls (calls : List IoCall) (s : Terminals) : Terminals := calls.foldl call s

variable {s : Terminals} {ps : List Piece}

/-! ### The two sides of a stream -/

theorem ioPutcs_eq (bytes : List U8) (s : Terminals) : bytes.foldl ioPutc s =
    ⟨s.screen.termPuts bytes, bytes.foldl (fun g c => serialPutc c g) s.serial⟩ := by
  induction bytes generalizing s with
  | nil => rfl
  | cons c bytes ih => exact ih (s.ioPutc c)

/-- However the bytes are handed over, both terminals get them in order. -/
theorem runCalls_eq (calls : List IoCall) (s : Terminals) :
    s.runCalls calls = (calls.flatMap IoCall.bytes).foldl ioPutc s := by
  induction calls generalizing s with
  | nil => rfl
  | cons call calls ih =>
    have hcall : s.call call = call.bytes.foldl ioPutc s := by
      rcases call with c | str | ⟨fd, buf⟩
      · rfl
      · exact (ioPutcs_eq str s).symm
      · rw [Terminals.call, write, IoCall.bytes]
        split
        · rfl
        · rfl
    rw [List.flatMap_cons, List.foldl_append, ← hcall]
    exact ih (s.call call)

end Terminals

/-- A piece on the screen: both bytes of a line end begin a row. -/
def Piece.onScreen (g : TextGrid U8) : Piece → TextGrid U8
  | .printable c => g.put 0x20 c.1
  | .lineEnd => (g.newline 0x20).newline 0x20

/-- A piece on the serial terminal. -/
def Piece.onSerial (g : TextGrid U8) : Piece → TextGrid U8
  | .printable c => g.put 0x20 c.1
  | .lineEnd => g.newline 0x20

/-- A printable character is none of those that move the cursor. -/
theorem not_control_of_printing {c : U8} (h : 0x20 ≤ c ∧ c ≤ 0x7E) :
    c ≠ 0x0D ∧ c ≠ 0x0A ∧ c ≠ 127 ∧ c ≠ 0x08 := by
  refine ⟨?_, ?_, ?_, ?_⟩
  all_goals
    rintro rfl
    exact absurd h (by decide)

theorem textPutc_piece (g : TextGrid U8) (p : Piece) :
    p.bytes.foldl (fun g c => textPutc c g) g = p.onScreen g := by
  rcases p with ⟨c, hc⟩ | _
  · obtain ⟨hcr, hlf, hdel, hbs⟩ := not_control_of_printing hc
    show textPutc c g = g.put 0x20 c
    rw [textPutc, if_neg (not_or.mpr ⟨hcr, hlf⟩), if_neg fun h => h.1.elim hdel hbs]
  · rfl

theorem serialPutc_piece (g : TextGrid U8) (p : Piece) :
    p.bytes.foldl (fun g c => serialPutc c g) g = p.onSerial g := by
  rcases p with ⟨c, hc⟩ | _
  · obtain ⟨hcr, hlf, -, -⟩ := not_control_of_printing hc
    show serialPutc c g = g.put 0x20 c
    rw [serialPutc, if_neg hcr, if_neg hlf]
  · rfl

/-- A fold over the bytes of a text goes piece by piece. -/
theorem foldl_pieces {σ : Type} {f : σ → U8 → σ} {step : σ → Piece → σ}
    (hstep : ∀ (g : σ) (p : Piece), p.bytes.foldl f g = step g p) (ps : List Piece) (g : σ) :
    (ps.flatMap Piece.bytes).foldl f g = ps.foldl step g := by
  induction ps generalizing g with
  | nil => rfl
  | cons p ps ih =>
    rw [List.flatMap_cons, List.foldl_append, hstep g p]
    exact ih (step g p)

namespace Screen

variable {t : Screen}

theorem sameMode_termPuts (cs : List U8) (t : Screen) : SameMode t (t.termPuts cs) := by
  induction cs generalizing t with
  | nil => exact .refl t
  | cons c cs ih => exact (sameMode_termPutc c t).trans (ih (t.termPutc c))

end Screen

/-! ### Where the two agree -/

theorem onScreen_eq_of_lineEnds {ps : List Piece} (h : lineEnds ps = 0) (g : TextGrid U8) :
    ps.foldl Piece.onScreen g = ps.foldl Piece.onSerial g := by
  induction ps generalizing g with
  | nil => rfl
  | cons p ps ih =>
    rcases p with c | _
    · exact ih (by rwa [lineEnds, List.countP_cons] at h) _
    · rw [lineEnds, List.countP_cons] at h
      exact absurd h (Nat.succ_ne_zero _)

/-- A property of grids under which a second newline changes nothing carries the agreement
from piece to piece. -/
theorem onScreen_eq_of_keeps {P : TextGrid U8 → Prop}
    (hstep : ∀ g p, P g → Piece.onScreen g p = Piece.onSerial g p ∧ P (Piece.onSerial g p))
    (ps : List Piece) {g : TextGrid U8} (h : P g) :
    ps.foldl Piece.onScreen g = ps.foldl Piece.onSerial g := by
  induction ps generalizing g with
  | nil => rfl
  | cons p ps ih =>
    obtain ⟨heq, hnext⟩ := hstep g p h
    rw [List.foldl_cons, List.foldl_cons, heq]
    exact ih hnext

/-- On a single row every newline clears the screen. -/
theorem onScreen_eq_of_row {g : TextGrid U8} (h : g.rows ≤ 1) (ps : List Piece) :
    ps.foldl Piece.onScreen g = ps.foldl Piece.onSerial g := by
  have hclear : ∀ g : TextGrid U8, g.rows ≤ 1 →
      g.newline 0x20 = { g with col := 0, cell := fun _ _ => 0x20 } := by
    intro g hg
    rw [TextGrid.newline_of_last (by omega)]
    refine congrArg (fun cell => { g with col := 0, cell := cell })
      (funext fun r => funext fun k => ?_)
    exact if_neg (by omega)
  refine onScreen_eq_of_keeps (P := fun g => g.rows ≤ 1) (fun g p hg => ?_) ps h
  rcases p with c | _
  · refine ⟨rfl, ?_⟩
    show (g.put 0x20 c.1).rows ≤ 1
    rwa [TextGrid.rows_put]
  · refine ⟨?_, ?_⟩
    · show (g.newline 0x20).newline 0x20 = g.newline 0x20
      rw [hclear (g.newline 0x20) (by rwa [TextGrid.rows_newline]), hclear g hg]
    · show (g.newline 0x20).rows ≤ 1
      rwa [TextGrid.rows_newline]

/-- Two rows of one column: the cursor is on a blank, and the only character there can be is in
the first row. -/
structure TwoByOne (g : TextGrid U8) : Prop where
  rows : g.rows = 2
  cols : g.cols = 1
  row : g.row < 2
  col : g.col = 0
  blank : ∀ r k, r = g.row ∨ ¬ (r = 0 ∧ k = 0) → g.cell r k = 0x20

/-- A newline leaves nothing there. -/
theorem TwoByOne.newline {g : TextGrid U8} (h : TwoByOne g) :
    g.newline 0x20 = { g with row := 1, col := 0, cell := fun _ _ => 0x20 } := by
  have hrows := h.rows
  have hrow := h.row
  by_cases hfirst : g.row = 0
  · refine (if_pos (show g.row + 1 < g.rows by omega)).trans ?_
    show { g with row := g.row + 1, col := 0 } = _
    rw [hfirst]
    refine congrArg (fun cell => { g with row := 1, col := 0, cell := cell })
      (funext fun r => funext fun k => ?_)
    refine h.blank r k ?_
    by_cases hr : r = 0
    · exact Or.inl (hr.trans hfirst.symm)
    · exact Or.inr fun h => hr h.1
  · have hlast : g.row = 1 := by omega
    rw [TextGrid.newline_of_last (by omega)]
    show { g with row := g.row, col := 0, cell := _ } = _
    rw [hlast]
    refine congrArg (fun cell => { g with row := 1, col := 0, cell := cell })
      (funext fun r => funext fun k => ?_)
    show (if r + 1 < g.rows then g.cell (r + 1) k else 0x20) = 0x20
    split
    · exact h.blank (r + 1) k (Or.inr fun h => absurd h.1 (Nat.succ_ne_zero r))
    · rfl

theorem TwoByOne.put {g : TextGrid U8} (h : TwoByOne g) (c : U8) : TwoByOne (g.put 0x20 c) := by
  have hrows := h.rows
  have hcols := h.cols
  have hrow := h.row
  have hcol := h.col
  have hwrap : ¬ g.col + 1 < g.cols := by omega
  by_cases hfirst : g.row = 0
  · rw [TextGrid.put_of_wrap hwrap (by omega)]
    refine ⟨hrows, hcols, by show g.row + 1 < 2; omega, rfl, fun r k hcell => ?_⟩
    change r = g.row + 1 ∨ _ at hcell
    refine (TextGrid.cell_write r k).trans ?_
    rw [if_neg (by omega)]
    exact h.blank r k (by omega)
  · rw [TextGrid.put_of_scroll hwrap (by omega)]
    refine ⟨hrows, hcols, hrow, rfl, fun r k hcell => ?_⟩
    change r = g.row ∨ _ at hcell
    show (if r + 1 < g.rows then (g.write c).cell (r + 1) k else 0x20) = 0x20
    by_cases hmoved : r + 1 < g.rows
    · rw [if_pos hmoved, TextGrid.cell_write, if_neg (by omega)]
      exact h.blank (r + 1) k (by omega)
    · rw [if_neg hmoved]

theorem onScreen_eq_of_twoByOne {g : TextGrid U8} (h : TwoByOne g) (ps : List Piece) :
    ps.foldl Piece.onScreen g = ps.foldl Piece.onSerial g := by
  refine onScreen_eq_of_keeps (fun g p hg => ?_) ps h
  have hcleared : TwoByOne (g.newline 0x20) := by
    rw [hg.newline]
    exact ⟨hg.rows, hg.cols, Nat.lt_succ_self 1, rfl, fun _ _ _ => rfl⟩
  rcases p with c | _
  · exact ⟨rfl, hg.put c.1⟩
  · refine ⟨?_, hcleared⟩
    show (g.newline 0x20).newline 0x20 = g.newline 0x20
    rw [hcleared.newline, hg.newline]

/-! ### Where they do not -/

/-- The cursor is at the start of a row, and what follows is blank. -/
structure RowStart (rows cols : ℕ) (g : TextGrid U8) : Prop where
  rows : g.rows = rows
  cols : g.cols = cols
  inGrid : g.InGrid
  col : g.col = 0
  blank : g.BlankFrom (· = 0x20)

theorem RowStart.newline {rows cols : ℕ} {g : TextGrid U8} (h : RowStart rows cols g) :
    RowStart rows cols (g.newline 0x20) := by
  refine ⟨TextGrid.rows_newline.trans h.rows, TextGrid.cols_newline.trans h.cols,
    h.inGrid.newline, ?_, h.blank.newline rfl⟩
  rw [TextGrid.newline, TextGrid.lineFeed]
  split
  · rfl
  · rfl

/-- The letter A. -/
def letter : Piece := .printable ⟨0x41, by decide⟩

/-- `n` line ends, `count` letters and a last line end. -/
def screenful (n count : ℕ) : List Piece :=
  List.replicate n .lineEnd ++ (List.replicate count letter ++ [.lineEnd])

theorem lineEnds_screenful (n count : ℕ) : lineEnds (screenful n count) = n + 1 := by
  rw [lineEnds, screenful, List.countP_append, List.countP_append, List.countP_replicate,
    List.countP_replicate]
  rfl

/-- The row ends of the two sides, before the letters. -/
theorem RowStart.foldl_lineEnds {rows cols : ℕ} {g : TextGrid U8} (h : RowStart rows cols g)
    (n : ℕ) : RowStart rows cols ((List.replicate n Piece.lineEnd).foldl Piece.onScreen g) ∧
      RowStart rows cols ((List.replicate n Piece.lineEnd).foldl Piece.onSerial g) := by
  induction n with
  | zero => exact ⟨h, h⟩
  | succ n ih =>
    rw [List.replicate_succ', List.foldl_append, List.foldl_append]
    exact ⟨ih.1.newline.newline, ih.2.newline⟩

theorem foldl_letters (count : ℕ) (g : TextGrid U8) :
    (List.replicate count letter).foldl Piece.onScreen g =
        g.puts 0x20 (List.replicate count 0x41) ∧
      (List.replicate count letter).foldl Piece.onSerial g =
        g.puts 0x20 (List.replicate count 0x41) := by
  induction count generalizing g with
  | zero => exact ⟨rfl, rfl⟩
  | succ count ih => exact ih (g.put 0x20 0x41)

/-- A full screen of letters, with `e` more in the last row, scrolled by one row and by two. -/
theorem cell_scrolled {rows cols e : ℕ} {g : TextGrid U8} (h : RowStart rows cols g)
    (he : e < cols) : ∃ g', g.puts 0x20 (List.replicate (rows * cols + e) 0x41) = g' ∧
      (∀ r < rows, ∀ k < cols, (g'.newline 0x20).cell r k =
        if r + 1 < rows then g'.cell (r + 1) k else 0x20) ∧
      (∀ r < rows, ∀ k < cols, ((g'.newline 0x20).newline 0x20).cell r k =
        if r + 2 < rows then g'.cell (r + 2) k else 0x20) ∧
      (∀ r < rows, ∀ k < cols, r + 1 < rows ∨ k < e → g'.cell r k = 0x41) ∧
      ∀ k < cols, e ≤ k → g'.cell (rows - 1) k = 0x20 := by
  obtain ⟨hrow, hcol, hletter⟩ := TextGrid.puts_replicate (c := 0x41) h.inGrid h.blank h.col rfl
    (show e < g.cols by rw [h.cols]; exact he)
  have hblank : (g.puts 0x20 (List.replicate (g.rows * g.cols + e) 0x41)).BlankFrom (· = 0x20) :=
    h.blank.puts rfl _
  have hrows' : (g.puts 0x20 (List.replicate (g.rows * g.cols + e) 0x41)).rows = g.rows :=
    TextGrid.rows_puts _
  have hcols' : (g.puts 0x20 (List.replicate (g.rows * g.cols + e) 0x41)).cols = g.cols :=
    TextGrid.cols_puts _
  rw [h.rows, h.cols] at hrow hcol hletter hblank hrows' hcols'
  refine ⟨_, rfl, ?_⟩
  generalize g.puts 0x20 (List.replicate (rows * cols + e) 0x41) = g' at *
  have hlast : ¬ g'.row + 1 < g'.rows := by omega
  -- the cursor is in the last row and stays there, so that both line ends scroll
  have honce : g'.newline 0x20 = _ := TextGrid.newline_of_last hlast
  have htwice : (g'.newline 0x20).newline 0x20 = _ :=
    TextGrid.newline_of_last (by rw [honce]; exact hlast)
  refine ⟨fun r hr k hk => ?_, fun r hr k hk => ?_, hletter, fun k hk hek => ?_⟩
  · rw [honce]
    show (if r + 1 < g'.rows then _ else _) = _
    rw [hrows']
  · rw [htwice, honce]
    show (if r + 1 < g'.rows then if r + 1 + 1 < g'.rows then _ else _ else _) = _
    rw [hrows']
    by_cases hr2 : r + 2 < rows
    · rw [if_pos (by omega), if_pos hr2]
    · rw [if_neg hr2, ite_self]
  · refine hblank (rows - 1) (by omega) k (by omega) (Or.inr ⟨by omega, by omega⟩)

/-- **With two rows or more, any number of line ends can be seen**, but on two rows of one
column. -/
theorem exists_cell_ne {rows cols : ℕ} {g : TextGrid U8} (h : RowStart rows cols g)
    (hrows : 2 ≤ rows) (hcols : 1 ≤ cols) (hsize : ¬ (rows = 2 ∧ cols = 1)) (n : ℕ) :
    ∃ count, ∃ r < rows, ∃ k < cols,
      ((screenful n count).foldl Piece.onScreen g).cell r k ≠
        ((screenful n count).foldl Piece.onSerial g).cell r k := by
  obtain ⟨hscreen, hserial⟩ := h.foldl_lineEnds n
  have hfold : ∀ count,
      (screenful n count).foldl Piece.onScreen g =
        (((((List.replicate n Piece.lineEnd).foldl Piece.onScreen g).puts 0x20
          (List.replicate count 0x41)).newline 0x20).newline 0x20) ∧
      (screenful n count).foldl Piece.onSerial g =
        ((((List.replicate n Piece.lineEnd).foldl Piece.onSerial g).puts 0x20
          (List.replicate count 0x41)).newline 0x20) := by
    intro count
    rw [screenful, List.foldl_append, List.foldl_append, List.foldl_append, List.foldl_append,
      (foldl_letters count _).1, (foldl_letters count _).2]
    exact ⟨rfl, rfl⟩
  generalize (List.replicate n Piece.lineEnd).foldl Piece.onScreen g = gv at hscreen hfold
  generalize (List.replicate n Piece.lineEnd).foldl Piece.onSerial g = gs at hserial hfold
  by_cases hwide : 2 ≤ cols
  · -- one letter in the last row: it is seen on the serial side only
    obtain ⟨gv', hgv, -, htwice, -, -⟩ := cell_scrolled (e := 1) hscreen (by omega)
    obtain ⟨gs', hgs, honce, -, hletter, -⟩ := cell_scrolled (e := 1) hserial (by omega)
    refine ⟨rows * cols + 1, rows - 2, by omega, 0, by omega, ?_⟩
    rw [(hfold _).1, (hfold _).2, hgv, hgs, htwice _ (by omega) _ (by omega), if_neg (by omega),
      honce _ (by omega) _ (by omega), if_pos (by omega), hletter _ (by omega) _ (by omega)
        (Or.inr (by omega))]
    decide
  · -- a column of letters above the cursor: it goes up by one row, or by two
    obtain ⟨gv', hgv, -, htwice, -, hblank⟩ := cell_scrolled (e := 0) hscreen (by omega)
    obtain ⟨gs', hgs, honce, -, hletter, -⟩ := cell_scrolled (e := 0) hserial (by omega)
    refine ⟨rows * cols + 0, rows - 3, by omega, 0, by omega, ?_⟩
    rw [(hfold _).1, (hfold _).2, hgv, hgs, htwice _ (by omega) _ (by omega), if_pos (by omega),
      honce _ (by omega) _ (by omega), if_pos (by omega), hletter _ (by omega) _ (by omega)
        (Or.inl (by omega)), show rows - 3 + 2 = rows - 1 by omega, hblank _ (by omega) (by omega)]
    decide

namespace Terminals

/-- **What the two terminals show after any calls that print a text.** -/
theorem mirrors_runCalls_iff {t : Screen} {calls : List IoCall} {ps : List Piece}
    (hrows : 0 < t.termRows.toNat ∧ t.termRows.toNat ≤ 135)
    (hcols : 0 < t.termCols.toNat ∧ t.termCols.toNat ≤ 240)
    (hbytes : calls.flatMap IoCall.bytes = ps.flatMap Piece.bytes) :
    ((termClear t).runCalls calls).Mirrors ↔
      ∀ r < t.termRows.toNat, ∀ k < t.termCols.toNat,
        (ps.foldl Piece.onScreen (t.text.clear 0x20)).cell r k =
          (ps.foldl Piece.onSerial (t.text.clear 0x20)).cell r k := by
  have hsame := Screen.sameMode_termClear t
  have htext := Screen.text_termClear hrows.2 hcols.2
  have hfits := Screen.textFits_termClear hrows hcols
  have hmode := hsame.trans (Screen.sameMode_termPuts (ps.flatMap Piece.bytes) t.termClear)
  have hscreen := (hfits.termPuts (ps.flatMap Piece.bytes)).2
  rw [textPuts, foldl_pieces textPutc_piece, htext] at hscreen
  rw [runCalls_eq, hbytes, ioPutcs_eq, Mirrors]
  change (∀ r < (t.termClear.termPuts (ps.flatMap Piece.bytes)).termRows.toNat,
    ∀ k < (t.termClear.termPuts (ps.flatMap Piece.bytes)).termCols.toNat,
    (t.termClear.termPuts (ps.flatMap Piece.bytes)).termBuffer (r * maxTermCols + k) =
      ((ps.flatMap Piece.bytes).foldl (fun g c => serialPutc c g)
        (t.text.clear 0x20)).cell r k) ↔ _
  rw [foldl_pieces serialPutc_piece, ← hscreen]
  generalize t.termClear.termPuts (ps.flatMap Piece.bytes) = t' at hmode
  rw [hmode.termRows, hmode.termCols]
  refine forall₄_congr fun r hr k hk => ?_
  rw [Screen.cell_text, hmode.termRows, hmode.termCols, if_pos ⟨hr, hk⟩]

/-- Nothing can be seen on a grid without cells. -/
theorem mirrors_of_no_cells {t : Screen} (calls : List IoCall)
    (h : t.termRows.toNat = 0 ∨ t.termCols.toNat = 0) :
    ((termClear t).runCalls calls).Mirrors := by
  have hmode := (Screen.sameMode_termClear t).trans
    (Screen.sameMode_termPuts (calls.flatMap IoCall.bytes) t.termClear)
  rw [runCalls_eq, ioPutcs_eq, Mirrors]
  intro r hr k hk
  change r < (t.termClear.termPuts (calls.flatMap IoCall.bytes)).termRows.toNat at hr
  change k < (t.termClear.termPuts (calls.flatMap IoCall.bytes)).termCols.toNat at hk
  rw [hmode.termRows] at hr
  rw [hmode.termCols] at hk
  omega

/-- **On a grid that fits `term_buffer`, the streams with `n` line ends look the same on both
terminals if and only if there are none, or the grid is too small to tell.** -/
theorem mirrors_iff (t : Screen) (hrows : t.termRows.toNat ≤ 135)
    (hcols : t.termCols.toNat ≤ 240) (n : ℕ) :
    (∀ (calls : List IoCall) (ps : List Piece),
      calls.flatMap IoCall.bytes = ps.flatMap Piece.bytes → lineEnds ps = n →
        ((termClear t).runCalls calls).Mirrors) ↔
      n = 0 ∨ t.termRows.toNat ≤ 1 ∨ t.termCols.toNat = 0 ∨
        t.termRows.toNat = 2 ∧ t.termCols.toNat = 1 := by
  have hstart : RowStart t.termRows.toNat t.termCols.toNat (t.text.clear 0x20) ∨
      t.termRows.toNat = 0 ∨ t.termCols.toNat = 0 := by
    by_cases hcells : 0 < t.termRows.toNat ∧ 0 < t.termCols.toNat
    · exact Or.inl ⟨rfl, rfl, ⟨hcells.1, hcells.2⟩, rfl, TextGrid.blankFrom_clear rfl⟩
    · omega
  rcases hstart with hstart | hnone
  · have hpos : 0 < t.termRows.toNat := hstart.inGrid.row
    have hpos' : 0 < t.termCols.toNat := hstart.inGrid.col
    constructor
    · intro hall
      by_contra hseen
      obtain ⟨m, rfl⟩ : ∃ m, n = m + 1 := Nat.exists_eq_succ_of_ne_zero (by omega)
      -- a screenful before the last line end is what tells them apart
      obtain ⟨count, r, hr, k, hk, hne⟩ :=
        exists_cell_ne hstart (by omega) (by omega) (by omega) m
      have hbytes : List.flatMap IoCall.bytes [.puts ((screenful m count).flatMap Piece.bytes)] =
          (screenful m count).flatMap Piece.bytes := List.flatMap_singleton _ _
      exact hne ((mirrors_runCalls_iff ⟨hpos, hrows⟩ ⟨hpos', hcols⟩ hbytes).mp
        (hall _ _ hbytes (lineEnds_screenful m count)) r hr k hk)
    · intro hsmall calls ps hbytes hends
      rw [mirrors_runCalls_iff ⟨hpos, hrows⟩ ⟨hpos', hcols⟩ hbytes]
      intro r hr k hk
      have heq : ps.foldl Piece.onScreen (t.text.clear 0x20) =
          ps.foldl Piece.onSerial (t.text.clear 0x20) := by
        rcases hsmall with hzero | hrow | hcol | ⟨htwo, hone⟩
        · exact onScreen_eq_of_lineEnds (hends.trans hzero) _
        · exact onScreen_eq_of_row hrow ps
        · omega
        · refine onScreen_eq_of_twoByOne ⟨htwo, hone, ?_, rfl, fun _ _ _ => rfl⟩ ps
          exact Nat.zero_lt_two
      rw [heq]
  · constructor
    · intro _
      omega
    · intro _ calls _ _ _
      exact mirrors_of_no_cells calls hnone

/-- The mode that the kernel asks for, 1920 by 1080. -/
def fullScreen : Screen :=
  (Screen.boot fun _ => 0).adopt
    { base := 0x3C000000, size := 8294400, pitch := 7680, width := 1920, height := 1080 }

theorem mirrors_fullScreen :
    ((termClear fullScreen).runCalls [.puts [0x41], .write 1 [0x42, 0x41]]).Mirrors :=
  (mirrors_iff fullScreen (by decide) (by decide) 0).mpr (Or.inl rfl) _
    [letter, .printable ⟨0x42, by decide⟩, letter] rfl rfl

/-- **Of two lines the second is one row further down on the screen.** -/
theorem two_lines_differ :
    ¬ ∀ (t : Screen) (calls : List IoCall) (ps : List Piece),
      calls.flatMap IoCall.bytes = ps.flatMap Piece.bytes →
        ((termClear t).runCalls calls).Mirrors := by
  intro h
  have hmirrors := h fullScreen [.puts [0x41, 0x0D, 0x0A, 0x42]]
    [letter, .lineEnd, .printable ⟨0x42, by decide⟩] rfl
  have hbytes : List.flatMap IoCall.bytes [.puts [0x41, 0x0D, 0x0A, 0x42]] =
      List.flatMap Piece.bytes [letter, .lineEnd, .printable ⟨0x42, by decide⟩] := rfl
  have hcells := (mirrors_runCalls_iff (by decide) (by decide) hbytes).mp hmirrors
  exact absurd (hcells 1 (by decide) 0 (by decide)) (by decide)

end Terminals

end GamingConsole
