/-
The screen's terminal and the ends of its memory.

Between `set_resolution`, `term_putc` and `term_clear` in any order, only `term_putc` can
leave the text buffer or the framebuffer.  Whether one character does can be read off the
state that it starts in (`StaysIn`); whether any text can is settled before the first
character, by the mode and the cursor that `set_resolution` and `term_clear` leave behind
(`Framebuffer.TakesText`):

* a scroll finds at least one row, and not more than the buffer has;
* the cursor's cell lies on the framebuffer, which is not so before a framebuffer has been
  negotiated, nor always after a change to a smaller mode;
* the cursor's row lies in the buffer.

A cursor in a grid that fits the buffer is in such a place (`TextFits.fitForText`),
`fitForText_termPutc` carries this from character to character, and `FitForText.staysIn` draws
`StaysIn` from it.  **`wild_runEvents_iff`**: a run from boot stays in its memory if each
character in it comes after a change of mode or a `term_clear` that takes text; where one
comes after another, a text in its place goes wild.
-/
import GamingConsole.Terminal

namespace GamingConsole

/-! ### Runs -/

/-- What VideoCore answers: the lines are apart, and the buffer holds them. -/
structure Framebuffer.Reported (fb : Framebuffer) : Prop where
  line : 4 * fb.width.toNat ≤ fb.pitch.toNat
  bytes : fb.pitch.toNat * fb.height.toNat ≤ fb.size.toNat

/-- The rows of cells of a mode, counted in a byte. -/
def Framebuffer.rows (fb : Framebuffer) : ℕ := fb.height.toNat / 8 % 256

/-- The columns of cells of a mode, counted in a byte. -/
def Framebuffer.cols (fb : Framebuffer) : ℕ := fb.width.toNat / 8 % 256

/-- There is room for text in the mode from this cursor on, however much it is. -/
structure Framebuffer.TakesText (fb : Framebuffer) (row col : ℕ) : Prop where
  /-- A scroll has a row to blank. -/
  rows_pos : 0 < fb.rows
  /-- The rows are in the buffer. -/
  rows_le : fb.rows ≤ 135
  /-- So is what is blanked of the last one. -/
  last : (fb.rows - 1) * 240 + fb.cols ≤ 32400
  /-- The cursor's cell lies on the framebuffer. -/
  cell : fb.HasCell col row
  /-- The cursor's cell is in the buffer. -/
  written : row * 240 + col < 32400
  /-- So is the rest of its row. -/
  line : row * 240 + fb.cols ≤ 32400

/-- With up to 135 rows and 240 columns the cursor may be anywhere in the grid. -/
theorem Framebuffer.takesText_of_grid {fb : Framebuffer} {row col : ℕ} (hrows : fb.rows ≤ 135)
    (hcols : fb.cols ≤ 240) (hrow : row < fb.rows) (hcol : col < fb.cols) :
    fb.TakesText row col := by
  have hwidth : 8 * fb.cols ≤ fb.width.toNat := by
    rw [Framebuffer.cols]
    omega
  have hheight : 8 * fb.rows ≤ fb.height.toNat := by
    rw [Framebuffer.rows]
    omega
  exact ⟨by omega, hrows, by omega, ⟨by omega, by omega⟩, by omega, by omega⟩

/-- A call that changes the screen.  A `set_resolution` without a response is one that
failed. -/
inductive ScreenEvent
  | setResolution (response : Option Framebuffer)
  | putc (c : U8)
  | clear

namespace Screen

/-- One call. -/
def handle (t : Screen) : ScreenEvent → Screen
  | .setResolution (some fb) => t.adopt fb
  | .setResolution none => t
  | .putc c => t.termPutc c
  | .clear => t.termClear

/-- Calls one after the other. -/
def runEvents (es : List ScreenEvent) (t : Screen) : Screen := es.foldl handle t

/-- Every character of the calls comes where a mode takes text: `room` says so for the mode
and the cursor that the last `set_resolution` or `term_clear` has left. -/
def ModesTakeText (room : Prop) (t : Screen) : List ScreenEvent → Prop
  | [] => True
  | .setResolution (some fb) :: es =>
    ModesTakeText (fb.TakesText t.cursorRow.toNat t.cursorCol.toNat) (t.adopt fb) es
  | .setResolution none :: es => ModesTakeText room t es
  | .clear :: es => ModesTakeText (t.fb.TakesText 0 0) t.termClear es
  | .putc c :: es => room ∧ ModesTakeText room (t.termPutc c) es

/-! ### The condition -/

/-- The character begins a row. -/
def IsNewline (c : U8) : Prop := c = 0x0D ∨ c = 0x0A

/-- The character takes back the one before the cursor. -/
def Erases (c : U8) (t : Screen) : Prop := (c = 127 ∨ c = 0x08) ∧ 3 < t.cursorCol

/-- The next row is below the last; rows are counted in a byte. -/
def AtBottom (t : Screen) : Prop := t.termRows ≤ t.cursorRow + 1

/-- A scroll has a row to blank, and its rows are in the buffer. -/
def ScrollFits (t : Screen) : Prop :=
  0 < t.termRows.toNat ∧ t.termRows.toNat ≤ 135 ∧
    (t.termRows.toNat - 1) * 240 + t.termCols.toNat ≤ 32400

/-- `term_putc` of `c` stays in the buffer and on the framebuffer. -/
structure StaysIn (c : U8) (t : Screen) : Prop where
  /-- The cursor's cell lies on the framebuffer. -/
  cell : t.fb.HasCell t.cursorCol.toNat t.cursorRow.toNat
  /-- The cell that is erased is in the buffer. -/
  erased : ¬ IsNewline c → Erases c t →
    t.cursorRow.toNat * 240 + t.cursorCol.toNat ≤ 32400
  /-- The cell that is written is in the buffer. -/
  written : ¬ IsNewline c → ¬ Erases c t →
    t.cursorRow.toNat * 240 + t.cursorCol.toNat < 32400
  /-- A newline or a wrap on the last row scrolls. -/
  scroll : IsNewline c ∨ ¬ Erases c t ∧ t.termCols ≤ t.cursorCol + 1 → t.AtBottom →
    t.ScrollFits

instance (c : U8) : Decidable (IsNewline c) := inferInstanceAs (Decidable (_ ∨ _))

instance (c : U8) (t : Screen) : Decidable (Erases c t) := inferInstanceAs (Decidable (_ ∧ _))

instance (t : Screen) : Decidable t.AtBottom := inferInstanceAs (Decidable (_ ≤ _))

instance (t : Screen) : Decidable t.ScrollFits := inferInstanceAs (Decidable (_ ∧ _))

variable {t t' : Screen} {c : U8} {fb : Framebuffer}

/-! ### The grid and the framebuffer -/

/-- The grid is the framebuffer's, and its lines are within reach. -/
structure ModeFits (t : Screen) : Prop where
  cols : t.termCols = (t.fb.width / 8).setWidth 8
  rows : t.termRows = (t.fb.height / 8).setWidth 8
  bytes : t.fb.pitch.toNat * t.fb.height.toNat < 2 ^ 32

theorem SameMode.modeFits (hsame : SameMode t t') (h : t.ModeFits) : t'.ModeFits := by
  refine ⟨?_, ?_, ?_⟩
  · rw [hsame.termCols, hsame.fb]
    exact h.cols
  · rw [hsame.termRows, hsame.fb]
    exact h.rows
  · rw [hsame.fb]
    exact h.bytes

theorem modeFits_adopt (h : fb.Reported) (t : Screen) : (t.adopt fb).ModeFits := by
  have hbytes := h.bytes
  have hsize := fb.size.isLt
  exact ⟨rfl, rfl, by show fb.pitch.toNat * fb.height.toNat < _; omega⟩

/-- What `set_resolution` keeps of a number of pixels. -/
theorem toNat_cells (n : U32) : ((n / 8).setWidth 8 : U8).toNat = n.toNat / 8 % 256 := by
  rw [BitVec.toNat_setWidth, BitVec.toNat_udiv]
  rfl

/-- The counts of rows and columns are cut to a byte, and so only get smaller. -/
theorem ModeFits.cols_le (h : t.ModeFits) : 8 * t.termCols.toNat ≤ t.fb.width.toNat := by
  rw [h.cols, toNat_cells]
  omega

theorem ModeFits.rows_le (h : t.ModeFits) : 8 * t.termRows.toNat ≤ t.fb.height.toNat := by
  rw [h.rows, toNat_cells]
  omega

/-! ### One access -/

theorem wild_drawCell {fg bg : U32} : (t.drawCell c fg bg).wild = false ↔
    t.wild = false ∧ t.fb.HasCell t.cursorCol.toNat t.cursorRow.toNat := by
  rw [drawCell, wild_drawChar, Bool.or_eq_false_iff, Bool.not_eq_false', decide_eq_true_iff]

theorem wild_drawCursor : t.drawCursor.wild = false ↔
    t.wild = false ∧ t.fb.HasCell t.cursorCol.toNat t.cursorRow.toNat := wild_drawCell

theorem wild_storeText {i : ℤ} :
    (t.storeText i c).wild = false ↔ t.wild = false ∧ 0 ≤ i ∧ i < 32400 := by
  show (t.wild || !inBuffer i) = false ↔ _
  rw [Bool.or_eq_false_iff, Bool.not_eq_false', inBuffer, Bool.and_eq_true, decide_eq_true_iff,
    decide_eq_true_iff]

theorem inBufferRange_iff {i len : ℤ} :
    inBufferRange i len = true ↔ 0 ≤ len ∧ (len = 0 ∨ 0 ≤ i ∧ i + len ≤ 32400) := by
  rw [inBufferRange, Bool.and_eq_true, Bool.or_eq_true, Bool.and_eq_true, decide_eq_true_iff,
    decide_eq_true_iff, decide_eq_true_iff, decide_eq_true_iff]

/-- The bytes that a scroll moves in the framebuffer; the code counts them in `int`. -/
theorem moved_eq_cast {rows : U8} {pitch : U32} (hpos : 0 < rows.toNat) :
    ((rows.toNat - 1) * 8 * pitch.toNat : ℤ) = (((rows.toNat - 1) * 8 * pitch.toNat : ℕ) : ℤ) := by
  rw [Nat.cast_mul, Nat.cast_mul, Nat.cast_sub hpos]
  rfl

/-- The two `memmove`s and the `memset` of a scroll. -/
theorem wild_scrolled (h : t.ModeFits) :
    t.scrolled.wild = false ↔ t.wild = false ∧ t.ScrollFits := by
  have hrows := h.rows_le
  have hbytes := h.bytes
  have hcols := t.termCols.isLt
  -- the bytes that move are some of the framebuffer's
  have hmove : 0 < t.termRows.toNat →
      ((t.termRows.toNat - 1) * 8 * t.fb.pitch.toNat : ℤ) < 2 ^ 32 := by
    intro hpos
    have hmul : (t.termRows.toNat - 1) * 8 * t.fb.pitch.toNat ≤
        t.fb.height.toNat * t.fb.pitch.toNat := Nat.mul_le_mul_right _ (by omega)
    rw [Nat.mul_comm t.fb.height.toNat] at hmul
    rw [moved_eq_cast hpos]
    exact_mod_cast Nat.lt_of_le_of_lt hmul hbytes
  have hsign : 0 < t.termRows.toNat →
      (0 : ℤ) ≤ (t.termRows.toNat - 1) * 8 * t.fb.pitch.toNat := by
    intro hpos
    exact Int.mul_nonneg (by omega) (by omega)
  show (((t.wild || !(inBufferRange 0 ((t.termRows.toNat - 1) * maxTermCols)
      && inBufferRange maxTermCols ((t.termRows.toNat - 1) * maxTermCols)))
    || !inBufferRange ((t.termRows.toNat - 1) * maxTermCols) t.termCols.toNat)
    || !(decide _ && decide _)) = false ↔ _
  rw [Bool.or_eq_false_iff, Bool.or_eq_false_iff, Bool.or_eq_false_iff, Bool.not_eq_false',
    Bool.not_eq_false', Bool.not_eq_false', Bool.and_eq_true, Bool.and_eq_true, inBufferRange_iff,
    inBufferRange_iff, inBufferRange_iff, decide_eq_true_iff, decide_eq_true_iff, maxTermCols,
    ScrollFits]
  constructor
  · rintro ⟨⟨⟨hw, hdst, hsrc⟩, hfill⟩, -⟩
    exact ⟨hw, by omega, by omega, by omega⟩
  · rintro ⟨hw, hpos, htop, hlast⟩
    exact ⟨⟨⟨hw, by omega, by omega⟩, by omega⟩, hsign hpos, hmove hpos⟩

theorem wild_termScroll (h : t.ModeFits) :
    t.termScroll.wild = false ↔ t.wild = false ∧ t.ScrollFits := by
  rw [← wild_scrolled h]
  have honly := onlyPixels_termScroll t
  constructor
  · intro hw
    by_contra hscrolled
    rw [honly.2 (Bool.eq_true_of_not_eq_false hscrolled)] at hw
    exact absurd hw (by decide)
  · intro hw
    obtain ⟨-, hpos, htop, -⟩ := (wild_scrolled h).mp hw
    have hrows := h.rows_le
    -- the eight lines of the last row
    refine (Raster.foldl_range (fun _ s => OnlyPixels t.scrolled s ∧ s.wild = false)
      ⟨.refl _, hw⟩ fun i hi s hs => ⟨hs.1.trans (onlyPixels_drawHorizontalLine _ _), ?_⟩).2
    have hy : (BitVec.ofInt 32 ((t.termRows.toNat - 1 : ℤ) * 8)).toNat =
        (t.termRows.toNat - 1) * 8 := by
      rw [BitVec.toNat_ofInt]
      omega
    rw [hy] at hi
    refine (wild_drawHorizontalLine ?_).trans hs.2
    rw [hs.1.fb, BitVec.toNat_add, hy, BitVec.toNat_ofNat]
    show _ < t.fb.height.toNat
    omega

/-! ### One character -/

theorem OnlyPixels.cursorRow (h : OnlyPixels t t') : t'.cursorRow = t.cursorRow := by rw [h.1]

theorem OnlyPixels.cursorCol (h : OnlyPixels t t') : t'.cursorCol = t.cursorCol := by rw [h.1]

/-- A row begins, and the cursor is drawn in its first cell. -/
theorem wild_beginRow (h : t.ModeFits) (hwidth : 8 ≤ t.fb.width.toNat) :
    t.beginRow.drawCursor.wild = false ↔ t.wild = false ∧ (t.AtBottom → t.ScrollFits) := by
  have hrows := h.rows_le
  rw [beginRow]
  by_cases hbottom : t.AtBottom
  · have hmode : (t.setCursor (t.cursorRow + 1) 0).ModeFits :=
      (sameMode_setCursor _ _ t).modeFits h
    have hscroll := wild_termScroll hmode
    have hsame := (sameMode_scrolled (t.setCursor (t.cursorRow + 1) 0)).trans
      (onlyPixels_termScroll _).sameMode
    have hcol : (t.setCursor (t.cursorRow + 1) 0).termScroll.cursorCol = 0 :=
      (onlyPixels_termScroll _).cursorCol
    rw [if_pos (show (t.setCursor (t.cursorRow + 1) 0).termRows ≤
      (t.setCursor (t.cursorRow + 1) 0).cursorRow from hbottom), wild_drawCursor]
    generalize (t.setCursor (t.cursorRow + 1) 0).termScroll = t' at hscroll hsame hcol
    change t'.wild = false ↔ t.wild = false ∧ t.ScrollFits at hscroll
    change t'.wild = false ∧ t'.fb.HasCell t'.cursorCol.toNat (t'.termRows - 1).toNat ↔ _
    rw [hscroll, hsame.fb, hsame.termRows, hcol]
    constructor
    · rintro ⟨⟨hw, hfits⟩, -⟩
      exact ⟨hw, fun _ => hfits⟩
    · rintro ⟨hw, hfits⟩
      have hpos := (hfits hbottom).1
      -- where rows fit there is one, and the last of them does not wrap
      have hlast : (t.termRows - 1).toNat = t.termRows.toNat - 1 :=
        BitVec.toNat_sub_of_le (show 1 ≤ t.termRows.toNat from hpos)
      refine ⟨⟨hw, hfits hbottom⟩, hwidth, ?_⟩
      change 8 * (t.termRows - 1).toNat + 8 ≤ t.fb.height.toNat
      omega
  · rw [if_neg (show ¬ (t.setCursor (t.cursorRow + 1) 0).termRows ≤
      (t.setCursor (t.cursorRow + 1) 0).cursorRow from hbottom), wild_drawCursor]
    change t.wild = false ∧ t.fb.HasCell 0 (t.cursorRow + 1).toNat ↔ _
    have hlt : (t.cursorRow + 1).toNat < t.termRows.toNat := Nat.lt_of_not_le hbottom
    constructor
    · rintro ⟨hw, -⟩
      exact ⟨hw, fun h => absurd h hbottom⟩
    · rintro ⟨hw, -⟩
      exact ⟨hw, hwidth, by omega⟩

theorem wild_putErase (hcell : t.fb.HasCell t.cursorCol.toNat t.cursorRow.toNat)
    (hcol : 3 < t.cursorCol) : t.putErase.drawCursor.wild = false ↔
      t.wild = false ∧ t.cursorRow.toNat * 240 + t.cursorCol.toNat ≤ 32400 := by
  obtain ⟨hwidth, hheight⟩ := hcell
  change 3 < t.cursorCol.toNat at hcol
  have hback : (t.cursorCol - 1).toNat = t.cursorCol.toNat - 1 :=
    BitVec.toNat_sub_of_le (show 1 ≤ t.cursorCol.toNat by omega)
  rw [wild_drawCursor, putErase, wild_storeText, cursorIndex, maxTermCols]
  change (t.wild = false ∧ (0 : ℤ) ≤ t.cursorRow.toNat * 240 + (t.cursorCol - 1).toNat ∧
    t.cursorRow.toNat * 240 + (t.cursorCol - 1).toNat < (32400 : ℤ)) ∧
    t.fb.HasCell (t.cursorCol - 1).toNat t.cursorRow.toNat ↔ _
  rw [hback]
  constructor
  · rintro ⟨⟨hw, -, hlt⟩, -⟩
    exact ⟨hw, by omega⟩
  · rintro ⟨hw, hle⟩
    exact ⟨⟨hw, by omega, by omega⟩, by omega, hheight⟩

/-- Behind the last column a row begins. -/
theorem advance_of_le (h : t.termCols ≤ t.cursorCol + 1) : t.advance = t.beginRow :=
  (if_pos h).trans (beginRow_setCursor _)

theorem advance_of_not_le (h : ¬ t.termCols ≤ t.cursorCol + 1) :
    t.advance = t.setCursor t.cursorRow (t.cursorCol + 1) := if_neg h

/-- The cursor goes to the next cell, and is drawn there. -/
theorem wild_advance (h : t.ModeFits) (hcell : t.fb.HasCell t.cursorCol.toNat t.cursorRow.toNat) :
    t.advance.drawCursor.wild = false ↔
      t.wild = false ∧ (t.termCols ≤ t.cursorCol + 1 → t.AtBottom → t.ScrollFits) := by
  have hcols := h.cols_le
  obtain ⟨hwidth, hheight⟩ := hcell
  by_cases hwrap : t.termCols ≤ t.cursorCol + 1
  · rw [advance_of_le hwrap, wild_beginRow h (by omega)]
    exact and_congr_right fun _ => ⟨fun h _ => h, fun h => h hwrap⟩
  · have hlt : (t.cursorCol + 1).toNat < t.termCols.toNat := Nat.lt_of_not_le hwrap
    rw [advance_of_not_le hwrap, wild_drawCursor]
    constructor
    · rintro ⟨hw, -⟩
      exact ⟨hw, fun h => absurd h hwrap⟩
    · rintro ⟨hw, -⟩
      refine ⟨hw, ?_, hheight⟩
      show 8 * (t.cursorCol + 1).toNat + 8 ≤ t.fb.width.toNat
      omega

theorem wild_putCell (hcell : t.fb.HasCell t.cursorCol.toNat t.cursorRow.toNat) :
    (t.putCell c).wild = false ↔
      t.wild = false ∧ t.cursorRow.toNat * 240 + t.cursorCol.toNat < 32400 := by
  rw [putCell, wild_drawCell, wild_storeText, cursorIndex, maxTermCols]
  constructor
  · rintro ⟨⟨hw, -, hlt⟩, -⟩
    exact ⟨hw, by omega⟩
  · rintro ⟨hw, hlt⟩
    exact ⟨⟨hw, by omega, by omega⟩, hcell⟩

theorem onlyPixels_putCell (c : U8) (t : Screen) :
    OnlyPixels (t.storeText t.cursorIndex c) (t.putCell c) := onlyPixels_drawCell _ _ _

theorem wild_putChar (h : t.ModeFits)
    (hcell : t.fb.HasCell t.cursorCol.toNat t.cursorRow.toNat) :
    (t.putChar c).drawCursor.wild = false ↔
      t.wild = false ∧ t.cursorRow.toNat * 240 + t.cursorCol.toNat < 32400 ∧
        (t.termCols ≤ t.cursorCol + 1 → t.AtBottom → t.ScrollFits) := by
  have hput := wild_putCell (c := c) hcell
  have hmode := (sameMode_putCell c t).modeFits h
  have honly := onlyPixels_putCell c t
  rw [putChar]
  generalize t.putCell c = t' at hput hmode honly
  rw [wild_advance hmode (by rw [honly.1]; exact hcell), hput, and_assoc]
  -- only the text and the pixels are not what they were
  rw [honly.1]
  exact Iff.rfl

/-! ### What has gone wild stays so -/

theorem wild_beginRow_of_wild (hw : t.wild = true) : t.beginRow.wild = true := by
  rw [beginRow]
  split
  · refine (onlyPixels_termScroll (t.setCursor (t.cursorRow + 1) 0)).2 ?_
    show (((t.wild || _) || _) || _) = true
    rw [hw, Bool.true_or, Bool.true_or, Bool.true_or]
  · exact hw

theorem wild_storeText_of_wild {i : ℤ} (hw : t.wild = true) : (t.storeText i c).wild = true := by
  show (t.wild || _) = true
  rw [hw]
  rfl

theorem wild_advance_of_wild (hw : t.wild = true) : t.advance.wild = true := by
  rw [advance]
  split
  · exact wild_beginRow_of_wild hw
  · exact hw

theorem wild_drawCell_of_wild {fg bg : U32} (hw : t.wild = true) :
    (t.drawCell c fg bg).wild = true := (onlyPixels_drawCell c fg bg).2 hw

/-- `term_putc` once the cursor block is gone. -/
def putUnderCursor (c : U8) (t : Screen) : Screen :=
  if c = 0x0D ∨ c = 0x0A then t.beginRow.drawCursor
  else if (c = 127 ∨ c = 0x08) ∧ 3 < t.cursorCol then t.putErase.drawCursor
  else (t.putChar c).drawCursor

theorem termPutc_eq (c : U8) (t : Screen) :
    t.termPutc c = putUnderCursor c (t.drawCell 0x20 t.textColor t.backgroundColor) := rfl

theorem wild_putUnderCursor_of_wild (hw : t.wild = true) : (t.putUnderCursor c).wild = true := by
  rw [putUnderCursor]
  split
  · exact wild_drawCell_of_wild (wild_beginRow_of_wild hw)
  · split
    · refine wild_drawCell_of_wild (wild_storeText_of_wild ?_)
      exact hw
    · refine wild_drawCell_of_wild (wild_advance_of_wild (wild_drawCell_of_wild ?_))
      exact wild_storeText_of_wild hw

/-! ### One call -/

/-- No framebuffer has been negotiated, or the last one has the grid. -/
def Booted (t : Screen) : Prop := t.fb.width.toNat = 0 ∨ t.ModeFits

theorem wild_putUnderCursor (h : t.ModeFits)
    (hcell : t.fb.HasCell t.cursorCol.toNat t.cursorRow.toNat) :
    (t.putUnderCursor c).wild = false ↔ t.wild = false ∧ t.StaysIn c := by
  rw [putUnderCursor]
  -- a character ends the row, takes the last character back, or is written
  by_cases hnewline : IsNewline c
  · have hwidth := hcell.1
    rw [if_pos (show c = 0x0D ∨ c = 0x0A from hnewline), wild_beginRow h (by omega)]
    refine and_congr_right fun _ => ?_
    constructor
    · intro hfits
      exact ⟨hcell, fun h => absurd hnewline h, fun h => absurd hnewline h, fun _ => hfits⟩
    · intro hstays
      exact hstays.scroll (Or.inl hnewline)
  · rw [if_neg (show ¬ (c = 0x0D ∨ c = 0x0A) from hnewline)]
    by_cases herase : Erases c t
    · rw [if_pos (show (c = 127 ∨ c = 0x08) ∧ 3 < t.cursorCol from herase),
        wild_putErase hcell herase.2]
      refine and_congr_right fun _ => ?_
      constructor
      · intro hindex
        refine ⟨hcell, fun _ _ => hindex, fun _ h => absurd herase h, ?_⟩
        rintro (h | h)
        · exact absurd h hnewline
        · exact absurd herase h.1
      · intro hstays
        exact hstays.erased hnewline herase
    · rw [if_neg (show ¬ ((c = 127 ∨ c = 0x08) ∧ 3 < t.cursorCol) from herase),
        wild_putChar h hcell]
      refine and_congr_right fun _ => ?_
      constructor
      · rintro ⟨hindex, hscroll⟩
        refine ⟨hcell, fun _ h => absurd h herase, fun _ _ => hindex, ?_⟩
        rintro (h | h)
        · exact absurd h hnewline
        · exact hscroll h.2
      · intro hstays
        refine ⟨hstays.written hnewline herase, fun hwrap => ?_⟩
        exact hstays.scroll (Or.inr ⟨herase, hwrap⟩)

/-- Pixels do not matter. -/
theorem OnlyPixels.staysIn (h : OnlyPixels t t') : t'.StaysIn c ↔ t.StaysIn c := by
  rw [h.1]
  exact ⟨fun h => ⟨h.cell, h.erased, h.written, h.scroll⟩,
    fun h => ⟨h.cell, h.erased, h.written, h.scroll⟩⟩

/-- Where one character's accesses go. -/
theorem wild_termPutc (h : t.Booted) :
    (t.termPutc c).wild = false ↔ t.wild = false ∧ t.StaysIn c := by
  have honly := onlyPixels_drawCell (t := t) 0x20 t.textColor t.backgroundColor
  have hdraw := @wild_drawCell t 0x20 t.textColor t.backgroundColor
  rw [termPutc_eq, ← honly.staysIn]
  generalize t.drawCell 0x20 t.textColor t.backgroundColor = t' at honly hdraw
  by_cases hcell : t.fb.HasCell t.cursorCol.toNat t.cursorRow.toNat
  · rcases h with hzero | hmode
    · have hwidth := hcell.1
      omega
    · have hcell' : t'.fb.HasCell t'.cursorCol.toNat t'.cursorRow.toNat := by
        rw [honly.1]
        exact hcell
      rw [wild_putUnderCursor (honly.sameMode.modeFits hmode) hcell', hdraw, and_iff_left hcell]
  · -- the first `draw_char` is off the framebuffer already
    have hwild : t'.wild = true := Bool.eq_true_of_not_eq_false fun h => hcell (hdraw.mp h).2
    rw [wild_putUnderCursor_of_wild hwild]
    constructor
    · intro h
      exact absurd h (by decide)
    · rintro ⟨-, hstays⟩
      exact absurd (honly.staysIn.mp hstays).cell hcell

theorem wild_termClear : t.termClear.wild = t.wild := by
  have hfill : (t.fillText 0 0x20 (maxTermRows * maxTermCols)).wild = t.wild := Bool.or_false _
  rw [← hfill, termClear]
  exact wild_fillScreen _

theorem Booted.of_sameMode (hsame : SameMode t t') (h : t.Booted) : t'.Booted := by
  rcases h with hzero | hmode
  · refine Or.inl ?_
    rw [hsame.fb]
    exact hzero
  · exact Or.inr (hsame.modeFits hmode)

/-! ### Any text -/

/-- The mode takes text from the cursor on. -/
def FitForText (t : Screen) : Prop := t.fb.TakesText t.cursorRow.toNat t.cursorCol.toNat

/-- Whatever is printed, it stays in memory. -/
def TakesAnyText (t : Screen) : Prop :=
  ∀ cs : List U8, (t.runEvents (cs.map .putc)).wild = false

theorem ModeFits.toNat_rows (h : t.ModeFits) : t.termRows.toNat = t.fb.rows := by
  rw [h.rows, toNat_cells, Framebuffer.rows]

theorem ModeFits.toNat_cols (h : t.ModeFits) : t.termCols.toNat = t.fb.cols := by
  rw [h.cols, toNat_cells, Framebuffer.cols]

/-- Before a framebuffer has been negotiated no text has room. -/
theorem FitForText.modeFits (hfit : t.FitForText) (h : t.Booted) : t.ModeFits := by
  rcases h with hzero | hmode
  · have hwidth := hfit.cell.1
    omega
  · exact hmode

theorem FitForText.scrollFits (hfit : t.FitForText) (h : t.ModeFits) : t.ScrollFits := by
  rw [ScrollFits, h.toNat_rows, h.toNat_cols]
  exact ⟨hfit.rows_pos, hfit.rows_le, hfit.last⟩

/-- **Where text has room, so has every character.** -/
theorem FitForText.staysIn (hfit : t.FitForText) (h : t.ModeFits) : t.StaysIn c :=
  ⟨hfit.cell, fun _ _ => le_of_lt hfit.written, fun _ _ => hfit.written,
    fun _ _ => hfit.scrollFits h⟩

/-- The cursor goes to where a character takes it: back, to the start of a row, or into the
grid. -/
theorem FitForText.move (hfit : t.FitForText) (h : t.ModeFits) (hsame : SameMode t t')
    (hcell : t.fb.HasCell t'.cursorCol.toNat t'.cursorRow.toNat)
    (hrow : t'.cursorRow.toNat ≤ t.cursorRow.toNat ∨ t'.cursorRow.toNat < t.termRows.toNat)
    (hcol : t'.cursorCol.toNat = 0 ∨ t'.cursorCol.toNat < t.termCols.toNat ∨
      t'.cursorRow.toNat ≤ t.cursorRow.toNat ∧ t'.cursorCol.toNat ≤ t.cursorCol.toNat) :
    t'.FitForText := by
  have htop := hfit.rows_le
  have hlast := hfit.last
  have hwritten := hfit.written
  have hline := hfit.line
  rw [h.toNat_rows] at hrow
  rw [h.toNat_cols] at hcol
  rw [FitForText, hsame.fb]
  exact ⟨hfit.rows_pos, htop, hlast, hcell, by omega, by omega⟩

/-- Drawing leaves the cursor where it is. -/
theorem OnlyPixels.fitForText (h : OnlyPixels t t') : t'.FitForText ↔ t.FitForText := by
  rw [FitForText, h.fb, h.cursorRow, h.cursorCol]
  rfl

/-- The row that begins is the next one, and at the bottom the last. -/
theorem cursor_beginRow (t : Screen) : t.beginRow.cursorCol = 0 ∧
    t.beginRow.cursorRow = if t.AtBottom then t.termRows - 1 else t.cursorRow + 1 := by
  have honly := onlyPixels_termScroll (t.setCursor (t.cursorRow + 1) 0)
  have hsame := (sameMode_scrolled (t.setCursor (t.cursorRow + 1) 0)).trans honly.sameMode
  have hcol : (t.setCursor (t.cursorRow + 1) 0).termScroll.cursorCol = 0 := honly.cursorCol
  rw [beginRow]
  by_cases hbottom : t.AtBottom
  · rw [if_pos hbottom, if_pos (show (t.setCursor (t.cursorRow + 1) 0).termRows ≤
      (t.setCursor (t.cursorRow + 1) 0).cursorRow from hbottom)]
    generalize (t.setCursor (t.cursorRow + 1) 0).termScroll = t' at hsame hcol
    refine ⟨hcol, ?_⟩
    show t'.termRows - 1 = _
    rw [hsame.termRows]
    rfl
  · rw [if_neg hbottom, if_neg (show ¬ (t.setCursor (t.cursorRow + 1) 0).termRows ≤
      (t.setCursor (t.cursorRow + 1) 0).cursorRow from hbottom)]
    exact ⟨rfl, rfl⟩

theorem fitForText_beginRow (h : t.ModeFits) (hfit : t.FitForText) : t.beginRow.FitForText := by
  have hrows := h.rows_le
  have hpos := hfit.rows_pos
  have hwidth := hfit.cell.1
  obtain ⟨hcol, hrow⟩ := cursor_beginRow t
  rw [← h.toNat_rows] at hpos
  have hzero : t.beginRow.cursorCol.toNat = 0 := congrArg BitVec.toNat hcol
  have hlt : t.beginRow.cursorRow.toNat < t.termRows.toNat := by
    rw [hrow]
    by_cases hbottom : t.AtBottom
    · rw [if_pos hbottom, BitVec.toNat_sub_of_le (show 1 ≤ t.termRows.toNat from hpos)]
      show t.termRows.toNat - 1 < _
      omega
    · rw [if_neg hbottom]
      exact Nat.lt_of_not_le hbottom
  exact hfit.move h (sameMode_beginRow t) ⟨by omega, by omega⟩ (Or.inr hlt) (Or.inl hzero)

theorem fitForText_advance (h : t.ModeFits) (hfit : t.FitForText) : t.advance.FitForText := by
  have hcols := h.cols_le
  by_cases hwrap : t.termCols ≤ t.cursorCol + 1
  · rw [advance_of_le hwrap]
    exact fitForText_beginRow h hfit
  · have hlt : (t.cursorCol + 1).toNat < t.termCols.toNat := Nat.lt_of_not_le hwrap
    rw [advance_of_not_le hwrap]
    refine hfit.move h (sameMode_setCursor _ _ t) ⟨?_, hfit.cell.2⟩ (Or.inl le_rfl)
      (Or.inr (Or.inl hlt))
    show 8 * (t.cursorCol + 1).toNat + 8 ≤ _
    omega

theorem fitForText_putErase (h : t.ModeFits) (hfit : t.FitForText) (hcol : 3 < t.cursorCol) :
    t.putErase.FitForText := by
  have hcell := hfit.cell
  change 3 < t.cursorCol.toNat at hcol
  have hback : (t.cursorCol - 1).toNat = t.cursorCol.toNat - 1 :=
    BitVec.toNat_sub_of_le (show 1 ≤ t.cursorCol.toNat by omega)
  have hle : (t.cursorCol - 1).toNat ≤ t.cursorCol.toNat := by omega
  refine hfit.move h (sameMode_putErase t) ⟨?_, hcell.2⟩ (Or.inl le_rfl)
    (Or.inr (Or.inr ⟨le_rfl, hle⟩))
  have hwidth := hcell.1
  show 8 * (t.cursorCol - 1).toNat + 8 ≤ _
  omega

theorem fitForText_putCell (hfit : t.FitForText) : (t.putCell c).FitForText :=
  (onlyPixels_putCell c t).fitForText.mpr hfit

/-- **A character leaves room for the next.** -/
theorem fitForText_termPutc (h : t.ModeFits) (hfit : t.FitForText) :
    (t.termPutc c).FitForText := by
  have honly := onlyPixels_drawCell (t := t) 0x20 t.textColor t.backgroundColor
  have hmode := honly.sameMode.modeFits h
  have hfit' := honly.fitForText.mpr hfit
  rw [termPutc_eq]
  generalize t.drawCell 0x20 t.textColor t.backgroundColor = t at hmode hfit'
  rw [putUnderCursor]
  split
  · exact (onlyPixels_drawCell _ _ _).fitForText.mpr (fitForText_beginRow hmode hfit')
  · split
    · rename_i herase
      exact (onlyPixels_drawCell _ _ _).fitForText.mpr
        (fitForText_putErase hmode hfit' herase.2)
    · refine (onlyPixels_drawCell _ _ _).fitForText.mpr (fitForText_advance ?_ ?_)
      · exact (sameMode_putCell c t).modeFits hmode
      · exact fitForText_putCell hfit'

/-- A cursor in a grid that fits the buffer. -/
theorem TextFits.fitForText (h : t.TextFits) (hmode : t.ModeFits) : t.FitForText := by
  refine Framebuffer.takesText_of_grid ?_ ?_ ?_ ?_
  · rw [← hmode.toNat_rows]
    exact h.rows
  · rw [← hmode.toNat_cols]
    exact h.cols
  · rw [← hmode.toNat_rows]
    exact h.cursor.row
  · rw [← hmode.toNat_cols]
    exact h.cursor.col

/-- Room for text is room for any text. -/
theorem FitForText.takesAnyText (hfit : t.FitForText) (h : t.ModeFits) (hw : t.wild = false) :
    t.TakesAnyText := by
  intro cs
  induction cs generalizing t with
  | nil => exact hw
  | cons c cs ih =>
    exact ih (fitForText_termPutc h hfit) ((sameMode_termPutc c t).modeFits h)
      ((wild_termPutc (Or.inr h)).mpr ⟨hw, hfit.staysIn h⟩)

/-! Where there is no room, some text goes wild: a letter, letters to the end of the row, or
newlines down to the last row and one more. -/

theorem onlyPixels_drawCursor (t : Screen) : OnlyPixels t t.drawCursor := onlyPixels_drawCell _ _ _

theorem cursor_advance (h : ¬ t.termCols ≤ t.cursorCol + 1) :
    t.advance.cursorRow = t.cursorRow ∧ t.advance.cursorCol = t.cursorCol + 1 := by
  rw [advance_of_not_le h]
  exact ⟨rfl, rfl⟩

/-- A character before the last column. -/
theorem cursor_putChar (h : ¬ t.termCols ≤ t.cursorCol + 1) :
    (t.putChar c).cursorRow = t.cursorRow ∧ (t.putChar c).cursorCol = t.cursorCol + 1 := by
  have hrow : (t.putCell c).cursorRow = t.cursorRow := (onlyPixels_putCell c t).cursorRow
  have hcol : (t.putCell c).cursorCol = t.cursorCol := (onlyPixels_putCell c t).cursorCol
  have hnext := cursor_advance (t := t.putCell c)
    (by rw [(sameMode_putCell c t).termCols, hcol]; exact h)
  rwa [hrow, hcol] at hnext

theorem cursor_termPutc_letter (h : ¬ t.termCols ≤ t.cursorCol + 1) :
    (t.termPutc 0x41).cursorRow = t.cursorRow ∧ (t.termPutc 0x41).cursorCol = t.cursorCol + 1 := by
  have honly := onlyPixels_drawCell (t := t) 0x20 t.textColor t.backgroundColor
  rw [termPutc_eq]
  generalize t.drawCell 0x20 t.textColor t.backgroundColor = t' at honly
  have hchar : t'.putUnderCursor 0x41 = (t'.putChar 0x41).drawCursor := by
    rw [putUnderCursor, if_neg (by decide), if_neg fun h => absurd h.1 (by decide)]
  obtain ⟨hrow, hcol⟩ := cursor_putChar (t := t') (c := 0x41)
    (by rw [honly.sameMode.termCols, honly.cursorCol]; exact h)
  have hdraw := onlyPixels_drawCursor (t'.putChar 0x41)
  rw [hchar, hdraw.cursorRow, hdraw.cursorCol, hrow, hcol]
  exact ⟨honly.cursorRow, congrArg (· + 1) honly.cursorCol⟩

/-- A newline above the last row. -/
theorem cursorRow_termPutc_newline (h : ¬ t.AtBottom) :
    (t.termPutc 0x0A).cursorRow = t.cursorRow + 1 := by
  have honly := onlyPixels_drawCell (t := t) 0x20 t.textColor t.backgroundColor
  rw [termPutc_eq]
  generalize t.drawCell 0x20 t.textColor t.backgroundColor = t₁ at honly
  have hbottom : ¬ t₁.AtBottom := by
    rw [AtBottom, honly.sameMode.termRows, honly.cursorRow]
    exact h
  have hrow := (cursor_beginRow t₁).2
  have hnewline : t₁.putUnderCursor 0x0A = t₁.beginRow.drawCursor := if_pos (Or.inr rfl)
  rw [if_neg hbottom, honly.cursorRow] at hrow
  rw [hnewline]
  exact (onlyPixels_drawCursor t₁.beginRow).cursorRow.trans hrow

theorem TakesAnyText.staysIn (hany : t.TakesAnyText) (h : t.Booted) (c : U8) : t.StaysIn c :=
  ((wild_termPutc h).mp (hany [c])).2

theorem TakesAnyText.termPutc (hany : t.TakesAnyText) (c : U8) : (t.termPutc c).TakesAnyText :=
  fun cs => hany (c :: cs)

theorem TakesAnyText.written (hany : t.TakesAnyText) (h : t.Booted) :
    t.cursorRow.toNat * 240 + t.cursorCol.toNat < 32400 :=
  (hany.staysIn h 0x41).written (by decide) fun herase => absurd herase.1 (by decide)

theorem TakesAnyText.scrollFits (hany : t.TakesAnyText) (h : t.Booted) : t.ScrollFits := by
  have hwritten := hany.written h
  have hrows := t.termRows.isLt
  induction hn : t.termRows.toNat - t.cursorRow.toNat generalizing t with
  | zero =>
    refine (hany.staysIn h 0x0A).scroll (Or.inl (by decide)) ?_
    show t.termRows.toNat ≤ (t.cursorRow + 1).toNat
    rw [BitVec.toNat_add]
    show _ ≤ (t.cursorRow.toNat + 1) % 256
    omega
  | succ n ih =>
    by_cases hbottom : t.AtBottom
    · exact (hany.staysIn h 0x0A).scroll (Or.inl (by decide)) hbottom
    · have hsame := sameMode_termPutc 0x0A t
      have hrow : (t.termPutc 0x0A).cursorRow.toNat = t.cursorRow.toNat + 1 := by
        rw [cursorRow_termPutc_newline hbottom, BitVec.toNat_add]
        show (t.cursorRow.toNat + 1) % 256 = _
        omega
      have hbooted := h.of_sameMode hsame
      have hfits := ih (hany.termPutc 0x0A) hbooted ((hany.termPutc 0x0A).written hbooted)
        (by rw [hsame.termRows]; exact hrows) (by rw [hsame.termRows, hrow]; omega)
      rwa [ScrollFits, hsame.termRows, hsame.termCols] at hfits

theorem TakesAnyText.line (hany : t.TakesAnyText) (h : t.Booted) :
    t.cursorRow.toNat * 240 + t.termCols.toNat ≤ 32400 := by
  have hwritten := hany.written h
  induction hn : t.termCols.toNat - t.cursorCol.toNat - 1 generalizing t with
  | zero => omega
  | succ n ih =>
    have hcols := t.termCols.isLt
    have hnext : (t.cursorCol + 1).toNat = t.cursorCol.toNat + 1 := by
      rw [BitVec.toNat_add]
      show (t.cursorCol.toNat + 1) % 256 = _
      omega
    obtain ⟨hrow, hcol⟩ := cursor_termPutc_letter (t := t) (by
      show ¬ t.termCols.toNat ≤ (t.cursorCol + 1).toNat
      omega)
    have hsame := sameMode_termPutc 0x41 t
    have hbooted := h.of_sameMode hsame
    have hline := ih (hany.termPutc 0x41) hbooted ((hany.termPutc 0x41).written hbooted)
      (by rw [hsame.termCols, hcol, hnext]; omega)
    rwa [hrow, hsame.termCols] at hline

/-- **Room for text is what it takes.** -/
theorem TakesAnyText.fitForText (hany : t.TakesAnyText) (h : t.Booted) : t.FitForText := by
  have hcell := (hany.staysIn h 0x0A).cell
  have hmode : t.ModeFits := by
    rcases h with hzero | hmode
    · have hwidth := hcell.1
      omega
    · exact hmode
  obtain ⟨hpos, htop, hlast⟩ := hany.scrollFits h
  have hline := hany.line h
  rw [hmode.toNat_rows] at hpos htop hlast
  rw [hmode.toNat_cols] at hlast hline
  exact ⟨hpos, htop, hlast, hcell, hany.written h, hline⟩

/-! ### Runs -/

/-- The responses of a run are such as VideoCore gives. -/
def AllReported (es : List ScreenEvent) : Prop :=
  ∀ fb, ScreenEvent.setResolution (some fb) ∈ es → fb.Reported

/-- A call keeps the grid on the framebuffer, and its accesses depend on the state before. -/
theorem handle_spec (h : t.Booted) (e : ScreenEvent)
    (hreported : ∀ fb, e = .setResolution (some fb) → fb.Reported) :
    (t.handle e).Booted ∧
      ((t.handle e).wild = false ↔ t.wild = false ∧ ∀ c, e = .putc c → t.StaysIn c) := by
  rcases e with (_ | fb) | c | _
  · exact ⟨h, (and_iff_left fun _ he => by cases he).symm⟩
  · refine ⟨Or.inr (modeFits_adopt (hreported fb rfl) t), ?_⟩
    exact (and_iff_left fun _ he => by cases he).symm
  · refine ⟨h.of_sameMode (sameMode_termPutc c t), (wild_termPutc h).trans ?_⟩
    refine and_congr_right fun _ => ⟨fun hstays c' he => ?_, fun hstays => hstays c rfl⟩
    cases he
    exact hstays
  · refine ⟨h.of_sameMode (sameMode_termClear t), ?_⟩
    show t.termClear.wild = false ↔ _
    rw [wild_termClear]
    exact (and_iff_left fun _ he => by cases he).symm

theorem runEvents_append (es es' : List ScreenEvent) (t : Screen) :
    t.runEvents (es ++ es') = (t.runEvents es).runEvents es' := List.foldl_append

theorem booted_runEvents {es : List ScreenEvent} (h : t.Booted) (hreported : AllReported es) :
    (t.runEvents es).Booted := by
  induction es generalizing t with
  | nil => exact h
  | cons e es ih =>
    exact ih (handle_spec h e fun fb he => hreported fb (he ▸ List.mem_cons_self)).1
      fun fb hfb => hreported fb (List.mem_cons_of_mem _ hfb)

theorem wild_runEvents (es : List ScreenEvent) (h : t.Booted) (hreported : AllReported es) :
    (t.runEvents es).wild = false ↔ t.wild = false ∧
      ∀ before c after, es = before ++ .putc c :: after → (t.runEvents before).StaysIn c := by
  induction es generalizing t with
  | nil => exact (and_iff_left fun before _ _ he => by cases before <;> cases he).symm
  | cons e es ih =>
    obtain ⟨hbooted, hwild⟩ :=
      handle_spec h e fun fb he => hreported fb (he ▸ List.mem_cons_self)
    refine (ih hbooted fun fb hfb => hreported fb (List.mem_cons_of_mem _ hfb)).trans ?_
    rw [hwild, and_assoc]
    refine and_congr_right fun _ => ?_
    constructor
    · rintro ⟨hfirst, hrest⟩ before c after he
      rcases before with _ | ⟨e', before⟩
      · exact hfirst c (List.cons.inj he).1
      · injection he with he1 he2
        subst he1
        exact hrest before c after he2
    · intro hall
      refine ⟨fun c he => hall [] c es (by rw [he]; rfl), fun before c after he => ?_⟩
      exact hall (e :: before) c after (by rw [he]; rfl)

theorem fitForText_termClear : t.termClear.FitForText ↔ t.fb.TakesText 0 0 := by
  have hfb := (sameMode_termClear t).fb
  show t.termClear.fb.TakesText 0 0 ↔ _
  rw [hfb]

/-- Where every character comes where a mode takes text, there is room before each of them. -/
theorem fitForText_of_modes {room : Prop} {es : List ScreenEvent} (h : t.Booted)
    (hreported : AllReported es) (hroom : room → t.FitForText)
    (hmodes : ModesTakeText room t es) {before after : List ScreenEvent}
    (he : es = before ++ .putc c :: after) : (t.runEvents before).FitForText := by
  induction es generalizing t room before with
  | nil => cases before <;> cases he
  | cons e es ih =>
    have hhead : ∀ fb, e = .setResolution (some fb) → fb.Reported :=
      fun fb he => hreported fb (he ▸ List.mem_cons_self)
    have htail : AllReported es := fun fb hfb => hreported fb (List.mem_cons_of_mem _ hfb)
    have hbooted := (handle_spec h e hhead).1
    rcases before with _ | ⟨e', before⟩
    · -- the character is the next call
      obtain ⟨rfl, rfl⟩ := List.cons.inj he
      exact hroom hmodes.1
    · obtain ⟨rfl, he'⟩ := List.cons.inj he
      rcases e with (_ | fb) | c' | _
      · have hfit := ih hbooted htail hroom hmodes he'
        exact hfit
      · exact ih hbooted htail id hmodes he'
      · have hfit := hroom hmodes.1
        exact ih hbooted htail (fun _ => fitForText_termPutc (hfit.modeFits h) hfit) hmodes.2 he'
      · exact ih hbooted htail fitForText_termClear.mpr hmodes he'

/-- Where any text has room in the place of each character, each comes where a mode takes
text. -/
theorem modes_of_takesAnyText {room : Prop} {es : List ScreenEvent} (h : t.Booted)
    (hreported : AllReported es) (hroom : t.FitForText → room)
    (hany : ∀ before c after, es = before ++ .putc c :: after →
      (t.runEvents before).TakesAnyText) : ModesTakeText room t es := by
  induction es generalizing t room with
  | nil => exact trivial
  | cons e es ih =>
    have hhead : ∀ fb, e = .setResolution (some fb) → fb.Reported :=
      fun fb he => hreported fb (he ▸ List.mem_cons_self)
    have htail : AllReported es := fun fb hfb => hreported fb (List.mem_cons_of_mem _ hfb)
    have hbooted := (handle_spec h e hhead).1
    have hrest : ∀ before c after, es = before ++ .putc c :: after →
        ((t.handle e).runEvents before).TakesAnyText :=
      fun before c after he => hany (e :: before) c after (congrArg (e :: ·) he)
    rcases e with (_ | fb) | c | _
    · exact ih hbooted htail hroom hrest
    · exact ih hbooted htail id hrest
    · have hnow := hroom ((hany [] c es rfl).fitForText h)
      exact ⟨hnow, ih hbooted htail (fun _ => hnow) hrest⟩
    · exact ih hbooted htail fitForText_termClear.mp hrest

/-- A run in which there is room before each character. -/
theorem wild_of_fitForText {es : List ScreenEvent} (h : t.Booted) (hw : t.wild = false)
    (hreported : AllReported es) (hfit : ∀ before c after, es = before ++ .putc c :: after →
      (t.runEvents before).FitForText) : (t.runEvents es).wild = false := by
  refine (wild_runEvents es h hreported).mpr ⟨hw, fun before c after he => ?_⟩
  have hbefore : AllReported before := fun fb hfb =>
    hreported fb (by rw [he]; exact List.mem_append_left _ hfb)
  have hfit := hfit before c after he
  exact hfit.staysIn (hfit.modeFits (booted_runEvents h hbefore))

/-- **The terminal and its memory, from boot and through every change of mode.**  If each
character comes where a mode takes text, every access of the run is in range; and it is so for
whatever text is printed in the place of any of them only then. -/
theorem wild_runEvents_iff (memory : Raster.Bytes) (es : List ScreenEvent)
    (hreported : AllReported es) :
    (ModesTakeText False (boot memory) es → ∀ before after, es = before ++ after →
      ((boot memory).runEvents before).wild = false) ∧
    (ModesTakeText False (boot memory) es ↔ ∀ before c after, es = before ++ .putc c :: after →
      ∀ cs : List U8, ((boot memory).runEvents (before ++ cs.map .putc)).wild = false) := by
  have hbooted : (boot memory).Booted := Or.inl rfl
  have hbefore : ∀ {before after}, es = before ++ after → AllReported before :=
    fun he fb hfb => hreported fb (by rw [he]; exact List.mem_append_left _ hfb)
  have hstays : ModesTakeText False (boot memory) es → ∀ before after, es = before ++ after →
      ((boot memory).runEvents before).wild = false := by
    intro hmodes before after he
    refine wild_of_fitForText hbooted rfl (hbefore he) fun before' c after' he' => ?_
    have hes : es = before' ++ .putc c :: (after' ++ after) := by
      rw [he, he', List.append_assoc, List.cons_append]
    exact fitForText_of_modes hbooted hreported False.elim hmodes hes
  refine ⟨hstays, ?_, ?_⟩
  · intro hmodes before c after he cs
    have hfit := fitForText_of_modes hbooted hreported False.elim hmodes he
    have hmode := hfit.modeFits (booted_runEvents hbooted (hbefore he))
    rw [runEvents_append]
    exact hfit.takesAnyText hmode (hstays hmodes before _ he) cs
  · intro hany
    refine modes_of_takesAnyText hbooted hreported ?_ fun before c after he cs => ?_
    · -- nothing has been negotiated yet
      intro hfit
      have hwidth : 8 * (boot memory).cursorCol.toNat + 8 ≤ 0 := hfit.cell.1
      omega
    · rw [← runEvents_append]
      exact hany before c after he cs

/-- A mode of three columns and one row. -/
def threeCells : Framebuffer :=
  { base := 0x10000000, size := 768, pitch := 96, width := 24, height := 8 }

/-- A mode of a single cell. -/
def oneCell : Framebuffer :=
  { base := 0x10000000, size := 256, pitch := 32, width := 8, height := 8 }

/-- The mode gets smaller while the cursor is in its third column. -/
def smallerMode : List ScreenEvent :=
  [.setResolution (some threeCells), .putc 0x41, .putc 0x42, .setResolution (some oneCell),
    .putc 0x43]

theorem allReported_smallerMode : AllReported smallerMode := by
  intro fb hfb
  simp only [smallerMode, List.mem_cons, reduceCtorEq, List.not_mem_nil, or_false, false_or,
    ScreenEvent.setResolution.injEq, Option.some.injEq] at hfb
  rcases hfb with rfl | rfl
  · exact ⟨by decide, by decide⟩
  · exact ⟨by decide, by decide⟩

/-- The same with a `term_clear` after the change, and text that scrolls. -/
def clearedMode : List ScreenEvent :=
  [.setResolution (some threeCells), .putc 0x41, .putc 0x42, .setResolution (some oneCell),
    .clear, .putc 0x43, .putc 0x0A, .putc 0x44]

theorem clearedMode_stays_in : ((boot fun _ => 0).runEvents clearedMode).wild = false := by
  refine (wild_runEvents_iff (fun _ => 0) clearedMode ?_).1 ?_ clearedMode [] rfl
  · intro fb hfb
    simp only [clearedMode, List.mem_cons, reduceCtorEq, List.not_mem_nil, or_false, false_or,
      ScreenEvent.setResolution.injEq, Option.some.injEq] at hfb
    rcases hfb with rfl | rfl
    · exact ⟨by decide, by decide⟩
    · exact ⟨by decide, by decide⟩
  · have hthree : threeCells.TakesText 0 0 :=
      Framebuffer.takesText_of_grid (by decide) (by decide) (by decide) (by decide)
    have hone : oneCell.TakesText 0 0 :=
      Framebuffer.takesText_of_grid (by decide) (by decide) (by decide) (by decide)
    exact ⟨hthree, hthree, hone, hone, hone, trivial⟩

/-- **The terminal can leave its memory.** -/
theorem smallerMode_goes_wild :
    ¬ ∀ (memory : Raster.Bytes) (es : List ScreenEvent), AllReported es →
      ((boot memory).runEvents es).wild = false := by
  intro h
  have hwild := h (fun _ => 0) smallerMode allReported_smallerMode
  have hcell := (((wild_runEvents smallerMode (Or.inl rfl) allReported_smallerMode).mp hwild).2
    [.setResolution (some threeCells), .putc 0x41, .putc 0x42, .setResolution (some oneCell)]
    0x43 [] rfl).cell
  -- two characters have moved the cursor two columns on
  have hfits : ((boot fun _ => 0).adopt threeCells).TextFits :=
    ⟨by decide, by decide, by decide, by decide⟩
  have htext := (text_termPutc (c := 0x42) (hfits.termPutc (c := 0x41))).trans
    (congrArg (textPutc 0x42) (text_termPutc (c := 0x41) hfits))
  have hcol : ((((boot fun _ => 0).adopt threeCells).termPutc 0x41).termPutc 0x42).cursorCol.toNat =
      (textPutc 0x42 (textPutc 0x41 ((boot fun _ => 0).adopt threeCells).text)).col :=
    congrArg TextGrid.col htext
  have hwidth := hcell.1
  change 8 * ((((boot fun _ => 0).adopt threeCells).termPutc 0x41).termPutc 0x42).cursorCol.toNat
    + 8 ≤ 8 at hwidth
  rw [hcol] at hwidth
  revert hwidth
  decide

end Screen

end GamingConsole
