/-
The terminal on the screen (`io.cpp`).

Indices into `term_buffer` and the lengths of `memmove` and `memset` are computed in `int`
before they are used as pointers and as `size_t`.  They are integers here, and each access
notes in `wild` whether it stays in the buffer and whether its length is the one meant.

`Screen.text` is what the buffer holds within the grid.  While the grid fits the buffer
(`TextFits`) the functions act on it as the operations of `TextGrid` do
(`text_termPutc`), whatever becomes of the pixels.
-/
import GamingConsole.Library.TextGrid
import GamingConsole.Render

namespace GamingConsole

/-- `MAX_TERM_ROWS`. -/
def maxTermRows : ℤ := 135

/-- `MAX_TERM_COLS`. -/
def maxTermCols : ℤ := 240

namespace Screen

/-! ### Accesses -/

/-- The index lies in `term_buffer`. -/
def inBuffer (i : ℤ) : Bool := decide (0 ≤ i) && decide (i < 32400)

/-- The `len` bytes from index `i` on lie in `term_buffer`. -/
def inBufferRange (i len : ℤ) : Bool :=
  decide (0 ≤ len) && (decide (len = 0) || (decide (0 ≤ i) && decide (i + len ≤ 32400)))

/-- An `int` as a `size_t`. -/
def toSizeT (len : ℤ) : ℤ := len % 2 ^ 64

theorem toSizeT_of_nonneg {len : ℤ} (h : 0 ≤ len) (hlt : len < 65536) : toSizeT len = len :=
  Int.emod_eq_of_lt h (by omega)

/-- `term_buffer[i] = c`. -/
def storeText (i : ℤ) (c : U8) (t : Screen) : Screen :=
  { t with
    termBuffer := Function.update t.termBuffer i c
    wild := t.wild || !inBuffer i }

/-- `memmove` in `term_buffer`; `len` becomes a `size_t`. -/
def moveText (dst src len : ℤ) (t : Screen) : Screen :=
  { t with
    termBuffer := fun i =>
      if dst ≤ i ∧ i < dst + toSizeT len then t.termBuffer (i - dst + src) else t.termBuffer i
    wild := t.wild || !(inBufferRange dst len && inBufferRange src len) }

/-- `memset` in `term_buffer`. -/
def fillText (dst : ℤ) (c : U8) (len : ℤ) (t : Screen) : Screen :=
  { t with
    termBuffer := fun i => if dst ≤ i ∧ i < dst + toSizeT len then c else t.termBuffer i
    wild := t.wild || !inBufferRange dst len }

/-- `memmove` in the framebuffer; `len` is computed in `uint32_t`. -/
def movePixels (dst src : U32) (len : ℤ) (t : Screen) : Screen :=
  { t with
    memory := Raster.move t.memory dst.toNat src.toNat (len % 2 ^ 32).toNat
    wild := t.wild || !(decide (0 ≤ len) && decide (len < 2 ^ 32)) }

/-! ### `io.cpp` -/

/-- `_term_scroll`. -/
def termScroll (t : Screen) : Screen :=
  let rows : ℤ := t.termRows.toNat
  let t := t.moveText 0 maxTermCols ((rows - 1) * maxTermCols)
  let t := t.fillText ((rows - 1) * maxTermCols) 0x20 t.termCols.toNat
  let t := t.movePixels t.fb.base (t.fb.base + 8 * t.fb.pitch) ((rows - 1) * 8 * t.fb.pitch.toNat)
  let y : U32 := BitVec.ofInt 32 ((rows - 1) * 8)
  (List.range (((rows - 1) * 8 + 8).toNat - y.toNat)).foldl (fun t i =>
    t.drawHorizontalLine (y + BitVec.ofNat 32 i) t.backgroundColor) t

/-- Assignments to `cursor_row` and `cursor_col`. -/
def setCursor (row col : U8) (t : Screen) : Screen := { t with cursorRow := row, cursorCol := col }

/-- `term_clear`, on the screen. -/
def termClear (t : Screen) : Screen :=
  let t := t.fillText 0 0x20 (maxTermRows * maxTermCols)
  let t := t.fillScreen t.backgroundColor
  t.setCursor 0 0

/-- `draw_char` at the cursor. -/
def drawCell (c : U8) (fg bg : U32) (t : Screen) : Screen :=
  t.drawChar (t.cursorCol.setWidth 32) (t.cursorRow.setWidth 32) c fg bg

/-- The index of the cursor's cell in `term_buffer`. -/
def cursorIndex (t : Screen) : ℤ := t.cursorRow.toNat * maxTermCols + t.cursorCol.toNat

/-- The lines of `term_putc` that begin a row, after a newline and after a wrap. -/
def beginRow (t : Screen) : Screen :=
  let t := t.setCursor (t.cursorRow + 1) 0
  if t.termRows ≤ t.cursorRow then
    let t := t.termScroll
    t.setCursor (t.termRows - 1) t.cursorCol
  else t

/-- The cursor block, drawn at every exit of `term_putc`. -/
def drawCursor (t : Screen) : Screen := t.drawCell 0x20 t.backgroundColor t.textColor

/-- `term_putc`, of a character that takes back the one before the cursor. -/
def putErase (t : Screen) : Screen :=
  let t := t.setCursor t.cursorRow (t.cursorCol - 1)
  t.storeText t.cursorIndex 0x20

/-- A character into the buffer and onto the screen. -/
def putCell (c : U8) (t : Screen) : Screen :=
  let t := t.storeText t.cursorIndex c
  t.drawCell c t.textColor t.backgroundColor

/-- The cursor goes to the next cell. -/
def advance (t : Screen) : Screen :=
  let t := t.setCursor t.cursorRow (t.cursorCol + 1)
  if t.termCols ≤ t.cursorCol then t.beginRow else t

/-- `term_putc`, of any other character. -/
def putChar (c : U8) (t : Screen) : Screen := (t.putCell c).advance

/-- `term_putc`. -/
def termPutc (c : U8) (t : Screen) : Screen :=
  let t := t.drawCell 0x20 t.textColor t.backgroundColor
  if c = 0x0D ∨ c = 0x0A then t.beginRow.drawCursor
  else if (c = 127 ∨ c = 0x08) ∧ 3 < t.cursorCol then t.putErase.drawCursor
  else (t.putChar c).drawCursor

/-- `term_puts`, of the characters before the terminating zero. -/
def termPuts (str : List U8) (t : Screen) : Screen := str.foldl (fun t c => t.termPutc c) t

/-- The end of `set_resolution`: the globals take the values of the response. -/
def adopt (fb : Framebuffer) (t : Screen) : Screen :=
  { t with
    fb := fb
    termCols := (fb.width / 8).setWidth 8
    termRows := (fb.height / 8).setWidth 8 }

/-- The globals at boot. -/
def boot (memory : Raster.Bytes) : Screen where
  fb := { base := 0, size := 0, pitch := 0, width := 0, height := 0 }
  termRows := 135
  termCols := 240
  cursorRow := 0
  cursorCol := 0
  textColor := packColor 255 255 255
  backgroundColor := packColor 0 0 0
  termBuffer := fun _ => 0
  memory := memory
  wild := false

/-! ### What text leaves alone -/

/-- The framebuffer, the size of the grid and the colours are the same. -/
structure SameMode (t t' : Screen) : Prop where
  fb : t'.fb = t.fb
  termRows : t'.termRows = t.termRows
  termCols : t'.termCols = t.termCols
  textColor : t'.textColor = t.textColor
  backgroundColor : t'.backgroundColor = t.backgroundColor

variable {t t' t'' : Screen}

theorem SameMode.refl (t : Screen) : SameMode t t := ⟨rfl, rfl, rfl, rfl, rfl⟩

theorem SameMode.trans (h : SameMode t t') (h' : SameMode t' t'') : SameMode t t'' :=
  ⟨h'.fb.trans h.fb, h'.termRows.trans h.termRows, h'.termCols.trans h.termCols,
    h'.textColor.trans h.textColor, h'.backgroundColor.trans h.backgroundColor⟩

theorem OnlyPixels.sameMode (h : OnlyPixels t t') : SameMode t t' := by
  rw [h.1]
  exact ⟨rfl, rfl, rfl, rfl, rfl⟩

theorem onlyPixels_drawCell (c : U8) (fg bg : U32) : OnlyPixels t (t.drawCell c fg bg) :=
  onlyPixels_drawChar _ _ _ _ _

/-- The scroll, up to what it draws. -/
def scrolled (t : Screen) : Screen :=
  let rows : ℤ := t.termRows.toNat
  let t := t.moveText 0 maxTermCols ((rows - 1) * maxTermCols)
  let t := t.fillText ((rows - 1) * maxTermCols) 0x20 t.termCols.toNat
  t.movePixels t.fb.base (t.fb.base + 8 * t.fb.pitch) ((rows - 1) * 8 * t.fb.pitch.toNat)

theorem onlyPixels_termScroll (t : Screen) : OnlyPixels t.scrolled t.termScroll :=
  .foldl fun _ _ => onlyPixels_drawHorizontalLine _ _

theorem sameMode_setCursor (row col : U8) (t : Screen) : SameMode t (t.setCursor row col) :=
  ⟨rfl, rfl, rfl, rfl, rfl⟩

theorem sameMode_storeText (i : ℤ) (c : U8) (t : Screen) : SameMode t (t.storeText i c) :=
  ⟨rfl, rfl, rfl, rfl, rfl⟩

theorem sameMode_scrolled (t : Screen) : SameMode t t.scrolled := ⟨rfl, rfl, rfl, rfl, rfl⟩

theorem sameMode_beginRow (t : Screen) : SameMode t t.beginRow := by
  refine (sameMode_setCursor (t.cursorRow + 1) 0 t).trans ?_
  rw [beginRow]
  dsimp only
  generalize t.setCursor (t.cursorRow + 1) 0 = t
  split
  · exact ((sameMode_scrolled t).trans (onlyPixels_termScroll t).sameMode).trans
      (sameMode_setCursor _ _ _)
  · exact .refl t

theorem sameMode_putErase (t : Screen) : SameMode t t.putErase :=
  (sameMode_setCursor _ _ t).trans (sameMode_storeText _ _ _)

theorem sameMode_putCell (c : U8) (t : Screen) : SameMode t (t.putCell c) :=
  (sameMode_storeText _ _ _).trans (onlyPixels_drawCell _ _ _).sameMode

theorem sameMode_advance (t : Screen) : SameMode t t.advance := by
  refine (sameMode_setCursor t.cursorRow (t.cursorCol + 1) t).trans ?_
  rw [advance]
  generalize t.setCursor t.cursorRow (t.cursorCol + 1) = t
  split
  · exact sameMode_beginRow t
  · exact .refl t

theorem sameMode_putChar (c : U8) (t : Screen) : SameMode t (t.putChar c) :=
  (sameMode_putCell c t).trans (sameMode_advance _)

theorem sameMode_termPutc (c : U8) (t : Screen) : SameMode t (t.termPutc c) := by
  refine (onlyPixels_drawCell 0x20 t.textColor t.backgroundColor).sameMode.trans ?_
  rw [termPutc]
  generalize t.drawCell 0x20 t.textColor t.backgroundColor = t
  split
  · exact (sameMode_beginRow t).trans (onlyPixels_drawCell _ _ _).sameMode
  · split
    · exact (sameMode_putErase t).trans (onlyPixels_drawCell _ _ _).sameMode
    · exact (sameMode_putChar c t).trans (onlyPixels_drawCell _ _ _).sameMode

/-! ### The text on the screen -/

/-- What the buffer holds in the grid. -/
def text (t : Screen) : TextGrid U8 where
  rows := t.termRows.toNat
  cols := t.termCols.toNat
  row := t.cursorRow.toNat
  col := t.cursorCol.toNat
  cell := fun r k =>
    if r < t.termRows.toNat ∧ k < t.termCols.toNat then t.termBuffer (r * maxTermCols + k) else 0x20

end Screen

/-- What `term_putc` does to the text. -/
def textPutc (c : U8) (g : TextGrid U8) : TextGrid U8 :=
  if c = 0x0D ∨ c = 0x0A then g.newline 0x20
  else if (c = 127 ∨ c = 0x08) ∧ 3 < g.col then g.erase 0x20
  else g.put 0x20 c

/-- The bytes of a string, on the text. -/
def textPuts (bytes : List U8) (g : TextGrid U8) : TextGrid U8 :=
  bytes.foldl (fun g c => textPutc c g) g

namespace Screen

variable {t t' : Screen} {c : U8}

/-- The grid fits the buffer, and the cursor is in it. -/
structure TextFits (t : Screen) : Prop where
  rows : t.termRows.toNat ≤ 135
  cols : t.termCols.toNat ≤ 240
  cursor : t.text.InGrid

theorem cell_text (t : Screen) (r k : ℕ) : t.text.cell r k =
    if r < t.termRows.toNat ∧ k < t.termCols.toNat then t.termBuffer (r * maxTermCols + k)
    else 0x20 := rfl

theorem termBuffer_fillText (dst : ℤ) (len i : ℤ) : (t.fillText dst c len).termBuffer i =
    if dst ≤ i ∧ i < dst + toSizeT len then c else t.termBuffer i := rfl

theorem termBuffer_moveText (dst src len i : ℤ) : (t.moveText dst src len).termBuffer i =
    if dst ≤ i ∧ i < dst + toSizeT len then t.termBuffer (i - dst + src) else t.termBuffer i := rfl

theorem OnlyPixels.text (h : OnlyPixels t t') : t'.text = t.text := by
  rw [h.1]
  rfl

theorem OnlyPixels.textFits (h : OnlyPixels t t') (hfits : t.TextFits) : t'.TextFits :=
  ⟨by rw [h.sameMode.termRows]; exact hfits.rows, by rw [h.sameMode.termCols]; exact hfits.cols,
    by rw [h.text]; exact hfits.cursor⟩

theorem text_storeText (h : t.TextFits) : (t.storeText t.cursorIndex c).text = t.text.write c := by
  have hcols := h.cols
  have hrow := h.cursor.row
  have hcol := h.cursor.col
  change t.cursorRow.toNat < t.termRows.toNat at hrow
  change t.cursorCol.toNat < t.termCols.toNat at hcol
  refine congrArg (fun f => { t.text with cell := f }) (funext fun r => funext fun k => ?_)
  refine Eq.trans ?_ (TextGrid.cell_write r k).symm
  show (if r < t.termRows.toNat ∧ k < t.termCols.toNat then
    Function.update t.termBuffer t.cursorIndex c (r * maxTermCols + k) else 0x20) = _
  by_cases hin : r < t.termRows.toNat ∧ k < t.termCols.toNat
  · rw [if_pos hin]
    by_cases hrk : r = t.cursorRow.toNat ∧ k = t.cursorCol.toNat
    · rw [if_pos (show r = t.text.row ∧ k = t.text.col from hrk), hrk.1, hrk.2]
      exact Function.update_self _ _ _
    · -- different cells have different indices
      have hne : (r * maxTermCols + k : ℤ) ≠ t.cursorIndex := by
        rw [cursorIndex, maxTermCols]
        omega
      rw [Function.update_of_ne hne, if_neg (show ¬ (r = t.text.row ∧ k = t.text.col) from hrk)]
      exact (if_pos hin).symm
  · have hrk : ¬ (r = t.text.row ∧ k = t.text.col) := fun hrk =>
      hin (by rw [hrk.1, hrk.2]; exact ⟨hrow, hcol⟩)
    rw [if_neg hin, if_neg hrk]
    exact (if_neg hin).symm

/-- The scroll moves rows whole and blanks the grid's part of the last. -/
theorem text_termScroll (hpos : 0 < t.termRows.toNat) (hrows : t.termRows.toNat ≤ 135)
    (hcols : t.termCols.toNat ≤ 240) :
    t.termScroll.text = { t.text with
      cell := fun r k => if r + 1 < t.text.rows then t.text.cell (r + 1) k else 0x20 } := by
  rw [(onlyPixels_termScroll t).text]
  refine congrArg (fun f => { t.text with cell := f }) (funext fun r => funext fun k => ?_)
  refine (cell_text t.scrolled r k).trans ?_
  change (if r < t.termRows.toNat ∧ k < t.termCols.toNat then Screen.termBuffer (fillText
    ((t.termRows.toNat - 1 : ℤ) * maxTermCols) 0x20 t.termCols.toNat (moveText 0 maxTermCols
      ((t.termRows.toNat - 1 : ℤ) * maxTermCols) t)) (r * maxTermCols + k) else 0x20)
    = if r + 1 < t.termRows.toNat then t.text.cell (r + 1) k else 0x20
  rw [termBuffer_fillText, termBuffer_moveText, cell_text, maxTermCols,
    toSizeT_of_nonneg (by omega) (by omega), toSizeT_of_nonneg (by omega) (by omega)]
  by_cases hin : r < t.termRows.toNat ∧ k < t.termCols.toNat
  · rw [if_pos hin]
    by_cases hlast : r + 1 < t.termRows.toNat
    · rw [if_neg (by omega), if_pos (by omega), if_pos hlast, if_pos ⟨hlast, hin.2⟩]
      exact congrArg t.termBuffer (by omega)
    · rw [if_pos (by omega), if_neg hlast]
  · rw [if_neg hin]
    split_ifs with h1 h2
    · omega
    · rfl
    · rfl

theorem text_beginRow (h : t.TextFits) : t.beginRow.text = t.text.newline 0x20 := by
  have hrows := h.rows
  have hrow := h.cursor.row
  change t.cursorRow.toNat < t.termRows.toNat at hrow
  have hnext : (t.cursorRow + 1).toNat = t.cursorRow.toNat + 1 := by
    rw [BitVec.toNat_add]
    show (_ + 1) % _ = _
    omega
  rw [beginRow, TextGrid.newline, TextGrid.lineFeed]
  by_cases hlast : t.termRows.toNat ≤ t.cursorRow.toNat + 1
  · have hle : (t.setCursor (t.cursorRow + 1) 0).termRows ≤
        (t.setCursor (t.cursorRow + 1) 0).cursorRow := by
      show t.termRows.toNat ≤ (t.cursorRow + 1).toNat
      omega
    have hdown : ¬ t.text.carriageReturn.row + 1 < t.text.carriageReturn.rows := by
      show ¬ t.cursorRow.toNat + 1 < t.termRows.toNat
      omega
    have hscroll := text_termScroll (t := t.setCursor (t.cursorRow + 1) 0)
      (show 0 < t.termRows.toNat by omega) h.rows h.cols
    have hcol : (t.setCursor (t.cursorRow + 1) 0).termScroll.cursorCol.toNat = 0 :=
      congrArg TextGrid.col hscroll
    have hsame := (sameMode_scrolled (t.setCursor (t.cursorRow + 1) 0)).trans
      (onlyPixels_termScroll _).sameMode
    rw [if_pos hle, if_neg hdown]
    generalize (t.setCursor (t.cursorRow + 1) 0).termScroll = t' at hscroll hcol hsame
    -- the cursor stays on the last row
    have hbottom : (t'.termRows - 1).toNat = t.cursorRow.toNat := by
      rw [hsame.termRows, BitVec.toNat_sub_of_le]
      · show t.termRows.toNat - 1 = _
        omega
      · show 1 ≤ t.termRows.toNat
        omega
    show { t'.text with row := (t'.termRows - 1).toNat } = _
    rw [hscroll, hbottom]
    rfl
  · have hle : ¬ (t.setCursor (t.cursorRow + 1) 0).termRows ≤
        (t.setCursor (t.cursorRow + 1) 0).cursorRow := by
      show ¬ t.termRows.toNat ≤ (t.cursorRow + 1).toNat
      omega
    have hdown : t.text.carriageReturn.row + 1 < t.text.carriageReturn.rows := by
      show t.cursorRow.toNat + 1 < t.termRows.toNat
      omega
    rw [if_neg hle, if_pos hdown]
    show { t.text.carriageReturn with row := (t.cursorRow + 1).toNat } = _
    rw [hnext]
    rfl

theorem text_putErase (h : t.TextFits) (hcol : 3 < t.cursorCol) :
    t.putErase.text = t.text.erase 0x20 := by
  change 3 < t.cursorCol.toNat at hcol
  have hback : (t.cursorCol - 1).toNat = t.cursorCol.toNat - 1 :=
    BitVec.toNat_sub_of_le (show 1 ≤ t.cursorCol.toNat by omega)
  have hmoved : (t.setCursor t.cursorRow (t.cursorCol - 1)).text = t.text.back := by
    show { t.text with col := (t.cursorCol - 1).toNat } = _
    rw [hback]
    rfl
  rw [putErase, TextGrid.erase, ← hmoved]
  exact text_storeText ⟨h.rows, h.cols, by rw [hmoved]; exact h.cursor.back⟩

theorem text_putCell (h : t.TextFits) : (t.putCell c).text = t.text.write c :=
  (onlyPixels_drawCell _ _ _).text.trans (text_storeText h)

/-- A row begins at its first column, wherever the cursor was. -/
theorem beginRow_setCursor (k : U8) : (t.setCursor t.cursorRow k).beginRow = t.beginRow := by
  have h : (t.setCursor t.cursorRow k).setCursor ((t.setCursor t.cursorRow k).cursorRow + 1) 0
      = t.setCursor (t.cursorRow + 1) 0 := rfl
  rw [beginRow, beginRow, h]

theorem text_advance (h : t.TextFits) : t.advance.text =
    if t.text.col + 1 < t.text.cols then { t.text with col := t.text.col + 1 }
    else t.text.newline 0x20 := by
  have hcols := h.cols
  have hcol := h.cursor.col
  change t.cursorCol.toNat < t.termCols.toNat at hcol
  have hnext : (t.cursorCol + 1).toNat = t.cursorCol.toNat + 1 := by
    rw [BitVec.toNat_add]
    show (_ + 1) % _ = _
    omega
  rw [advance]
  by_cases hlast : t.cursorCol.toNat + 1 < t.termCols.toNat
  · have hle : ¬ (t.setCursor t.cursorRow (t.cursorCol + 1)).termCols ≤
        (t.setCursor t.cursorRow (t.cursorCol + 1)).cursorCol := by
      show ¬ t.termCols.toNat ≤ (t.cursorCol + 1).toNat
      omega
    rw [if_neg hle, if_pos (show t.text.col + 1 < t.text.cols from hlast)]
    show { t.text with col := (t.cursorCol + 1).toNat } = _
    rw [hnext]
    rfl
  · have hle : (t.setCursor t.cursorRow (t.cursorCol + 1)).termCols ≤
        (t.setCursor t.cursorRow (t.cursorCol + 1)).cursorCol := by
      show t.termCols.toNat ≤ (t.cursorCol + 1).toNat
      omega
    rw [if_pos hle, if_neg (show ¬ t.text.col + 1 < t.text.cols from hlast), beginRow_setCursor,
      text_beginRow h]

theorem text_putChar (h : t.TextFits) : (t.putChar c).text = t.text.put 0x20 c := by
  have hsame := sameMode_putCell c t
  have htext := text_putCell (c := c) h
  rw [putChar, text_advance ⟨by rw [hsame.termRows]; exact h.rows,
    by rw [hsame.termCols]; exact h.cols, by rw [htext]; exact h.cursor.write⟩, htext]
  rfl

/-- **`term_putc` on the buffer.** -/
theorem text_termPutc (h : t.TextFits) : (t.termPutc c).text = textPutc c t.text := by
  have honly := onlyPixels_drawCell (t := t) 0x20 t.textColor t.backgroundColor
  have hfits := honly.textFits h
  have htext := honly.text
  have hcol : (t.drawCell 0x20 t.textColor t.backgroundColor).cursorCol = t.cursorCol := by
    rw [honly.1]
  rw [termPutc, textPutc, ← htext]
  generalize t.drawCell 0x20 t.textColor t.backgroundColor = t' at *
  by_cases hnewline : c = 0x0D ∨ c = 0x0A
  · rw [if_pos hnewline, if_pos hnewline]
    exact (onlyPixels_drawCell _ _ _).text.trans (text_beginRow hfits)
  · rw [if_neg hnewline, if_neg hnewline]
    by_cases herase : (c = 127 ∨ c = 0x08) ∧ 3 < t'.cursorCol
    · rw [if_pos herase, if_pos (show (c = 127 ∨ c = 0x08) ∧ 3 < t'.text.col from herase)]
      exact (onlyPixels_drawCell _ _ _).text.trans (text_putErase hfits herase.2)
    · rw [if_neg herase, if_neg (show ¬ ((c = 127 ∨ c = 0x08) ∧ 3 < t'.text.col) from herase)]
      exact (onlyPixels_drawCell _ _ _).text.trans (text_putChar hfits)

theorem inGrid_textPutc {g : TextGrid U8} (h : g.InGrid) : (textPutc c g).InGrid := by
  rw [textPutc]
  split
  · exact h.newline
  · split
    · exact h.erase
    · exact h.put

theorem blankFrom_textPutc {isBlank : U8 → Prop} {g : TextGrid U8} (h : g.BlankFrom isBlank)
    (hblank : isBlank 0x20) : (textPutc c g).BlankFrom isBlank := by
  rw [textPutc]
  split
  · exact h.newline hblank
  · split
    · exact h.erase hblank
    · exact h.put hblank

theorem TextFits.termPutc (h : t.TextFits) : (t.termPutc c).TextFits := by
  have hsame := sameMode_termPutc c t
  refine ⟨by rw [hsame.termRows]; exact h.rows, by rw [hsame.termCols]; exact h.cols, ?_⟩
  rw [text_termPutc h]
  exact inGrid_textPutc h.cursor

/-- **`term_puts` on the buffer.** -/
theorem TextFits.termPuts (h : t.TextFits) (str : List U8) :
    (t.termPuts str).TextFits ∧ (t.termPuts str).text = textPuts str t.text := by
  induction str generalizing t with
  | nil => exact ⟨h, rfl⟩
  | cons c str ih =>
    obtain ⟨hfits, htext⟩ := ih (h.termPutc (c := c))
    refine ⟨hfits, htext.trans ?_⟩
    rw [text_termPutc h]
    rfl

theorem sameMode_termClear (t : Screen) : SameMode t t.termClear := by
  have hfill : SameMode t (t.fillText 0 0x20 (maxTermRows * maxTermCols)) :=
    ⟨rfl, rfl, rfl, rfl, rfl⟩
  refine hfill.trans ?_
  rw [termClear]
  generalize t.fillText 0 0x20 (maxTermRows * maxTermCols) = t
  exact (onlyPixels_fillScreen _).sameMode.trans (sameMode_setCursor _ _ _)

theorem text_termClear (hrows : t.termRows.toNat ≤ 135) (hcols : t.termCols.toNat ≤ 240) :
    t.termClear.text = t.text.clear 0x20 := by
  have hfilled : (t.fillText 0 0x20 (maxTermRows * maxTermCols)).text
      = { t.text with cell := fun _ _ => 0x20 } := by
    refine congrArg (fun f => { t.text with cell := f }) (funext fun r => funext fun k => ?_)
    refine (cell_text _ r k).trans ?_
    change (if r < t.termRows.toNat ∧ k < t.termCols.toNat then _ else _) = _
    rw [termBuffer_fillText, toSizeT_of_nonneg (by decide) (by decide), maxTermRows, maxTermCols]
    by_cases hin : r < t.termRows.toNat ∧ k < t.termCols.toNat
    · rw [if_pos hin, if_pos (by omega)]
    · rw [if_neg hin]
  rw [termClear]
  generalize t.fillText 0 0x20 (maxTermRows * maxTermCols) = t' at hfilled
  have hdrawn := (onlyPixels_fillScreen (t := t') t'.backgroundColor).text
  generalize Screen.fillScreen t'.backgroundColor t' = t'' at hdrawn
  show { t''.text with row := 0, col := 0 } = _
  rw [hdrawn, hfilled]
  rfl

/-- A grid that fits `term_buffer` and has cells is fit for text once it is cleared. -/
theorem textFits_termClear (hrows : 0 < t.termRows.toNat ∧ t.termRows.toNat ≤ 135)
    (hcols : 0 < t.termCols.toNat ∧ t.termCols.toNat ≤ 240) : t.termClear.TextFits := by
  have hsame := sameMode_termClear t
  refine ⟨by rw [hsame.termRows]; exact hrows.2, by rw [hsame.termCols]; exact hcols.2, ?_⟩
  rw [text_termClear hrows.2 hcols.2]
  exact ⟨hrows.1, hcols.1⟩

end Screen

end GamingConsole
