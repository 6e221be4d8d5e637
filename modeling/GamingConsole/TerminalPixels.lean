/-
The pixels show the text.

Text buffer and framebuffer are written by separate statements, and scrolled by separate
`memmove`s.  Between two characters they agree in every cell but the cursor's, where the
cursor block stands on a blank (`DisplayedBut`); inside `term_putc`, once the block is gone,
they agree everywhere (`Displayed`).

* `displayed_drawCell` — drawing the cursor's character brings the two together;
* `displayed_termScroll` — the two scrolls move the same rows;
* **`showsText_termPutcs`** — whatever bytes follow a `term_clear`, the screen shows the text.

Two sums of the code are computed in `uint32_t`: the offset of a line, which `put_pixel`
multiplies out (`Framebuffer.Sound`), and the address of the eighth line, which `_term_scroll`
moves pixels from (`GridFits.scroll`).  Where either wraps the screen does not show the text
(`wide_pitch_not_shown`, `far_base_not_shown`).
-/
import GamingConsole.TerminalSafe

namespace GamingConsole

namespace Screen

/-! ### Glyphs -/

/-- A space has no pixels. -/
theorem charColor_space {fg bg : U32} {x y : ℕ} : charColor 0x20 fg bg x y = bg := by
  have hline : ∀ i < 8, (glyph 0x20).getD i 0 = 0 := by decide
  rw [charColor, glyphBit, hline (y % 8) (Nat.mod_lt _ (by omega)), if_neg]
  simp

variable {t t' : Screen} {c : U8}

/-! ### What is displayed -/

/-- The pixels of a cell are those of its character. -/
def CellShown (t : Screen) (r k : ℕ) : Prop :=
  ∀ x y, x / 8 = k → y / 8 = r →
    t.pixel x y = charColor (t.text.cell r k) t.textColor t.backgroundColor x y

/-- Every cell of the grid is displayed. -/
def Displayed (t : Screen) : Prop :=
  ∀ r < t.termRows.toNat, ∀ k < t.termCols.toNat, t.CellShown r k

/-- Every cell but the cursor's is displayed. -/
def DisplayedBut (t : Screen) : Prop :=
  ∀ r < t.termRows.toNat, ∀ k < t.termCols.toNat,
    ¬ (r = t.cursorRow.toNat ∧ k = t.cursorCol.toNat) → t.CellShown r k

/-- The framebuffer has the grid, and what a scroll moves starts at a 32-bit address. -/
structure GridFits (t : Screen) : Prop where
  sound : t.fb.Sound
  cols : 8 * t.termCols.toNat ≤ t.fb.width.toNat
  rows : 8 * t.termRows.toNat ≤ t.fb.height.toNat
  scroll : 2 ≤ t.termRows.toNat → t.fb.base.toNat + 8 * t.fb.pitch.toNat < 2 ^ 32

theorem SameMode.gridFits (hsame : SameMode t t') (h : t.GridFits) : t'.GridFits := by
  refine ⟨?_, ?_, ?_, ?_⟩
  · rw [hsame.fb]
    exact h.sound
  · rw [hsame.termCols, hsame.fb]
    exact h.cols
  · rw [hsame.termRows, hsame.fb]
    exact h.rows
  · rw [hsame.termRows, hsame.fb]
    exact h.scroll

theorem Displayed.but (h : t.Displayed) : t.DisplayedBut := fun r hr k hk _ => h r hr k hk

/-- The cell of the cursor. -/
theorem GridFits.hasCell (h : t.GridFits) (hin : t.text.InGrid) :
    t.fb.HasCell t.cursorCol.toNat t.cursorRow.toNat := by
  have hcols := h.cols
  have hrows := h.rows
  have hrow := hin.row
  have hcol := hin.col
  change t.cursorRow.toNat < t.termRows.toNat at hrow
  change t.cursorCol.toNat < t.termCols.toNat at hcol
  exact ⟨by omega, by omega⟩

/-! ### Drawing at the cursor -/

theorem drawn_drawCell {fg bg : U32} (h : t.fb.Sound)
    (hcell : t.fb.HasCell t.cursorCol.toNat t.cursorRow.toNat) :
    Drawn t (t.drawCell c fg bg) fun x y =>
      if x / 8 = t.cursorCol.toNat ∧ y / 8 = t.cursorRow.toNat then
        some (charColor c fg bg x y) else none := drawn_drawChar h hcell

/-- A pixel of the grid after the cursor's cell has been drawn. -/
theorem pixel_drawCell {fg bg : U32} (h : t.GridFits) (hin : t.text.InGrid) {x y : ℕ}
    (hx : x / 8 < t.termCols.toNat) :
    (t.drawCell c fg bg).pixel x y =
      if x / 8 = t.cursorCol.toNat ∧ y / 8 = t.cursorRow.toNat then charColor c fg bg x y
      else t.pixel x y := by
  have hcols := h.cols
  have hx' : x < t.fb.width.toNat := by omega
  refine ((drawn_drawCell h.sound (h.hasCell hin)).pixel x hx' y).trans ?_
  split
  · rfl
  · rfl

/-- Drawing the character of the cursor's cell completes the display. -/
theorem displayed_drawCell (h : t.GridFits) (hin : t.text.InGrid) (hbut : t.DisplayedBut)
    (hcell : t.text.cell t.cursorRow.toNat t.cursorCol.toNat = c) :
    (t.drawCell c t.textColor t.backgroundColor).Displayed := by
  have honly := onlyPixels_drawCell (t := t) c t.textColor t.backgroundColor
  intro r hr k hk x y hx hy
  rw [honly.sameMode.termRows] at hr
  rw [honly.sameMode.termCols] at hk
  rw [pixel_drawCell h hin (by rw [hx]; exact hk), honly.text, honly.sameMode.textColor,
    honly.sameMode.backgroundColor, hx, hy]
  by_cases hcursor : k = t.cursorCol.toNat ∧ r = t.cursorRow.toNat
  · rw [if_pos hcursor, hcursor.1, hcursor.2, hcell]
  · rw [if_neg hcursor]
    exact hbut r hr k hk (fun h => hcursor h.symm) x y hx hy

/-- Whatever is drawn at the cursor, the other cells keep their display. -/
theorem displayedBut_drawCell {fg bg : U32} (h : t.GridFits) (hin : t.text.InGrid)
    (hbut : t.DisplayedBut) : (t.drawCell c fg bg).DisplayedBut := by
  have honly := onlyPixels_drawCell (t := t) c fg bg
  intro r hr k hk hcursor x y hx hy
  rw [honly.sameMode.termRows] at hr
  rw [honly.sameMode.termCols] at hk
  rw [honly.cursorRow, honly.cursorCol] at hcursor
  rw [pixel_drawCell h hin (by rw [hx]; exact hk), honly.text, honly.sameMode.textColor,
    honly.sameMode.backgroundColor, hx, hy, if_neg fun h => hcursor h.symm]
  exact hbut r hr k hk hcursor x y hx hy

/-- A character in the buffer that is not drawn yet. -/
theorem displayedBut_storeText (hfits : t.TextFits) (hbut : t.DisplayedBut) :
    (t.storeText t.cursorIndex c).DisplayedBut := by
  intro r hr k hk hcursor x y hx hy
  rw [text_storeText hfits, TextGrid.cell_write,
    if_neg (show ¬ (r = t.text.row ∧ k = t.text.col) from hcursor)]
  exact hbut r hr k hk hcursor x y hx hy

/-! ### The scroll -/

theorem memory_scrolled (t : Screen) : t.scrolled.memory =
    Raster.move t.memory t.fb.base.toNat (t.fb.base + 8 * t.fb.pitch).toNat
      (((t.termRows.toNat : ℤ) - 1) * 8 * t.fb.pitch.toNat % 2 ^ 32).toNat := rfl

/-- The length of the `memmove` does not wrap. -/
theorem toNat_moved {rows : U8} {pitch : U32} (hpos : 0 < rows.toNat)
    (hlt : (rows.toNat - 1) * 8 * pitch.toNat < 2 ^ 32) :
    (((rows.toNat : ℤ) - 1) * 8 * pitch.toNat % 2 ^ 32).toNat =
      (rows.toNat - 1) * 8 * pitch.toNat := by
  rw [moved_eq_cast hpos, Int.emod_eq_of_lt (Int.natCast_nonneg _) (by exact_mod_cast hlt),
    Int.toNat_natCast]

/-- The lines of a scroll are whole lines of the framebuffer. -/
theorem pixel_scrolled (h : t.GridFits) (hpos : 0 < t.termRows.toNat)
    (hcols : 0 < t.termCols.toNat) {x y : ℕ} (hx : x < t.fb.width.toNat)
    (hy : y < (t.termRows.toNat - 1) * 8) : t.scrolled.pixel x y = t.pixel x (y + 8) := by
  have hline := h.sound.line
  have hbytes := h.sound.bytes
  have hscroll := h.scroll (by omega)
  have hwidth := h.cols
  have hheight := h.rows
  have hpitch : 0 < t.fb.pitch.toNat := by omega
  -- the bytes that move
  have hmul : ((t.termRows.toNat - 1) * 8 + 8) * t.fb.pitch.toNat ≤
      t.fb.pitch.toNat * t.fb.height.toNat := by
    rw [Nat.mul_comm]
    exact Nat.mul_le_mul_left _ (by omega)
  rw [Nat.add_mul] at hmul
  have hstep : (8 * t.fb.pitch).toNat = 8 * t.fb.pitch.toNat := by
    rw [BitVec.toNat_mul]
    show 8 * t.fb.pitch.toNat % 2 ^ 32 = _
    omega
  have hsrc : (t.fb.base + 8 * t.fb.pitch).toNat = t.fb.base.toNat + 8 * t.fb.pitch.toNat := by
    rw [BitVec.toNat_add, hstep]
    omega
  have hget := @Raster.get_move (t.fb.raster h.sound) t.memory x y 8
    ((t.termRows.toNat - 1) * 8) hx hy
  rw [pixel, memory_scrolled, hsrc, toNat_moved hpos (by omega)]
  exact hget

/-- The eight lines at the bottom. -/
theorem drawn_termScroll (hsound : t.fb.Sound) (hheight : 8 * t.termRows.toNat ≤ t.fb.height.toNat)
    (hpos : 0 < t.termRows.toNat) :
    Drawn t.scrolled t.termScroll fun _ y =>
      if (t.termRows.toNat - 1) * 8 ≤ y ∧ y < (t.termRows.toNat - 1) * 8 + 8 then
        some t.backgroundColor else none := by
  have hy : (BitVec.ofInt 32 ((t.termRows.toNat - 1 : ℤ) * 8)).toNat =
      (t.termRows.toNat - 1) * 8 := by
    rw [BitVec.toNat_ofInt]
    have := t.termRows.isLt
    omega
  have hcount : (((t.termRows.toNat : ℤ) - 1) * 8 + 8).toNat -
      (BitVec.ofInt 32 ((t.termRows.toNat - 1 : ℤ) * 8)).toNat = 8 := by
    rw [hy]
    omega
  show Drawn t.scrolled ((List.range (_ - _)).foldl _ t.scrolled) _
  rw [hcount]
  refine drawn_foldl
    (fun i _ y => if y = (t.termRows.toNat - 1) * 8 + i then some t.backgroundColor else none)
    (fun i _ y => if (t.termRows.toNat - 1) * 8 ≤ y ∧ y < (t.termRows.toNat - 1) * 8 + i then
      some t.backgroundColor else none)
    (fun x y => if_neg (by omega)) (fun i hi s hs => ?_) fun i _ x _ y => ?_
  · have hi' : (BitVec.ofInt 32 ((t.termRows.toNat - 1 : ℤ) * 8) + BitVec.ofNat 32 i).toNat =
        (t.termRows.toNat - 1) * 8 + i := by
      rw [BitVec.toNat_add, hy, BitVec.toNat_ofNat]
      omega
    have hline := drawn_drawHorizontalLine (t := s) (c := s.backgroundColor)
      (y := BitVec.ofInt 32 ((t.termRows.toNat - 1 : ℤ) * 8) + BitVec.ofNat 32 i)
      (by rw [hs.fb]; exact hsound) (by rw [hs.fb, hi']; show _ < t.fb.height.toNat; omega)
    rw [hi'] at hline
    rw [show t.backgroundColor = s.backgroundColor from hs.sameMode.backgroundColor.symm]
    exact hline
  · split_ifs <;> first | rfl | omega

/-- **The scroll of the pixels is the scroll of the text.** -/
theorem displayed_termScroll (h : t.GridFits) (hpos : 0 < t.termRows.toNat)
    (hrows : t.termRows.toNat ≤ 135) (hcols : t.termCols.toNat ≤ 240) (hshown : t.Displayed) :
    t.termScroll.Displayed := by
  have hwidth := h.cols
  have hsame := (sameMode_scrolled t).trans (onlyPixels_termScroll t).sameMode
  intro r hr k hk x y hx hy
  rw [hsame.termRows] at hr
  rw [hsame.termCols] at hk
  rw [(drawn_termScroll h.sound h.rows hpos).pixel x (by show x < t.fb.width.toNat; omega) y,
    text_termScroll hpos hrows hcols, hsame.textColor, hsame.backgroundColor]
  show _ = charColor (if r + 1 < t.termRows.toNat then t.text.cell (r + 1) k else 0x20) _ _ _ _
  by_cases hlast : r + 1 < t.termRows.toNat
  · rw [if_pos hlast, if_neg (by omega), Option.getD_none,
      pixel_scrolled h hpos (by omega) (by omega) (by omega),
      hshown (r + 1) hlast k hk x (y + 8) hx (by omega), charColor, charColor, Nat.add_mod_right]
  · rw [if_neg hlast, if_pos (by omega), charColor_space]
    rfl

/-! ### One character -/

/-- The cursor can go anywhere while the display is complete. -/
theorem Displayed.setCursor (h : t.Displayed) (row col : U8) : (t.setCursor row col).Displayed := h

theorem displayed_beginRow (h : t.GridFits) (hfits : t.TextFits) (hshown : t.Displayed) :
    t.beginRow.Displayed := by
  have hrow := hfits.cursor.row
  change t.cursorRow.toNat < t.termRows.toNat at hrow
  have hmoved := hshown.setCursor (t.cursorRow + 1) 0
  have hgrid := (sameMode_setCursor (t.cursorRow + 1) 0 t).gridFits h
  rw [beginRow]
  split
  · refine Displayed.setCursor ?_ _ _
    exact displayed_termScroll hgrid (show 0 < t.termRows.toNat by omega) hfits.rows hfits.cols
      hmoved
  · exact hmoved

/-- Inside `term_putc`, when the cursor block is gone and the character not yet written. -/
theorem displayedBut_putUnderCursor (h : t.GridFits) (hfits : t.TextFits) (hshown : t.Displayed) :
    (t.putUnderCursor c).DisplayedBut := by
  have hdraw : ∀ {t : Screen}, t.GridFits → t.text.InGrid → t.DisplayedBut →
      t.drawCursor.DisplayedBut := fun h hin => displayedBut_drawCell h hin
  rw [putUnderCursor]
  split
  · -- a newline
    refine hdraw ((sameMode_beginRow t).gridFits h) ?_ (displayed_beginRow h hfits hshown).but
    rw [text_beginRow hfits]
    exact hfits.cursor.newline
  · split
    · -- the cursor goes back, and on to a blank
      rename_i herase
      have htext := text_putErase hfits herase.2
      refine hdraw ((sameMode_putErase t).gridFits h) ?_ ?_
      · rw [htext]
        exact hfits.cursor.erase
      · have hback : (t.setCursor t.cursorRow (t.cursorCol - 1)).TextFits := by
          refine ⟨hfits.rows, hfits.cols, hfits.cursor.row, ?_⟩
          have hcol := hfits.cursor.col
          have hlt := herase.2
          change t.cursorCol.toNat < t.termCols.toNat at hcol
          change 3 < t.cursorCol.toNat at hlt
          show (t.cursorCol - 1).toNat < t.termCols.toNat
          rw [BitVec.toNat_sub_of_le (show 1 ≤ t.cursorCol.toNat by omega)]
          show t.cursorCol.toNat - 1 < _
          omega
        exact displayedBut_storeText hback (hshown.setCursor _ _).but
    · -- the character is stored and drawn
      have hstore : (t.storeText t.cursorIndex c).text = t.text.write c := text_storeText hfits
      have hin : (t.storeText t.cursorIndex c).text.InGrid := by
        rw [hstore]
        exact hfits.cursor.write
      have hput : (t.putCell c).Displayed := by
        refine displayed_drawCell ((sameMode_storeText _ _ t).gridFits h) hin
          (displayedBut_storeText hfits hshown.but) ?_
        rw [hstore, TextGrid.cell_write]
        exact if_pos ⟨rfl, rfl⟩
      have hfits' : (t.putCell c).TextFits :=
        (onlyPixels_putCell c t).textFits ⟨hfits.rows, hfits.cols, hin⟩
      have hgrid := (sameMode_putCell c t).gridFits h
      refine hdraw ((sameMode_putChar c t).gridFits h) ?_ ?_
      · rw [text_putChar hfits]
        exact hfits.cursor.put
      · rw [putChar]
        generalize t.putCell c = t' at *
        by_cases hwrap : t'.termCols ≤ t'.cursorCol + 1
        · rw [advance_of_le hwrap]
          exact (displayed_beginRow hgrid hfits' hput).but
        · rw [advance_of_not_le hwrap]
          exact (hput.setCursor _ _).but

/-- One character, from a display that is complete but for the cursor to another. -/
theorem displayedBut_termPutc (h : t.GridFits) (hfits : t.TextFits)
    (hblank : t.text.BlankFrom (· = 0x20)) (hbut : t.DisplayedBut) :
    (t.termPutc c).DisplayedBut := by
  have honly := onlyPixels_drawCell (t := t) 0x20 t.textColor t.backgroundColor
  -- what stands under the cursor is a blank
  have hcell : t.text.cell t.cursorRow.toNat t.cursorCol.toNat = 0x20 :=
    hblank _ hfits.cursor.row _ hfits.cursor.col (Or.inr ⟨rfl, le_rfl⟩)
  rw [termPutc_eq]
  exact displayedBut_putUnderCursor (honly.sameMode.gridFits h) (honly.textFits hfits)
    (displayed_drawCell h hfits.cursor hbut hcell)

/-! ### Any text -/

/-- The cursor is in the grid, what follows it is blank, and the pixels are those of the
text. -/
structure ShowsText (t : Screen) : Prop where
  row : t.cursorRow < t.termRows
  col : t.cursorCol < t.termCols
  blank : ∀ r < t.termRows.toNat, ∀ k < t.termCols.toNat,
    t.cursorRow.toNat < r ∨ t.cursorRow.toNat = r ∧ t.cursorCol.toNat ≤ k →
      t.termBuffer (r * maxTermCols + k) = 0x20
  pixels : ∀ r < t.termRows.toNat, ∀ k < t.termCols.toNat,
    ¬ (r = t.cursorRow.toNat ∧ k = t.cursorCol.toNat) → ∀ x y, x / 8 = k → y / 8 = r →
      t.pixel x y =
        charColor (t.termBuffer (r * maxTermCols + k)) t.textColor t.backgroundColor x y

theorem showsText_of_displayedBut (hfits : t.TextFits) (hblank : t.text.BlankFrom (· = 0x20))
    (hbut : t.DisplayedBut) : t.ShowsText := by
  have hcell : ∀ r < t.termRows.toNat, ∀ k < t.termCols.toNat,
      t.text.cell r k = t.termBuffer (r * maxTermCols + k) :=
    fun r hr k hk => (cell_text t r k).trans (if_pos ⟨hr, hk⟩)
  refine ⟨hfits.cursor.row, hfits.cursor.col, fun r hr k hk hafter => ?_,
    fun r hr k hk hcursor x y hx hy => ?_⟩
  · rw [← hcell r hr k hk]
    exact hblank r hr k hk hafter
  · rw [← hcell r hr k hk]
    exact hbut r hr k hk hcursor x y hx hy

theorem displayed_termClear (h : t.GridFits) (hrows : t.termRows.toNat ≤ 135)
    (hcols : t.termCols.toNat ≤ 240) : t.termClear.Displayed := by
  have hwidth := h.cols
  have hheight := h.rows
  have hsame := sameMode_termClear t
  intro r hr k hk x y hx hy
  rw [hsame.termRows] at hr
  rw [hsame.termCols] at hk
  rw [text_termClear hrows hcols, hsame.textColor, hsame.backgroundColor]
  refine Eq.trans ?_ charColor_space.symm
  have hdrawn := drawn_fillScreen (t := t.fillText 0 0x20 (maxTermRows * maxTermCols))
    (c := t.backgroundColor) h.sound
  refine (hdrawn.pixel x (show x < t.fb.width.toNat by omega) y).trans ?_
  exact congrArg (Option.getD · _) (if_pos (show y < t.fb.height.toNat by omega))

/-- **Whatever is printed after a `term_clear`, the screen shows the text.** -/
theorem showsText_termPutcs (t : Screen)
    (hrows : 1 ≤ t.termRows.toNat ∧ t.termRows.toNat ≤ 135)
    (hcols : 1 ≤ t.termCols.toNat ∧ t.termCols.toNat ≤ 240)
    (hwidth : 8 * t.termCols.toNat ≤ t.fb.width.toNat)
    (hheight : 8 * t.termRows.toNat ≤ t.fb.height.toNat) (hsound : t.fb.Sound)
    (hscroll : 2 ≤ t.termRows.toNat → t.fb.base.toNat + 8 * t.fb.pitch.toNat < 2 ^ 32)
    (cs : List U8) : (cs.foldl (fun t c => t.termPutc c) t.termClear).ShowsText := by
  have hsame := sameMode_termClear t
  have hgrid := hsame.gridFits ⟨hsound, hwidth, hheight, hscroll⟩
  have htext := text_termClear hrows.2 hcols.2
  have hfits := textFits_termClear hrows hcols
  have hblank : t.termClear.text.BlankFrom (· = 0x20) := by
    rw [htext]
    exact TextGrid.blankFrom_clear rfl
  have hbut := (displayed_termClear ⟨hsound, hwidth, hheight, hscroll⟩ hrows.2 hcols.2).but
  generalize t.termClear = t' at hgrid hfits hblank hbut
  induction cs generalizing t' with
  | nil => exact showsText_of_displayedBut hfits hblank hbut
  | cons c cs ih =>
    refine ih _ ((sameMode_termPutc c t').gridFits hgrid) hfits.termPutc ?_
      (displayedBut_termPutc hgrid hfits hblank hbut)
    rw [text_termPutc hfits]
    exact blankFrom_textPutc hblank rfl

/-- A screen of `rows` rows of two cells, on memory that is all ones. -/
def pairs (base pitch : U32) (rows : U8) : Screen :=
  { boot fun _ => 0xFF with
    fb := { base := base, size := 0, pitch := pitch, width := 16, height := rows.setWidth 32 * 8 }
    termRows := rows
    termCols := 2 }

theorem showsText_pairs : (List.foldl (fun t c => t.termPutc c) (pairs 0 64 2).termClear
    [0x41, 0x42, 0x43, 0x0A, 0x44]).ShowsText :=
  showsText_termPutcs (pairs 0 64 2) (by decide) (by decide) (by decide) (by decide)
    ⟨by decide, by decide⟩ (fun _ => by decide) [0x41, 0x42, 0x43, 0x0A, 0x44]

/-! ### Sums that wrap -/

/-- No pixel's address is computed below the base, nor beyond a base and two products. -/
def OffPixels (t : Screen) (a : ℕ) : Prop := a < t.fb.base.toNat ∨ 3 * 2 ^ 32 + 4 ≤ a

/-- The byte at `a` is left alone if no pixel is there. -/
structure Spares (a : ℕ) (t t' : Screen) : Prop where
  fb : t'.fb = t.fb
  byte : t.OffPixels a → t'.memory a = t.memory a

variable {t'' : Screen} {a : ℕ}

theorem Spares.refl (t : Screen) : Spares a t t := ⟨rfl, fun _ => rfl⟩

theorem Spares.trans (h : Spares a t t') (h' : Spares a t' t'') : Spares a t t'' := by
  refine ⟨h'.fb.trans h.fb, fun ha => ?_⟩
  rw [h'.byte (by rw [OffPixels, h.fb]; exact ha), h.byte ha]

theorem Spares.foldl {f : Screen → ℕ → Screen} {n : ℕ} (h : ∀ i t, Spares a t (f t i)) :
    Spares a t ((List.range n).foldl f t) :=
  Raster.foldl_range (fun _ => Spares a t) (.refl t) fun i _ s hs => hs.trans (h i s)

theorem spares_putPixel (x y color : U32) : Spares a t (t.putPixel x y color) := by
  refine ⟨rfl, fun ha => if_neg ?_⟩
  have hbase := t.fb.base.isLt
  have hrow := (y * t.fb.pitch).isLt
  have hcol := (x * 4).isLt
  rw [OffPixels] at ha
  omega

theorem spares_drawCell (c : U8) (fg bg : U32) : Spares a t (t.drawCell c fg bg) :=
  .foldl fun _ _ => .foldl fun _ _ => spares_putPixel _ _ _

theorem spares_fillScreen (color : U32) : Spares a t (t.fillScreen color) :=
  .foldl fun _ _ => .foldl fun _ _ => spares_putPixel _ _ _

theorem spares_setCursor (row col : U8) : Spares a t (t.setCursor row col) := ⟨rfl, fun _ => rfl⟩

theorem spares_termClear : Spares a t t.termClear := by
  have hfill : Spares a t (t.fillText 0 0x20 (maxTermRows * maxTermCols)) := ⟨rfl, fun _ => rfl⟩
  refine hfill.trans ?_
  rw [termClear]
  generalize t.fillText 0 0x20 (maxTermRows * maxTermCols) = t
  exact (spares_fillScreen t.backgroundColor).trans (spares_setCursor _ _)

/-- A newline that does not scroll. -/
theorem spares_newline (hdown : ¬ t.AtBottom) : Spares a t (t.termPutc 0x0A) := by
  have hcell := spares_drawCell (a := a) (t := t) 0x20 t.textColor t.backgroundColor
  have honly := onlyPixels_drawCell (t := t) 0x20 t.textColor t.backgroundColor
  rw [termPutc_eq]
  generalize t.drawCell 0x20 t.textColor t.backgroundColor = t' at hcell honly
  have hdown' : ¬ (t'.setCursor (t'.cursorRow + 1) 0).termRows ≤
      (t'.setCursor (t'.cursorRow + 1) 0).cursorRow := by
    rw [honly.1]
    exact hdown
  have hrow : t'.beginRow = t'.setCursor (t'.cursorRow + 1) 0 := if_neg hdown'
  show Spares a t t'.beginRow.drawCursor
  rw [hrow]
  exact (hcell.trans (spares_setCursor _ _)).trans (spares_drawCell _ _ _)

/-- What a `term_clear` must show is the background. -/
theorem ShowsText.pixel_clear (h : t.termClear.ShowsText) {r k x y : ℕ}
    (hr : r < t.termRows.toNat) (hk : k < t.termCols.toNat)
    (hcursor : ¬ (r = 0 ∧ k = 0)) (hx : x / 8 = k) (hy : y / 8 = r) :
    t.termClear.pixel x y = t.backgroundColor := by
  have hsame := sameMode_termClear t
  have hr' : r < t.termClear.termRows.toNat := by rwa [hsame.termRows]
  have hk' : k < t.termClear.termCols.toNat := by rwa [hsame.termCols]
  rw [h.pixels r hr' k hk' hcursor x y hx hy, h.blank r hr' k hk' ?_, charColor_space,
    hsame.backgroundColor]
  show 0 < r ∨ 0 = r ∧ 0 ≤ k
  omega

/-- **With lines 2 GiB apart the product of line and pitch wraps**, and `term_clear` does not
reach the last line. -/
theorem wide_pitch_not_shown : ¬ (pairs 0 0x80000000 1).termClear.ShowsText := by
  intro h
  have hpixel : (pairs 0 0x80000000 1).termClear.pixel 8 7 = _ :=
    h.pixel_clear (show 0 < 1 by omega) (show 1 < 2 by omega) (by decide) rfl rfl
  rw [pixel, (sameMode_termClear (pairs 0 0x80000000 1)).fb] at hpixel
  have hload : Raster.load32 (pairs 0 0x80000000 1).termClear.memory (7 * 2 ^ 31 + 32) =
      Raster.load32 (pairs 0 0x80000000 1).memory (7 * 2 ^ 31 + 32) :=
    Raster.load32_congr fun k hk => spares_termClear.byte (Or.inr (by omega))
  exact absurd (hload.symm.trans hpixel) (by decide)

/-- A newline at the bottom: right of the cursor the upper rows show what the scroll has moved
there. -/
theorem pixel_beginRow (hsound : t.fb.Sound) (hheight : 8 * t.termRows.toNat ≤ t.fb.height.toNat)
    (hpos : 0 < t.termRows.toNat) (hbottom : t.AtBottom) {x y : ℕ} (hx : x < t.fb.width.toNat)
    (hcol : 8 ≤ x) (hy : y < (t.termRows.toNat - 1) * 8) :
    t.beginRow.drawCursor.pixel x y = t.scrolled.pixel x y := by
  have hbegin : t.beginRow = ((t.setCursor (t.cursorRow + 1) 0).termScroll).setCursor
      ((t.setCursor (t.cursorRow + 1) 0).termScroll.termRows - 1)
      (t.setCursor (t.cursorRow + 1) 0).termScroll.cursorCol := if_pos hbottom
  have hdrawn := drawn_termScroll (t := t.setCursor (t.cursorRow + 1) 0) hsound hheight hpos
  have hsame := (sameMode_scrolled (t.setCursor (t.cursorRow + 1) 0)).trans
    (onlyPixels_termScroll _).sameMode
  have hzero : (t.setCursor (t.cursorRow + 1) 0).termScroll.cursorCol = 0 :=
    (onlyPixels_termScroll _).cursorCol
  have hpixel : _ = t.scrolled.pixel x y := (hdrawn.pixel x hx y).trans
    (congrArg (Option.getD · _) (if_neg fun h => absurd h.1 (Nat.not_le.mpr hy)))
  rw [← hpixel, hbegin, hzero]
  generalize (t.setCursor (t.cursorRow + 1) 0).termScroll = t' at hsame
  -- the cursor block is in the first column of the last row
  have hlast : (t'.termRows - 1).toNat = t.termRows.toNat - 1 := by
    rw [hsame.termRows]
    exact BitVec.toNat_sub_of_le (show 1 ≤ t.termRows.toNat from hpos)
  have hcell : (t'.setCursor (t'.termRows - 1) 0).fb.HasCell (0 : U8).toNat
      (t'.termRows - 1).toNat := by
    show t'.fb.HasCell _ _
    rw [hsame.fb, hlast]
    exact ⟨by show 8 ≤ t.fb.width.toNat; omega, by show _ ≤ t.fb.height.toNat; omega⟩
  have hmoved : (t'.setCursor (t'.termRows - 1) 0).fb.Sound := by
    show t'.fb.Sound
    rw [hsame.fb]
    exact hsound
  have hwidth : x < (t'.setCursor (t'.termRows - 1) 0).fb.width.toNat := by
    show x < t'.fb.width.toNat
    rw [hsame.fb]
    exact hx
  refine ((drawn_drawCell hmoved hcell).pixel x hwidth y).trans ?_
  exact congrArg (Option.getD · _) (if_neg fun h => absurd (show x / 8 = 0 from h.1) (by omega))

/-- **With its base 256 bytes below 4 GiB the sum of base and eight lines wraps**, and a scroll
brings up the start of memory. -/
theorem far_base_not_shown :
    ¬ (((pairs 0xFFFFFF00 64 2).termClear.termPutc 0x0A).termPutc 0x0A).ShowsText := by
  intro h
  have hclear := sameMode_termClear (pairs 0xFFFFFF00 64 2)
  have hfits : (pairs 0xFFFFFF00 64 2).termClear.TextFits :=
    textFits_termClear (by decide) (by decide)
  have htext : (pairs 0xFFFFFF00 64 2).termClear.text = (pairs 0xFFFFFF00 64 2).text.clear 0x20 :=
    text_termClear (by decide) (by decide)
  have hspares : ∀ a, Spares a (pairs 0xFFFFFF00 64 2) (pairs 0xFFFFFF00 64 2).termClear :=
    fun _ => spares_termClear
  generalize (pairs 0xFFFFFF00 64 2).termClear = t at h hclear hfits htext hspares
  -- the first newline goes down, and the second scrolls
  have hdown : ¬ t.AtBottom := by
    have hrow : t.cursorRow = 0 := BitVec.eq_of_toNat_eq (congrArg TextGrid.row htext)
    rw [AtBottom, hclear.termRows, hrow]
    decide
  have htext' := text_termPutc (c := 0x0A) hfits
  have hfits' := hfits.termPutc (c := 0x0A)
  have hsame' := hclear.trans (sameMode_termPutc 0x0A t)
  have hspares' := fun a => (hspares a).trans (spares_newline hdown)
  rw [htext] at htext'
  generalize t.termPutc 0x0A = t' at h htext' hfits' hsame' hspares'
  have hcell := onlyPixels_drawCell (t := t') 0x20 t'.textColor t'.backgroundColor
  have hsame := hsame'.trans hcell.sameMode
  have hspares := fun a => (hspares' a).trans
    (spares_drawCell 0x20 t'.textColor t'.backgroundColor)
  have hbottom : (t'.drawCell 0x20 t'.textColor t'.backgroundColor).AtBottom := by
    have hrow : t'.cursorRow = 1 := BitVec.eq_of_toNat_eq (congrArg TextGrid.row htext')
    rw [AtBottom, hsame.termRows, hcell.cursorRow, hrow]
    decide
  -- what is shown has one of the two colours
  have hmode := hsame'.trans (sameMode_termPutc 0x0A t')
  have hcol : (t'.termPutc 0x0A).cursorCol.toNat = 0 := by
    have htext₂ := text_termPutc (c := 0x0A) hfits'
    rw [htext'] at htext₂
    exact congrArg TextGrid.col htext₂
  have hshown := h.pixels 0 (by rw [hmode.termRows]; decide) 1 (by rw [hmode.termCols]; decide)
    (fun hcursor => absurd (hcursor.2.trans hcol) (by decide)) 8 7 rfl rfl
  rw [charColor, hmode.textColor, hmode.backgroundColor, termPutc_eq] at hshown
  generalize t'.drawCell 0x20 t'.textColor t'.backgroundColor = t'' at hshown hsame hspares hbottom
  have hmoved := pixel_beginRow (x := 8) (y := 7) (t := t'')
    (by rw [hsame.fb]; exact ⟨by decide, by decide⟩) (by rw [hsame.fb, hsame.termRows]; decide)
    (by rw [hsame.termRows]; decide) hbottom (by rw [hsame.fb]; decide) le_rfl
    (by rw [hsame.termRows]; decide)
  have hload : t''.scrolled.pixel 8 7 = Raster.load32 t''.memory 736 := by
    rw [pixel, memory_scrolled, hsame.termRows]
    show Raster.load32 (Raster.move _ t''.fb.base.toNat (t''.fb.base + 8 * t''.fb.pitch).toNat _)
      (t''.fb.base.toNat + 7 * t''.fb.pitch.toNat + 4 * 8) = _
    rw [hsame.fb, Raster.load32_move (by decide) (by decide)]
    rfl
  have hones : Raster.load32 t''.memory 736 =
      Raster.load32 (pairs 0xFFFFFF00 64 2).memory 736 :=
    Raster.load32_congr fun k hk => (hspares _).byte (Or.inl (by show _ < 0xFFFFFF00; omega))
  have hall : (if glyphBit _ (7 % 8) (8 % 8) then (pairs 0xFFFFFF00 64 2).textColor
      else (pairs 0xFFFFFF00 64 2).backgroundColor) = 0xFFFFFFFF :=
    hshown.symm.trans (hmoved.trans (hload.trans hones))
  split at hall
  · exact absurd hall (by decide)
  · exact absurd hall (by decide)

/-- **Neither bound can be left out**: not that of the products, and not that of the sum. -/
theorem bounds_needed :
    (¬ ∀ t : Screen, 1 ≤ t.termRows.toNat ∧ t.termRows.toNat ≤ 135 →
      1 ≤ t.termCols.toNat ∧ t.termCols.toNat ≤ 240 →
      8 * t.termCols.toNat ≤ t.fb.width.toNat → 8 * t.termRows.toNat ≤ t.fb.height.toNat →
      4 * t.fb.width.toNat ≤ t.fb.pitch.toNat →
      (2 ≤ t.termRows.toNat → t.fb.base.toNat + 8 * t.fb.pitch.toNat < 2 ^ 32) →
      ∀ cs : List U8, (cs.foldl (fun t c => t.termPutc c) t.termClear).ShowsText) ∧
    ¬ ∀ t : Screen, 1 ≤ t.termRows.toNat ∧ t.termRows.toNat ≤ 135 →
      1 ≤ t.termCols.toNat ∧ t.termCols.toNat ≤ 240 →
      8 * t.termCols.toNat ≤ t.fb.width.toNat → 8 * t.termRows.toNat ≤ t.fb.height.toNat →
      4 * t.fb.width.toNat ≤ t.fb.pitch.toNat →
      t.fb.pitch.toNat * t.fb.height.toNat ≤ 2 ^ 32 →
      ∀ cs : List U8, (cs.foldl (fun t c => t.termPutc c) t.termClear).ShowsText := by
  refine ⟨fun h => wide_pitch_not_shown ?_, fun h => far_base_not_shown ?_⟩
  · exact h (pairs 0 0x80000000 1) (by decide) (by decide) (by decide) (by decide) (by decide)
      (fun h => absurd h (by decide)) []
  · have hshown := h (pairs 0xFFFFFF00 64 2) (by decide) (by decide) (by decide) (by decide)
      (by decide) (by decide) [0x0A, 0x0A]
    rwa [List.foldl_cons, List.foldl_cons, List.foldl_nil] at hshown

end Screen

end GamingConsole
