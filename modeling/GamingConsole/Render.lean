/-
The framebuffer and what is drawn on it.

`Screen` holds the globals of `display.h` and `render.h`, the memory that the framebuffer lies
in, and one bit that the code does not have: `wild` is set by the first access that leaves the
text buffer or the framebuffer.  The products and sums of `uint32_t` wrap here as they do in
the code; `Framebuffer.Sound` is what keeps the offsets of pixels from wrapping.

Every drawing function changes pixels only (`OnlyPixels`).  On a sound framebuffer `Drawn`
says which, and `Drawn.trans` composes a line, the whole screen and a character cell from
single pixels.
-/
import GamingConsole.Library.Raster
import GamingConsole.Sd

namespace GamingConsole

/-! ### The font -/

/-- `font8x8_fallback`. -/
def font8x8Fallback : List U8 := [0x00, 0x7E, 0x42, 0x42, 0x42, 0x42, 0x7E, 0x00]

/-- `font8x8_basic`: the glyphs of the characters 32 to 126, a byte for each line with the
leftmost pixel in its lowest bit. -/
def font8x8Basic : List (List U8) :=
  [[0x00, 0x00, 0x00, 0x00, 0x00, 0x00, 0x00, 0x00],
    [0x18, 0x3C, 0x3C, 0x18, 0x18, 0x00, 0x18, 0x00],
    [0x36, 0x36, 0x00, 0x00, 0x00, 0x00, 0x00, 0x00],
    [0x36, 0x36, 0x7F, 0x36, 0x7F, 0x36, 0x36, 0x00],
    [0x0C, 0x3E, 0x03, 0x1E, 0x30, 0x1F, 0x0C, 0x00],
    [0x00, 0x63, 0x33, 0x18, 0x0C, 0x66, 0x63, 0x00],
    [0x1C, 0x36, 0x1C, 0x6E, 0x3B, 0x33, 0x6E, 0x00],
    [0x06, 0x06, 0x03, 0x00, 0x00, 0x00, 0x00, 0x00],
    [0x18, 0x0C, 0x06, 0x06, 0x06, 0x0C, 0x18, 0x00],
    [0x06, 0x0C, 0x18, 0x18, 0x18, 0x0C, 0x06, 0x00],
    [0x00, 0x66, 0x3C, 0xFF, 0x3C, 0x66, 0x00, 0x00],
    [0x00, 0x0C, 0x0C, 0x3F, 0x0C, 0x0C, 0x00, 0x00],
    [0x00, 0x00, 0x00, 0x00, 0x00, 0x0C, 0x0C, 0x06],
    [0x00, 0x00, 0x00, 0x3F, 0x00, 0x00, 0x00, 0x00],
    [0x00, 0x00, 0x00, 0x00, 0x00, 0x0C, 0x0C, 0x00],
    [0x60, 0x30, 0x18, 0x0C, 0x06, 0x03, 0x01, 0x00],
    [0x3E, 0x63, 0x73, 0x7B, 0x6F, 0x67, 0x3E, 0x00],
    [0x0C, 0x0E, 0x0C, 0x0C, 0x0C, 0x0C, 0x3F, 0x00],
    [0x1E, 0x33, 0x30, 0x1C, 0x06, 0x33, 0x3F, 0x00],
    [0x1E, 0x33, 0x30, 0x1C, 0x30, 0x33, 0x1E, 0x00],
    [0x38, 0x3C, 0x36, 0x33, 0x7F, 0x30, 0x78, 0x00],
    [0x3F, 0x03, 0x1F, 0x30, 0x30, 0x33, 0x1E, 0x00],
    [0x1C, 0x06, 0x03, 0x1F, 0x33, 0x33, 0x1E, 0x00],
    [0x3F, 0x33, 0x30, 0x18, 0x0C, 0x0C, 0x0C, 0x00],
    [0x1E, 0x33, 0x33, 0x1E, 0x33, 0x33, 0x1E, 0x00],
    [0x1E, 0x33, 0x33, 0x3E, 0x30, 0x18, 0x0E, 0x00],
    [0x00, 0x0C, 0x0C, 0x00, 0x00, 0x0C, 0x0C, 0x00],
    [0x00, 0x0C, 0x0C, 0x00, 0x00, 0x0C, 0x0C, 0x06],
    [0x18, 0x0C, 0x06, 0x03, 0x06, 0x0C, 0x18, 0x00],
    [0x00, 0x00, 0x3F, 0x00, 0x00, 0x3F, 0x00, 0x00],
    [0x06, 0x0C, 0x18, 0x30, 0x18, 0x0C, 0x06, 0x00],
    [0x1E, 0x33, 0x30, 0x18, 0x0C, 0x00, 0x0C, 0x00],
    [0x3E, 0x63, 0x7B, 0x7B, 0x7B, 0x03, 0x1E, 0x00],
    [0x0C, 0x1E, 0x33, 0x33, 0x3F, 0x33, 0x33, 0x00],
    [0x3F, 0x66, 0x66, 0x3E, 0x66, 0x66, 0x3F, 0x00],
    [0x3C, 0x66, 0x03, 0x03, 0x03, 0x66, 0x3C, 0x00],
    [0x1F, 0x36, 0x66, 0x66, 0x66, 0x36, 0x1F, 0x00],
    [0x7F, 0x46, 0x16, 0x1E, 0x16, 0x46, 0x7F, 0x00],
    [0x7F, 0x46, 0x16, 0x1E, 0x16, 0x06, 0x0F, 0x00],
    [0x3C, 0x66, 0x03, 0x03, 0x73, 0x66, 0x7C, 0x00],
    [0x33, 0x33, 0x33, 0x3F, 0x33, 0x33, 0x33, 0x00],
    [0x1E, 0x0C, 0x0C, 0x0C, 0x0C, 0x0C, 0x1E, 0x00],
    [0x78, 0x30, 0x30, 0x30, 0x33, 0x33, 0x1E, 0x00],
    [0x67, 0x66, 0x36, 0x1E, 0x36, 0x66, 0x67, 0x00],
    [0x0F, 0x06, 0x06, 0x06, 0x46, 0x66, 0x7F, 0x00],
    [0x63, 0x77, 0x7F, 0x7F, 0x6B, 0x63, 0x63, 0x00],
    [0x63, 0x67, 0x6F, 0x7B, 0x73, 0x63, 0x63, 0x00],
    [0x1C, 0x36, 0x63, 0x63, 0x63, 0x36, 0x1C, 0x00],
    [0x3F, 0x66, 0x66, 0x3E, 0x06, 0x06, 0x0F, 0x00],
    [0x1E, 0x33, 0x33, 0x33, 0x3B, 0x1E, 0x38, 0x00],
    [0x3F, 0x66, 0x66, 0x3E, 0x36, 0x66, 0x67, 0x00],
    [0x1E, 0x33, 0x07, 0x0E, 0x38, 0x33, 0x1E, 0x00],
    [0x3F, 0x2D, 0x0C, 0x0C, 0x0C, 0x0C, 0x1E, 0x00],
    [0x33, 0x33, 0x33, 0x33, 0x33, 0x33, 0x3F, 0x00],
    [0x33, 0x33, 0x33, 0x33, 0x33, 0x1E, 0x0C, 0x00],
    [0x63, 0x63, 0x63, 0x6B, 0x7F, 0x77, 0x63, 0x00],
    [0x63, 0x63, 0x36, 0x1C, 0x1C, 0x36, 0x63, 0x00],
    [0x33, 0x33, 0x33, 0x1E, 0x0C, 0x0C, 0x1E, 0x00],
    [0x7F, 0x63, 0x31, 0x18, 0x4C, 0x66, 0x7F, 0x00],
    [0x1E, 0x06, 0x06, 0x06, 0x06, 0x06, 0x1E, 0x00],
    [0x03, 0x06, 0x0C, 0x18, 0x30, 0x60, 0x40, 0x00],
    [0x1E, 0x18, 0x18, 0x18, 0x18, 0x18, 0x1E, 0x00],
    [0x08, 0x1C, 0x36, 0x63, 0x00, 0x00, 0x00, 0x00],
    [0x00, 0x00, 0x00, 0x00, 0x00, 0x00, 0x00, 0xFF],
    [0x0C, 0x0C, 0x18, 0x00, 0x00, 0x00, 0x00, 0x00],
    [0x00, 0x00, 0x1E, 0x30, 0x3E, 0x33, 0x6E, 0x00],
    [0x07, 0x06, 0x06, 0x3E, 0x66, 0x66, 0x3B, 0x00],
    [0x00, 0x00, 0x1E, 0x33, 0x03, 0x33, 0x1E, 0x00],
    [0x38, 0x30, 0x30, 0x3E, 0x33, 0x33, 0x6E, 0x00],
    [0x00, 0x00, 0x1E, 0x33, 0x3F, 0x03, 0x1E, 0x00],
    [0x1C, 0x36, 0x06, 0x0F, 0x06, 0x06, 0x0F, 0x00],
    [0x00, 0x00, 0x6E, 0x33, 0x33, 0x3E, 0x30, 0x1F],
    [0x07, 0x06, 0x36, 0x6E, 0x66, 0x66, 0x67, 0x00],
    [0x0C, 0x00, 0x0E, 0x0C, 0x0C, 0x0C, 0x1E, 0x00],
    [0x30, 0x00, 0x30, 0x30, 0x30, 0x33, 0x33, 0x1E],
    [0x07, 0x06, 0x66, 0x36, 0x1E, 0x36, 0x67, 0x00],
    [0x0E, 0x0C, 0x0C, 0x0C, 0x0C, 0x0C, 0x1E, 0x00],
    [0x00, 0x00, 0x33, 0x7F, 0x7F, 0x6B, 0x63, 0x00],
    [0x00, 0x00, 0x1F, 0x33, 0x33, 0x33, 0x33, 0x00],
    [0x00, 0x00, 0x1E, 0x33, 0x33, 0x33, 0x1E, 0x00],
    [0x00, 0x00, 0x3B, 0x66, 0x66, 0x3E, 0x06, 0x0F],
    [0x00, 0x00, 0x6E, 0x33, 0x33, 0x3E, 0x30, 0x78],
    [0x00, 0x00, 0x3B, 0x6E, 0x66, 0x06, 0x0F, 0x00],
    [0x00, 0x00, 0x3E, 0x03, 0x1E, 0x30, 0x1F, 0x00],
    [0x08, 0x0C, 0x3E, 0x0C, 0x0C, 0x2C, 0x18, 0x00],
    [0x00, 0x00, 0x33, 0x33, 0x33, 0x33, 0x6E, 0x00],
    [0x00, 0x00, 0x33, 0x33, 0x33, 0x1E, 0x0C, 0x00],
    [0x00, 0x00, 0x63, 0x6B, 0x7F, 0x7F, 0x36, 0x00],
    [0x00, 0x00, 0x63, 0x36, 0x1C, 0x36, 0x63, 0x00],
    [0x00, 0x00, 0x33, 0x33, 0x33, 0x3E, 0x30, 0x1F],
    [0x00, 0x00, 0x3F, 0x19, 0x0C, 0x26, 0x3F, 0x00],
    [0x38, 0x0C, 0x0C, 0x07, 0x0C, 0x0C, 0x38, 0x00],
    [0x18, 0x18, 0x18, 0x00, 0x18, 0x18, 0x18, 0x00],
    [0x07, 0x0C, 0x0C, 0x38, 0x0C, 0x0C, 0x07, 0x00],
    [0x6E, 0x3B, 0x00, 0x00, 0x00, 0x00, 0x00, 0x00]]

/-- The glyph that `draw_char` takes for a character. -/
def glyph (c : U8) : List U8 :=
  if c < 32 ∨ 126 < c then font8x8Fallback else font8x8Basic.getD (c - 32).toNat []

/-- `bit_set`: pixel `bit` of line `i` of the glyph belongs to the character. -/
def glyphBit (c : U8) (i bit : ℕ) : Bool := ((glyph c).getD i 0).getLsbD bit

/-! ### Globals -/

/-- `framebuffer_base`, `framebuffer_size`, `framebuffer_pitch`, `framebuffer_width` and
`framebuffer_height`. -/
structure Framebuffer where
  base : U32
  size : U32
  pitch : U32
  width : U32
  height : U32
  deriving DecidableEq

/-- `pack_color`. -/
def packColor (r g b : U8) : U32 :=
  b.setWidth 32 ||| (g.setWidth 32 <<< 8) ||| (r.setWidth 32 <<< 16)

/-- The globals of the display and the terminal.  `termBuffer i` is byte `i` from the start of
`term_buffer`, on either side of it; `wild` is no global. -/
structure Screen where
  fb : Framebuffer
  termRows : U8
  termCols : U8
  cursorRow : U8
  cursorCol : U8
  textColor : U32
  backgroundColor : U32
  termBuffer : ℤ → U8
  memory : Raster.Bytes
  wild : Bool

namespace Screen

/-! ### `render.cpp` -/

/-- `put_pixel`. -/
def putPixel (x y color : U32) (t : Screen) : Screen :=
  { t with
    memory := Raster.store32 t.memory
      (t.fb.base.toNat + (y * t.fb.pitch).toNat + (x * 4).toNat) color
    wild := t.wild || !(decide (x < t.fb.width) && decide (y < t.fb.height)) }

/-- `fill_screen`. -/
def fillScreen (color : U32) (t : Screen) : Screen :=
  (List.range t.fb.height.toNat).foldl (fun t y =>
    (List.range t.fb.width.toNat).foldl (fun t x =>
      t.putPixel (BitVec.ofNat 32 x) (BitVec.ofNat 32 y) color) t) t

/-- `draw_horizontal_line`. -/
def drawHorizontalLine (y color : U32) (t : Screen) : Screen :=
  (List.range t.fb.width.toNat).foldl (fun t x => t.putPixel (BitVec.ofNat 32 x) y color) t

/-- `draw_char`; its two branches are one loop over the glyph. -/
def drawChar (col row : U32) (c : U8) (fg bg : U32) (t : Screen) : Screen :=
  let x0 := col * 8
  let y0 := row * 8
  (List.range 8).foldl (fun t i =>
    (List.range 8).foldl (fun t bit =>
      t.putPixel (x0 + BitVec.ofNat 32 bit) (y0 + BitVec.ofNat 32 i)
        (if glyphBit c i bit then fg else bg)) t) t

/-! ### What drawing leaves alone -/

/-- Nothing but memory has changed. -/
def OnlyPixels (t t' : Screen) : Prop :=
  t' = { t with memory := t'.memory, wild := t'.wild } ∧ (t.wild = true → t'.wild = true)

variable {t t' t'' : Screen}

theorem OnlyPixels.refl (t : Screen) : OnlyPixels t t := ⟨rfl, id⟩

theorem OnlyPixels.trans (h : OnlyPixels t t') (h' : OnlyPixels t' t'') : OnlyPixels t t'' := by
  refine ⟨?_, fun hw => h'.2 (h.2 hw)⟩
  have h1 := h'.1
  rw [h.1] at h1
  exact h1

theorem OnlyPixels.fb (h : OnlyPixels t t') : t'.fb = t.fb := by rw [h.1]

theorem OnlyPixels.foldl {f : Screen → ℕ → Screen} {n : ℕ} (h : ∀ i t, OnlyPixels t (f t i)) :
    OnlyPixels t ((List.range n).foldl f t) :=
  Raster.foldl_range (fun _ => OnlyPixels t) (.refl t) fun i _ s hs => hs.trans (h i s)

theorem onlyPixels_putPixel (x y color : U32) : OnlyPixels t (t.putPixel x y color) :=
  ⟨rfl, fun hw => by rw [putPixel, hw]; rfl⟩

theorem onlyPixels_drawHorizontalLine (y color : U32) :
    OnlyPixels t (t.drawHorizontalLine y color) :=
  .foldl fun _ _ => onlyPixels_putPixel _ _ _

theorem onlyPixels_fillScreen (color : U32) : OnlyPixels t (t.fillScreen color) :=
  .foldl fun _ _ => .foldl fun _ _ => onlyPixels_putPixel _ _ _

theorem onlyPixels_drawChar (col row : U32) (c : U8) (fg bg : U32) :
    OnlyPixels t (t.drawChar col row c fg bg) :=
  .foldl fun _ _ => .foldl fun _ _ => onlyPixels_putPixel _ _ _

/-! ### Accesses -/

theorem wild_putPixel {x y color : U32} (hx : x.toNat < t.fb.width.toNat)
    (hy : y.toNat < t.fb.height.toNat) : (t.putPixel x y color).wild = t.wild := by
  have hx : x < t.fb.width := hx
  have hy : y < t.fb.height := hy
  simp [putPixel, hx, hy]

/-- A line on the framebuffer. -/
theorem wild_drawHorizontalLine {y color : U32} (hy : y.toNat < t.fb.height.toNat) :
    (t.drawHorizontalLine y color).wild = t.wild := by
  refine (Raster.foldl_range (fun _ s => OnlyPixels t s ∧ s.wild = t.wild) ⟨.refl t, rfl⟩
    fun x hx s hs => ⟨hs.1.trans (onlyPixels_putPixel _ _ _), ?_⟩).2
  have hlt := t.fb.width.isLt
  rw [wild_putPixel _ (by rw [hs.1.fb]; exact hy), hs.2]
  rw [hs.1.fb, BitVec.toNat_ofNat]
  omega

theorem wild_fillScreen (color : U32) : (t.fillScreen color).wild = t.wild := by
  refine (Raster.foldl_range (fun _ s => OnlyPixels t s ∧ s.wild = t.wild) ⟨.refl t, rfl⟩
    fun y hy s hs => ⟨hs.1.trans (onlyPixels_drawHorizontalLine _ _), ?_⟩).2
  have hlt := t.fb.height.isLt
  refine (wild_drawHorizontalLine ?_).trans hs.2
  rw [hs.1.fb, BitVec.toNat_ofNat]
  omega

end Screen

/-- The character cell lies on the framebuffer. -/
def Framebuffer.HasCell (fb : Framebuffer) (col row : ℕ) : Prop :=
  8 * col + 8 ≤ fb.width.toNat ∧ 8 * row + 8 ≤ fb.height.toNat

instance (fb : Framebuffer) (col row : ℕ) : Decidable (fb.HasCell col row) :=
  inferInstanceAs (Decidable (_ ∧ _))

namespace Screen

variable {t t' : Screen}

theorem toNat_cell (col : U8) {i : ℕ} (hi : i < 8) :
    (col.setWidth 32 * 8 + BitVec.ofNat 32 i).toNat = 8 * col.toNat + i := by
  have hlt := col.isLt
  rw [BitVec.toNat_add, BitVec.toNat_mul, BitVec.toNat_setWidth, BitVec.toNat_ofNat]
  show (col.toNat % _ * 8 % _ + _) % _ = _
  omega

/-- A character leaves the framebuffer unless its cell lies on it. -/
theorem wild_drawChar {col row c : U8} {fg bg : U32} :
    (t.drawChar (col.setWidth 32) (row.setWidth 32) c fg bg).wild =
      (t.wild || !decide (t.fb.HasCell col.toNat row.toNat)) := by
  by_cases hcell : t.fb.HasCell col.toNat row.toNat
  · rw [decide_eq_true hcell, Bool.not_true, Bool.or_false]
    obtain ⟨hcol, hrow⟩ := hcell
    refine (Raster.foldl_range (fun _ s => OnlyPixels t s ∧ s.wild = t.wild) ⟨.refl t, rfl⟩
      fun i hi s hs => ?_).2
    refine Raster.foldl_range (fun _ s => OnlyPixels t s ∧ s.wild = t.wild) hs
      fun bit hbit s hs => ⟨hs.1.trans (onlyPixels_putPixel _ _ _), ?_⟩
    rw [wild_putPixel _ _, hs.2]
    · rw [hs.1.fb, toNat_cell col hbit]
      omega
    · rw [hs.1.fb, toNat_cell row hi]
      omega
  · -- the cell's last pixel is off the framebuffer
    rw [decide_eq_false hcell, Bool.not_false, Bool.or_true, drawChar, List.range_succ,
      List.foldl_append, List.foldl_cons, List.foldl_nil, List.foldl_append, List.foldl_cons,
      List.foldl_nil]
    generalize hs : List.foldl _ (List.foldl _ t (List.range 7)) (List.range 7) = s
    have honly : OnlyPixels t s := by
      rw [← hs]
      refine OnlyPixels.trans (.foldl fun _ _ => ?_) (.foldl fun _ _ => onlyPixels_putPixel _ _ _)
      rw [← List.range_succ]
      exact .foldl fun _ _ => onlyPixels_putPixel _ _ _
    show (s.wild || !(decide (_ < s.fb.width) && decide (_ < s.fb.height))) = true
    rw [honly.fb, Bool.or_eq_true, Bool.not_eq_true', Bool.and_eq_false_iff,
      decide_eq_false_iff_not,
      decide_eq_false_iff_not, BitVec.lt_def, BitVec.lt_def, toNat_cell col (by omega),
      toNat_cell row (by omega)]
    rw [Framebuffer.HasCell] at hcell
    omega

end Screen

/-! ### Pixels -/

/-- Lines that do not run into each other, and whose offsets are products that do not wrap. -/
structure Framebuffer.Sound (fb : Framebuffer) : Prop where
  line : 4 * fb.width.toNat ≤ fb.pitch.toNat
  bytes : fb.pitch.toNat * fb.height.toNat ≤ 2 ^ 32

/-- The pixels of a framebuffer. -/
def Framebuffer.raster (fb : Framebuffer) (h : fb.Sound) : Raster where
  base := fb.base.toNat
  pitch := fb.pitch.toNat
  width := fb.width.toNat
  fits := h.line

namespace Screen

/-- The colour that the display shows at column `x` of line `y`. -/
def pixel (t : Screen) (x y : ℕ) : U32 :=
  Raster.load32 t.memory (t.fb.base.toNat + y * t.fb.pitch.toNat + 4 * x)

/-- The pixels with a colour in `color` have it now, and the others are as they were. -/
structure Drawn (t t' : Screen) (color : ℕ → ℕ → Option U32) : Prop where
  only : OnlyPixels t t'
  pixel : ∀ x < t.fb.width.toNat, ∀ y, t'.pixel x y = (color x y).getD (t.pixel x y)

variable {t t' t'' : Screen} {color color' : ℕ → ℕ → Option U32}

theorem Drawn.refl (t : Screen) : Drawn t t fun _ _ => none := ⟨.refl t, fun _ _ _ => rfl⟩

theorem Drawn.trans (h : Drawn t t' color) (h' : Drawn t' t'' color') :
    Drawn t t'' fun x y => (color' x y).or (color x y) := by
  refine ⟨h.only.trans h'.only, fun x hx y => ?_⟩
  rw [h'.pixel x (by rw [h.only.fb]; exact hx), h.pixel x hx]
  cases color' x y <;> rfl

theorem Drawn.congr (h : Drawn t t' color)
    (hcolor : ∀ x < t.fb.width.toNat, ∀ y, color x y = color' x y) : Drawn t t' color' :=
  ⟨h.only, fun x hx y => by rw [h.pixel x hx, hcolor x hx]⟩

theorem drawn_putPixel {x y c : U32} (h : t.fb.Sound) (hx : x.toNat < t.fb.width.toNat)
    (hy : y.toNat < t.fb.height.toNat) :
    Drawn t (t.putPixel x y c) fun x' y' =>
    if x' = x.toNat ∧ y' = y.toNat then some c else none := by
  refine ⟨onlyPixels_putPixel _ _ _, fun x' hx' y' => ?_⟩
  have hline := h.line
  have hbytes := h.bytes
  have hpitch := t.fb.pitch.isLt
  -- neither product wraps
  have hrow : (y * t.fb.pitch).toNat = y.toNat * t.fb.pitch.toNat := by
    have hmul : (y.toNat + 1) * t.fb.pitch.toNat ≤ t.fb.height.toNat * t.fb.pitch.toNat :=
      Nat.mul_le_mul_right _ hy
    rw [Nat.add_mul, Nat.mul_comm t.fb.height.toNat] at hmul
    rw [BitVec.toNat_mul]
    exact Nat.mod_eq_of_lt (by omega)
  have hcol : (x * 4).toNat = 4 * x.toNat := by
    rw [BitVec.toNat_mul]
    show x.toNat * 4 % 2 ^ 32 = _
    omega
  have hget := @Raster.get_set (t.fb.raster h) t.memory c _ _ y.toNat y' hx hx'
  show Raster.load32 (Raster.store32 _ _ _) _ = _
  rw [hrow, hcol]
  refine hget.trans ?_
  split
  · rfl
  · rfl

/-- A loop has drawn what its rounds have. -/
theorem drawn_foldl {f : Screen → ℕ → Screen} {n : ℕ} (part : ℕ → ℕ → ℕ → Option U32)
    (sofar : ℕ → ℕ → ℕ → Option U32) (h0 : ∀ x y, sofar 0 x y = none)
    (hf : ∀ i < n, ∀ s, OnlyPixels t s → Drawn s (f s i) (part i))
    (hnext : ∀ i < n, ∀ x < t.fb.width.toNat, ∀ y,
      (part i x y).or (sofar i x y) = sofar (i + 1) x y) :
    Drawn t ((List.range n).foldl f t) (sofar n) := by
  refine Raster.foldl_range (fun i s => Drawn t s (sofar i))
    ((Drawn.refl t).congr fun x _ y => (h0 x y).symm) fun i hi s hs => ?_
  exact (hs.trans (hf i hi s hs.only)).congr (hnext i hi)

theorem drawn_drawHorizontalLine {y c : U32} (h : t.fb.Sound)
    (hy : y.toNat < t.fb.height.toNat) :
    Drawn t (t.drawHorizontalLine y c) fun _ y' => if y' = y.toNat then some c else none := by
  have hwidth := t.fb.width.isLt
  refine (drawn_foldl (fun i x y' => if x = i ∧ y' = y.toNat then some c else none)
    (fun i x y' => if x < i ∧ y' = y.toNat then some c else none) (by simp)
    (fun i hi s hs => ?_) fun i _ x _ y' => ?_).congr fun x hx y' => by simp [hx]
  · have hi' : (BitVec.ofNat 32 i).toNat = i := by
      rw [BitVec.toNat_ofNat]
      omega
    have hput := drawn_putPixel (t := s) (x := BitVec.ofNat 32 i) (c := c) (hs.fb ▸ h)
      (by rw [hs.fb, hi']; exact hi) (by rw [hs.fb]; exact hy)
    rwa [hi'] at hput
  · split_ifs <;> first | rfl | omega

theorem drawn_fillScreen {c : U32} (h : t.fb.Sound) :
    Drawn t (t.fillScreen c) fun _ y => if y < t.fb.height.toNat then some c else none := by
  have hheight := t.fb.height.isLt
  refine drawn_foldl (fun i _ y => if y = i then some c else none)
    (fun i _ y => if y < i then some c else none) (by simp) (fun i hi s hs => ?_)
    fun i _ x _ y => ?_
  · have hi' : (BitVec.ofNat 32 i).toNat = i := by
      rw [BitVec.toNat_ofNat]
      omega
    have hline := drawn_drawHorizontalLine (t := s) (y := BitVec.ofNat 32 i) (c := c)
      (hs.fb ▸ h) (by rw [hs.fb, hi']; exact hi)
    rw [hi'] at hline
    exact hline
  · split_ifs <;> first | rfl | omega

/-- The pixels of a character on the screen. -/
def charColor (c : U8) (fg bg : U32) (x y : ℕ) : U32 :=
  if glyphBit c (y % 8) (x % 8) then fg else bg

/-- **A character covers its cell.** -/
theorem drawn_drawChar {col row c : U8} {fg bg : U32} (h : t.fb.Sound)
    (hcell : t.fb.HasCell col.toNat row.toNat) :
    Drawn t (t.drawChar (col.setWidth 32) (row.setWidth 32) c fg bg) fun x y =>
      if x / 8 = col.toNat ∧ y / 8 = row.toNat then some (charColor c fg bg x y) else none := by
  obtain ⟨hcol, hrow⟩ := hcell
  refine (drawn_foldl
    (fun i x y => if x / 8 = col.toNat ∧ y = 8 * row.toNat + i then
      some (charColor c fg bg x y) else none)
    (fun i x y => if x / 8 = col.toNat ∧ 8 * row.toNat ≤ y ∧ y < 8 * row.toNat + i then
      some (charColor c fg bg x y) else none) (fun x y => if_neg (by omega))
    (fun i hi s hs => ?_) fun i _ x _ y => ?_).congr fun x _ y => ?_
  · refine (drawn_foldl
      (fun bit x y => if x = 8 * col.toNat + bit ∧ y = 8 * row.toNat + i then
        some (charColor c fg bg x y) else none)
      (fun bit x y => if 8 * col.toNat ≤ x ∧ x < 8 * col.toNat + bit ∧ y = 8 * row.toNat + i then
        some (charColor c fg bg x y) else none) (fun x y => if_neg (by omega))
      (fun bit hbit s' hs' => ?_) fun bit _ x _ y => ?_).congr fun x _ y => ?_
    · have honly := hs.trans hs'
      have hput := drawn_putPixel (t := s') (x := col.setWidth 32 * 8 + BitVec.ofNat 32 bit)
        (y := row.setWidth 32 * 8 + BitVec.ofNat 32 i) (c := if glyphBit c i bit then fg else bg)
        (honly.fb ▸ h) (by rw [honly.fb, toNat_cell col hbit]; omega)
        (by rw [honly.fb, toNat_cell row hi]; omega)
      rw [toNat_cell col hbit, toNat_cell row hi] at hput
      refine hput.congr fun x _ y => ?_
      by_cases hxy : x = 8 * col.toNat + bit ∧ y = 8 * row.toNat + i
      · rw [if_pos hxy, if_pos hxy, charColor, show y % 8 = i by omega, show x % 8 = bit by omega]
      · rw [if_neg hxy, if_neg hxy]
    · split_ifs <;> first | rfl | omega
    · split_ifs <;> first | rfl | omega
  · split_ifs <;> first | rfl | omega
  · split_ifs <;> first | rfl | omega

end Screen

end GamingConsole
