/-
Text on a grid of cells.

A `TextGrid` is what a character terminal shows, and where its cursor is.  The operations are
those that terminals build their control characters from: `carriageReturn`, `lineFeed` with
its scroll, `put` with its wrap, and `erase`.

* `InGrid` — the cursor is in the grid;
* `BlankFrom` — every cell at the cursor or after it is blank.  Every operation but a
  `carriageReturn` on its own keeps it, and `newline` is the one that starts with one.
* `Shows` — text that may run over rows and scroll, with the cursor behind it.
-/
import Mathlib.Data.Nat.Notation
import Mathlib.Logic.Function.Basic

/-- A grid of characters with a cursor. -/
structure TextGrid (α : Type) where
  rows : ℕ
  cols : ℕ
  row : ℕ
  col : ℕ
  cell : ℕ → ℕ → α

namespace TextGrid

variable {α : Type}

/-- The cursor goes to the start of its row. -/
def carriageReturn (g : TextGrid α) : TextGrid α := { g with col := 0 }

/-- The cursor goes back one cell in its row. -/
def back (g : TextGrid α) : TextGrid α := { g with col := g.col - 1 }

/-- One character in the cursor's cell. -/
def write (c : α) (g : TextGrid α) : TextGrid α :=
  { g with cell := Function.update g.cell g.row (Function.update (g.cell g.row) g.col c) }

variable (blank : α)

/-- The cursor goes down one row; at the last one the text goes up instead. -/
def lineFeed (g : TextGrid α) : TextGrid α :=
  if g.row + 1 < g.rows then { g with row := g.row + 1 }
  else { g with cell := fun r c => if r + 1 < g.rows then g.cell (r + 1) c else blank }

/-- To the start of the next row. -/
def newline (g : TextGrid α) : TextGrid α := g.carriageReturn.lineFeed blank

/-- Write a character and go to the next cell. -/
def put (c : α) (g : TextGrid α) : TextGrid α :=
  if g.col + 1 < g.cols then { g.write c with col := g.col + 1 } else (g.write c).newline blank

/-- Take back the character before the cursor. -/
def erase (g : TextGrid α) : TextGrid α := g.back.write blank

/-- Every cell is blank and the cursor is in the first. -/
def clear (g : TextGrid α) : TextGrid α := { g with row := 0, col := 0, cell := fun _ _ => blank }

variable {blank} {g : TextGrid α} {c : α}

/-! ### The grid stays -/

@[simp] theorem rows_lineFeed : (g.lineFeed blank).rows = g.rows := by
  rw [lineFeed]
  split <;> rfl

@[simp] theorem cols_lineFeed : (g.lineFeed blank).cols = g.cols := by
  rw [lineFeed]
  split <;> rfl

@[simp] theorem rows_newline : (g.newline blank).rows = g.rows := rows_lineFeed

@[simp] theorem cols_newline : (g.newline blank).cols = g.cols := cols_lineFeed

@[simp] theorem rows_put : (g.put blank c).rows = g.rows := by
  rw [put]
  split
  · rfl
  · exact rows_newline

@[simp] theorem cols_put : (g.put blank c).cols = g.cols := by
  rw [put]
  split
  · rfl
  · exact cols_newline

/-- A character before the last column. -/
theorem put_of_lt (h : g.col + 1 < g.cols) :
    g.put blank c = { g.write c with col := g.col + 1 } := if_pos h

/-- A character in the last column, of a row that is not the last. -/
theorem put_of_wrap (h : ¬ g.col + 1 < g.cols) (hdown : g.row + 1 < g.rows) :
    g.put blank c = { g.write c with row := g.row + 1, col := 0 } := (if_neg h).trans (if_pos hdown)

/-- A character in the last cell. -/
theorem put_of_scroll (h : ¬ g.col + 1 < g.cols) (hdown : ¬ g.row + 1 < g.rows) :
    g.put blank c = { g.write c with
      col := 0
      cell := fun r k => if r + 1 < g.rows then (g.write c).cell (r + 1) k else blank } :=
  (if_neg h).trans (if_neg hdown)

theorem cell_write (r k : ℕ) :
    (g.write c).cell r k = if r = g.row ∧ k = g.col then c else g.cell r k := by
  show Function.update g.cell g.row _ r k = _
  by_cases hr : r = g.row
  · rw [hr, Function.update_self]
    by_cases hk : k = g.col
    · rw [hk, Function.update_self, if_pos ⟨rfl, rfl⟩]
    · rw [Function.update_of_ne hk, if_neg fun h => hk h.2]
  · rw [Function.update_of_ne hr, if_neg fun h => hr h.1]

/-! ### The cursor -/

/-- The cursor is in the grid. -/
structure InGrid (g : TextGrid α) : Prop where
  row : g.row < g.rows
  col : g.col < g.cols

theorem InGrid.lineFeed (h : g.InGrid) : (g.lineFeed blank).InGrid := by
  rw [TextGrid.lineFeed]
  split
  · rename_i hlt
    exact ⟨hlt, h.col⟩
  · exact ⟨h.row, h.col⟩

theorem InGrid.carriageReturn (h : g.InGrid) : g.carriageReturn.InGrid :=
  ⟨h.row, Nat.lt_of_le_of_lt (Nat.zero_le _) h.col⟩

theorem InGrid.newline (h : g.InGrid) : (g.newline blank).InGrid := h.carriageReturn.lineFeed

theorem InGrid.write (h : g.InGrid) : (g.write c).InGrid := ⟨h.row, h.col⟩

theorem InGrid.put (h : g.InGrid) : (g.put blank c).InGrid := by
  rw [TextGrid.put]
  split
  · rename_i hlt
    exact ⟨h.row, hlt⟩
  · exact h.write.newline

theorem InGrid.back (h : g.InGrid) : g.back.InGrid :=
  ⟨h.row, Nat.lt_of_le_of_lt (Nat.sub_le _ _) h.col⟩

theorem InGrid.erase (h : g.InGrid) : (g.erase blank).InGrid := h.back.write

/-! ### The rest of the screen -/

/-- From the cursor on every cell is blank. -/
def BlankFrom (isBlank : α → Prop) (g : TextGrid α) : Prop :=
  ∀ r < g.rows, ∀ k < g.cols, g.row < r ∨ g.row = r ∧ g.col ≤ k → isBlank (g.cell r k)

variable {isBlank : α → Prop}

/-- What the cursor has left behind is on its row or above. -/
theorem BlankFrom.newline (h : g.BlankFrom isBlank) (hblank : isBlank blank) :
    (g.newline blank).BlankFrom isBlank := by
  rw [TextGrid.newline, TextGrid.lineFeed]
  split
  · intro r hr k hk hafter
    change g.row + 1 < r ∨ g.row + 1 = r ∧ 0 ≤ k at hafter
    exact h r hr k hk (Or.inl (by omega))
  · rename_i hlast
    intro r hr k hk hafter
    change g.row < r ∨ g.row = r ∧ 0 ≤ k at hafter
    change ¬ g.row + 1 < g.rows at hlast
    show isBlank (if r + 1 < g.rows then _ else _)
    rw [if_neg (by omega)]
    exact hblank

theorem BlankFrom.put (h : g.BlankFrom isBlank) (hblank : isBlank blank) :
    (g.put blank c).BlankFrom isBlank := by
  have hwrite : ∀ r < g.rows, ∀ k < g.cols, g.row < r ∨ g.row = r ∧ g.col + 1 ≤ k →
      isBlank ((g.write c).cell r k) := by
    intro r hr k hk hafter
    rw [cell_write, if_neg (by omega)]
    exact h r hr k hk (by omega)
  rw [TextGrid.put]
  split
  · exact hwrite
  · rename_i hlast
    rw [TextGrid.newline, TextGrid.lineFeed]
    split
    · intro r hr k hk hafter
      change g.row + 1 < r ∨ g.row + 1 = r ∧ 0 ≤ k at hafter
      exact hwrite r hr k hk (Or.inl (by omega))
    · rename_i hbottom
      intro r hr k hk hafter
      change g.row < r ∨ g.row = r ∧ 0 ≤ k at hafter
      change ¬ g.row + 1 < g.rows at hbottom
      show isBlank (if r + 1 < g.rows then _ else _)
      rw [if_neg (by omega)]
      exact hblank

theorem BlankFrom.erase (h : g.BlankFrom isBlank) (hblank : isBlank blank) :
    (g.erase blank).BlankFrom isBlank := by
  intro r hr k hk hafter
  change g.row < r ∨ g.row = r ∧ g.col - 1 ≤ k at hafter
  rw [TextGrid.erase, cell_write]
  split
  · exact hblank
  · rename_i hne
    exact h r hr k hk (by change ¬ (r = g.row ∧ k = g.col - 1) at hne; omega)

theorem blankFrom_clear (hblank : isBlank blank) : (g.clear blank).BlankFrom isBlank :=
  fun _ _ _ _ _ => hblank

/-! ### Text that runs over rows

Cells are counted in row-major order, and on from row to row when the text scrolls: with
`gone` rows off the top, row `r` of the grid is row `r + gone` of the count. -/

/-- The number of the cursor's cell. -/
def position (g : TextGrid α) (gone : ℕ) : ℕ := (g.row + gone) * g.cols + g.col

/-- The rows that go off the top when a character is put. -/
def putGone (g : TextGrid α) : ℕ := if g.col + 1 < g.cols ∨ g.row + 1 < g.rows then 0 else 1

/-- From cell `start` on the grid shows `text` and then blanks, and the cursor is behind
the text.  Of what has gone off the top nothing is said. -/
structure Shows (isBlank : α → Prop) (g : TextGrid α) (gone start : ℕ) (text : List α) : Prop where
  position : g.position gone = start + text.length
  written : ∀ r < g.rows, ∀ k < g.cols, ∀ i (hi : i < text.length),
    (r + gone) * g.cols + k = start + i → g.cell r k = text[i]
  blank : ∀ r < g.rows, ∀ k < g.cols, start + text.length ≤ (r + gone) * g.cols + k →
    isBlank (g.cell r k)

variable {gone start : ℕ} {text : List α}

theorem position_put (h : g.InGrid) :
    (g.put blank c).position (gone + g.putGone) = g.position gone + 1 := by
  have hcol := h.col
  -- the last cell of a row and the first of the next one
  have hnext : ¬ g.col + 1 < g.cols →
      ∀ n, (n + 1) * g.cols + 0 = n * g.cols + g.col + 1 := by
    intro hlast n
    rw [Nat.add_mul]
    omega
  rw [putGone]
  by_cases hlast : g.col + 1 < g.cols
  · rw [put_of_lt hlast, if_pos (Or.inl hlast)]
    rfl
  · by_cases hdown : g.row + 1 < g.rows
    · rw [put_of_wrap hlast hdown, if_pos (Or.inr hdown)]
      show (g.row + 1 + gone) * g.cols + 0 = _
      rw [Nat.add_right_comm, hnext hlast]
      rfl
    · rw [put_of_scroll hlast hdown, if_neg (not_or.mpr ⟨hlast, hdown⟩)]
      show (g.row + (gone + 1)) * g.cols + 0 = _
      rw [← Nat.add_assoc, hnext hlast]
      rfl

/-- Different cells have different numbers. -/
theorem cell_eq_of_number {cols r k r' k' : ℕ} (hk : k < cols) (hk' : k' < cols)
    (h : r * cols + k = r' * cols + k') : r = r' ∧ k = k' := by
  have hpos : 0 < cols := Nat.lt_of_le_of_lt (Nat.zero_le _) hk
  have hdiv : ∀ {r k}, k < cols → (r * cols + k) / cols = r := by
    intro r k hk
    rw [Nat.mul_comm, Nat.mul_add_div hpos, Nat.div_eq_of_lt hk, Nat.add_zero]
  have hr : r = r' := by rw [← hdiv (r := r) hk, h, hdiv hk']
  subst hr
  exact ⟨rfl, Nat.add_left_cancel h⟩

/-- A character behind the text, before the grid moves. -/
theorem Shows.write (h : g.Shows isBlank gone start text) (hin : g.InGrid) :
    (∀ r < g.rows, ∀ k < g.cols, ∀ i (hi : i < (text ++ [c]).length),
      (r + gone) * g.cols + k = start + i → (g.write c).cell r k = (text ++ [c])[i]) ∧
    ∀ r < g.rows, ∀ k < g.cols, start + (text.length + 1) ≤ (r + gone) * g.cols + k →
      isBlank ((g.write c).cell r k) := by
  have hpos := h.position
  rw [TextGrid.position] at hpos
  constructor
  · intro r hr k hk i hi hnumber
    rw [cell_write]
    rw [List.length_append] at hi
    by_cases hlast : i = text.length
    · -- the cell that is written
      subst hlast
      obtain ⟨hrow, hcol⟩ := cell_eq_of_number hk hin.col (hnumber.trans hpos.symm)
      rw [if_pos ⟨by omega, hcol⟩, List.getElem_concat_length rfl]
    · have hi' : i < text.length := by change i < text.length + 1 at hi; omega
      rw [if_neg, List.getElem_append_left hi']
      · exact h.written r hr k hk i hi' hnumber
      · rintro ⟨rfl, rfl⟩
        omega
  · intro r hr k hk hnumber
    rw [cell_write, if_neg]
    · exact h.blank r hr k hk (by omega)
    · rintro ⟨rfl, rfl⟩
      omega

theorem Shows.put (h : g.Shows isBlank gone start text) (hin : g.InGrid) (hblank : isBlank blank) :
    (g.put blank c).Shows isBlank (gone + g.putGone) start (text ++ [c]) := by
  obtain ⟨hwritten, hrest⟩ := h.write (c := c) hin
  have hposition : (g.put blank c).position (gone + g.putGone) =
      start + (text ++ [c]).length := by
    rw [position_put hin, h.position, List.length_append]
    rfl
  have hpos := h.position
  rw [TextGrid.position] at hpos
  have hlength : (text ++ [c]).length = text.length + 1 := List.length_append
  -- only a character at the end of the last row moves the rows up
  refine ⟨hposition, ?_, ?_⟩ <;> rw [putGone] <;> by_cases hlast : g.col + 1 < g.cols
  · rw [put_of_lt hlast, if_pos (Or.inl hlast)]
    exact hwritten
  · by_cases hdown : g.row + 1 < g.rows
    · rw [put_of_wrap hlast hdown, if_pos (Or.inr hdown)]
      exact hwritten
    · rw [put_of_scroll hlast hdown, if_neg (not_or.mpr ⟨hlast, hdown⟩)]
      intro r hr k hk i hi hnumber
      change r < g.rows at hr
      change k < g.cols at hk
      change (r + (gone + 1)) * g.cols + k = start + i at hnumber
      rw [show r + (gone + 1) = r + 1 + gone by omega] at hnumber
      show (if r + 1 < g.rows then _ else _) = _
      by_cases hmoved : r + 1 < g.rows
      · rw [if_pos hmoved]
        exact hwritten (r + 1) hmoved k hk i hi hnumber
      · -- the text does not reach the row that comes in
        have hrow := hin.row
        have hcol := hin.col
        have hmul : (g.row + gone) * g.cols + g.cols ≤ (r + 1 + gone) * g.cols := by
          rw [← Nat.succ_mul]
          exact Nat.mul_le_mul_right _ (by omega)
        omega
  · rw [put_of_lt hlast, if_pos (Or.inl hlast), hlength]
    exact hrest
  · by_cases hdown : g.row + 1 < g.rows
    · rw [put_of_wrap hlast hdown, if_pos (Or.inr hdown), hlength]
      exact hrest
    · rw [put_of_scroll hlast hdown, if_neg (not_or.mpr ⟨hlast, hdown⟩), hlength]
      intro r hr k hk hnumber
      change _ ≤ (r + (gone + 1)) * g.cols + k at hnumber
      rw [show r + (gone + 1) = r + 1 + gone by omega] at hnumber
      show isBlank (if r + 1 < g.rows then _ else _)
      by_cases hmoved : r + 1 < g.rows
      · rw [if_pos hmoved]
        exact hrest (r + 1) hmoved k hk hnumber
      · rw [if_neg hmoved]
        exact hblank

theorem position_erase (gone : ℕ) (hcol : 0 < g.col) :
    (g.erase blank).position gone + 1 = g.position gone := by
  show (g.row + gone) * g.cols + (g.col - 1) + 1 = (g.row + gone) * g.cols + g.col
  omega

theorem Shows.erase (h : g.Shows isBlank gone start text) (hin : g.InGrid) (hcol : 0 < g.col)
    (hne : text ≠ []) (hblank : isBlank blank) :
    (g.erase blank).Shows isBlank gone start text.dropLast := by
  have hpos := h.position
  have hlen := List.length_pos_iff.mpr hne
  have herase := @position_erase _ blank g gone hcol
  have hlength := text.length_dropLast
  refine ⟨by omega, ?_, ?_⟩
  · intro r hr k hk i hi hnumber
    have hi' : i < text.length := by omega
    show (g.back.write blank).cell r k = _
    rw [cell_write, if_neg, List.getElem_dropLast]
    · exact h.written r hr k hk i hi' hnumber
    · rintro ⟨rfl, rfl⟩
      rw [TextGrid.position] at hpos
      change (g.row + gone) * g.cols + (g.col - 1) = start + i at hnumber
      omega
  · intro r hr k hk hnumber
    change start + text.dropLast.length ≤ (r + gone) * g.cols + k at hnumber
    show isBlank ((g.back.write blank).cell r k)
    rw [cell_write]
    by_cases hcell : r = g.back.row ∧ k = g.back.col
    · rw [if_pos hcell]
      exact hblank
    · rw [if_neg hcell]
      refine h.blank r hr k hk ?_
      rw [TextGrid.position] at hpos
      by_contra hlt
      -- the only cell between the two ends of the text is the one that is erased
      have heq : (r + gone) * g.cols + k = (g.row + gone) * g.cols + (g.col - 1) := by omega
      obtain ⟨hrow, hk'⟩ := cell_eq_of_number hk (Nat.lt_of_le_of_lt (Nat.sub_le _ _) hin.col) heq
      exact hcell ⟨Nat.add_right_cancel hrow, hk'⟩

/-- Nothing has been written yet. -/
theorem BlankFrom.shows (h : g.BlankFrom isBlank) :
    g.Shows isBlank gone (g.position gone) [] := by
  refine ⟨rfl, fun _ _ _ _ i hi => absurd hi (Nat.not_lt_zero i), ?_⟩
  intro r hr k hk hnumber
  refine h r hr k hk ?_
  change (g.row + gone) * g.cols + g.col + 0 ≤ (r + gone) * g.cols + k at hnumber
  by_contra hbefore
  rcases Nat.lt_trichotomy r g.row with hlt | heq | hgt
  · -- a cell of a row above
    have hmul : (r + gone + 1) * g.cols ≤ (g.row + gone) * g.cols :=
      Nat.mul_le_mul_right _ (by omega)
    rw [Nat.add_mul] at hmul
    omega
  · subst heq
    omega
  · omega

/-- Write characters one after the other. -/
def puts (blank : α) (cs : List α) (g : TextGrid α) : TextGrid α :=
  cs.foldl (fun g c => g.put blank c) g

@[simp] theorem rows_puts (cs : List α) : (g.puts blank cs).rows = g.rows := by
  induction cs generalizing g with
  | nil => rfl
  | cons c cs ih => exact ih.trans rows_put

@[simp] theorem cols_puts (cs : List α) : (g.puts blank cs).cols = g.cols := by
  induction cs generalizing g with
  | nil => rfl
  | cons c cs ih => exact ih.trans cols_put

theorem InGrid.puts (h : g.InGrid) (cs : List α) : (g.puts blank cs).InGrid := by
  induction cs generalizing g with
  | nil => exact h
  | cons c cs ih => exact ih h.put

theorem BlankFrom.puts (h : g.BlankFrom isBlank) (hblank : isBlank blank) (cs : List α) :
    (g.puts blank cs).BlankFrom isBlank := by
  induction cs generalizing g with
  | nil => exact h
  | cons c cs ih => exact ih (h.put hblank)

/-- A character never moves the cursor up, and rows go off the top only while it is in the
last one. -/
theorem row_put (h : g.InGrid) :
    g.row ≤ (g.put blank c).row ∧ (0 < g.putGone → (g.put blank c).row + 1 = g.rows) := by
  have hrow := h.row
  rw [putGone]
  by_cases hlast : g.col + 1 < g.cols
  · rw [put_of_lt hlast, if_pos (Or.inl hlast)]
    exact ⟨Nat.le_refl _, fun h => absurd h (Nat.lt_irrefl 0)⟩
  · by_cases hdown : g.row + 1 < g.rows
    · rw [put_of_wrap hlast hdown, if_pos (Or.inr hdown)]
      exact ⟨Nat.le_succ _, fun h => absurd h (Nat.lt_irrefl 0)⟩
    · rw [put_of_scroll hlast hdown]
      exact ⟨Nat.le_refl _, fun _ => show g.row + 1 = g.rows by omega⟩

theorem Shows.puts (h : g.Shows isBlank gone start text) (hin : g.InGrid) (hblank : isBlank blank)
    (cs : List α) : ∃ gone', (g.puts blank cs).Shows isBlank gone' start (text ++ cs) ∧
      g.row ≤ (g.puts blank cs).row ∧
      (gone < gone' → (g.puts blank cs).row + 1 = g.rows) := by
  induction cs generalizing g gone text with
  | nil =>
    refine ⟨gone, ?_, Nat.le_refl _, fun h => absurd h (Nat.lt_irrefl _)⟩
    rw [List.append_nil]
    exact h
  | cons c cs ih =>
    obtain ⟨gone', hshows, hrow, hbottom⟩ := ih (h.put (c := c) hin hblank) hin.put
    obtain ⟨hstep, hstepBottom⟩ := @row_put α blank g c hin
    have hlast : ((g.put blank c).puts blank cs).row < ((g.put blank c).puts blank cs).rows :=
      (hin.put.puts cs).row
    rw [rows_puts, rows_put] at hlast
    rw [List.append_assoc] at hshows
    rw [rows_put] at hbottom
    refine ⟨gone', hshows, Nat.le_trans hstep hrow, fun hlt => ?_⟩
    change ((g.put blank c).puts blank cs).row + 1 = g.rows
    by_cases hgone : gone + g.putGone < gone'
    · exact hbottom hgone
    · -- the first character was the last to push a row off
      have hfirst := hstepBottom (by omega)
      omega

/-- A newline on the last row takes the text up. -/
theorem newline_of_last (h : ¬ g.row + 1 < g.rows) : g.newline blank = { g with
    col := 0
    cell := fun r k => if r + 1 < g.rows then g.cell (r + 1) k else blank } := if_neg h

/-- A screenful and `e` characters more, all of them `c`, from the start of a row. -/
theorem puts_replicate (hin : g.InGrid) (hfrom : g.BlankFrom isBlank) (hcol : g.col = 0)
    (hblank : isBlank blank) {e : ℕ} (he : e < g.cols) :
    (g.puts blank (List.replicate (g.rows * g.cols + e) c)).row + 1 = g.rows ∧
      (g.puts blank (List.replicate (g.rows * g.cols + e) c)).col = e ∧
      ∀ r < g.rows, ∀ k < g.cols, r + 1 < g.rows ∨ k < e →
        (g.puts blank (List.replicate (g.rows * g.cols + e) c)).cell r k = c := by
  obtain ⟨gone, hshows, -, hbottom⟩ :=
    Shows.puts (@BlankFrom.shows α g isBlank 0 hfrom) hin hblank
      (List.replicate (g.rows * g.cols + e) c)
  have hend : (g.puts blank (List.replicate (g.rows * g.cols + e) c)).InGrid := hin.puts _
  have hpos := hshows.position
  have hwritten := hshows.written
  generalize hg : g.puts blank (List.replicate (g.rows * g.cols + e) c) = g' at *
  have hrows : g'.rows = g.rows := by rw [← hg, rows_puts]
  have hcols : g'.cols = g.cols := by rw [← hg, cols_puts]
  have hrow' := hend.row
  have hcol' := hend.col
  rw [List.nil_append] at hpos hwritten
  rw [hrows] at hrow' hwritten
  rw [hcols] at hcol' hwritten
  rw [List.length_replicate, position, position, hcols, hcol, Nat.add_zero, Nat.add_zero,
    ← Nat.add_assoc, ← Nat.add_mul] at hpos
  -- the cursor is a screenful and `e` cells further, which gives its row and its column
  obtain ⟨hsum, hcolumn⟩ := cell_eq_of_number hcol' he hpos
  have hlast := hbottom (by omega)
  refine ⟨hlast, hcolumn, fun r hr k hk hbefore => ?_⟩
  have hstart : g.position 0 = g.row * g.cols := by rw [position, hcol, Nat.add_zero, Nat.add_zero]
  -- what row `r` shows was put a whole number of rows after the start
  have hgone : (r + gone) * g.cols = g.row * g.cols + (r + 1) * g.cols := by
    rw [← Nat.add_mul, show r + gone = g.row + (r + 1) by omega]
  have hmul : r + 1 < g.rows → (r + 1) * g.cols + g.cols ≤ g.rows * g.cols := by
    intro hlt
    rw [← Nat.succ_mul]
    exact Nat.mul_le_mul_right _ hlt
  have hle : (r + 1) * g.cols ≤ g.rows * g.cols := Nat.mul_le_mul_right _ hr
  rw [hwritten r hr k hk ((r + 1) * g.cols + k) ?_ ?_, List.getElem_replicate]
  · rw [List.length_replicate]
    rcases hbefore with hlt | hlt
    · have := hmul hlt
      omega
    · omega
  · rw [hstart, hgone, Nat.add_assoc]

end TextGrid
