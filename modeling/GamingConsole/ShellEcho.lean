/-
What the user sees of the line that is being edited.

`read_line` takes a character back on the screen with a backspace, a blank and another
backspace.  `term_putc` moves back only from a column beyond 3, the width of a short
prompt, and prints the backspace as a character elsewhere.  A line that has come to such
a column, behind a short prompt or on its second row, cannot be taken back there.

* `shows_textPutc`, `shows_rubout` — what a key does to the text that is shown;
* `position_rubout` — where the cursor is after a backspace at the left of a row;
* `echo_iff` — the screen shows the line after each key where every backspace on a
  character is typed beyond column 3.
-/
import GamingConsole.Shell
import GamingConsole.Terminal

namespace GamingConsole

/-- The bytes of an empty cell: a blank, or the zero of a buffer never written. -/
def IsBlank (c : U8) : Prop := c = 0x20 ∨ c = 0

theorem isBlank_space : IsBlank 0x20 := Or.inl rfl

/-! ### Text -/

/-- The rows that a byte moves off the top. -/
def textGone (c : U8) (g : TextGrid U8) : ℕ :=
  if c = 0x0D ∨ c = 0x0A then if g.row + 1 < g.rows then 0 else 1
  else if (c = 127 ∨ c = 0x08) ∧ 3 < g.col then 0
  else g.putGone

/-- The rows that the bytes of a string move off the top. -/
def goneIn : List U8 → TextGrid U8 → ℕ
  | [], _ => 0
  | c :: bytes, g => textGone c g + goneIn bytes (textPutc c g)

variable {g : TextGrid U8} {gone start : ℕ} {line keys bytes bytes' : List U8} {c : U8}

theorem textPuts_append : textPuts (bytes ++ bytes') g = textPuts bytes' (textPuts bytes g) :=
  List.foldl_append

theorem goneIn_append :
    goneIn (bytes ++ bytes') g = goneIn bytes g + goneIn bytes' (textPuts bytes g) := by
  induction bytes generalizing g with
  | nil => exact (Nat.zero_add _).symm
  | cons c bytes ih =>
    show textGone c g + goneIn (bytes ++ bytes') (textPutc c g) = _
    rw [ih, ← Nat.add_assoc]
    rfl

/-- A byte that is put. -/
theorem textPutc_of_put (hend : ¬ (c = 0x0D ∨ c = 0x0A))
    (hdel : ¬ ((c = 127 ∨ c = 0x08) ∧ 3 < g.col)) : textPutc c g = g.put 0x20 c :=
  (if_neg hend).trans (if_neg hdel)

theorem textGone_of_put (hend : ¬ (c = 0x0D ∨ c = 0x0A))
    (hdel : ¬ ((c = 127 ∨ c = 0x08) ∧ 3 < g.col)) : textGone c g = g.putGone :=
  (if_neg hend).trans (if_neg hdel)

/-- A backspace that takes a character back. -/
theorem textPutc_backspace (hcol : 3 < g.col) : textPutc 0x08 g = g.erase 0x20 :=
  (if_neg (by decide)).trans (if_pos ⟨Or.inr rfl, hcol⟩)

theorem textGone_backspace (hcol : 3 < g.col) : textGone 0x08 g = 0 :=
  (if_neg (by decide)).trans (if_pos ⟨Or.inr rfl, hcol⟩)

/-- A printable character is put, wherever the cursor is. -/
theorem not_control (hprint : 32 ≤ c ∧ c ≤ 126) : ¬ (c = 0x0D ∨ c = 0x0A) ∧
    ¬ (c = 127 ∨ c = 0x08) := by
  obtain ⟨hlow, hhigh⟩ := hprint
  change 32 ≤ c.toNat at hlow
  change c.toNat ≤ 126 at hhigh
  constructor
  · rintro (rfl | rfl)
    · exact absurd hlow (by decide)
    · exact absurd hlow (by decide)
  · rintro (rfl | rfl)
    · exact absurd hhigh (by decide)
    · exact absurd hlow (by decide)

/-- A printable character goes behind the line. -/
theorem shows_textPutc (h : g.Shows IsBlank gone start line) (hin : g.InGrid)
    (hprint : 32 ≤ c ∧ c ≤ 126) :
    (textPutc c g).Shows IsBlank (gone + textGone c g) start (line ++ [c]) := by
  obtain ⟨hend, hdel⟩ := not_control hprint
  rw [textPutc_of_put hend (fun hc => hdel hc.1), textGone_of_put hend (fun hc => hdel hc.1)]
  exact h.put hin isBlank_space

/-- What `read_line` echoes for a backspace. -/
def rubout : List U8 := [0x08, 0x20, 0x08]

/-- The last character is taken back, beyond column 3. -/
theorem shows_rubout (h : g.Shows IsBlank gone start line) (hin : g.InGrid) (hcol : 3 < g.col)
    (hne : line ≠ []) :
    (textPuts rubout g).Shows IsBlank (gone + goneIn rubout g) start line.dropLast := by
  have hpos : 0 < g.col := by omega
  have hback := h.erase hin hpos hne isBlank_space
  have hinback : (g.erase 0x20).InGrid := hin.erase
  -- the blank is put over the blank, and the cursor is where it was
  have hlt : (g.erase (0x20 : U8)).col + 1 < (g.erase (0x20 : U8)).cols := by
    have := hin.col
    show g.col - 1 + 1 < g.cols
    omega
  have hblank := hback.put (c := 0x20) hinback isBlank_space
  have hinblank : ((g.erase 0x20).put 0x20 (0x20 : U8)).InGrid := hinback.put
  have hcol' : 3 < ((g.erase 0x20).put 0x20 (0x20 : U8)).col := by
    rw [TextGrid.put_of_lt hlt]
    show 3 < g.col - 1 + 1
    omega
  have hlast := hblank.erase hinblank (by omega) (List.concat_ne_nil _ _) isBlank_space
  rw [List.dropLast_concat] at hlast
  have hspace : textPutc 0x20 (g.erase 0x20) = (g.erase 0x20).put 0x20 (0x20 : U8) :=
    textPutc_of_put (by decide) fun hc => absurd hc.1 (by decide)
  have hgone : textGone 0x20 (g.erase 0x20) = (g.erase (0x20 : U8)).putGone :=
    textGone_of_put (by decide) fun hc => absurd hc.1 (by decide)
  have htext : textPuts rubout g = ((g.erase 0x20).put 0x20 (0x20 : U8)).erase 0x20 := by
    show textPutc 0x08 (textPutc 0x20 (textPutc 0x08 g)) = _
    rw [textPutc_backspace hcol, hspace, textPutc_backspace hcol']
  have hgoneIn : goneIn rubout g = (g.erase (0x20 : U8)).putGone := by
    show textGone 0x08 g + (textGone 0x20 (textPutc 0x08 g) +
      (textGone 0x08 (textPutc 0x20 (textPutc 0x08 g)) + 0)) = _
    rw [textGone_backspace hcol, textPutc_backspace hcol, hspace, hgone, textGone_backspace hcol']
    omega
  rw [htext, hgoneIn]
  exact hlast

/-- A byte that is put moves the cursor one cell on. -/
theorem position_textPutc (gone : ℕ) (hin : g.InGrid) (hend : ¬ (c = 0x0D ∨ c = 0x0A))
    (hdel : ¬ ((c = 127 ∨ c = 0x08) ∧ 3 < g.col)) :
    (textPutc c g).position (gone + textGone c g) = g.position gone + 1 := by
  rw [textPutc_of_put hend hdel, textGone_of_put hend hdel]
  exact TextGrid.position_put hin

/-- A backspace moves it one cell back or on. -/
theorem position_backspace (gone : ℕ) (hin : g.InGrid) :
    g.position gone ≤ (textPutc 0x08 g).position (gone + textGone 0x08 g) + 1 := by
  by_cases hcol : 3 < g.col
  · rw [textPutc_backspace hcol, textGone_backspace hcol]
    exact (TextGrid.position_erase gone (by omega)).ge
  · rw [position_textPutc gone hin (by decide) fun hc => hcol hc.2]
    omega

/-- At the left of a row the cursor goes on instead of back. -/
theorem position_rubout (gone : ℕ) (hin : g.InGrid) (hcol : ¬ 3 < g.col) :
    g.position gone < (textPuts rubout g).position (gone + goneIn rubout g) := by
  have h1 := position_textPutc gone hin (c := 0x08) (by decide) fun hc => hcol hc.2
  have hin1 : (textPutc 0x08 g).InGrid := Screen.inGrid_textPutc hin
  have h2 := position_textPutc (gone + textGone 0x08 g) hin1 (c := 0x20) (by decide)
    fun hc => absurd hc.1 (by decide)
  have hin2 : (textPutc 0x20 (textPutc 0x08 g)).InGrid := Screen.inGrid_textPutc hin1
  have h3 := position_backspace
    (gone + textGone 0x08 g + textGone 0x20 (textPutc 0x08 g)) hin2
  have hgone : gone + goneIn rubout g = gone + textGone 0x08 g + textGone 0x20 (textPutc 0x08 g) +
      textGone 0x08 (textPutc 0x20 (textPutc 0x08 g)) := by
    show gone + (textGone 0x08 g + (textGone 0x20 (textPutc 0x08 g) +
      (textGone 0x08 (textPutc 0x20 (textPutc 0x08 g)) + 0))) = _
    omega
  rw [hgone]
  change g.position gone < (textPutc 0x08 (textPutc 0x20 (textPutc 0x08 g))).position _
  omega

/-! ### Keys -/

/-- `read_line(line, MAX_LINE)`, after some keys. -/
def typed (buf : ℕ → U8) (keys : List U8) : Reading := readLoop maxLine keys ⟨buf, 0, []⟩

variable {max : ℕ} {buf : ℕ → U8} {e e' : LineEdit} {rest : List U8} {t t₀ : Screen}

/-- A loop that has ended reads no more keys. -/
theorem readLoop_of_ended (h : readLoop max keys e = .ended e' rest) :
    readLoop max (keys ++ [c]) e = .ended e' (rest ++ [c]) := by
  induction keys generalizing e with
  | nil =>
    rw [readLoop] at h
    split at h
    · cases h
    · rename_i hfull
      cases h
      exact if_neg hfull
  | cons d keys ih =>
    rw [List.cons_append, readLoop]
    rw [readLoop] at h
    split at h
    · rename_i hroom
      rw [if_pos hroom]
      split at h
      · rename_i hend
        cases h
        exact if_pos hend
      · rename_i hend
        rw [if_neg hend]
        exact ih h
    · rename_i hfull
      cases h
      exact if_neg hfull

/-- One key more. -/
theorem editor_readLoop_snoc (h : readLoop max keys e = .waiting e')
    (hend : ¬ (c = 0x0D ∨ c = 0x0A)) :
    (readLoop max (keys ++ [c]) e).editor = e'.key c := by
  induction keys generalizing e with
  | nil =>
    rw [readLoop] at h
    split at h
    · rename_i hroom
      cases h
      rw [List.nil_append, readLoop, if_pos hroom, if_neg hend, readLoop]
      split <;> rfl
    · cases h
  | cons d keys ih =>
    rw [List.cons_append, readLoop]
    rw [readLoop] at h
    split at h
    · rename_i hroom
      rw [if_pos hroom]
      split at h
      · cases h
      · rename_i hne
        rw [if_neg hne]
        exact ih h
    · cases h

/-! ### The line on the screen -/

/-- From the cell behind the prompt on, the screen shows the characters that are held and
then blanks, and the cursor is behind the last of them. -/
def EchoShown (t₀ : Screen) (e : LineEdit) : Prop :=
  (t₀.termPuts e.echo).text.Shows IsBlank (goneIn e.echo t₀.text) (t₀.text.position 0) e.held

/-- A backspace on a character is typed beyond column 3. -/
def RubsOut (t₀ : Screen) (e : LineEdit) (c : U8) : Prop :=
  c = 0x08 → 0 < e.i → 3 < (t₀.termPuts e.echo).text.col

theorem echoShown_append (hfits : t₀.TextFits) (echo : List U8)
    (hecho : e'.echo = e.echo ++ echo) : EchoShown t₀ e' ↔
      (textPuts echo (t₀.termPuts e.echo).text).Shows IsBlank
        (goneIn e.echo t₀.text + goneIn echo (t₀.termPuts e.echo).text) (t₀.text.position 0)
        e'.held := by
  rw [EchoShown, hecho, (hfits.termPuts _).2, (hfits.termPuts _).2, textPuts_append, goneIn_append]

/-- **One key.**  What is shown stays right, if and only if a backspace can be. -/
theorem EchoShown.key_iff (h : EchoShown t₀ e) (hfits : t₀.TextFits)
    (hkey : c = 0x08 ∨ 32 ≤ c ∧ c ≤ 126) : EchoShown t₀ (e.key c) ↔ RubsOut t₀ e c := by
  have hin : (t₀.termPuts e.echo).text.InGrid := (hfits.termPuts e.echo).1.cursor
  have hlen := e.length_held
  rcases hkey with rfl | hprint
  · by_cases hpos : 0 < e.i
    · have hdel : (0x08 : U8) = 127 ∨ (0x08 : U8) = 0x08 := Or.inr rfl
      have hne : e.held ≠ [] := List.length_pos_iff.mp (hlen.symm ▸ hpos)
      rw [echoShown_append hfits rubout (by rw [LineEdit.key_erase hdel hpos]; rfl),
        LineEdit.held_key_erase hdel hpos]
      constructor
      · -- the cursor tells
        intro hshown _ _
        by_contra hcol
        have hmoved := position_rubout (goneIn e.echo t₀.text) hin hcol
        have hbefore := h.position
        have hafter := hshown.position
        rw [List.length_dropLast] at hafter
        omega
      · intro hrubs
        exact shows_rubout h hin (hrubs rfl hpos) hne
    · have hzero : ¬ (((0x08 : U8) = 127 ∨ (0x08 : U8) = 0x08) ∧ 0 < e.i) := fun hc => hpos hc.2
      rw [LineEdit.key_ignore hzero (by decide)]
      exact iff_of_true h fun _ hc => absurd hc hpos
  · obtain ⟨-, hdel⟩ := not_control hprint
    have hzero : ¬ ((c = 127 ∨ c = 0x08) ∧ 0 < e.i) := fun hc => hdel hc.1
    rw [echoShown_append hfits [c] (by rw [LineEdit.key_store hzero hprint.1]),
      LineEdit.held_key_store hzero hprint.1]
    exact iff_of_true (shows_textPutc h hin hprint) fun hc => absurd (Or.inr hc) hdel

/-- **The screen shows the line after each key** where every backspace on a character is
typed beyond column 3, and only there. -/
theorem echo_iff {t₀ : Screen} {buf : ℕ → U8} {keys : List U8} (hfits : t₀.TextFits)
    (hblank : t₀.text.BlankFrom IsBlank) (hkeys : ∀ c ∈ keys, c = 0x08 ∨ 32 ≤ c ∧ c ≤ 126) :
    (∀ n, EchoShown t₀ (typed buf (keys.take n)).editor) ↔
      ∀ n e c, typed buf (keys.take n) = .waiting e → keys[n]? = some c → RubsOut t₀ e c := by
  -- one key, read by the loop
  have hstep : ∀ n e c, typed buf (keys.take n) = .waiting e → keys[n]? = some c →
      (typed buf (keys.take (n + 1))).editor = e.key c ∧ (c = 0x08 ∨ 32 ≤ c ∧ c ≤ 126) := by
    intro n e c hwait hc
    have hkey := hkeys c (List.mem_of_getElem? hc)
    refine ⟨?_, hkey⟩
    rw [List.take_add_one, hc]
    refine editor_readLoop_snoc hwait ?_
    rcases hkey with rfl | hprint
    · decide
    · exact (not_control hprint).1
  constructor
  · intro hshown n e c hwait hc
    obtain ⟨heditor, hkey⟩ := hstep n e c hwait hc
    have hbefore := hshown n
    have hafter := hshown (n + 1)
    rw [heditor] at hafter
    rw [hwait] at hbefore
    exact (hbefore.key_iff hfits hkey).mp hafter
  · intro hrubs n
    induction n with
    | zero => exact hblank.shows
    | succ n ih =>
      rw [List.take_add_one]
      cases hc : keys[n]? with
      | none =>
        rw [Option.toList_none, List.append_nil]
        exact ih
      | some c =>
        cases hwait : typed buf (keys.take n) with
        | waiting e =>
          obtain ⟨heditor, hkey⟩ := hstep n e c hwait hc
          rw [List.take_add_one, hc] at heditor
          rw [heditor]
          rw [hwait] at ih
          exact (ih.key_iff hfits hkey).mpr (hrubs n e c hwait hc)
        | ended e rest =>
          rw [hwait] at ih
          have hended : typed buf (keys.take n ++ [c]) = .ended e (rest ++ [c]) :=
            readLoop_of_ended hwait
          rw [Option.toList_some, hended]
          exact ih

/-! ### Prompts -/

theorem blankFrom_textPuts (h : g.BlankFrom IsBlank) : (textPuts bytes g).BlankFrom IsBlank := by
  induction bytes generalizing g with
  | nil => exact h
  | cons c bytes ih => exact ih (Screen.blankFrom_textPutc h isBlank_space)

/-- The terminal as it is at boot. -/
theorem prompt_boot (memory : Raster.Bytes) (bytes : List U8) :
    ((Screen.boot memory).termPuts bytes).TextFits ∧
      ((Screen.boot memory).termPuts bytes).text.BlankFrom IsBlank ∧
      ((Screen.boot memory).termPuts bytes).text = textPuts bytes (Screen.boot memory).text := by
  have hfits : (Screen.boot memory).TextFits := ⟨show 135 ≤ 135 by decide, show 240 ≤ 240 by decide,
    show 0 < 135 by decide, show 0 < 240 by decide⟩
  obtain ⟨hfits', htext⟩ := hfits.termPuts bytes
  refine ⟨hfits', ?_, htext⟩
  rw [htext]
  refine blankFrom_textPuts fun r hr k hk _ => Or.inr ?_
  exact if_pos ⟨hr, hk⟩

/-- Behind the prompt `$ `, a character and a backspace: the cursor is two cells further
than the empty line. -/
theorem echo_short_prompt :
    ((Screen.boot fun _ => 0).termPuts [0x24, 0x20]).text.col = 2 ∧
      ¬ EchoShown ((Screen.boot fun _ => 0).termPuts [0x24, 0x20])
        (typed (fun _ => 0) [0x61, 0x08]).editor := by
  obtain ⟨hfits, -, htext⟩ := prompt_boot (fun _ => 0) [0x24, 0x20]
  refine ⟨by rw [htext]; rfl, fun hshown => ?_⟩
  have hposition := hshown.position
  rw [(hfits.termPuts _).2, htext] at hposition
  exact absurd hposition (by decide)

/-- Behind a longer prompt the character is taken back. -/
theorem echo_long_prompt :
    EchoShown ((Screen.boot fun _ => 0).termPuts [0x30, 0x3A, 0x2F, 0x24, 0x20])
      (typed (fun _ => 0) [0x61, 0x08]).editor := by
  obtain ⟨hfits, hblank, htext⟩ := prompt_boot (fun _ => 0) [0x30, 0x3A, 0x2F, 0x24, 0x20]
  have hkeys : ∀ c ∈ ([0x61, 0x08] : List U8), c = 0x08 ∨ 32 ≤ c ∧ c ≤ 126 := by decide
  refine (echo_iff hfits hblank hkeys).mpr (fun n e c hwait hc hbs _ => ?_) 2
  subst hbs
  match n, hwait, hc with
  | 0, _, hc => cases hc
  | 1, hwait, _ =>
    cases hwait
    rw [(hfits.termPuts _).2, htext]
    decide
  | n + 2, _, hc => cases hc

end GamingConsole
