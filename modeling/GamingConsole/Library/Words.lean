/-
Words of a text: its maximal runs of elements that are no separators.

A text is a list, and `sep` says which elements separate words.  A word starts at an element
that is no separator and has none but a separator before it.

* `starts`, `words` — where the words start, in order, and what they are;
* `induct` — a text is blank, or a blank and a last word, or a blank, a word, a separator and
  a text that is shorter;
* `length_words_le` — words with a separator after each of them are at most one element
  longer than their text, so that joining them again needs no more room.
-/
import Mathlib.Data.List.Flatten
import Mathlib.Data.List.TakeWhile
import Mathlib.Data.Nat.Notation

namespace Words

variable {α : Type} (sep : α → Bool)

/-- Whether a word starts at index `i`. -/
def startsAt (text : List α) (i : ℕ) : Bool :=
  (text[i]?).any (fun c => !sep c) && (i == 0 || (text[i - 1]?).any sep)

/-- Where the words start. -/
def starts (text : List α) : List ℕ := (List.range text.length).filter (startsAt sep text)

/-- The word that starts at index `i`. -/
def runAt (text : List α) (i : ℕ) : List α := (text.drop i).takeWhile fun c => !sep c

/-- The words, in order. -/
def words (text : List α) : List (List α) := (starts sep text).map (runAt sep text)

variable {sep} {text front rest gap run : List α} {c : α} {i : ℕ}

/-! ### A text that is cut at a separator -/

theorem startsAt_append_left (hi : i < front.length) :
    startsAt sep (front ++ rest) i = startsAt sep front i := by
  rw [startsAt, startsAt, List.getElem?_append_left hi, List.getElem?_append_left (by omega)]

/-- What is before a separator does not matter behind it. -/
theorem startsAt_append_right (hc : sep c) :
    startsAt sep (front ++ c :: rest) (front.length + 1 + i) = startsAt sep rest i := by
  have hat : ∀ j, (front ++ c :: rest)[front.length + 1 + j]? = rest[j]? := by
    intro j
    rw [List.getElem?_append_right (by omega),
      show front.length + 1 + j - front.length = j + 1 by omega, List.getElem?_cons_succ]
  rw [startsAt, startsAt, hat]
  cases i with
  | zero =>
    have hprev : (front ++ c :: rest)[front.length + 1 + 0 - 1]? = some c := by
      rw [List.getElem?_append_right (by omega),
        show front.length + 1 + 0 - 1 - front.length = 0 by omega, List.getElem?_cons_zero]
    rw [hprev]
    simp [hc]
  | succ i =>
    rw [show front.length + 1 + (i + 1) - 1 = front.length + 1 + i by omega, hat]
    rfl

theorem starts_append_cons (hc : sep c) :
    starts sep (front ++ c :: rest) =
      starts sep front ++ (starts sep rest).map (front.length + 1 + ·) := by
  have hlen : (front ++ c :: rest).length = front.length + 1 + rest.length := by
    rw [List.length_append, List.length_cons]
    omega
  -- no word starts at the separator itself
  have hcut : ¬ startsAt sep (front ++ c :: rest) front.length = true := by
    rw [startsAt, List.getElem?_append_right (Nat.le_refl _), Nat.sub_self, List.getElem?_cons_zero]
    simp [hc]
  rw [starts, hlen, List.range_add, List.filter_append, List.range_succ, List.filter_append,
    List.filter_cons_of_neg hcut, List.filter_nil, List.append_nil, List.filter_map]
  refine congr (congrArg _ ?_) (congrArg _ ?_)
  · rw [starts]
    exact List.filter_congr fun j hj => startsAt_append_left (List.mem_range.mp hj)
  · exact List.filter_congr fun j _ => startsAt_append_right hc

theorem runAt_append_right :
    runAt sep (front ++ c :: rest) (front.length + 1 + i) = runAt sep rest i := by
  rw [runAt, runAt, ← List.drop_drop, ← List.drop_drop, List.drop_left]
  rfl

/-! ### A blank, a word and what is behind it -/

theorem starts_gap_append (hgap : ∀ c ∈ gap, sep c) :
    starts sep (gap ++ text) = (starts sep text).map (gap.length + ·) := by
  induction gap with
  | nil => simp
  | cons c gap ih =>
    have hcut : starts sep ([] ++ c :: (gap ++ text)) =
        starts sep [] ++ (starts sep (gap ++ text)).map (0 + 1 + ·) :=
      starts_append_cons (hgap c List.mem_cons_self)
    rw [List.cons_append]
    refine hcut.trans ?_
    rw [ih fun d hd => hgap d (List.mem_cons_of_mem c hd), List.map_map]
    refine List.map_congr_left fun i _ => ?_
    simp only [Function.comp_apply, List.length_cons]
    omega

theorem starts_gap (hgap : ∀ c ∈ gap, sep c) : starts sep gap = [] := by
  have h : starts sep (gap ++ []) = [] := starts_gap_append hgap
  rwa [List.append_nil] at h

theorem starts_run (hne : run ≠ []) (hrun : ∀ c ∈ run, sep c = false) :
    starts sep run = [0] := by
  obtain ⟨c, run, rfl⟩ := List.exists_cons_of_ne_nil hne
  have hzero : startsAt sep (c :: run) 0 = true := by
    simp [startsAt, hrun c List.mem_cons_self]
  have hsucc : ∀ i ∈ (List.range run.length).map Nat.succ, startsAt sep (c :: run) i = false := by
    intro i hi
    obtain ⟨j, hj, rfl⟩ := List.mem_map.mp hi
    have hj' : j < (c :: run).length := Nat.lt_succ_of_lt (List.mem_range.mp hj)
    have hprev : (c :: run)[j + 1 - 1]? = some (c :: run)[j] := List.getElem?_eq_getElem hj'
    rw [startsAt, hprev]
    simp [hrun _ (List.getElem_mem hj')]
  rw [starts, List.length_cons, List.range_succ_eq_map, List.filter_cons_of_pos hzero,
    List.filter_eq_nil_iff.mpr]
  intro i hi
  rw [hsucc i hi]
  exact Bool.false_ne_true

theorem starts_run_append (hne : run ≠ []) (hrun : ∀ c ∈ run, sep c = false) (hc : sep c) :
    starts sep (run ++ c :: rest) = 0 :: (starts sep rest).map (run.length + 1 + ·) := by
  rw [starts_append_cons hc, starts_run hne hrun]
  rfl

theorem runAt_gap_append :
    runAt sep (gap ++ text) (gap.length + i) = runAt sep text i := by
  rw [runAt, ← List.drop_drop, List.drop_left, runAt]

theorem runAt_run (hrun : ∀ c ∈ run, sep c = false) : runAt sep run 0 = run := by
  rw [runAt, List.drop_zero, List.takeWhile_eq_self_iff]
  intro c hc
  rw [hrun c hc]
  rfl

theorem runAt_run_append (hrun : ∀ c ∈ run, sep c = false) (hc : sep c) :
    runAt sep (run ++ c :: rest) 0 = run := by
  have hpos : ∀ d ∈ run, (!sep d) = true := fun d hd => by rw [hrun d hd]; rfl
  rw [runAt, List.drop_zero, List.takeWhile_append_of_pos hpos, List.takeWhile_cons, hc]
  exact List.append_nil run

/-- A text by its words: blank, a last word, or a word and a text behind it. -/
theorem induct (sep : α → Bool) {motive : List α → Prop}
    (blank : ∀ gap, (∀ c ∈ gap, sep c) → motive gap)
    (last : ∀ gap run, (∀ c ∈ gap, sep c) → run ≠ [] → (∀ c ∈ run, sep c = false) →
      motive (gap ++ run))
    (cut : ∀ gap run c rest, (∀ c ∈ gap, sep c) → run ≠ [] → (∀ c ∈ run, sep c = false) →
      sep c → motive rest → motive (gap ++ (run ++ c :: rest)))
    (text : List α) : motive text := by
  induction hn : text.length using Nat.strongRecOn generalizing text with
  | _ n ih =>
    have hgap : ∀ c ∈ text.takeWhile sep, sep c := fun c hc => List.mem_takeWhile_imp hc
    rw [← List.takeWhile_append_dropWhile (p := sep) (l := text)]
    rcases hword : text.dropWhile sep with _ | ⟨d, behind⟩
    · rw [List.append_nil]
      exact blank _ hgap
    · have hd : sep d = false := by
        have h := List.head?_dropWhile_not sep text
        rw [hword] at h
        exact h
      have hrun : ∀ c ∈ (d :: behind).takeWhile (fun c => !sep c), sep c = false := fun c hc => by
        simpa using List.mem_takeWhile_imp hc
      have hne : (d :: behind).takeWhile (fun c => !sep c) ≠ [] := by
        rw [List.takeWhile_cons_of_pos (by rw [hd]; rfl)]
        exact List.cons_ne_nil _ _
      rw [← List.takeWhile_append_dropWhile (p := fun c => !sep c) (l := d :: behind)]
      rcases htail : (d :: behind).dropWhile (fun c => !sep c) with _ | ⟨c, rest⟩
      · rw [List.append_nil]
        exact last _ _ hgap hne hrun
      · have hc : sep c = true := by
          have h := List.head?_dropWhile_not (fun c => !sep c) (d :: behind)
          rw [htail] at h
          exact (Bool.not_eq_false' (sep c)).mp h
        refine cut _ _ c rest hgap hne hrun hc (ih rest.length ?_ rest rfl)
        -- the rest is behind the separator `c`, and so shorter
        have hlen := congrArg List.length
          (List.takeWhile_append_dropWhile (p := fun c => !sep c) (l := d :: behind))
        have hall := congrArg List.length (List.takeWhile_append_dropWhile (p := sep) (l := text))
        rw [htail] at hlen
        rw [hword] at hall
        simp only [List.length_append, List.length_cons] at hlen hall
        omega

/-! ### What the words are -/

theorem words_gap_append (hgap : ∀ c ∈ gap, sep c) : words sep (gap ++ text) = words sep text := by
  rw [words, words, starts_gap_append hgap, List.map_map]
  exact List.map_congr_left fun i _ => runAt_gap_append

theorem words_gap (hgap : ∀ c ∈ gap, sep c) : words sep gap = [] := by
  rw [words, starts_gap hgap, List.map_nil]

theorem words_run (hne : run ≠ []) (hrun : ∀ c ∈ run, sep c = false) : words sep run = [run] := by
  rw [words, starts_run hne hrun, List.map_singleton, runAt_run hrun]

theorem words_run_append (hne : run ≠ []) (hrun : ∀ c ∈ run, sep c = false) (hc : sep c) :
    words sep (run ++ c :: rest) = run :: words sep rest := by
  rw [words, starts_run_append hne hrun hc, List.map_cons, runAt_run_append hrun hc, List.map_map,
    words]
  exact congrArg _ (List.map_congr_left fun i _ => runAt_append_right)

theorem length_words : (words sep text).length = (starts sep text).length := List.length_map _

/-- The words, with a separator behind each of them. -/
theorem length_words_le (sep : α → Bool) (text : List α) :
    (words sep text).flatten.length + (words sep text).length ≤ text.length + 1 := by
  induction text using induct sep with
  | blank gap hgap =>
    rw [words_gap hgap]
    exact Nat.zero_le _
  | last gap run hgap hne hrun =>
    rw [words_gap_append hgap, words_run hne hrun, List.length_append]
    simp only [List.flatten_cons, List.flatten_nil, List.append_nil, List.length_singleton]
    omega
  | cut gap run c rest hgap hne hrun hc ih =>
    rw [words_gap_append hgap, words_run_append hne hrun hc]
    simp only [List.flatten_cons, List.length_cons, List.length_append]
    omega

/-! ### Words that are joined -/

/-- Words with one separator between them. -/
theorem intercalate_cons (word : List α) (ws : List (List α)) :
    [c].intercalate (word :: ws) = word ++ (ws.map (c :: ·)).flatten := by
  induction ws generalizing word with
  | nil => exact List.intercalate_singleton.trans (List.append_nil word).symm
  | cons next ws ih =>
    rw [List.intercalate_cons_cons, ih, List.map_cons, List.flatten_cons, List.append_assoc,
      List.singleton_append, List.cons_append]

/-- What is joined holds nothing but the words and the separator. -/
theorem eq_or_mem_of_mem_intercalate {x : α} {ws : List (List α)} (h : x ∈ [c].intercalate ws) :
    x = c ∨ ∃ word ∈ ws, x ∈ word := by
  cases ws with
  | nil => cases h
  | cons word ws =>
    rw [intercalate_cons, List.mem_append, List.mem_flatten] at h
    rcases h with h | ⟨cells, hcells, hx⟩
    · exact Or.inr ⟨word, List.mem_cons_self, h⟩
    · obtain ⟨next, hnext, rfl⟩ := List.mem_map.mp hcells
      rcases List.mem_cons.mp hx with rfl | hx
      · exact Or.inl rfl
      · exact Or.inr ⟨next, List.mem_cons_of_mem word hnext, hx⟩

theorem length_intercalate_cons (word : List α) (ws : List (List α)) :
    ([c].intercalate (word :: ws)).length = word.length + ws.flatten.length + ws.length := by
  rw [intercalate_cons, List.length_append]
  induction ws with
  | nil => rfl
  | cons next ws ih =>
    simp only [List.map_cons, List.flatten_cons, List.length_append, List.length_cons] at ih ⊢
    omega

/-- Words that are left out are missed. -/
theorem intercalate_append_ne {ws left : List (List α)} (hws : ws ≠ []) (hleft : left ≠ []) :
    [c].intercalate (ws ++ left) ≠ [c].intercalate ws := by
  obtain ⟨word, ws, rfl⟩ := List.exists_cons_of_ne_nil hws
  intro heq
  have hlen := congrArg List.length heq
  rw [List.cons_append, length_intercalate_cons, length_intercalate_cons, List.flatten_append,
    List.length_append, List.length_append] at hlen
  have hpos := List.length_pos_iff.mpr hleft
  omega

/-- **Joined words fit where the text was.** -/
theorem length_intercalate_le {ws : List (List α)} (h : ws.Sublist (words sep text)) :
    ([c].intercalate ws).length ≤ text.length := by
  cases ws with
  | nil => exact Nat.zero_le _
  | cons word ws =>
    have hcells := h.flatten.length_le
    have hcount := h.length_le
    have hroom := length_words_le sep text
    rw [length_intercalate_cons]
    simp only [List.flatten_cons, List.length_append, List.length_cons] at hcells hcount
    omega

end Words
