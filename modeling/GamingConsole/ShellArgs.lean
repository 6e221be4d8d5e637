/-
`parse_args` and `join_args`: a command line as words, and words as a text again.

`parse_args` writes a terminator behind every word that it takes, and never copies one.
`join_args` copies into a buffer without looking at its size.

* `parseLoop_text` — the loop on what is left of a line, wherever it stands in its object;
* `joinLoop_words` — the loop of `join_args` on words that a line holds;
* `parse_args_exact` — the two of them on a line of the shell.
-/
import GamingConsole.Shell
import GamingConsole.Library.CString
import GamingConsole.Library.Words
import Mathlib.Data.List.Forall2

namespace GamingConsole

open CString Words

/-! ### The code -/

/-- A line that is being split, and `argv[0..argc)`. -/
structure Args where
  line : List U8
  argv : List ℕ

/-- `argc`. -/
def Args.argc (a : Args) : ℕ := a.argv.length

/-- The loop of `parse_args`. -/
def parseLoop (maxArgc : ℕ) (line : List U8) (argv : List ℕ) (p : ℕ) : Option Args := do
  let c ← (line)[p]?
  if _h : c ≠ 0 ∧ argv.length < maxArgc then
    let p ← scan (fun c => decide (c = 0x20)) line p
    let c ← (line)[p]?
    if c = 0 then some ⟨line, argv⟩
    else
      let e ← scan (fun c => decide (c ≠ 0 ∧ c ≠ 0x20)) line p
      let c ← (line)[e]?
      if c ≠ 0 then
        let line ← store line e 0
        parseLoop maxArgc line (argv ++ [p]) (e + 1)
      else parseLoop maxArgc line (argv ++ [p]) e
  else some ⟨line, argv⟩
termination_by maxArgc - argv.length
decreasing_by all_goals rw [List.length_append, List.length_singleton]; omega

/-- `parse_args`. -/
def parseArgs (line : List U8) (maxArgc : ℕ) : Option Args := parseLoop maxArgc line [] 0

/-- The loop of `join_args`: `dst` and `pos` behind it. -/
def joinLoop (line : List U8) (argv : List ℕ) (start argc i : ℕ) (dst : List U8) (pos : ℕ) :
    Option (List U8 × ℕ) :=
  if i < argc then do
    let (dst, pos) ← if start < i then (store dst pos 0x20).map (·, pos + 1) else some (dst, pos)
    let s ← argv[i]?
    let (dst, pos) ← copy 0 line s dst pos
    joinLoop line argv start argc (i + 1) dst pos
  else some (dst, pos)
termination_by argc - i

/-- `join_args`. -/
def joinArgs (dst line : List U8) (argv : List ℕ) (start argc : ℕ) : Option (List U8) :=
  (joinLoop line argv start argc start dst 0).bind fun (dst, pos) => store dst pos 0

/-! ### One turn of `parse_args` -/

/-- What separates words. -/
def isSpace (c : U8) : Bool := decide (c = 0x20)

variable {front rest gap run text dst out line : List U8} {argv : List ℕ} {c : U8}
  {maxArgc start : ℕ}

theorem parseLoop_nul :
    parseLoop maxArgc (front ++ 0 :: rest) argv front.length = some ⟨front ++ 0 :: rest, argv⟩ := by
  rw [parseLoop, getElem?_append_cons]
  rfl

theorem parseLoop_full (hfull : ¬ argv.length < maxArgc) :
    parseLoop maxArgc (front ++ (text ++ 0 :: rest)) argv front.length =
      some ⟨front ++ (text ++ 0 :: rest), argv⟩ := by
  obtain ⟨c, rest, hcells⟩ : ∃ c rest', text ++ 0 :: rest = c :: rest' :=
    List.exists_cons_of_ne_nil (List.append_ne_nil_of_right_ne_nil text (List.cons_ne_nil 0 rest))
  rw [hcells, parseLoop, getElem?_append_cons]
  exact dif_neg fun h => hfull h.2

theorem scan_gap (hgap : ∀ d ∈ gap, isSpace d = true) (hc : isSpace c = false) :
    scan (fun c => decide (c = 0x20)) (front ++ (gap ++ c :: rest)) front.length =
      some (front.length + gap.length) :=
  scan_append hgap hc

theorem parseLoop_blank (hgap : ∀ d ∈ gap, isSpace d = true) :
    parseLoop maxArgc (front ++ (gap ++ 0 :: rest)) argv front.length =
      some ⟨front ++ (gap ++ 0 :: rest), argv⟩ := by
  cases gap with
  | nil => exact parseLoop_nul
  | cons d gap =>
    by_cases hroom : argv.length < maxArgc
    · have hd : d ≠ 0 := by
        intro h
        have hspace := hgap d List.mem_cons_self
        rw [h] at hspace
        exact absurd hspace (by decide)
      have hfirst : (front ++ (d :: gap ++ 0 :: rest))[front.length]? = some d :=
        getElem?_append_cons
      have hend : (front ++ (d :: gap ++ 0 :: rest))[front.length + (d :: gap).length]? =
          some 0 := by
        rw [← List.append_assoc, ← List.length_append]
        exact getElem?_append_cons
      rw [parseLoop, hfirst]
      simp only [Option.bind_eq_bind, Option.bind_some]
      rw [dif_pos ⟨hd, hroom⟩, scan_gap hgap (by decide), Option.bind_some, hend]
      rfl
    · exact parseLoop_full hroom

/-- A turn that takes a word: it writes over the separator, and leaves a terminator as it is. -/
theorem parseLoop_word (hroom : argv.length < maxArgc) (hgap : ∀ d ∈ gap, isSpace d = true)
    (hne : run ≠ []) (hrun : ∀ d ∈ run, isSpace d = false) (hnul : 0 ∉ run)
    (hc : isSpace c = true ∨ c = 0) :
    parseLoop maxArgc (front ++ (gap ++ (run ++ c :: rest))) argv front.length =
      parseLoop maxArgc (front ++ (gap ++ (run ++ 0 :: rest)))
        (argv ++ [front.length + gap.length])
        (front.length + gap.length + run.length + if c = 0 then 0 else 1) := by
  obtain ⟨d, run, rfl⟩ := List.exists_cons_of_ne_nil hne
  have hlen : (front ++ gap).length = front.length + gap.length := List.length_append
  have hd : isSpace d = false := hrun d List.mem_cons_self
  have hdne : d ≠ 0 := fun h => hnul (h ▸ List.mem_cons_self)
  -- the first cell is the word's if there is no gap
  obtain ⟨e, he, hene⟩ : ∃ e, (front ++ (gap ++ (d :: run ++ c :: rest)))[front.length]? = some e ∧
      e ≠ 0 := by
    cases gap with
    | nil => exact ⟨d, getElem?_append_cons, hdne⟩
    | cons e gap =>
      refine ⟨e, getElem?_append_cons, fun h => ?_⟩
      have hspace := hgap e List.mem_cons_self
      rw [h] at hspace
      exact absurd hspace (by decide)
  have hword :
      (front ++ (gap ++ (d :: run ++ c :: rest)))[front.length + gap.length]? = some d := by
    rw [← List.append_assoc, ← hlen]
    exact getElem?_append_cons
  have hpass : ∀ x ∈ d :: run, decide (x ≠ 0 ∧ x ≠ 0x20) = true := by
    intro x hx
    refine decide_eq_true ⟨fun h => hnul (h ▸ hx), fun h => ?_⟩
    exact absurd (hrun x hx) (by rw [h]; decide)
  have hstop : decide (c ≠ 0 ∧ c ≠ 0x20) = false := by
    refine decide_eq_false fun h => hc.elim (fun hspace => h.2 ?_) h.1
    exact of_decide_eq_true hspace
  have hscan : scan (fun c => decide (c ≠ 0 ∧ c ≠ 0x20)) (front ++ (gap ++ (d :: run ++ c :: rest)))
      (front.length + gap.length) = some (front.length + gap.length + (d :: run).length) := by
    rw [← List.append_assoc, ← hlen]
    exact scan_append hpass hstop
  have hcells : front ++ (gap ++ (d :: run ++ c :: rest)) =
      (front ++ gap ++ (d :: run)) ++ c :: rest := by
    simp
  have hat : (front ++ gap ++ (d :: run)).length =
      front.length + gap.length + (d :: run).length := by
    rw [List.length_append, hlen]
  have hend : (front ++ (gap ++ (d :: run ++ c :: rest)))[front.length + gap.length +
      (d :: run).length]? = some c := by
    rw [hcells, ← hat]
    exact getElem?_append_cons
  have hgapend : scan (fun c => decide (c = 0x20)) (front ++ (gap ++ (d :: run ++ c :: rest)))
      front.length = some (front.length + gap.length) := scan_gap hgap hd
  rw [parseLoop, he]
  simp only [Option.bind_eq_bind, Option.bind_some]
  rw [dif_pos ⟨hene, hroom⟩, hgapend, Option.bind_some, hword, Option.bind_some, if_neg hdne, hscan,
    Option.bind_some, hend, Option.bind_some]
  -- at the end of the line nothing is stored, and the next turn stops there
  by_cases hzero : c = 0
  · subst hzero
    rw [if_neg (fun h => h rfl), if_pos rfl, Nat.add_zero]
  · rw [if_pos hzero, if_neg hzero, hcells, ← hat, store_append_cons, Option.bind_some]
    simp

/-! ### A line -/

/-- What a line is after its first `k` words have been taken: as long as it was, and with each
of them as a string where it stood, whatever is around the line. -/
structure Tokenized (k : ℕ) (text cut : List U8) : Prop where
  length : cut.length = text.length
  holds : ∀ i ∈ (starts isSpace text).take k, ∀ front rest,
    Holds 0 (front ++ (cut ++ 0 :: rest)) (front.length + i) (runAt isSpace text i)

theorem Tokenized.zero : Tokenized 0 text text := by
  refine ⟨rfl, fun i hi => ?_⟩
  rw [List.take_zero] at hi
  cases hi

theorem Tokenized.blank (hgap : ∀ d ∈ gap, isSpace d = true) (k : ℕ) : Tokenized k gap gap := by
  refine ⟨rfl, fun i hi => ?_⟩
  rw [starts_gap hgap, List.take_nil] at hi
  cases hi

theorem Tokenized.last (hgap : ∀ d ∈ gap, isSpace d = true) (hne : run ≠ [])
    (hrun : ∀ d ∈ run, isSpace d = false) (hnul : 0 ∉ run) (k : ℕ) :
    Tokenized k (gap ++ run) (gap ++ run) := by
  refine ⟨rfl, fun i hi front rest => ?_⟩
  have hi' := List.mem_of_mem_take hi
  rw [starts_gap_append hgap, starts_run hne hrun, List.map_singleton, List.mem_singleton] at hi'
  subst hi'
  rw [runAt_gap_append, runAt_run hrun, List.append_assoc, ← List.append_assoc front, Nat.add_zero,
    ← List.length_append]
  exact holds_append hnul

theorem Tokenized.cut {cut : List U8} {k : ℕ} (h : Tokenized k rest cut)
    (hgap : ∀ d ∈ gap, isSpace d = true) (hne : run ≠ [])
    (hrun : ∀ d ∈ run, isSpace d = false) (hnul : 0 ∉ run) (hc : isSpace c = true) :
    Tokenized (k + 1) (gap ++ (run ++ c :: rest)) (gap ++ (run ++ 0 :: cut)) := by
  refine ⟨?_, fun i hi front behind => ?_⟩
  · simp only [List.length_append, List.length_cons, h.length]
  · have hcells : front ++ (gap ++ (run ++ 0 :: cut) ++ 0 :: behind) =
        (front ++ gap) ++ (run ++ 0 :: (cut ++ 0 :: behind)) := by simp
    have hcells' : front ++ (gap ++ (run ++ 0 :: cut) ++ 0 :: behind) =
        (front ++ gap ++ run ++ [0]) ++ (cut ++ 0 :: behind) := by simp
    rw [starts_gap_append hgap, starts_run_append hne hrun hc, List.map_cons, List.map_map,
      List.take_succ_cons, List.mem_cons] at hi
    rcases hi with rfl | hi
    · rw [runAt_gap_append, runAt_run_append hrun hc, hcells, Nat.add_zero, ← List.length_append]
      exact holds_append hnul
    · rw [← List.map_take, List.mem_map] at hi
      obtain ⟨j, hj, rfl⟩ := hi
      have hword := h.holds j hj (front ++ gap ++ run ++ [0]) behind
      rw [Function.comp_apply, runAt_gap_append, runAt_append_right, hcells']
      convert hword using 1
      simp only [List.length_append, List.length_singleton]
      omega

/-- **The loop takes the words that are left, as far as there is room for them in `argv`.** -/
theorem parseLoop_text (hnul : 0 ∉ text) (k : ℕ) :
    ∃ cut, Tokenized k text cut ∧ ∀ front rest argv maxArgc, maxArgc - argv.length = k →
      parseLoop maxArgc (front ++ (text ++ 0 :: rest)) argv front.length =
        some ⟨front ++ (cut ++ 0 :: rest),
          argv ++ ((starts isSpace text).take k).map (front.length + ·)⟩ := by
  -- the loop stands before a gap at every turn, and `k` is the room that is left in `argv`
  induction text using Words.induct isSpace generalizing k with
  | blank gap hgap =>
    refine ⟨gap, Tokenized.blank hgap k, fun front rest argv maxArgc _ => ?_⟩
    rw [starts_gap hgap, List.take_nil, List.map_nil, List.append_nil]
    exact parseLoop_blank hgap
  | last gap run hgap hne hrun =>
    rcases k with _ | k
    · refine ⟨_, Tokenized.zero, fun front rest argv maxArgc hk => ?_⟩
      rw [List.take_zero, List.map_nil, List.append_nil]
      exact parseLoop_full (by omega)
    · have hword : 0 ∉ run := fun h => hnul (List.mem_append_right gap h)
      refine ⟨gap ++ run, Tokenized.last hgap hne hrun hword _,
        fun front rest argv maxArgc hk => ?_⟩
      have hend : (front ++ (gap ++ run)).length = front.length + gap.length + run.length := by
        simp only [List.length_append]
        omega
      rw [List.append_assoc, parseLoop_word (by omega) hgap hne hrun hword (Or.inr rfl), if_pos rfl,
        Nat.add_zero, ← hend, starts_gap_append hgap, starts_run hne hrun, List.map_singleton,
        List.take_succ_cons, List.take_nil, List.map_singleton, Nat.add_zero,
        ← List.append_assoc gap, ← List.append_assoc front]
      exact parseLoop_nul
  | cut gap run c rest hgap hne hrun hc ih =>
    rcases k with _ | k
    · refine ⟨_, Tokenized.zero, fun front behind argv maxArgc hk => ?_⟩
      rw [List.take_zero, List.map_nil, List.append_nil]
      exact parseLoop_full (by omega)
    · have hword : 0 ∉ run := fun h => hnul (List.mem_append_right gap (List.mem_append_left _ h))
      have hbehind : 0 ∉ rest := fun h =>
        hnul (List.mem_append_right gap (List.mem_append_right run (List.mem_cons_of_mem c h)))
      have hcne : c ≠ 0 := by
        rintro rfl
        exact absurd hc (by decide)
      obtain ⟨cut, hcut, hloop⟩ := ih hbehind k
      refine ⟨_, hcut.cut hgap hne hrun hword hc, fun front behind argv maxArgc hk => ?_⟩
      -- the separator has become the word's terminator, and the loop goes on behind it
      have hcells : front ++ (gap ++ (run ++ 0 :: (rest ++ 0 :: behind))) =
          (front ++ gap ++ run ++ [0]) ++ (rest ++ 0 :: behind) := by simp
      have hat : (front ++ gap ++ run ++ [0]).length =
          front.length + gap.length + run.length + 1 := by
        simp only [List.length_append, List.length_singleton]
      have hnext := hloop (front ++ gap ++ run ++ [0]) behind
        (argv ++ [front.length + gap.length]) maxArgc
        (by rw [List.length_append, List.length_singleton]; omega)
      rw [List.append_assoc, List.append_assoc, List.cons_append,
        parseLoop_word (by omega) hgap hne hrun hword (Or.inl hc), if_neg hcne,
        hcells, ← hat, hnext,
        starts_gap_append hgap, starts_run_append hne hrun hc, List.map_cons, List.map_map,
        List.take_succ_cons, List.map_cons, ← List.map_take, List.map_map, hat]
      have hline : front ++ gap ++ run ++ [0] ++ (cut ++ 0 :: behind) =
          front ++ ((gap ++ (run ++ 0 :: cut)) ++ 0 :: behind) := by simp
      have hpos : ∀ i, front.length + gap.length + run.length + 1 + i =
          front.length + (gap.length + (run.length + 1 + i)) := fun i => by omega
      rw [hline, List.append_assoc argv, List.singleton_append]
      simp only [hpos, Function.comp_def, Nat.add_zero]

/-- The line after `parse_args`, its pointers and its strings. -/
theorem parseArgs_text (hnul : 0 ∉ text) (maxArgc : ℕ) :
    ∃ cut, cut.length = text.length ∧
      (∀ rest, parseArgs (text ++ 0 :: rest) maxArgc =
        some ⟨cut ++ 0 :: rest, (starts isSpace text).take maxArgc⟩) ∧
      ∀ i ∈ (starts isSpace text).take maxArgc, ∀ rest,
        Holds 0 (cut ++ 0 :: rest) i (runAt isSpace text i) := by
  obtain ⟨cut, hcut, hloop⟩ := parseLoop_text hnul maxArgc
  refine ⟨cut, hcut.length, fun rest => ?_, fun i hi rest => ?_⟩
  · have hrun := hloop [] rest [] maxArgc rfl
    rw [parseArgs]
    simpa using hrun
  · have hword := hcut.holds i hi [] rest
    simpa using hword

/-! ### Joining words -/

/-- A line holds these words where `argv` says. -/
def HoldsWords (line : List U8) (argv : List ℕ) (ws : List (List U8)) : Prop :=
  List.Forall₂ (Holds 0 line) argv ws

variable {word : List U8} {ws : List (List U8)} {i : ℕ}

theorem HoldsWords.nil (h : HoldsWords line (argv.drop i) []) : ¬ i < argv.length := by
  have hnil := List.forall₂_nil_right_iff.mp h
  rw [List.drop_eq_nil_iff] at hnil
  omega

theorem HoldsWords.cons (h : HoldsWords line (argv.drop i) (word :: ws)) :
    i < argv.length ∧ (∃ p, argv[i]? = some p ∧ Holds 0 line p word) ∧
      HoldsWords line (argv.drop (i + 1)) ws := by
  obtain ⟨p, argv', hp, hbehind, hdrop⟩ := List.forall₂_cons_right_iff.mp h
  have hlen := congrArg List.length hdrop
  rw [List.length_drop, List.length_cons] at hlen
  have hget := congrArg (·[0]?) hdrop
  have hnext : argv.drop (i + 1) = argv' := by
    rw [← List.drop_drop, hdrop]
    rfl
  refine ⟨by omega, ⟨p, ?_, hp⟩, hnext ▸ hbehind⟩
  simpa using hget

/-- The words behind the first one that is joined. -/
theorem joinLoop_behind (hws : HoldsWords line (argv.drop i) ws) (hi : start < i)
    (hroom : out.length + ((ws.map (0x20 :: ·)).flatten).length ≤ dst.length) :
    joinLoop line argv start argv.length i (overlay out dst) out.length =
      some (overlay (out ++ (ws.map (0x20 :: ·)).flatten) dst,
        (out ++ (ws.map (0x20 :: ·)).flatten).length) := by
  induction ws generalizing i out with
  | nil =>
    rw [joinLoop, if_neg hws.nil, List.map_nil, List.flatten_nil, List.append_nil]
  | cons word ws ih =>
    obtain ⟨hlt, ⟨p, hget, hp⟩, hbehind⟩ := hws.cons
    -- the word is copied behind the space that has just been stored
    rw [List.map_cons, List.flatten_cons, List.length_append, List.length_cons] at hroom
    have hcopy := copy_overlay (out ++ [0x20]) dst hp
      (by rw [List.length_append, List.length_singleton]; omega)
    rw [List.length_append, List.length_singleton] at hcopy
    rw [joinLoop, if_pos hlt, if_pos hi, store_overlay (by omega), Option.map_some]
    simp only [Option.bind_eq_bind, Option.bind_some]
    rw [hget, Option.bind_some, hcopy, Option.bind_some, ih hbehind (by omega)]
    · simp
    · simp only [List.length_append, List.length_singleton]
      omega

/-- **`join_args` joins the words that are left from `start` on.** -/
theorem joinArgs_words (hws : HoldsWords line argv ws) (start : ℕ)
    (hroom : ([0x20].intercalate (ws.drop start)).length < dst.length) :
    joinArgs dst line argv start argv.length =
      some (overlay ([0x20].intercalate (ws.drop start) ++ [0]) dst) := by
  have hdrop : HoldsWords line (argv.drop start) (ws.drop start) := List.forall₂_drop start hws
  rw [joinArgs]
  -- only the first word that is joined has no space before it
  rcases hleft : ws.drop start with _ | ⟨word, ws'⟩
  · rw [hleft] at hdrop hroom
    rw [joinLoop, if_neg hdrop.nil]
    show store (overlay [] dst) ([] : List U8).length 0 = _
    exact store_overlay hroom
  · rw [hleft] at hdrop hroom
    obtain ⟨hlt, ⟨p, hget, hp⟩, hbehind⟩ := hdrop.cons
    rw [intercalate_cons] at hroom ⊢
    rw [List.length_append] at hroom
    have hcopy := copy_overlay [] dst hp (by rw [List.length_nil]; omega)
    rw [overlay_nil, List.nil_append, List.length_nil] at hcopy
    rw [joinLoop, if_pos hlt, if_neg (Nat.lt_irrefl _)]
    simp only [Option.bind_eq_bind, Option.bind_some]
    rw [hget, Option.bind_some, hcopy, Option.bind_some,
      joinLoop_behind hbehind (Nat.lt_succ_self _) (by omega), Option.bind_some]
    exact store_overlay (by rw [List.length_append]; omega)

/-- A line that holds a word at each of its pointers. -/
theorem holdsWords_take
    (h : ∀ i ∈ (starts isSpace text).take maxArgc, Holds 0 line i (runAt isSpace text i)) :
    HoldsWords line ((starts isSpace text).take maxArgc) ((words isSpace text).take maxArgc) := by
  rw [HoldsWords, words, ← List.map_take, List.forall₂_map_right_iff, List.forall₂_same]
  exact h

/-- **A line is split exactly, wherever the limit falls, and what is joined from it fits in
another line.**  Nothing is read or written behind the line's terminator: it is the same with
any `rest`, and with none. -/
theorem parse_args_exact (text : List U8) (hnul : 0 ∉ text) (hlen : text.length < maxLine)
    (maxArgc : ℕ) :
    ∃ cut argv, cut.length = text.length ∧
      argv.length = min (words isSpace text).length maxArgc ∧
      ∀ rest, parseArgs (text ++ 0 :: rest) maxArgc = some ⟨cut ++ 0 :: rest, argv⟩ ∧
        (∀ i p : ℕ, argv[i]? = some p → (starts isSpace text)[i]? = some p ∧
          ∃ word, (words isSpace text)[i]? = some word ∧ Holds 0 (cut ++ 0 :: rest) p word) ∧
        ∀ (start : ℕ) (dst joined : List U8), dst.length = maxLine →
          joined = [0x20].intercalate (((words isSpace text).take maxArgc).drop start) →
          joinArgs dst (cut ++ 0 :: rest) argv start argv.length =
              some (overlay (joined ++ [0]) dst) ∧
            joined.length + 1 ≤ maxLine := by
  obtain ⟨cut, hcut, hparse, hholds⟩ := parseArgs_text hnul maxArgc
  refine ⟨cut, _, hcut, ?_,
    fun rest => ⟨hparse rest, fun i p hp => ?_, fun start dst joined hdst hj => ?_⟩⟩
  · rw [List.length_take, length_words, Nat.min_comm]
  · have hword := hholds p (List.mem_of_getElem? hp) rest
    have hi := (List.getElem?_eq_some_iff.mp hp).1
    rw [List.length_take] at hi
    rw [List.getElem?_take_of_lt (by omega)] at hp
    refine ⟨hp, runAt isSpace text p, ?_, hword⟩
    rw [words, List.getElem?_map, hp]
    rfl
  · have hfits : joined.length ≤ text.length := by
      rw [hj]
      exact length_intercalate_le ((List.drop_sublist _ _).trans (List.take_sublist _ _))
    subst hj
    have hwords := holdsWords_take fun i hi => hholds i hi rest
    exact ⟨joinArgs_words hwords start (by omega), by omega⟩

/-- Three words, of which two are taken: the limit is reached before the line ends. -/
theorem parse_args_exact_limit :
    ∃ cut argv, parseArgs [0x20, 0x61, 0x20, 0x20, 0x62, 0x20, 0x63, 0] 2 = some ⟨cut, argv⟩ ∧
      argv.length = 2 ∧ Holds 0 cut 4 [0x62] ∧
      ∀ dst : List U8, dst.length = maxLine →
        joinArgs dst cut argv 0 2 = some (overlay [0x61, 0x20, 0x62, 0] dst) := by
  have hexact := parse_args_exact [0x20, 0x61, 0x20, 0x20, 0x62, 0x20, 0x63]
      (by decide) (by decide) 2
  obtain ⟨cut, argv, -, hargc, hrest⟩ := hexact
  obtain ⟨hparse, hwords, hjoin⟩ := hrest []
  have htwo : argv.length = 2 := hargc
  refine ⟨_, argv, hparse, htwo, ?_, fun dst hdst => ?_⟩
  · obtain ⟨hstart, word, hword, hholds⟩ := hwords 1 argv[1] (List.getElem?_eq_getElem _)
    have hp : 4 = argv[1] := Option.some.inj hstart
    have hb : [0x62] = word := Option.some.inj hword
    rw [hp, hb]
    exact hholds
  · have h := (hjoin 0 dst _ hdst rfl).1
    rw [htwo] at h
    exact h

end GamingConsole
