/-
C strings in objects of memory.

An object is the list of its cells.  An access outside of it has no result, so that a loop
with a result has kept to its objects.

* `Holds nul mem p s` — the cells from `p` on are `s` and a terminator;
* `overlay out dst` — an object whose first cells have been written: every `store` behind
  them writes one more;
* `scan_append`, `copy_overlay`, `read_of_holds`, `equal_of_holds` — what the loops over
  strings do.
-/
import Mathlib.Data.List.TakeWhile
import Mathlib.Order.Basic

namespace CString

variable {α : Type}

/-! ### Loops over the cells of an object -/

/-- `dst[pos] = c`. -/
def store (dst : List α) (pos : ℕ) (c : α) : Option (List α) :=
  if pos < dst.length then some (dst.set pos c) else none

/-- `while (P(*p)) p++`: the pointer where it ends. -/
def scan (P : α → Bool) (mem : List α) (p : ℕ) : Option ℕ :=
  if h : p < mem.length then
    if P mem[p] then scan P mem (p + 1) else some p
  else none
termination_by mem.length - p

/-- `while (s[j]) dst[pos++] = s[j++]`: the object and the position behind the copy. -/
def copy [DecidableEq α] (nul : α) (src : List α) (s : ℕ) (dst : List α) (pos : ℕ) :
    Option (List α × ℕ) :=
  if h : s < src.length then
    if src[s] = nul then some (dst, pos)
    else (store dst pos src[s]).bind fun dst => copy nul src (s + 1) dst (pos + 1)
  else none
termination_by src.length - s

/-- `while (a[i] && b[i] && a[i] == b[i]) i++; return a[i] == b[i];`. -/
def equal [DecidableEq α] (nul : α) (a : List α) (p : ℕ) (b : List α) (q : ℕ) : Option Bool :=
  if h : p < a.length ∧ q < b.length then
    if a[p] ≠ nul ∧ b[q] ≠ nul ∧ a[p] = b[q] then equal nul a (p + 1) b (q + 1)
    else some (decide (a[p] = b[q]))
  else none
termination_by a.length - p

/-- The characters that a printer of strings reads. -/
def read [DecidableEq α] (nul : α) (mem : List α) (p : ℕ) : Option (List α) :=
  (scan (fun c => decide (c ≠ nul)) mem p).map fun e => (mem.take e).drop p

/-- There is the string `s` at `p`. -/
def Holds (nul : α) (mem : List α) (p : ℕ) (s : List α) : Prop :=
  nul ∉ s ∧ ∃ front rest, mem = front ++ (s ++ nul :: rest) ∧ front.length = p

/-- An object whose first cells have been written. -/
def overlay (out dst : List α) : List α := out ++ dst.drop out.length

variable {nul c d : α} {P : α → Bool} {mem front run rest s t out dst src a b : List α}
  {p q pos : ℕ}

/-! ### One cell -/

theorem getElem?_append_cons : (front ++ c :: rest)[front.length]? = some c := by
  rw [List.getElem?_append_right (Nat.le_refl _), Nat.sub_self, List.getElem?_cons_zero]

theorem scan_of_getElem? (h : mem[p]? = some c) :
    scan P mem p = if P c then scan P mem (p + 1) else some p := by
  obtain ⟨hlt, rfl⟩ := List.getElem?_eq_some_iff.mp h
  rw [scan, dif_pos hlt]

theorem copy_of_getElem? [DecidableEq α] (h : src[p]? = some c) :
    copy nul src p dst pos =
      if c = nul then some (dst, pos)
      else (store dst pos c).bind fun dst => copy nul src (p + 1) dst (pos + 1) := by
  obtain ⟨hlt, rfl⟩ := List.getElem?_eq_some_iff.mp h
  rw [copy, dif_pos hlt]

theorem equal_of_getElem? [DecidableEq α] (ha : a[p]? = some c) (hb : b[q]? = some d) :
    equal nul a p b q =
      if c ≠ nul ∧ d ≠ nul ∧ c = d then equal nul a (p + 1) b (q + 1)
      else some (decide (c = d)) := by
  obtain ⟨hlt, rfl⟩ := List.getElem?_eq_some_iff.mp ha
  obtain ⟨hlt', rfl⟩ := List.getElem?_eq_some_iff.mp hb
  rw [equal, dif_pos ⟨hlt, hlt'⟩]

/-- A store at a cell that is known. -/
theorem store_append_cons :
    store (front ++ c :: rest) front.length d = some (front ++ d :: rest) := by
  have hlt : front.length < (front ++ c :: rest).length := by
    rw [List.length_append, List.length_cons]
    omega
  rw [store, if_pos hlt, List.set_append_right _ _ (Nat.le_refl _), Nat.sub_self,
    List.set_cons_zero]

/-- A scan ends behind the cells that it passes. -/
theorem scan_append (hrun : ∀ d ∈ run, P d = true) (hc : P c = false) :
    scan P (front ++ (run ++ c :: rest)) front.length = some (front.length + run.length) := by
  induction run generalizing front with
  | nil =>
    rw [List.nil_append, scan_of_getElem? getElem?_append_cons, hc]
    rfl
  | cons d run ih =>
    have hnext : scan P ((front ++ [d]) ++ (run ++ c :: rest)) (front ++ [d]).length = _ :=
      ih fun e he => hrun e (List.mem_cons_of_mem d he)
    rw [List.length_append, List.length_singleton, List.append_assoc, List.singleton_append,
      ← List.cons_append] at hnext
    rw [List.cons_append, scan_of_getElem? getElem?_append_cons, hrun d List.mem_cons_self,
      if_pos rfl, ← List.cons_append, hnext, List.length_cons]
    congr 1
    omega

/-! ### Strings -/

theorem holds_append (hs : nul ∉ s) :
    Holds nul (front ++ (s ++ nul :: rest)) front.length s :=
  ⟨hs, front, rest, rfl, rfl⟩

/-- A string ends at the first terminator, also where cells with another one are behind it. -/
theorem holds_takeWhile [DecidableEq α] :
    Holds nul (s ++ nul :: rest) 0 (s.takeWhile fun c => decide (c ≠ nul)) := by
  have hnul : nul ∉ s.takeWhile fun c => decide (c ≠ nul) := by
    intro h
    have hpass := List.mem_takeWhile_imp h
    exact of_decide_eq_true hpass rfl
  refine ⟨hnul, [], ?_⟩
  rcases hbehind : s.dropWhile fun c => decide (c ≠ nul) with _ | ⟨c, behind⟩
  · have hall := List.takeWhile_append_dropWhile (p := fun c => decide (c ≠ nul)) (l := s)
    rw [hbehind, List.append_nil] at hall
    exact ⟨rest, by rw [hall, List.nil_append], rfl⟩
  · -- the cell that the string stops at is a terminator
    have hc : c = nul := by
      have h := List.head?_dropWhile_not (fun c => decide (c ≠ nul)) s
      rw [hbehind] at h
      exact of_not_not (of_decide_eq_false h)
    have hall := List.takeWhile_append_dropWhile (p := fun c => decide (c ≠ nul)) (l := s)
    rw [hbehind, hc] at hall
    refine ⟨behind ++ nul :: rest, ?_, rfl⟩
    rw [List.nil_append, ← List.cons_append, ← List.append_assoc, hall]

theorem Holds.nil (h : Holds nul mem p []) : mem[p]? = some nul := by
  obtain ⟨-, front, rest, rfl, rfl⟩ := h
  exact getElem?_append_cons

/-- A character, and the string behind it. -/
theorem Holds.cons (h : Holds nul mem p (c :: s)) :
    mem[p]? = some c ∧ c ≠ nul ∧ Holds nul mem (p + 1) s := by
  obtain ⟨hnul, front, rest, rfl, rfl⟩ := h
  refine ⟨getElem?_append_cons, fun hc => hnul (hc ▸ List.mem_cons_self),
    fun hs => hnul (List.mem_cons_of_mem c hs), front ++ [c], rest, ?_, ?_⟩
  · rw [List.append_assoc, List.singleton_append, List.cons_append]
  · rw [List.length_append, List.length_singleton]

theorem scan_of_holds [DecidableEq α] (hs : Holds nul mem p s) :
    scan (fun c => decide (c ≠ nul)) mem p = some (p + s.length) := by
  obtain ⟨hnul, front, rest, rfl, rfl⟩ := hs
  refine scan_append (fun d hd => decide_eq_true fun h => hnul (h ▸ hd)) ?_
  exact decide_eq_false fun h => h rfl

/-- A printer emits the string. -/
theorem read_of_holds [DecidableEq α] (hs : Holds nul mem p s) : read nul mem p = some s := by
  rw [read, scan_of_holds hs, Option.map_some]
  obtain ⟨-, front, rest, rfl, rfl⟩ := hs
  have hend : (front ++ s).length = front.length + s.length := List.length_append
  rw [← List.append_assoc, List.take_left' hend, List.drop_left]

/-- Two strings are compared. -/
theorem equal_of_holds [DecidableEq α] (ha : Holds nul a p s) (hb : Holds nul b q t) :
    equal nul a p b q = some (decide (s = t)) := by
  induction s generalizing p q t with
  | nil =>
    cases t with
    | nil =>
      rw [equal_of_getElem? ha.nil hb.nil, if_neg fun h => h.1 rfl]
      simp
    | cons d t =>
      obtain ⟨hd, hne, -⟩ := hb.cons
      rw [equal_of_getElem? ha.nil hd, if_neg fun h => h.1 rfl]
      simp [hne.symm]
  | cons c s ih =>
    obtain ⟨hc, hcne, hs⟩ := ha.cons
    cases t with
    | nil =>
      rw [equal_of_getElem? hc hb.nil, if_neg fun h => h.2.1 rfl]
      simp [hcne]
    | cons d t =>
      obtain ⟨hd, hdne, ht⟩ := hb.cons
      rw [equal_of_getElem? hc hd]
      by_cases heq : c = d
      · rw [if_pos ⟨hcne, hdne, heq⟩, ih hs ht]
        simp [heq]
      · rw [if_neg fun h => heq h.2.2]
        simp [heq]

/-! ### What has been written -/

@[simp] theorem overlay_nil : overlay [] dst = dst := rfl

theorem length_overlay (h : out.length ≤ dst.length) : (overlay out dst).length = dst.length := by
  rw [overlay, List.length_append, List.length_drop]
  omega

/-- A cell behind those that have been written. -/
theorem store_overlay (h : out.length < dst.length) :
    store (overlay out dst) out.length c = some (overlay (out ++ [c]) dst) := by
  have hcells : dst.drop out.length = dst[out.length] :: dst.drop (out.length + 1) :=
    List.drop_eq_getElem_cons h
  rw [overlay, hcells, store_append_cons, overlay, List.length_append, List.length_singleton,
    List.append_assoc, List.singleton_append]

/-- **A string is copied behind what has been written.** -/
theorem copy_overlay [DecidableEq α] (out dst : List α) (hs : Holds nul src p s)
    (hroom : out.length + s.length ≤ dst.length) :
    copy nul src p (overlay out dst) out.length =
      some (overlay (out ++ s) dst, (out ++ s).length) := by
  induction s generalizing p out with
  | nil =>
    rw [copy_of_getElem? hs.nil, if_pos rfl, List.append_nil]
  | cons c s ih =>
    obtain ⟨hc, hne, hs⟩ := hs.cons
    rw [List.length_cons] at hroom
    have hnext := ih (out ++ [c]) hs (by rw [List.length_append, List.length_singleton]; omega)
    rw [List.length_append, List.length_singleton, List.append_assoc,
      List.singleton_append] at hnext
    rw [copy_of_getElem? hc, if_neg hne, store_overlay (by omega), Option.bind_some, hnext]

end CString
