/-
Files that are read and written at a pointer.

The cells of a file may be undefined: a file that is made longer without writing has cells
that hold anything, and reading them twice may give two answers.

* `put` — cells are written, from a place on;
* `Agrees` — what is read from a place on is what is there, where it is defined;
* `File.wrote`, `File.moved`, `File.grown` — what becomes of the file.

Each of them can be done piece by piece.
-/
import Mathlib.Data.List.Basic

namespace CellFile

variable {B : Type} {data : ℕ → Option B} {p : ℕ} {l m : List B}

/-- `l` may be what is read at `p`. -/
def Agrees (data : ℕ → Option B) (p : ℕ) (l : List B) : Prop :=
  ∀ k b c, l[k]? = some b → data (p + k) = some c → b = c

theorem agrees_nil : Agrees data p [] := fun _ _ _ h => absurd h (by simp)

theorem Agrees.append (hl : Agrees data p l) (hm : Agrees data (p + l.length) m) :
    Agrees data p (l ++ m) := by
  intro k b c hk hc
  by_cases hlt : k < l.length
  · rw [List.getElem?_append_left hlt] at hk
    exact hl k b c hk hc
  · rw [List.getElem?_append_right (by omega)] at hk
    refine hm (k - l.length) b c hk ?_
    rwa [show p + l.length + (k - l.length) = p + k by omega]

/-- Where `l` is known to be, it is what was read. -/
theorem Agrees.take_eq (h : Agrees data p m) (hdata : ∀ k < l.length, data (p + k) = l[k]?) :
    m.take l.length = l.take m.length := by
  refine List.ext_getElem? fun k => ?_
  by_cases hk : k < l.length ∧ k < m.length
  · rw [List.getElem?_take_of_lt hk.1, List.getElem?_take_of_lt hk.2]
    rw [List.getElem?_eq_getElem hk.1, List.getElem?_eq_getElem hk.2]
    refine congrArg some (h k _ _ (List.getElem?_eq_getElem hk.2) ?_)
    rw [hdata k hk.1, List.getElem?_eq_getElem hk.1]
  · rw [List.getElem?_eq_none (by rw [List.length_take]; omega),
      List.getElem?_eq_none (by rw [List.length_take]; omega)]

/-- `l` is written at `p`. -/
def put (data : ℕ → Option B) (p : ℕ) (l : List B) : ℕ → Option B :=
  fun o => if p ≤ o ∧ o < p + l.length then l[o - p]? else data o

theorem put_nil : put data p [] = data := by
  funext o
  exact if_neg fun h => absurd h.2 (Nat.not_lt.mpr h.1)

theorem put_inside {o : ℕ} (h : p ≤ o ∧ o < p + l.length) : put data p l o = l[o - p]? := if_pos h

theorem put_outside {o : ℕ} (h : o < p ∨ p + l.length ≤ o) : put data p l o = data o :=
  if_neg fun h' => by omega

/-- What is read afterwards was written, or was there and is not overwritten. -/
theorem put_take_cases {n o : ℕ} {b : B} (hn : n ≤ l.length)
    (h : put data p (l.take n) o = some b) :
    (p ≤ o ∧ o < p + n) ∧ l[o - p]? = some b ∨ ¬ (p ≤ o ∧ o < p + n) ∧ data o = some b := by
  have htake : (l.take n).length = n := List.length_take_of_le hn
  by_cases hr : p ≤ o ∧ o < p + n
  · rw [put_inside (by rwa [htake]), List.getElem?_take_of_lt (by omega)] at h
    exact Or.inl ⟨hr, h⟩
  · rw [put_outside (by rw [htake]; omega)] at h
    exact Or.inr ⟨hr, h⟩

theorem put_append : put (put data p l) (p + l.length) m = put data p (l ++ m) := by
  funext o
  by_cases hm : p + l.length ≤ o ∧ o < p + l.length + m.length
  · rw [put_inside hm, put_inside ⟨by omega, by rw [List.length_append]; omega⟩,
      List.getElem?_append_right (by omega), show o - p - l.length = o - (p + l.length) by omega]
  · rw [put_outside (by omega)]
    by_cases hl : p ≤ o ∧ o < p + l.length
    · rw [put_inside hl, put_inside ⟨hl.1, by rw [List.length_append]; omega⟩,
        List.getElem?_append_left (by omega)]
    · rw [put_outside (by omega), put_outside (by rw [List.length_append]; omega)]

/-- A file: its cells, how many there are, and the place where it is read and written. -/
structure File (B : Type) where
  data : ℕ → Option B
  size : ℕ
  ptr : ℕ

namespace File

variable (F : File B)

/-- `l` is written at the pointer. -/
def wrote (l : List B) : File B where
  data := put F.data F.ptr l
  size := max F.size (F.ptr + l.length)
  ptr := F.ptr + l.length

/-- The pointer is moved. -/
def moved (p : ℕ) : File B := { F with ptr := p }

/-- The file is made `n` cells long, if it is shorter. -/
def grown (n : ℕ) : File B where
  data := fun o => if o < F.size then F.data o else none
  size := max F.size n
  ptr := F.ptr

/-- The file ends at the pointer. -/
def truncated : File B := { F with size := F.ptr }

theorem wrote_nil (h : F.ptr ≤ F.size) : F.wrote [] = F := by
  unfold wrote
  rw [put_nil, List.length_nil, Nat.add_zero, Nat.max_eq_left h]

theorem wrote_append (l m : List B) : (F.wrote l).wrote m = F.wrote (l ++ m) := by
  have hlen : (l ++ m).length = l.length + m.length := List.length_append
  refine (File.mk.injEq ..).mpr ⟨put_append, ?_, ?_⟩
  · show max (max F.size (F.ptr + l.length)) (F.ptr + l.length + m.length) = _
    omega
  · show F.ptr + l.length + m.length = _
    omega

end File

end CellFile
