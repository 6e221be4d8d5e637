/-
A store with one cell of it held aside.

The cell is read and written in a line buffer; a dirty line is written back before another
cell is taken.  What the store is meant to hold is what is read through the line (`view`),
and a write-back that fails does not change it, because the line stays dirty.

* `Buffered.view` — the store as it is read;
* `Buffered.Coherent` — a clean line is what its cell holds;
* `Buffered.flush`, `tear`, `load`, `modify` — what happens to the line.

All this is on a set of cells: elsewhere the store may change behind the line, and an
address outside of it can stand for no cell at all.
-/
import Mathlib.Data.Set.Basic
import Mathlib.Logic.Function.Basic

namespace WriteBack

variable {A V : Type} [DecidableEq A]

/-- A store, and the line in front of it. -/
structure Buffered (A V : Type) where
  store : A → V
  addr : A
  line : V
  dirty : Bool

namespace Buffered

/-- What is read at `a`. -/
def view (b : Buffered A V) (a : A) : V := if a = b.addr then b.line else b.store a

/-- On the cells `S`, a clean line is what its cell holds, and a dirty one is one of them. -/
structure Coherent (S : Set A) (b : Buffered A V) : Prop where
  clean : b.dirty = false → b.addr ∈ S → b.line = b.store b.addr
  inside : b.dirty = true → b.addr ∈ S

/-- The same is read on `S`. -/
def SameView (S : Set A) (b c : Buffered A V) : Prop := ∀ a ∈ S, c.view a = b.view a

variable {S : Set A} {b : Buffered A V}

theorem SameView.trans {c d : Buffered A V} (h : SameView S b c) (h' : SameView S c d) :
    SameView S b d := fun a ha => (h' a ha).trans (h a ha)

@[simp] theorem view_addr (b : Buffered A V) : b.view b.addr = b.line := if_pos rfl

theorem view_of_ne (b : Buffered A V) {a : A} (ha : a ≠ b.addr) : b.view a = b.store a :=
  if_neg ha

/-- With nothing to be written, the store holds what is read. -/
theorem Coherent.store_eq_view (h : b.Coherent S) (hb : b.dirty = false) {a : A} (ha : a ∈ S) :
    b.store a = b.view a := by
  by_cases hab : a = b.addr
  · rw [hab, view_addr, h.clean hb (hab ▸ ha)]
  · rw [b.view_of_ne hab]

/-! ### The line is written back -/

/-- The line is written to its cell. -/
def flush (b : Buffered A V) : Buffered A V :=
  { b with store := Function.update b.store b.addr b.line, dirty := false }

/-- A write-back that fails leaves anything in the cell. -/
def tear (b : Buffered A V) (v : V) : Buffered A V :=
  { b with store := Function.update b.store b.addr v }

theorem sameView_flush (S : Set A) (b : Buffered A V) : SameView S b b.flush := by
  intro a _
  by_cases hab : a = b.addr
  · rw [hab, b.view_addr]
    exact b.flush.view_addr
  · rw [b.view_of_ne hab, b.flush.view_of_ne hab]
    exact Function.update_of_ne hab _ _

theorem coherent_flush (S : Set A) (b : Buffered A V) : b.flush.Coherent S :=
  ⟨fun _ _ => (Function.update_self b.addr b.line b.store).symm, fun h => nomatch h⟩

theorem sameView_tear (S : Set A) (b : Buffered A V) (v : V) : SameView S b (b.tear v) := by
  intro a _
  by_cases hab : a = b.addr
  · rw [hab, b.view_addr]
    exact (b.tear v).view_addr
  · rw [b.view_of_ne hab, (b.tear v).view_of_ne hab]
    exact Function.update_of_ne hab _ _

theorem Coherent.tear (h : b.Coherent S) (hb : b.dirty = true) (v : V) : (b.tear v).Coherent S :=
  ⟨fun h' => absurd (hb.symm.trans h') (by decide), h.inside⟩

/-! ### Another cell is taken -/

/-- The line is filled from the cell `a`. -/
def load (b : Buffered A V) (a : A) : Buffered A V := { b with addr := a, line := b.store a }

/-- The line holds no cell of `S`. -/
def forget (b : Buffered A V) (a : A) (v : V) : Buffered A V := { b with addr := a, line := v }

theorem Coherent.sameView_load (h : b.Coherent S) (hb : b.dirty = false) (a : A) :
    SameView S b (b.load a) := by
  intro c hc
  rw [← h.store_eq_view hb hc]
  by_cases hca : c = a
  · rw [hca]
    exact (b.load a).view_addr
  · exact (b.load a).view_of_ne hca

omit [DecidableEq A] in
theorem coherent_load (S : Set A) (hb : b.dirty = false) (a : A) : (b.load a).Coherent S :=
  ⟨fun _ _ => rfl, fun h => absurd (hb.symm.trans h) (by decide)⟩

theorem Coherent.sameView_forget (h : b.Coherent S) (hb : b.dirty = false) {a : A} (ha : a ∉ S)
    (v : V) : SameView S b (b.forget a v) := by
  intro c hc
  rw [← h.store_eq_view hb hc]
  exact (b.forget a v).view_of_ne fun hca : c = a => ha (hca ▸ hc)

omit [DecidableEq A] in
theorem coherent_forget (hb : b.dirty = false) {a : A} (ha : a ∉ S) (v : V) :
    (b.forget a v).Coherent S :=
  ⟨fun _ h => absurd h ha, fun h => absurd (hb.symm.trans h) (by decide)⟩

/-! ### The line is changed -/

/-- The line is changed in place. -/
def modify (b : Buffered A V) (v : V) : Buffered A V := { b with line := v, dirty := true }

theorem view_modify (b : Buffered A V) (v : V) (a : A) :
    (b.modify v).view a = if a = b.addr then v else b.view a := by
  by_cases ha : a = b.addr
  · rw [if_pos ha, ha]
    exact (b.modify v).view_addr
  · rw [if_neg ha, b.view_of_ne ha]
    exact (b.modify v).view_of_ne ha

omit [DecidableEq A] in
theorem coherent_modify (hb : b.addr ∈ S) (v : V) : (b.modify v).Coherent S :=
  ⟨fun h => Bool.noConfusion h, fun _ => hb⟩

/-! ### The store changes elsewhere -/

/-- The store changes behind the line, outside of `S`. -/
theorem sameView_of_off {f : A → V} (hf : ∀ a ∈ S, f a = b.store a) :
    SameView S b { b with store := f } := by
  intro a ha
  by_cases hab : a = b.addr
  · rw [hab, b.view_addr]
    exact view_addr { b with store := f }
  · rw [b.view_of_ne hab, ← hf a ha]
    exact view_of_ne { b with store := f } hab

omit [DecidableEq A] in
theorem Coherent.of_off (h : b.Coherent S) {f : A → V} (hf : ∀ a ∈ S, f a = b.store a) :
    Coherent S { b with store := f } :=
  ⟨fun hb ha => (h.clean hb ha).trans (hf b.addr ha).symm, h.inside⟩

end Buffered

end WriteBack
