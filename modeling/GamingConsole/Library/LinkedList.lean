/-
Singly linked lists in a memory of cells.

A cell holds a value and the address of the next cell; `null` ends a list.  A pointer is
itself stored somewhere (`Place`): in the head of the list or in a cell.  A list is
edited by storing into such a place, so an element in the middle is taken out as the
first one is.

* `Seg` — the cells between two addresses;
* `Lists` — the list that starts in the head;
* `Lists.push`, `Lists.unlink` — the two edits.
-/
import Mathlib.Data.List.Nodup
import Mathlib.Logic.Function.Basic

namespace LinkedList

variable {A V : Type} [DecidableEq A]

/-- Where a pointer is stored. -/
inductive Place (A : Type) where
  | head
  | next (a : A)

/-- The head of the list, and the cells. -/
structure Cells (A V : Type) where
  head : A
  node : A → Option (V × A)

namespace Cells

/-- The pointer in a place. -/
def load (h : Cells A V) : Place A → Option A
  | .head => some h.head
  | .next a => (h.node a).map Prod.snd

/-- Store a pointer. -/
def store (h : Cells A V) : Place A → A → Cells A V
  | .head, q => { h with head := q }
  | .next a, q => { h with node := Function.update h.node a ((h.node a).map fun c => (c.1, q)) }

/-- A new cell. -/
def insert (h : Cells A V) (a : A) (v : V) (next : A) : Cells A V :=
  { h with node := Function.update h.node a (some (v, next)) }

/-- A cell is given up. -/
def remove (h : Cells A V) (a : A) : Cells A V :=
  { h with node := Function.update h.node a none }

variable {h : Cells A V} {place : Place A} {a b q : A} {v : V}

/-- A store changes only where a cell points. -/
theorem store_node_eq_none : (h.store place q).node b = none ↔ h.node b = none := by
  cases place with
  | head => exact Iff.rfl
  | next a =>
    show Function.update h.node a _ b = none ↔ _
    by_cases hba : b = a
    · rw [hba, Function.update_self, Option.map_eq_none_iff]
    · rw [Function.update_of_ne hba]

theorem remove_node_eq_none : (h.remove a).node b = none ↔ b = a ∨ h.node b = none := by
  show Function.update h.node a none b = none ↔ _
  by_cases hba : b = a
  · rw [hba, Function.update_self]
    exact iff_of_true rfl (Or.inl rfl)
  · rw [Function.update_of_ne hba, or_iff_right hba]

theorem insert_node_eq_none : (h.insert a v q).node b = none ↔ b ≠ a ∧ h.node b = none := by
  show Function.update h.node a (some (v, q)) b = none ↔ _
  by_cases hba : b = a
  · rw [hba, Function.update_self]
    exact iff_of_false nofun fun hne => hne.1 rfl
  · rw [Function.update_of_ne hba, and_iff_right hba]

end Cells

/-- The cells from `p` on are those of the list, and the last one points to `q`. -/
def Seg (node : A → Option (V × A)) : A → List (A × V) → A → Prop
  | p, [], q => p = q
  | p, c :: l, q => p = c.1 ∧ ∃ next, node c.1 = some (c.2, next) ∧ Seg node next l q

variable {node node' : A → Option (V × A)} {p q m a null : A} {v : V} {l l₁ l₂ : List (A × V)}

omit [DecidableEq A] in
theorem seg_append :
    Seg node p (l₁ ++ l₂) q ↔ ∃ m, Seg node p l₁ m ∧ Seg node m l₂ q := by
  induction l₁ generalizing p with
  | nil => exact ⟨fun h => ⟨p, rfl, h⟩, fun ⟨m, hm, h⟩ => hm ▸ h⟩
  | cons c l₁ ih =>
    constructor
    · rintro ⟨hp, next, hnode, hrest⟩
      obtain ⟨m, h₁, h₂⟩ := ih.mp hrest
      exact ⟨m, ⟨hp, next, hnode, h₁⟩, h₂⟩
    · rintro ⟨m, ⟨hp, next, hnode, h₁⟩, h₂⟩
      exact ⟨hp, next, hnode, ih.mpr ⟨m, h₁, h₂⟩⟩

omit [DecidableEq A] in
/-- Other cells do not matter. -/
theorem Seg.congr (h : Seg node p l q) (hsame : ∀ c ∈ l, node' c.1 = node c.1) :
    Seg node' p l q := by
  induction l generalizing p with
  | nil => exact h
  | cons c l ih =>
    obtain ⟨hp, next, hnode, hrest⟩ := h
    rw [List.forall_mem_cons] at hsame
    exact ⟨hp, next, hsame.1.trans hnode, ih hrest hsame.2⟩

/-- The list that starts in the head. -/
structure Lists (h : Cells A V) (null : A) (l : List (A × V)) : Prop where
  seg : Seg h.node h.head l null
  ne_null : ∀ c ∈ l, c.1 ≠ null

omit [DecidableEq A] in
/-- The cells that follow an address are determined. -/
theorem Seg.unique (h₁ : Seg node p l₁ null) (h₂ : Seg node p l₂ null)
    (hne₁ : ∀ c ∈ l₁, c.1 ≠ null) (hne₂ : ∀ c ∈ l₂, c.1 ≠ null) : l₁ = l₂ := by
  induction l₁ generalizing p l₂ with
  | nil =>
    cases l₂ with
    | nil => rfl
    | cons c l₂ => exact absurd (h₂.1.symm.trans h₁) (hne₂ c List.mem_cons_self)
  | cons c l₁ ih =>
    obtain ⟨hp, next, hnode, hrest⟩ := h₁
    cases l₂ with
    | nil => exact absurd (hp.symm.trans h₂) (hne₁ c List.mem_cons_self)
    | cons d l₂ =>
      obtain ⟨hp', next', hnode', hrest'⟩ := h₂
      have haddr : c.1 = d.1 := hp.symm.trans hp'
      rw [← haddr, hnode, Option.some_inj, Prod.mk.injEq] at hnode'
      obtain ⟨hval, rfl⟩ := hnode'
      rw [List.forall_mem_cons] at hne₁ hne₂
      rw [ih hrest hrest' hne₁.2 hne₂.2, Prod.ext haddr hval]

omit [DecidableEq A] in
/-- No cell is there twice: what follows it would have to be longer than itself. -/
theorem Seg.nodup (h : Seg node p l null) (hne : ∀ c ∈ l, c.1 ≠ null) :
    (l.map Prod.fst).Nodup := by
  induction l generalizing p with
  | nil => exact List.nodup_nil
  | cons c l ih =>
    have hcons := h
    obtain ⟨hp, next, hnode, hrest⟩ := h
    have hne' := (List.forall_mem_cons.mp hne).2
    rw [List.map_cons, List.nodup_cons]
    refine ⟨fun hmem => ?_, ih hrest hne'⟩
    obtain ⟨d, hd, hdc⟩ := List.mem_map.mp hmem
    obtain ⟨l₁, l₂, rfl⟩ := List.append_of_mem hd
    obtain ⟨m, -, hm⟩ := seg_append.mp hrest
    have hstart : m = p := hm.1.trans (hdc.trans hp.symm)
    rw [hstart] at hm
    have heq := hm.unique hcons (fun e he => hne' e (List.mem_append_right _ he)) hne
    have hlen := congrArg List.length heq
    simp only [List.length_cons, List.length_append] at hlen
    omega

/-- The place of the pointer that leads on from the list. -/
def place (l : List (A × V)) : Place A :=
  match l.getLast? with
  | none => .head
  | some c => .next c.1

omit [DecidableEq A] in
theorem place_append (l : List (A × V)) (c : A × V) : place (l ++ [c]) = .next c.1 := by
  rw [place, List.getLast?_append]
  rfl

variable {h : Cells A V}

omit [DecidableEq A] in
/-- The pointer after the first cells leads to the others. -/
theorem Lists.load (hl : Lists h null (l₁ ++ l₂)) :
    ∃ m, h.load (place l₁) = some m ∧ Seg h.node m l₂ null := by
  obtain ⟨m, h₁, h₂⟩ := seg_append.mp hl.seg
  refine ⟨m, ?_, h₂⟩
  rcases List.eq_nil_or_concat l₁ with rfl | ⟨l, c, rfl⟩
  · exact congrArg some h₁
  · rw [List.concat_eq_append] at h₁ ⊢
    obtain ⟨m', -, hc, next, hnode, hnext⟩ := seg_append.mp h₁
    rw [place_append, Cells.load, hnode, Option.map_some]
    exact congrArg some hnext

/-- A cell that is not in use becomes the first one. -/
theorem Lists.push (hl : Lists h null l) (hfree : h.node a = none) (ha : a ≠ null) :
    Lists ((h.insert a v h.head).store .head a) null ((a, v) :: l) := by
  have hout : ∀ c ∈ l, c.1 ≠ a := by
    intro c hc hca
    obtain ⟨l₁, l₂, rfl⟩ := List.append_of_mem hc
    obtain ⟨m, -, -, next, hnode, -⟩ := seg_append.mp hl.seg
    rw [hca, hfree] at hnode
    cases hnode
  refine ⟨⟨rfl, h.head, Function.update_self _ _ _, hl.seg.congr fun c hc => ?_⟩, fun c hc => ?_⟩
  · exact Function.update_of_ne (hout c hc) _ _
  · rcases List.mem_cons.mp hc with rfl | hc
    · exact ha
    · exact hl.ne_null c hc

omit [DecidableEq A] in
theorem Lists.node_eq (hl : Lists h null (l₁ ++ (a, v) :: l₂)) :
    ∃ next, h.node a = some (v, next) ∧ Seg h.node next l₂ null := by
  obtain ⟨m, -, -, next, hnode, hrest⟩ := seg_append.mp hl.seg
  exact ⟨next, hnode, hrest⟩

/-- A cell is taken out: its successor is stored where its own address was. -/
theorem Lists.unlink {next : A} (hl : Lists h null (l₁ ++ (a, v) :: l₂))
    (hnext : h.node a = some (v, next)) :
    Lists ((h.store (place l₁) next).remove a) null (l₁ ++ l₂) := by
  have hnodup := hl.seg.nodup hl.ne_null
  obtain ⟨m, h₁, -, next', hnode, hrest⟩ := seg_append.mp hl.seg
  rw [hnext, Option.some_inj, Prod.mk.injEq] at hnode
  obtain ⟨-, rfl⟩ := hnode
  rw [List.map_append, List.map_cons, List.nodup_append] at hnodup
  obtain ⟨hnd₁, hnd₂, hapart⟩ := hnodup
  have hout : ∀ c ∈ l₁ ++ l₂, c.1 ≠ a := by
    intro c hc
    rcases List.mem_append.mp hc with hc | hc
    · exact hapart c.1 (List.mem_map_of_mem hc) a List.mem_cons_self
    · intro hca
      exact (List.nodup_cons.mp hnd₂).1 (List.mem_map.mpr ⟨c, hc, hca⟩)
  refine ⟨?_, fun c hc => hl.ne_null c ?_⟩
  · rcases List.eq_nil_or_concat l₁ with rfl | ⟨l, c, rfl⟩
    · -- the head is redirected
      exact hrest.congr fun d hd => Function.update_of_ne (hout d hd) _ _
    · rw [List.concat_eq_append] at h₁ hout hapart hnd₁ ⊢
      rw [place_append]
      obtain ⟨m', hseg, hm', next₀, hnode₀, -⟩ := seg_append.mp h₁
      have hc : c ∈ l ++ [c] := List.mem_append_right _ (List.mem_singleton.mpr rfl)
      have hca : c.1 ≠ a := hout c (List.mem_append_left _ hc)
      -- otherwise the cell before it is, and the others are as they were
      have hsame : ∀ d : A × V, d.1 ≠ c.1 → d.1 ≠ a →
          ((h.store (.next c.1) next).remove a).node d.1 = h.node d.1 := by
        intro d hdc hda
        exact (Function.update_of_ne hda _ _).trans (Function.update_of_ne hdc _ _)
      refine seg_append.mpr ⟨next, seg_append.mpr ⟨m', ?_, hm', next, ?_, rfl⟩, ?_⟩
      · refine hseg.congr fun d hd => hsame d (fun hdc => ?_)
          (hout d (List.mem_append_left _ (List.mem_append_left _ hd)))
        rw [List.map_append, List.nodup_append] at hnd₁
        exact hnd₁.2.2 d.1 (List.mem_map_of_mem hd) c.1 List.mem_cons_self hdc
      · refine (Function.update_of_ne hca _ _).trans ?_
        show Function.update h.node c.1 ((h.node c.1).map fun d => (d.1, next)) c.1 = _
        rw [Function.update_self, hnode₀]
        rfl
      · refine hrest.congr fun d hd => hsame d (fun hdc => ?_)
          (hout d (List.mem_append_right _ hd))
        exact hapart c.1 (List.mem_map_of_mem hc) d.1
          (List.mem_cons_of_mem _ (List.mem_map_of_mem hd)) hdc.symm
  · rcases List.mem_append.mp hc with hc | hc
    · exact List.mem_append_left _ hc
    · exact List.mem_append_right _ (List.mem_cons_of_mem _ hc)

end LinkedList
