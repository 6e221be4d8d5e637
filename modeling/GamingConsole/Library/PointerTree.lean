/-
Trees of pointers in a store.

A node `n : N` of a store `mem : N → I → W` has a word for every index; a word
may hold a pointer to another node, which `dec` extracts.  A path is the list of
indices followed from the root, the last one first.  Radix trees and page tables
of depth `d` are the case where only the nodes at paths of length at most `d`
count, and the words of the nodes at depth `d` are data, the leaves.

* `IsTree` — no node sits at two paths: there is no sharing and no cycle;
* `walk_congr` — stores that agree on the inner nodes have the same paths;
* `walk_link`, `walk_unlink` — hanging an empty node into a free slot adds one
  path, taking an empty node out removes one, and neither changes a leaf;
* `leaf_write` — writing a word of a node at depth `d` changes one leaf.
-/
import Mathlib.Data.List.Basic
import Mathlib.Logic.Function.Basic

namespace PointerTree

variable {N I W : Type}

/-- The node at a path, the last index first. -/
def walk (dec : W → Option N) (mem : N → I → W) (root : N) : List I → Option N
  | [] => some root
  | i :: p => (walk dec mem root p).bind fun n => dec (mem n i)

/-- The word at a path of one index more, `z` when the path does not exist. -/
def leaf (dec : W → Option N) (z : W) (mem : N → I → W) (root : N) (i : I) (p : List I) : W :=
  ((walk dec mem root p).map fun n => mem n i).getD z

/-- No node sits at two paths of length at most `d`. -/
def IsTree (dec : W → Option N) (mem : N → I → W) (root : N) (d : ℕ) : Prop :=
  ∀ p q n, p.length ≤ d → q.length ≤ d → walk dec mem root p = some n →
    walk dec mem root q = some n → p = q

variable {dec : W → Option N} {z : W} {mem mem' : N → I → W} {root : N} {d : ℕ}

@[simp] theorem walk_nil : walk dec mem root [] = some root := rfl

theorem walk_cons {i : I} {p : List I} {n : N} (h : walk dec mem root p = some n) :
    walk dec mem root (i :: p) = dec (mem n i) := by
  rw [walk, h]
  rfl

theorem walk_cons_eq_some {i : I} {p : List I} {m : N}
    (h : walk dec mem root (i :: p) = some m) :
    ∃ n, walk dec mem root p = some n ∧ dec (mem n i) = some m :=
  Option.bind_eq_some_iff.mp h

theorem walk_cons_eq_none {i : I} {p : List I} (h : walk dec mem root p = none) :
    walk dec mem root (i :: p) = none := by
  rw [walk, h]
  rfl

theorem leaf_of_walk {i : I} {p : List I} {n : N} (h : walk dec mem root p = some n) :
    leaf dec z mem root i p = mem n i := by
  rw [leaf, h]
  rfl

theorem leaf_of_walk_none {i : I} {p : List I} (h : walk dec mem root p = none) :
    leaf dec z mem root i p = z := by
  rw [leaf, h]
  rfl

theorem walk_isSome_of_leaf_ne {i : I} {p : List I} (h : leaf dec z mem root i p ≠ z) :
    ∃ n, walk dec mem root p = some n ∧ mem n i = leaf dec z mem root i p := by
  rcases hp : walk dec mem root p with _ | n
  · exact absurd (leaf_of_walk_none hp) h
  · exact ⟨n, rfl, (leaf_of_walk hp).symm⟩

/-! ### Stores that agree -/

/-- Only the nodes met on the way decide where a path ends. -/
theorem walk_congr (h : ∀ q n, q.length < d → walk dec mem root q = some n → mem' n = mem n) :
    ∀ p : List I, p.length ≤ d → walk dec mem' root p = walk dec mem root p := by
  intro p
  induction p with
  | nil => intro _; rfl
  | cons i p ih =>
    intro hlen
    rw [List.length_cons] at hlen
    rw [walk, walk, ih (by omega)]
    rcases hp : walk dec mem root p with _ | n
    · rfl
    · rw [Option.bind_some, Option.bind_some, h p n (by omega) hp]

theorem leaf_congr (h : ∀ q n, q.length ≤ d → walk dec mem root q = some n → mem' n = mem n)
    (i : I) {p : List I} (hp : p.length ≤ d) :
    leaf dec z mem' root i p = leaf dec z mem root i p := by
  have hwalk := walk_congr (fun q n hq => h q n (Nat.le_of_lt hq)) p hp
  rcases hw : walk dec mem root p with _ | n
  · rw [leaf_of_walk_none hw, leaf_of_walk_none (hwalk.trans hw)]
  · rw [leaf_of_walk hw, leaf_of_walk (hwalk.trans hw), h p n hp hw]

theorem IsTree.congr (ht : IsTree dec mem root d)
    (h : ∀ p : List I, p.length ≤ d → walk dec mem' root p = walk dec mem root p) :
    IsTree dec mem' root d := by
  intro p q n hp hq h1 h2
  rw [h p hp] at h1
  rw [h q hq] at h2
  exact ht p q n hp hq h1 h2

theorem IsTree.of_sub (ht : IsTree dec mem root d)
    (h : ∀ p n, p.length ≤ d → walk dec mem' root p = some n → walk dec mem root p = some n) :
    IsTree dec mem' root d :=
  fun p q n hp hq h1 h2 => ht p q n hp hq (h p n hp h1) (h q n hq h2)

/-- Paths of different lengths end at different nodes. -/
theorem IsTree.ne_of_length (ht : IsTree dec mem root d) {p q : List I} {m n : N}
    (hp : p.length ≤ d) (hq : q.length ≤ d) (hlen : p.length ≠ q.length)
    (hm : walk dec mem root p = some m) (hn : walk dec mem root q = some n) : m ≠ n := by
  rintro rfl
  exact hlen (congrArg List.length (ht p q m hp hq hm hn))

/-! ### Writing one word -/

section Write

variable [DecidableEq N] [DecidableEq I]

/-- The store with word `i` of node `n` set to `w`. -/
def write (mem : N → I → W) (n : N) (i : I) (w : W) : N → I → W :=
  Function.update mem n (Function.update (mem n) i w)

variable {n m : N} {i j : I} {w : W}

theorem write_apply : write mem n i w m j = if m = n ∧ j = i then w else mem m j := by
  rw [write]
  by_cases hm : m = n
  · subst hm
    rw [Function.update_self]
    by_cases hj : j = i
    · subst hj
      rw [Function.update_self, if_pos ⟨rfl, rfl⟩]
    · rw [Function.update_of_ne hj, if_neg fun h => hj h.2]
  · rw [Function.update_of_ne hm, if_neg fun h => hm h.1]

@[simp] theorem write_same : write mem n i w n i = w := by
  rw [write_apply, if_pos ⟨rfl, rfl⟩]

theorem write_of_ne (hm : m ≠ n) : write mem n i w m = mem m := by
  rw [write, Function.update_of_ne hm]

variable {q : List I}

/-- Writing into a node at depth `d` moves no path. -/
theorem walk_write_leaf (ht : IsTree dec mem root d) (hq : walk dec mem root q = some n)
    (hlen : q.length = d) (p : List I) (hp : p.length ≤ d) :
    walk dec (write mem n i w) root p = walk dec mem root p := by
  refine walk_congr (fun q' m hq' hm => write_of_ne ?_) p hp
  exact ht.ne_of_length (by omega) (by omega) (by omega) hm hq

/-- Writing into a node above depth `d` changes no leaf behind a path that stays. -/
theorem leaf_write_of_lt (ht : IsTree dec mem root d) (hq : walk dec mem root q = some n)
    (hlen : q.length < d) (k : I) {p : List I} (hp : p.length = d)
    (hwalk : walk dec (write mem n i w) root p = walk dec mem root p) :
    leaf dec z (write mem n i w) root k p = leaf dec z mem root k p := by
  rcases hm : walk dec mem root p with _ | m
  · rw [leaf_of_walk_none (hwalk.trans hm), leaf_of_walk_none hm]
  · have hmn : m ≠ n := ht.ne_of_length (by omega) (by omega) (by omega) hm hq
    rw [leaf_of_walk (hwalk.trans hm), leaf_of_walk hm, write_of_ne hmn]

theorem leaf_write (ht : IsTree dec mem root d) (hq : walk dec mem root q = some n)
    (hlen : q.length = d) (k : I) {p : List I} (hp : p.length ≤ d) :
    leaf dec z (write mem n i w) root k p
      = if k = i ∧ p = q then w else leaf dec z mem root k p := by
  have hwalk := walk_write_leaf (i := i) (w := w) ht hq hlen p hp
  rcases hw : walk dec mem root p with _ | m
  · rw [leaf_of_walk_none (hwalk.trans hw), leaf_of_walk_none hw, if_neg]
    rintro ⟨-, rfl⟩
    rw [hw] at hq
    exact absurd hq (by simp)
  · rw [leaf_of_walk (hwalk.trans hw), leaf_of_walk hw, write_apply]
    by_cases hpq : p = q
    · subst hpq
      have hmn : m = n := by
        rw [hw] at hq
        exact Option.some_inj.mp hq
      simp [hmn]
    · have hmn : m ≠ n := by
        rintro rfl
        exact hpq (ht p q m hp (Nat.le_of_eq hlen) hw hq)
      rw [if_neg fun h => hmn h.1, if_neg fun h => hpq h.2]

/-- The entry that the step `j` behind `p` reads, after a write behind `q`. -/
theorem dec_write_of_walk (ht : IsTree dec mem root d) (hq : walk dec mem root q = some n)
    (hlen : q.length < d) {p : List I} (hp : p.length ≤ d) (hm : walk dec mem root p = some m)
    (j : I) :
    dec (write mem n i w m j) = if j :: p = i :: q then dec w else walk dec mem root (j :: p) := by
  rw [walk_cons hm, write_apply]
  by_cases hslot : m = n ∧ j = i
  · obtain ⟨rfl, rfl⟩ := hslot
    have := ht p q m hp (Nat.le_of_lt hlen) hm hq
    rw [if_pos ⟨rfl, rfl⟩, if_pos (by rw [this])]
  · rw [if_neg hslot, if_neg]
    intro h
    obtain ⟨rfl, rfl⟩ := List.cons.inj h
    rw [hm, Option.some_inj] at hq
    exact hslot ⟨hq, rfl⟩

/-- Hanging the childless node `c` into a free slot of the node at `q` adds the
path to it and no other. -/
theorem walk_link {c : N} (ht : IsTree dec mem root d) (hq : walk dec mem root q = some n)
    (hlen : q.length < d) (hfree : dec (mem n i) = none) (hw : dec w = some c)
    (hfresh : ∀ p, p.length ≤ d → walk dec mem root p ≠ some c)
    (hchildless : ∀ j, dec (mem c j) = none) :
    ∀ p : List I, p.length ≤ d →
      walk dec (write mem n i w) root p = if p = i :: q then some c else walk dec mem root p := by
  intro p
  induction p with
  | nil => intro _; rfl
  | cons j p ih =>
    intro hp
    rw [List.length_cons] at hp
    have hcn : c ≠ n := fun h => hfresh q (Nat.le_of_lt hlen) (h ▸ hq)
    rw [walk, ih (by omega)]
    by_cases hpq : p = i :: q
    · -- below the new node there is nothing yet
      have hnone : walk dec mem root (j :: p) = none := by
        refine walk_cons_eq_none ?_
        rw [hpq, walk_cons hq, hfree]
      have hne : j :: p ≠ i :: q := fun h => by
        rw [hpq] at h
        simpa using congrArg List.length h
      rw [if_pos hpq, if_neg hne, hnone, Option.bind_some, write_of_ne hcn, hchildless]
    · rw [if_neg hpq]
      rcases hm : walk dec mem root p with _ | m
      · rw [walk_cons_eq_none hm, Option.bind_none, if_neg]
        intro h
        rw [(List.cons.inj h).2, hq] at hm
        exact absurd hm (by simp)
      · rw [Option.bind_some, dec_write_of_walk ht hq hlen (by omega) hm, hw]

theorem IsTree.link {c : N} (ht : IsTree dec mem root d) (hq : walk dec mem root q = some n)
    (hlen : q.length < d) (hfree : dec (mem n i) = none) (hw : dec w = some c)
    (hfresh : ∀ p, p.length ≤ d → walk dec mem root p ≠ some c)
    (hchildless : ∀ j, dec (mem c j) = none) : IsTree dec (write mem n i w) root d := by
  intro p p' m hp hp' h1 h2
  have hwalk := walk_link ht hq hlen hfree hw hfresh hchildless
  rw [hwalk p hp] at h1
  rw [hwalk p' hp'] at h2
  by_cases hpq : p = i :: q
  · by_cases hpq' : p' = i :: q
    · rw [hpq, hpq']
    · rw [if_pos hpq] at h1
      rw [if_neg hpq', ← h1] at h2
      exact absurd h2 (hfresh p' hp')
  · rw [if_neg hpq] at h1
    by_cases hpq' : p' = i :: q
    · rw [if_pos hpq', Option.some_inj] at h2
      rw [← h2] at h1
      exact absurd h1 (hfresh p hp)
    · rw [if_neg hpq'] at h2
      exact ht p p' m hp hp' h1 h2

theorem leaf_link {c : N} (ht : IsTree dec mem root d) (hq : walk dec mem root q = some n)
    (hlen : q.length < d) (hfree : dec (mem n i) = none) (hw : dec w = some c)
    (hfresh : ∀ p, p.length ≤ d → walk dec mem root p ≠ some c) (hz : dec z = none)
    (hempty : ∀ j, mem c j = z) (k : I) {p : List I} (hp : p.length = d) :
    leaf dec z (write mem n i w) root k p = leaf dec z mem root k p := by
  have hwalk := walk_link ht hq hlen hfree hw hfresh (fun j => by rw [hempty j, hz]) p
    (Nat.le_of_eq hp)
  by_cases hpq : p = i :: q
  · have hcn : c ≠ n := fun h => hfresh q (Nat.le_of_lt hlen) (h ▸ hq)
    rw [if_pos hpq] at hwalk
    rw [leaf_of_walk hwalk, write_of_ne hcn, hempty, leaf_of_walk_none]
    rw [hpq, walk_cons hq, hfree]
  · rw [if_neg hpq] at hwalk
    exact leaf_write_of_lt ht hq hlen k hp hwalk

/-- Taking the childless node at `i :: q` out of its slot removes its path and
no other. -/
theorem walk_unlink {c : N} (ht : IsTree dec mem root d) (hq : walk dec mem root q = some n)
    (hlen : q.length < d) (hc : dec (mem n i) = some c) (hw : dec w = none)
    (hchildless : q.length + 1 < d → ∀ j, dec (mem c j) = none) :
    ∀ p : List I, p.length ≤ d →
      walk dec (write mem n i w) root p = if p = i :: q then none else walk dec mem root p := by
  have hqi : walk dec mem root (i :: q) = some c := by rw [walk_cons hq, hc]
  intro p
  induction p with
  | nil => intro _; rfl
  | cons j p ih =>
    intro hp
    rw [List.length_cons] at hp
    rw [walk, ih (by omega)]
    by_cases hpq : p = i :: q
    · -- what was behind the node: it had no children to walk to
      have hchild : dec (mem c j) = none := by
        refine hchildless ?_ j
        rw [hpq, List.length_cons] at hp
        omega
      have hne : j :: p ≠ i :: q := fun h => by
        rw [hpq] at h
        simpa using congrArg List.length h
      rw [if_pos hpq, if_neg hne, Option.bind_none, hpq, walk_cons hqi, hchild]
    · rw [if_neg hpq]
      rcases hm : walk dec mem root p with _ | m
      · rw [walk_cons_eq_none hm, Option.bind_none, ite_self]
      · rw [Option.bind_some, dec_write_of_walk ht hq hlen (by omega) hm, hw]

theorem leaf_unlink {c : N} (ht : IsTree dec mem root d) (hq : walk dec mem root q = some n)
    (hlen : q.length < d) (hc : dec (mem n i) = some c) (hw : dec w = none) (hz : dec z = none)
    (hempty : ∀ j, mem c j = z) (k : I) {p : List I} (hp : p.length = d) :
    leaf dec z (write mem n i w) root k p = leaf dec z mem root k p := by
  have hwalk := walk_unlink ht hq hlen hc hw (fun _ j => by rw [hempty j, hz]) p (Nat.le_of_eq hp)
  by_cases hpq : p = i :: q
  · rw [if_pos hpq] at hwalk
    rw [leaf_of_walk_none hwalk, hpq, leaf_of_walk (by rw [walk_cons hq, hc]), hempty]
  · rw [if_neg hpq] at hwalk
    exact leaf_write_of_lt ht hq hlen k hp hwalk

end Write

end PointerTree
