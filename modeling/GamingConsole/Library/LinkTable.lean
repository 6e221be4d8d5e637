/-
Storage handed out cell by cell, with the links in a table.

The table has one entry for each cell: the next cell of its chain, an end mark, or the mark
`o` of a free cell.  A table has no place where a chain could be noted down, so that a
chain is known by its first cell only.

* `Chain` — a list of cells that the links lead through, up to an end mark;
* `Chain.eq_of_head`, `Chain.nodup` — the first cell says which one, and no cell comes twice;
* `Allocated` — the chains of several owners; what is used and belongs to nobody is lost;
* `Allocated.grow`, `Allocated.shrink`, `Allocated.spoil` — how the table may change;
* `freeCells` — how many cells are free.
-/
import Mathlib.Data.Finset.Card
import Mathlib.Data.List.Chain
import Mathlib.Logic.Function.Basic

namespace LinkTable

variable {A ι : Type} {S : Set A} {next next' : A → A} {o c d e : A} {l m : List A}

/-- The links lead through `l`, and end there. -/
structure Chain (S : Set A) (o : A) (next : A → A) (l : List A) : Prop where
  cells : ∀ c ∈ l, c ∈ S
  links : l.IsChain fun c d => next c = d
  ends : ∀ c ∈ l.getLast?, next c ∉ S ∧ next c ≠ o

theorem Chain.nil : Chain S o next [] := ⟨by simp, .nil, by simp⟩

theorem Chain.tail (h : Chain S o next (c :: l)) : Chain S o next l where
  cells := fun d hd => h.cells d (List.mem_cons_of_mem c hd)
  links := h.links.tail
  ends := by
    intro d hd
    cases l with
    | nil => exact absurd hd (by simp)
    | cons e l => exact h.ends d (by rwa [List.getLast?_cons_cons])

theorem Chain.suffix (h : Chain S o next (l ++ m)) : Chain S o next m := by
  induction l with
  | nil => exact h
  | cons c l ih => exact ih h.tail

/-- The table changes elsewhere. -/
theorem Chain.congr (h : Chain S o next l) (heq : ∀ c ∈ l, next' c = next c) :
    Chain S o next' l where
  cells := h.cells
  links := by
    refine List.IsChain.imp_of_mem_imp (fun c d hc _ hcd => ?_) h.links
    rw [heq c hc]
    exact hcd
  ends := by
    intro c hc
    rw [heq c (List.mem_of_getLast? hc)]
    exact h.ends c hc

/-- A chain is known by its first cell. -/
theorem Chain.eq_of_head (h : Chain S o next (c :: l)) (h' : Chain S o next (c :: m)) : l = m := by
  induction l generalizing c m with
  | nil =>
    cases m with
    | nil => rfl
    | cons d m =>
      -- the one ends where the other goes on
      have hend := (h.ends c (by simp)).1
      have hlink : next c = d := (List.isChain_cons_cons.mp h'.links).1
      exact absurd (h'.cells d (by simp)) (hlink ▸ hend)
  | cons d l ih =>
    have hlink : next c = d := (List.isChain_cons_cons.mp h.links).1
    cases m with
    | nil => exact absurd (h.cells d (by simp)) (hlink ▸ (h'.ends c (by simp)).1)
    | cons e m =>
      have hlink' : next c = e := (List.isChain_cons_cons.mp h'.links).1
      obtain rfl : d = e := hlink.symm.trans hlink'
      rw [ih h.tail h'.tail]

theorem Chain.nodup (h : Chain S o next l) : l.Nodup := by
  induction l with
  | nil => exact List.nodup_nil
  | cons c l ih =>
    refine List.nodup_cons.mpr ⟨fun hc => ?_, ih h.tail⟩
    obtain ⟨s, t, rfl⟩ := List.append_of_mem hc
    have heq : s ++ c :: t = t := h.eq_of_head h.tail.suffix
    have hlen := congrArg List.length heq
    simp only [List.length_append, List.length_cons] at hlen
    omega

/-- The cell after one of a chain that is not the last. -/
theorem Chain.next_mem (h : Chain S o next l) (hc : c ∈ l) (hn : next c ∈ S) : next c ∈ l := by
  obtain ⟨s, t, rfl⟩ := List.append_of_mem hc
  have hsuf := h.suffix
  cases t with
  | nil => exact absurd hn (hsuf.ends c (by simp)).1
  | cons d t =>
    rw [(List.isChain_cons_cons.mp hsuf.links).1]
    simp

/-- After a cell of a chain comes the next one, or the end. -/
theorem Chain.next_cases (h : Chain S o next l) {n : ℕ} (hn : l[n]? = some c) :
    next c ∈ S ∧ l[n + 1]? = some (next c) ∨ next c ∉ S ∧ n + 1 = l.length := by
  obtain ⟨hlt, hget⟩ := List.getElem?_eq_some_iff.mp hn
  have hdrop : l.drop n = c :: l.drop (n + 1) := by rw [List.drop_eq_getElem_cons hlt, hget]
  have hsuf : Chain S o next (c :: l.drop (n + 1)) := by
    rw [← hdrop]
    exact Chain.suffix (List.take_append_drop n l ▸ h)
  cases hrest : l.drop (n + 1) with
  | nil =>
    rw [hrest] at hsuf
    have hlen := List.drop_eq_nil_iff.mp hrest
    exact Or.inr ⟨(hsuf.ends c (by simp)).1, by omega⟩
  | cons d t =>
    rw [hrest] at hsuf
    have hlink : next c = d := (List.isChain_cons_cons.mp hsuf.links).1
    have hget : l[n + 1]? = some d := by
      have hfirst : (l.drop (n + 1))[0]? = l[n + 1]? := List.getElem?_drop
      rw [hrest] at hfirst
      exact hfirst.symm
    exact Or.inl ⟨hlink ▸ hsuf.cells d (by simp), by rw [hget, hlink]⟩

/-- The last cell's own entry is no link of the chain. -/
theorem links_congr (h : l.IsChain fun c d => next c = d) (hnd : l.Nodup)
    (hoff : ∀ x ∈ l, x ∉ l.getLast? → next' x = next x) :
    l.IsChain fun c d => next' c = d := by
  cases hl : l.getLast? with
  | none =>
    rw [List.getLast?_eq_none_iff.mp hl]
    exact .nil
  | some d =>
    obtain ⟨s, rfl⟩ := List.getLast?_eq_some_iff.mp hl
    have hs : ∀ x ∈ s, next' x = next x := by
      intro x hx
      have hne : x ≠ d := (List.nodup_append.mp hnd).2.2 x hx d (by simp)
      exact hoff x (List.mem_append_left _ hx) (by simpa using hne.symm)
    obtain ⟨h1, _, h3⟩ := List.isChain_append.mp h
    refine List.isChain_append.mpr ⟨?_, .singleton d, fun x hx y hy => ?_⟩
    · refine List.IsChain.imp_of_mem_imp (fun x y hx _ hxy => ?_) h1
      rw [hs x hx]
      exact hxy
    · rw [hs x (List.mem_of_getLast? hx)]
      exact h3 x hx y hy

/-- A used cell is put at the end. -/
theorem Chain.append (h : Chain S o next l) (hc : c ∈ S)
    (hend : next' c ∉ S ∧ next' c ≠ o) (hlast : ∀ d ∈ l.getLast?, next' d = c)
    (hoff : ∀ x ∈ l, x ∉ l.getLast? → next' x = next x) : Chain S o next' (l ++ [c]) where
  cells := by
    intro x hx
    rcases List.mem_append.mp hx with hx | hx
    · exact h.cells x hx
    · rwa [List.mem_singleton.mp hx]
  links := by
    refine List.isChain_append.mpr ⟨links_congr h.links h.nodup hoff, .singleton c, ?_⟩
    intro d hd x hx
    rw [hlast d hd]
    simpa using hx
  ends := by
    intro x hx
    obtain rfl : c = x := by simpa using hx
    exact hend

/-- The last cells are cut off. -/
theorem Chain.cut (h : Chain S o next (l ++ m))
    (hend : ∀ d ∈ l.getLast?, next' d ∉ S ∧ next' d ≠ o)
    (hoff : ∀ x ∈ l, x ∉ l.getLast? → next' x = next x) : Chain S o next' l where
  cells := fun c hc => h.cells c (List.mem_append_left m hc)
  links := links_congr (List.isChain_append.mp h.links).1 (List.nodup_append.mp h.nodup).1 hoff
  ends := hend

/-! ### Several owners -/

/-- The cells used are those of the owners' chains and the lost ones, each only once. -/
structure Allocated (S : Set A) (o : A) (next : A → A) (f : ι → List A) (lost : Set A) : Prop where
  chain : ∀ i, Chain S o next (f i)
  apart : ∀ i j c, c ∈ f i → c ∈ f j → i = j
  kept : ∀ i, ∀ c ∈ f i, c ∉ lost
  used : ∀ c ∈ S, next c ≠ o ↔ (∃ i, c ∈ f i) ∨ c ∈ lost

section Allocated

variable {f : ι → List A} {lost : Set A}

/-- A cell of a chain is not free. -/
theorem Allocated.next_ne (h : Allocated S o next f lost) {i : ι} (hc : c ∈ f i) : next c ≠ o :=
  (h.used c ((h.chain i).cells c hc)).mpr (Or.inl ⟨i, hc⟩)

/-- The last cell of a chain is the one with an end mark. -/
theorem Allocated.getLast_of_end (h : Allocated S o next f lost) {i : ι} (hc : c ∈ f i)
    (hend : next c ∉ S) : c ∈ (f i).getLast? := by
  obtain ⟨s, t, heq⟩ := List.append_of_mem hc
  have hch := h.chain i
  rw [heq] at hch ⊢
  cases t with
  | nil => simp
  | cons d t =>
    have hsuf := hch.suffix
    have hlink : next c = d := (List.isChain_cons_cons.mp hsuf.links).1
    exact absurd (hsuf.cells d (by simp)) (hlink ▸ hend)

/-- One chain alone; the others are as good as lost. -/
theorem Allocated.only (h : Allocated S o next f lost) (i : ι) :
    Allocated S o next (fun _ : Unit => f i) (lost ∪ {c | ∃ j, j ≠ i ∧ c ∈ f j}) := by
  refine ⟨fun _ => h.chain i, fun _ _ _ _ _ => rfl, fun _ c hc hl => ?_, fun c hc => ?_⟩
  · rcases hl with hl | ⟨j, hj, hcj⟩
    · exact h.kept i c hc hl
    · exact hj (h.apart j i c hcj hc)
  · rw [h.used c hc]
    constructor
    · rintro (⟨j, hj⟩ | hl)
      · by_cases hji : j = i
        · exact Or.inl ⟨(), hji ▸ hj⟩
        · exact Or.inr (Or.inr ⟨j, hji, hj⟩)
      · exact Or.inr (Or.inl hl)
    · rintro (⟨-, hj⟩ | hl | ⟨j, -, hj⟩)
      · exact Or.inl ⟨i, hj⟩
      · exact Or.inr hl
      · exact Or.inl ⟨j, hj⟩

theorem Allocated.congr (h : Allocated S o next f lost) (heq : ∀ c ∈ S, next' c = next c) :
    Allocated S o next' f lost :=
  ⟨fun i => (h.chain i).congr fun c hc => heq c ((h.chain i).cells c hc), h.apart, h.kept,
    fun c hc => by rw [heq c hc]; exact h.used c hc⟩

variable [DecidableEq ι]

/-- A free cell is put at the end of a chain, or starts one. -/
theorem Allocated.grow (h : Allocated S o next f lost) {i : ι} (hc : c ∈ S) (hfree : next c = o)
    (hend : next' c ∉ S ∧ next' c ≠ o) (hlast : ∀ d ∈ (f i).getLast?, next' d = c) (ho : o ∉ S)
    (hoff : ∀ x, x ≠ c → x ∉ (f i).getLast? → next' x = next x) :
    Allocated S o next' (Function.update f i (f i ++ [c])) lost := by
  -- a free cell is in no chain
  have hcf : ∀ j, c ∉ f j := fun j hj => h.next_ne hj hfree
  have hmem : ∀ j x, x ∈ Function.update f i (f i ++ [c]) j ↔ x ∈ f j ∨ j = i ∧ x = c := by
    intro j x
    by_cases hj : j = i
    · rw [hj, Function.update_self]
      simp
    · rw [Function.update_of_ne hj]
      simp [hj]
  refine ⟨fun j => ?_, fun j k x hj hk => ?_, fun j x hj => ?_, fun x hx => ?_⟩
  · by_cases hj : j = i
    · rw [hj, Function.update_self]
      exact (h.chain i).append hc hend hlast fun x hx hlast =>
        hoff x (fun heq => hcf i (heq ▸ hx)) hlast
    · rw [Function.update_of_ne hj]
      refine (h.chain j).congr fun x hx => hoff x (fun heq => hcf j (heq ▸ hx)) fun hlast => ?_
      exact hj (h.apart j i x hx (List.mem_of_getLast? hlast))
  · rcases (hmem j x).mp hj with hj | ⟨hj, hx⟩ <;> rcases (hmem k x).mp hk with hk | ⟨hk, hx'⟩
    · exact h.apart j k x hj hk
    · exact absurd (hx' ▸ hj) (hcf j)
    · exact absurd (hx ▸ hk) (hcf k)
    · rw [hj, hk]
  · rcases (hmem j x).mp hj with hj | ⟨-, rfl⟩
    · exact h.kept j x hj
    · exact fun hlost => (h.used x hc).mpr (Or.inr hlost) hfree
  · have hex : (∃ j, x ∈ Function.update f i (f i ++ [c]) j) ↔ (∃ j, x ∈ f j) ∨ x = c := by
      simp only [hmem]
      constructor
      · rintro ⟨j, hj | ⟨_, rfl⟩⟩
        · exact Or.inl ⟨j, hj⟩
        · exact Or.inr rfl
      · rintro (⟨j, hj⟩ | rfl)
        · exact ⟨j, Or.inl hj⟩
        · exact ⟨i, Or.inr ⟨rfl, rfl⟩⟩
    rw [hex]
    -- the links have changed in the new cell and in the last one alone
    by_cases hxc : x = c
    · exact iff_of_true (hxc ▸ hend.2) (Or.inl (Or.inr hxc))
    · by_cases hxl : x ∈ (f i).getLast?
      · have hxi := List.mem_of_getLast? hxl
        refine iff_of_true ?_ (Or.inl (Or.inl ⟨i, hxi⟩))
        rw [hlast x hxl]
        exact fun heq => ho (heq ▸ hc)
      · rw [hoff x hxc hxl, h.used x hx]
        tauto

/-- The last cells of a chain are cut off; those that do not become free are lost. -/
theorem Allocated.shrink (h : Allocated S o next f lost) {i : ι} (hi : f i = l ++ m)
    (hend : ∀ d ∈ l.getLast?, next' d ∉ S ∧ next' d ≠ o)
    (hoff : ∀ x, x ∉ m → x ∉ l.getLast? → next' x = next x) :
    Allocated S o next' (Function.update f i l) (lost ∪ {x | x ∈ m ∧ next' x ≠ o}) := by
  have hnd : (l ++ m).Nodup := hi ▸ (h.chain i).nodup
  have hlm : ∀ x ∈ l, x ∉ m := fun x hl hm => (List.nodup_append.mp hnd).2.2 x hl x hm rfl
  have hmem : ∀ j x, x ∈ Function.update f i l j ↔ x ∈ f j ∧ (j = i → x ∈ l) := by
    intro j x
    by_cases hj : j = i
    · rw [hj, Function.update_self, hi, List.mem_append]
      tauto
    · rw [Function.update_of_ne hj]
      tauto
  have hli : ∀ x ∈ l, x ∈ f i := fun x hx => hi ▸ List.mem_append_left m hx
  have hmi : ∀ x ∈ m, x ∈ f i := fun x hx => hi ▸ List.mem_append_right l hx
  refine ⟨fun j => ?_, fun j k x hj hk => ?_, fun j x hj => ?_, fun x hx => ?_⟩
  · by_cases hj : j = i
    · rw [hj, Function.update_self]
      exact (hi ▸ h.chain i).cut hend fun x hx hlast => hoff x (hlm x hx) hlast
    · rw [Function.update_of_ne hj]
      refine (h.chain j).congr fun x hx => hoff x (fun hm => ?_) fun hlast => ?_
      · exact hj (h.apart j i x hx (hmi x hm))
      · exact hj (h.apart j i x hx (hli x (List.mem_of_getLast? hlast)))
  · exact h.apart j k x ((hmem j x).mp hj).1 ((hmem k x).mp hk).1
  · obtain ⟨hj, hji⟩ := (hmem j x).mp hj
    rintro (hlost | ⟨hm, -⟩)
    · exact h.kept j x hj hlost
    · exact hlm x (hji (h.apart j i x hj (hmi x hm))) hm
  · -- a cell that was cut off is in no chain, and free or lost
    by_cases hxm : x ∈ m
    · have hnot : ¬ ∃ j, x ∈ Function.update f i l j := by
        rintro ⟨j, hj⟩
        obtain ⟨hj, hji⟩ := (hmem j x).mp hj
        exact hlm x (hji (h.apart j i x hj (hmi x hxm))) hxm
      rw [or_iff_right hnot]
      refine ⟨fun hne => Or.inr ⟨hxm, hne⟩, ?_⟩
      rintro (hlost | ⟨-, hne⟩)
      · exact absurd hlost (h.kept i x (hmi x hxm))
      · exact hne
    · have hex : (∃ j, x ∈ Function.update f i l j) ↔ ∃ j, x ∈ f j := by
        simp only [hmem]
        refine exists_congr fun j => and_iff_left_of_imp fun hj hji => ?_
        rw [hji, hi] at hj
        exact (List.mem_append.mp hj).resolve_right hxm
      have hlost : x ∈ lost ∪ {x | x ∈ m ∧ next' x ≠ o} ↔ x ∈ lost :=
        ⟨fun h => h.resolve_right fun h => hxm h.1, Or.inl⟩
      rw [hex, hlost]
      by_cases hxl : x ∈ l.getLast?
      · exact iff_of_true (hend x hxl).2 (Or.inl ⟨i, hli x (List.mem_of_getLast? hxl)⟩)
      · rw [hoff x hxm hxl, h.used x hx]

omit [DecidableEq ι] in
/-- A free cell is marked, and belongs to nobody. -/
theorem Allocated.spoil (h : Allocated S o next f lost) (hfree : next c = o) (hc : c ∈ S)
    (hoff : ∀ x, x ≠ c → next' x = next x) :
    Allocated S o next' f (lost ∪ {x | x = c ∧ next' x ≠ o}) := by
  have hcf : ∀ j, c ∉ f j := fun j hj => h.next_ne hj hfree
  refine ⟨fun j => ?_, h.apart, fun j x hj => ?_, fun x hx => ?_⟩
  · exact (h.chain j).congr fun x hx => hoff x fun heq => hcf j (heq ▸ hx)
  · rintro (hlost | ⟨rfl, -⟩)
    · exact h.kept j x hj hlost
    · exact hcf j hj
  · by_cases hxc : x = c
    · subst hxc
      have hnot : x ∉ lost := fun hl => (h.used x hx).mpr (Or.inr hl) hfree
      rw [or_iff_right fun ⟨j, hj⟩ => hcf j hj]
      exact ⟨fun hne => Or.inr ⟨rfl, hne⟩, fun hl => (hl.resolve_left hnot).2⟩
    · rw [hoff x hxc, h.used x hx]
      have hlost : x ∈ lost ∪ {x | x = c ∧ next' x ≠ o} ↔ x ∈ lost :=
        ⟨fun h => h.resolve_right fun h => hxc h.1, Or.inl⟩
      rw [hlost]

end Allocated

/-! ### How many are free -/

/-- The number of free cells among `cells`. -/
def freeCells [DecidableEq A] (cells : Finset A) (o : A) (next : A → A) : ℕ :=
  (cells.filter fun c => next c = o).card

section Free

variable [DecidableEq A] {cells : Finset A}

theorem freeCells_congr (h : ∀ c ∈ cells, next' c = o ↔ next c = o) :
    freeCells cells o next' = freeCells cells o next := by
  unfold freeCells
  rw [Finset.filter_congr h]

/-- One free cell less. -/
theorem freeCells_take (hc : c ∈ cells) (hfree : next c = o) (hused : next' c ≠ o)
    (hoff : ∀ x ∈ cells, x ≠ c → (next' x = o ↔ next x = o)) :
    freeCells cells o next' + 1 = freeCells cells o next := by
  have heq : cells.filter (fun x => next x = o) =
      insert c (cells.filter fun x => next' x = o) := by
    ext x
    simp only [Finset.mem_filter, Finset.mem_insert]
    by_cases hxc : x = c
    · subst hxc
      tauto
    · constructor
      · rintro ⟨hx, hxo⟩
        exact Or.inr ⟨hx, (hoff x hx hxc).mpr hxo⟩
      · rintro (heq | ⟨hx, hxo⟩)
        · exact absurd heq hxc
        · exact ⟨hx, (hoff x hx hxc).mp hxo⟩
  unfold freeCells
  rw [heq, Finset.card_insert_of_notMem (by simp [hused])]

theorem freeCells_pos : 0 < freeCells cells o next ↔ ∃ c ∈ cells, next c = o := by
  unfold freeCells
  rw [Finset.card_pos]
  constructor
  · rintro ⟨c, hc⟩
    exact ⟨c, (Finset.mem_filter.mp hc).1, (Finset.mem_filter.mp hc).2⟩
  · rintro ⟨c, hc, hco⟩
    exact ⟨c, Finset.mem_filter.mpr ⟨hc, hco⟩⟩

theorem freeCells_le : freeCells cells o next ≤ cells.card := Finset.card_filter_le _ _

end Free

end LinkTable
