/-
The xHCI driver's shared memory over whole runs.

`XhciReach x live foreign` is a run of calls of the allocator: `live` are the blocks that
`Allocate` has returned and that have not been given back, as the calls' results say, and
`foreign` those of the other users of the window.  Between calls the rest of the kernel does
what it likes elsewhere.

* **`xhci_blocks_exact`** — the records are the live blocks, and each call does to them, and
  to the frames behind them, what it says;
* **`xhci_address_wrong`** — the addresses given to the controller are never those of the
  memory behind a block.
-/
import GamingConsole.Xhci
import Mathlib.Data.Set.Card

namespace GamingConsole

open Prog LinkedList Space

/-! ### The heap of the records -/

/-- No call is going on. -/
structure Kernel.Settled (k : Kernel) : Prop where
  wf : k.space.WF
  dmaFree : k.Free .dmaLock
  mmuFree : k.Free .mmuLock
  pmmFree : k.Free .pmmLock

/-- `new` returns memory of its own while there are no more records than the window has
pages; neither it nor `delete` touches the window, and `delete` takes no frame. -/
structure RecordHeap.Serves (heap : RecordHeap) : Prop where
  address : ∀ x : Xhci, {a | x.records.node a ≠ none}.ncard ≤ dmaPages →
    heap.address x ≠ 0 ∧ x.records.node (heap.address x) = none
  new : ∀ x : Xhci, x.kernel.Settled → DmaUntouched x.kernel (heap.new x)
  delete : ∀ x : Xhci, x.kernel.Settled → DmaUntouched x.kernel (heap.delete x)
  delete_used : ∀ (x : Xhci) (f : U64), x.kernel.Settled → (heap.delete x).space.pmm.Used f →
    x.kernel.space.pmm.Used f

/-! ### Runs -/

/-- A run of calls on any cores, from boot. -/
inductive XhciReach : Xhci → List (U64 × U64) → List (U64 × U64) → Prop where
  | boot (board : Board) : XhciReach ⟨board.kernel, ⟨0, fun _ => none⟩⟩ [] []
  | allocate {x x' : Xhci} {live foreign : List (U64 × U64)} {p : U64} (c : ℕ) (heap : RecordHeap)
      (size align boundary : U64) (hx : XhciReach x live foreign) (hheap : heap.Serves)
      (hrun : run (Xhci.perform c heap) (Xhci.allocate size align boundary) x = some (p, x')) :
      XhciReach x' (if p = 0 then live else (p, size) :: live) foreign
  | free {x x' : Xhci} {live foreign : List (U64 × U64)} (c : ℕ) (heap : RecordHeap) (q : U64)
      (hx : XhciReach x live foreign) (hheap : heap.Serves)
      (hrun : run (Xhci.perform c heap) (Xhci.free q) x = some ((), x')) :
      XhciReach x' (live.filter fun block => block.1 ≠ q) foreign
  | destructor {x x' : Xhci} {live foreign : List (U64 × U64)} (c : ℕ) (heap : RecordHeap)
      (hx : XhciReach x live foreign) (hheap : heap.Serves)
      (hrun : run (Xhci.perform c heap) Xhci.destructor x = some ((), x')) :
      XhciReach x' [] foreign
  | clientAlloc {x : Xhci} {k' : Kernel} {live foreign : List (U64 × U64)} {p : U64} (c : ℕ)
      (size : U64) (hx : XhciReach x live foreign)
      (hrun : run (Kernel.perform c) (dmaAlloc size) x.kernel = some (p, k')) :
      XhciReach { x with kernel := k' } live (if p = 0 then foreign else (p, size) :: foreign)
  | clientFree {x : Xhci} {k' : Kernel} {live foreign foreign' : List (U64 × U64)} {p n : U64}
      (c : ℕ) (hx : XhciReach x live foreign) (hheld : foreign.Perm ((p, n) :: foreign'))
      (hrun : run (Kernel.perform c) (dmaFree p n) x.kernel = some ((), k')) :
      XhciReach { x with kernel := k' } live foreign'
  | others {x : Xhci} {k' : Kernel} {live foreign : List (U64 × U64)}
      (hx : XhciReach x live foreign) (ho : DmaUntouched x.kernel k') :
      XhciReach { x with kernel := k' } live foreign

/-! ### The invariant -/

/-- The records are the live blocks, nothing else is on their heap, and the blocks are
held. -/
structure XhciInv (x : Xhci) (live foreign : List (U64 × U64)) : Prop where
  records : ∃ l, Lists x.records 0 l ∧ l.map Prod.snd = live ∧
    ∀ a, x.records.node a ≠ none → a ∈ l.map Prod.fst
  held : ∃ rest, DmaHeld x.kernel (live ++ foreign) rest

variable {x x' : Xhci} {live foreign : List (U64 × U64)} {c : ℕ} {heap : RecordHeap}
  {k k' : Kernel} {held : List (U64 × U64)} {rest : U64 → Prop} {p n q size align boundary : U64}

theorem DmaHeld.settled (h : DmaHeld k held rest) : k.Settled := by
  obtain ⟨w, rfl, -, hw⟩ := h
  exact ⟨hw.inv.memory.wf, hw.inv.dmaFree, hw.inv.mmuFree, hw.inv.pmmFree⟩

/-- There are no more records than pages. -/
theorem XhciInv.few (h : XhciInv x live foreign) :
    live.length ≤ dmaPages ∧ {a | x.records.node a ≠ none}.ncard ≤ live.length := by
  obtain ⟨⟨l, -, rfl, honly⟩, rest, hheld⟩ := h
  have hle := hheld.length_le
  rw [List.length_append] at hle
  refine ⟨by omega, ?_⟩
  have hsub : {a | x.records.node a ≠ none} ⊆ ((l.map Prod.fst).toFinset : Set U64) :=
    fun a ha => List.mem_toFinset.mpr (honly a ha)
  calc {a | x.records.node a ≠ none}.ncard
      ≤ ((l.map Prod.fst).toFinset : Set U64).ncard := Set.ncard_le_ncard hsub
    _ = (l.map Prod.fst).toFinset.card := Set.ncard_coe_finset _
    _ ≤ (l.map Prod.fst).length := List.toFinset_card_le _
    _ = (l.map Prod.snd).length := by rw [List.length_map, List.length_map]

/-! ### The calls -/

theorem Xhci.perform_dmaAlloc (heap : RecordHeap)
    (h : run (Kernel.perform c) (dmaAlloc size) x.kernel = some (p, k')) :
    Xhci.perform c heap (.dmaAlloc size) x = some (p, { x with kernel := k' }) := by
  rw [Xhci.perform, h]
  rfl

theorem Xhci.perform_dmaFree (h : run (Kernel.perform c) (dmaFree p n) x.kernel = some ((), k')) :
    Xhci.perform c heap (.dmaFree p n) x = some ((), { x with kernel := k' }) := by
  rw [Xhci.perform, h]
  rfl

/-- **`Allocate`**: a new block and its record, or nothing. -/
theorem XhciInv.allocate (h : XhciInv x live foreign) (hheap : heap.Serves) (c : ℕ)
    (size align boundary : U64) :
    ∃ p x', run (Xhci.perform c heap) (Xhci.allocate size align boundary) x = some (p, x') ∧
      (p = 0 ∧ XhciInv x' live foreign ∨ p ≠ 0 ∧ XhciInv x' ((p, size) :: live) foreign ∧
        ∃ x₁ : Xhci, Obtained x.kernel.space x₁.kernel.space (live ++ foreign) (p, size) ∧
          x'.kernel = heap.new x₁) := by
  obtain ⟨hlive, hfew⟩ := h.few
  obtain ⟨⟨l, hl, hmap, honly⟩, rest, hheld⟩ := h
  obtain ⟨p, k₁, hrun, hothers, hcase⟩ := hheld.alloc size c
  have hact := Xhci.perform_dmaAlloc heap hrun
  rcases hcase with ⟨rfl, hheld₁⟩ | ⟨hp, hheld₁⟩
  · refine ⟨0, { x with kernel := k₁ }, ?_, Or.inl ⟨rfl, ⟨l, hl, hmap, honly⟩, rest, hheld₁⟩⟩
    refine (run_bind_of_run (p := Prog.perform _) ((run_perform _ _).trans hact)).trans ?_
    rfl
  · set x₁ : Xhci := { x with kernel := k₁ } with hx₁
    have hfresh := hheap.address x₁ (le_trans hfew hlive)
    obtain ⟨rest', hheld', -⟩ := hheld₁.others (hheap.new x₁ hheld₁.settled)
    refine ⟨p, ⟨heap.new x₁,
      (x.records.insert (heap.address x₁) (p, size) x.records.head).store .head (heap.address x₁)⟩,
      ?_, Or.inr ⟨hp, ⟨⟨_, hl.push hfresh.2 hfresh.1, ?_, fun a ha => ?_⟩, rest', hheld'⟩,
      x₁, hheld.obtained hheld₁ hothers, rfl⟩⟩
    · refine (run_bind_of_run (p := Prog.perform _) ((run_perform _ _).trans hact)).trans ?_
      rw [if_neg hp]
      rfl
    · rw [List.map_cons, hmap]
    · rw [List.map_cons, List.mem_cons]
      by_cases hax : a = heap.address x₁
      · exact Or.inl hax
      · refine Or.inr (honly a fun hnone => ha ?_)
        show (x.records.insert (heap.address x₁) (p, size) x.records.head).node a = none
        exact Cells.insert_node_eq_none.mpr ⟨hax, hnone⟩

/-! ### The walk of `Free` -/

variable {l l₁ l₂ : List (U64 × SAllocationRecord)} {a : U64} {v : SAllocationRecord}

/-- The walk at a record. -/
theorem run_freeLoop_record (hl : Lists x.records 0 (l₁ ++ (a, v) :: l₂)) (fuel : ℕ) :
    run (Xhci.perform c heap) (Xhci.freeLoop q (fuel + 1) (place l₁)) x =
      if v.1 = q then
        run (Xhci.perform c heap) (do
          let pNext ← xhci (.load (.next a))
          xhci (.store (place l₁) pNext)
          xhci (.dmaFree v.1 v.2)
          xhci (.delete a)) x
      else run (Xhci.perform c heap) (Xhci.freeLoop q fuel (place (l₁ ++ [(a, v)]))) x := by
  obtain ⟨m, hload, hseg⟩ := hl.load
  obtain ⟨hm, next, hnode, -⟩ := hseg
  rw [hm] at hload
  have hne : a ≠ 0 := hl.ne_null (a, v) (List.mem_append_right _ List.mem_cons_self)
  have hperform : Xhci.perform c heap (.load (place l₁)) x = some (a, x) := by
    rw [Xhci.perform, hload]
    rfl
  have hrecord : Xhci.perform c heap (.record a) x = some (v, x) := by
    rw [Xhci.perform, hnode]
    rfl
  rw [Xhci.freeLoop, xhci, run_bind_of_run ((run_perform _ _).trans hperform), if_neg hne, xhci,
    run_bind_of_run ((run_perform _ _).trans hrecord), place_append]
  by_cases hv : v.1 = q
  · rw [if_pos hv, if_pos hv]
  · rw [if_neg hv, if_neg hv]

/-- Records of other blocks are walked past. -/
theorem run_freeLoop_skip (c : ℕ) (heap : RecordHeap) (fuel : ℕ) :
    ∀ (m l₁ : List (U64 × SAllocationRecord)),
    Lists x.records 0 (l₁ ++ m ++ l₂) → (∀ cell ∈ m, cell.2.1 ≠ q) →
    run (Xhci.perform c heap) (Xhci.freeLoop q (m.length + fuel) (place l₁)) x =
      run (Xhci.perform c heap) (Xhci.freeLoop q fuel (place (l₁ ++ m))) x := by
  intro m
  induction m with
  | nil =>
    intro l₁ _ _
    rw [List.length_nil, Nat.zero_add, List.append_nil]
  | cons cell m ih =>
    intro l₁ hl hm
    rw [List.forall_mem_cons] at hm
    have hl' : Lists x.records 0 (l₁ ++ (cell.1, cell.2) :: (m ++ l₂)) := by
      rwa [List.append_assoc, List.cons_append] at hl
    rw [List.length_cons, Nat.add_right_comm, run_freeLoop_record hl', if_neg hm.1]
    have hrest := ih (l₁ ++ [cell])
      (by rwa [List.append_assoc l₁ [cell] m, List.singleton_append]) hm.2
    rw [hrest, List.append_assoc, List.singleton_append]

/-- **`Free` of any other pointer** changes nothing. -/
theorem XhciInv.free_other (h : XhciInv x live foreign) (hq : q ∉ live.map Prod.fst) (c : ℕ)
    (heap : RecordHeap) : run (Xhci.perform c heap) (Xhci.free q) x = some ((), x) := by
  obtain ⟨hlive, -⟩ := h.few
  obtain ⟨⟨l, hl, rfl, -⟩, -⟩ := h
  rw [List.length_map] at hlive
  have hne : ∀ cell ∈ l, cell.2.1 ≠ q := fun cell hcell heq =>
    hq (List.mem_map.mpr ⟨cell.2, List.mem_map_of_mem hcell, heq⟩)
  obtain ⟨fuel, hfuel⟩ : ∃ fuel, Xhci.walkFuel = l.length + (fuel + 1) :=
    ⟨dmaPages - l.length, by rw [Xhci.walkFuel]; omega⟩
  have hl₀ : Lists x.records 0 (l ++ []) := by rwa [List.append_nil]
  have hskip := run_freeLoop_skip c heap (fuel + 1) l [] hl₀ hne
  rw [Xhci.free, hfuel]
  refine hskip.trans ?_
  rw [List.nil_append]
  obtain ⟨m, hload, hseg⟩ := hl₀.load
  have hend : m = 0 := hseg
  have hperform : Xhci.perform c heap (.load (place l)) x = some (m, x) := by
    rw [Xhci.perform, hload]
    rfl
  rw [Xhci.freeLoop, xhci, run_bind_of_run ((run_perform _ _).trans hperform), if_pos hend]
  rfl

/-- The blocks that are left when one is taken away. -/
theorem filter_ne_of_nodup {blocks₁ blocks₂ : List (U64 × U64)}
    (h : ((blocks₁ ++ (p, n) :: blocks₂).map Prod.fst).Nodup) :
    (blocks₁ ++ (p, n) :: blocks₂).filter (fun block => block.1 ≠ p) = blocks₁ ++ blocks₂ := by
  rw [List.map_append, List.map_cons] at h
  have hout := (List.nodup_cons.mp (List.perm_middle.nodup h)).1
  rw [← List.map_append] at hout
  have hne : ∀ block ∈ blocks₁ ++ blocks₂, block.1 ≠ p := fun block hmem heq =>
    hout (List.mem_map.mpr ⟨block, hmem, heq⟩)
  rw [List.forall_mem_append] at hne
  have hself : ∀ {blocks : List (U64 × U64)}, (∀ block ∈ blocks, block.1 ≠ p) →
      blocks.filter (fun block => block.1 ≠ p) = blocks :=
    fun hblocks => List.filter_eq_self.mpr fun block hmem => decide_eq_true (hblocks block hmem)
  rw [List.filter_append, List.filter_cons, if_neg (by simp), hself hne.1, hself hne.2]

/-- **`Free`** of a live block: its record goes, and its frames go back. -/
theorem XhciInv.free (h : XhciInv x live foreign) (hheap : heap.Serves) (c : ℕ)
    (hmem : (p, n) ∈ live) :
    ∃ x₁ x', run (Xhci.perform c heap) (Xhci.free p) x = some ((), x') ∧
      XhciInv x' (live.filter fun block => block.1 ≠ p) foreign ∧
      Returned x.kernel.space x₁.kernel.space ((live.filter fun block => block.1 ≠ p) ++ foreign)
        (p, n) ∧ x'.kernel = heap.delete x₁ := by
  obtain ⟨hlive, -⟩ := h.few
  obtain ⟨⟨l, hl, rfl, honly⟩, rest, hheld⟩ := h
  obtain ⟨⟨a, v⟩, hcell, hv⟩ := List.mem_map.mp hmem
  change v = (p, n) at hv
  subst hv
  obtain ⟨l₁, l₂, rfl⟩ := List.append_of_mem hcell
  have hnodup : ((l₁.map Prod.snd ++ (p, n) :: l₂.map Prod.snd).map Prod.fst).Nodup := by
    have hall := hheld.nodup
    rw [List.map_append, List.nodup_append] at hall
    have hhere := hall.1
    rwa [List.map_append (f := Prod.snd), List.map_cons] at hhere
  have hfilter : ((l₁ ++ (a, (p, n)) :: l₂).map Prod.snd).filter (fun block => block.1 ≠ p) =
      l₁.map Prod.snd ++ l₂.map Prod.snd := by
    rw [List.map_append, List.map_cons]
    exact filter_ne_of_nodup hnodup
  rw [hfilter]
  have hskipped : ∀ cell ∈ l₁, cell.2.1 ≠ p := by
    intro cell hc heq
    rw [List.map_append, List.nodup_append] at hnodup
    exact hnodup.2.2 cell.2.1 (List.mem_map_of_mem (List.mem_map_of_mem hc)) p List.mem_cons_self
      heq
  have hheld₀ : DmaHeld x.kernel
      (l₁.map Prod.snd ++ (p, n) :: (l₂.map Prod.snd ++ foreign)) rest := by
    rwa [List.map_append, List.map_cons, List.append_assoc, List.cons_append] at hheld
  obtain ⟨k₁, hrun, hheld₁, hreturned⟩ := hheld₀.free c
  obtain ⟨next, hnode, -⟩ := hl.node_eq
  -- the record is taken out of the list before its block is freed
  let x₁ : Xhci := ⟨k₁, x.records.store (place l₁) next⟩
  obtain ⟨rest', hheld', -⟩ := hheld₁.others (hheap.delete x₁ hheld₁.settled)
  rw [← List.append_assoc] at hheld' hreturned
  refine ⟨x₁, ⟨heap.delete x₁, x₁.records.remove a⟩, ?_,
    ⟨⟨l₁ ++ l₂, hl.unlink hnode, ?_, fun b hb => ?_⟩,
    rest', hheld'⟩, hreturned, rfl⟩
  · obtain ⟨fuel, hfuel⟩ : ∃ fuel, Xhci.walkFuel = l₁.length + (fuel + 1) := by
      rw [List.length_map, List.length_append] at hlive
      exact ⟨dmaPages - l₁.length, by rw [Xhci.walkFuel]; omega⟩
    have hskip := run_freeLoop_skip c heap (fuel + 1) l₁ []
      (by rwa [List.nil_append]) hskipped
    rw [Xhci.free, hfuel]
    refine hskip.trans ?_
    rw [List.nil_append, run_freeLoop_record hl, if_pos rfl]
    have hload : Xhci.perform c heap (.load (.next a)) x = some (next, x) := by
      rw [Xhci.perform, Cells.load, hnode]
      rfl
    have hfree : Xhci.perform c heap
        (.dmaFree p n) { x with records := x.records.store (place l₁) next }
        = some ((), x₁) := Xhci.perform_dmaFree hrun
    refine (run_bind_of_run (p := Prog.perform _) ((run_perform _ _).trans hload)).trans ?_
    refine (run_bind_of_run (p := Prog.perform _) (run_perform _ _)).trans ?_
    exact (run_bind_of_run (p := Prog.perform _) ((run_perform _ _).trans hfree)).trans rfl
  · rw [List.map_append]
  · have hba : b ≠ a := fun heq => hb (Cells.remove_node_eq_none.mpr (Or.inl heq))
    have hb' := honly b fun hnone => hb (Cells.remove_node_eq_none.mpr
      (Or.inr (Cells.store_node_eq_none.mpr hnone)))
    rw [List.map_append, List.map_cons, List.perm_middle.mem_iff, List.mem_cons] at hb'
    rw [List.map_append]
    exact hb'.resolve_left hba

/-! ### The destructor -/

/-- The loop of the destructor, from a record on. -/
theorem run_destructorLoop (hheap : heap.Serves) (c : ℕ) : ∀ (l : List (U64 × SAllocationRecord))
    (fuel : ℕ) (a : U64) (x : Xhci) (rest : U64 → Prop), l.length < fuel →
    Seg x.records.node a l 0 → (∀ cell ∈ l, cell.1 ≠ 0) →
    (∀ b, x.records.node b ≠ none → b ∈ l.map Prod.fst) →
    DmaHeld x.kernel (l.map Prod.snd ++ foreign) rest →
    ∃ x' rest', run (Xhci.perform c heap) (Xhci.destructorLoop fuel a) x = some ((), x') ∧
      (∀ b, x'.records.node b = none) ∧ DmaHeld x'.kernel foreign rest' ∧
      (∀ f, x'.kernel.space.pmm.Used f → x.kernel.space.pmm.Used f) ∧
      ∀ block ∈ l.map Prod.snd, ∀ f, BlockFrame x.kernel.space block f →
        ¬ x'.kernel.space.pmm.Used f := by
  intro l
  induction l with
  | nil =>
    intro fuel a x rest hfuel hseg _ honly hheld
    obtain ⟨fuel, rfl⟩ := Nat.exists_eq_succ_of_ne_zero (Nat.ne_of_gt hfuel)
    have ha : a = 0 := hseg
    refine ⟨x, rest, ?_, fun b => ?_, hheld, fun _ hf => hf, fun block hmem => ?_⟩
    · rw [Xhci.destructorLoop, if_pos ha]
      rfl
    · by_contra hb
      exact List.not_mem_nil (honly b hb)
    · exact absurd hmem List.not_mem_nil
  | cons cell l ih =>
    obtain ⟨a', p, n⟩ := cell
    intro fuel a x rest hfuel hseg hne honly hheld
    rw [List.length_cons] at hfuel
    obtain ⟨fuel, rfl⟩ := Nat.exists_eq_succ_of_ne_zero (Nat.ne_of_gt (Nat.zero_lt_of_lt hfuel))
    have hnodup := hseg.nodup hne
    rw [List.map_cons, List.nodup_cons] at hnodup
    rw [List.forall_mem_cons] at hne
    obtain ⟨ha, next, hnode, hrest⟩ := hseg
    change a = a' at ha
    subst ha
    change x.records.node a = some ((p, n), next) at hnode
    have hheld₀ : DmaHeld x.kernel ([] ++ (p, n) :: (l.map Prod.snd ++ foreign)) rest := hheld
    obtain ⟨k₁, hrun, hheld₁, hreturned⟩ := hheld₀.free c
    rw [List.nil_append] at hheld₁ hreturned
    let x₁ : Xhci := { x with kernel := k₁ }
    obtain ⟨rest₂, hheld₂, hframes⟩ := hheld₁.others (hheap.delete x₁ hheld₁.settled)
    let x₂ : Xhci := ⟨heap.delete x₁, x.records.remove a⟩
    have hout : ∀ cell ∈ l, cell.1 ≠ a := fun cell hc heq =>
      hnodup.1 (List.mem_map.mpr ⟨cell, hc, heq⟩)
    have hseg₂ : Seg x₂.records.node next l 0 :=
      hrest.congr fun cell hc => Function.update_of_ne (hout cell hc) _ _
    have honly₂ : ∀ b, x₂.records.node b ≠ none → b ∈ l.map Prod.fst := by
      intro b hb
      have hba : b ≠ a := fun heq => hb (Cells.remove_node_eq_none.mpr (Or.inl heq))
      have hb' := honly b fun hnone => hb (Cells.remove_node_eq_none.mpr (Or.inr hnone))
      rw [List.map_cons, List.mem_cons] at hb'
      exact hb'.resolve_left hba
    obtain ⟨x', rest', hloop, hnone, hheld', hused, hgone⟩ :=
      ih fuel next x₂ rest₂ (by omega) hseg₂ hne.2 honly₂ hheld₂
    -- what is not in use after the block is freed is not taken again
    have hback : ∀ f, x'.kernel.space.pmm.Used f →
        x.kernel.space.pmm.Used f ∧ ¬ BlockFrame x.kernel.space (p, n) f := fun f hf =>
      hreturned.free f (hheap.delete_used x₁ f hheld₁.settled (hused f hf))
    refine ⟨x', rest', ?_, hnone, hheld', fun f hf => (hback f hf).1, fun block hmem f hf => ?_⟩
    · have hload : Xhci.perform c heap (.load (.next a)) x = some (next, x) := by
        rw [Xhci.perform, Cells.load, hnode]
        rfl
      have hrecord : Xhci.perform c heap (.record a) x = some ((p, n), x) := by
        rw [Xhci.perform, hnode]
        rfl
      have hfree : Xhci.perform c heap (.dmaFree p n) x = some ((), x₁) := Xhci.perform_dmaFree hrun
      rw [Xhci.destructorLoop, if_neg hne.1]
      refine (run_bind_of_run (p := Prog.perform _) ((run_perform _ _).trans hload)).trans ?_
      refine (run_bind_of_run (p := Prog.perform _) ((run_perform _ _).trans hrecord)).trans ?_
      refine (run_bind_of_run (p := Prog.perform _) ((run_perform _ _).trans hfree)).trans ?_
      exact (run_bind_of_run (p := Prog.perform _) (run_perform _ _)).trans hloop
    · rw [List.map_cons, List.mem_cons] at hmem
      rcases hmem with rfl | hmem
      · exact fun hf' => (hback f hf').2 hf
      · have hall : block ∈ l.map Prod.snd ++ foreign := List.mem_append_left _ hmem
        exact hgone block hmem f
          ((hframes block hall f).mpr ((hreturned.others block hall f).mpr hf))

/-- **The destructor** gives back every block. -/
theorem XhciInv.destructor (h : XhciInv x live foreign) (hheap : heap.Serves) (c : ℕ) :
    ∃ x', run (Xhci.perform c heap) Xhci.destructor x = some ((), x') ∧ XhciInv x' [] foreign ∧
      ∀ block ∈ live, ∀ f, BlockFrame x.kernel.space block f → ¬ x'.kernel.space.pmm.Used f := by
  obtain ⟨hlive, -⟩ := h.few
  obtain ⟨⟨l, hl, rfl, honly⟩, rest, hheld⟩ := h
  rw [List.length_map] at hlive
  obtain ⟨x', rest', hrun, hnone, hheld', -, hgone⟩ := run_destructorLoop hheap c l Xhci.walkFuel
    x.records.head x rest (by rw [Xhci.walkFuel]; omega) hl.seg hl.ne_null honly hheld
  refine ⟨{ x' with records := x'.records.store .head 0 }, ?_,
    ⟨⟨[], ⟨rfl, fun _ hc => absurd hc List.not_mem_nil⟩, rfl, fun b hb => absurd (hnone b) hb⟩,
      rest', hheld'⟩, hgone⟩
  refine (run_bind_of_run (p := Prog.perform _) (run_perform _ _)).trans ?_
  exact (run_bind_of_run hrun).trans rfl

/-! ### Every run -/

theorem XhciReach.inv (h : XhciReach x live foreign) : XhciInv x live foreign := by
  induction h with
  | boot board =>
    exact ⟨⟨[], ⟨rfl, fun _ hc => absurd hc List.not_mem_nil⟩, rfl, fun _ hb => absurd rfl hb⟩, _,
      dmaHeld_boot board⟩
  | @allocate x x' live foreign p c heap size align boundary _ hheap hrun ih =>
    obtain ⟨p', x'', hrun', hcase⟩ := ih.allocate hheap c size align boundary
    rw [hrun, Option.some_inj, Prod.mk.injEq] at hrun'
    obtain ⟨rfl, rfl⟩ := hrun'
    rcases hcase with ⟨hp, hinv⟩ | ⟨hp, hinv, -⟩
    · rwa [if_pos hp]
    · rwa [if_neg hp]
  | @free x x' live foreign c heap q _ hheap hrun ih =>
    -- a pointer that is no block's is looked for in vain
    by_cases hq : q ∈ live.map Prod.fst
    · obtain ⟨⟨q, n⟩, hmem, rfl⟩ := List.mem_map.mp hq
      obtain ⟨_, x'', hrun', hinv, -⟩ := ih.free hheap c hmem
      rw [hrun, Option.some_inj, Prod.mk.injEq] at hrun'
      rw [hrun'.2]
      exact hinv
    · have hrun' := ih.free_other hq c heap
      rw [hrun, Option.some_inj, Prod.mk.injEq] at hrun'
      have hsame : live.filter (fun block => block.1 ≠ q) = live := List.filter_eq_self.mpr
        fun block hmem => decide_eq_true fun heq => hq (List.mem_map.mpr ⟨block, hmem, heq⟩)
      rw [hrun'.2, hsame]
      exact ih
  | @destructor x x' live foreign c heap _ hheap hrun ih =>
    obtain ⟨x'', hrun', hinv, -⟩ := ih.destructor hheap c
    rw [hrun, Option.some_inj, Prod.mk.injEq] at hrun'
    rw [hrun'.2]
    exact hinv
  -- the others' buffers are in the same window, and in no record
  | @clientAlloc x k' live foreign p c size _ hrun ih =>
    obtain ⟨hrecords, rest, hheld⟩ := ih
    obtain ⟨p', k'', hrun', -, hcase⟩ := hheld.alloc size c
    rw [hrun, Option.some_inj, Prod.mk.injEq] at hrun'
    obtain ⟨rfl, rfl⟩ := hrun'
    rcases hcase with ⟨hp, hheld'⟩ | ⟨hp, hheld'⟩
    · rw [if_pos hp]
      exact ⟨hrecords, rest, hheld'⟩
    · rw [if_neg hp]
      exact ⟨hrecords, rest, hheld'.perm List.perm_middle.symm⟩
  | @clientFree x k' live foreign foreign' p n c _ hperm hrun ih =>
    obtain ⟨hrecords, rest, hheld⟩ := ih
    obtain ⟨k'', hrun', hheld', -⟩ := (hheld.perm (hperm.append_left live)).free c
    rw [hrun, Option.some_inj, Prod.mk.injEq] at hrun'
    rw [hrun'.2]
    exact ⟨hrecords, rest, hheld'⟩
  | others _ ho ih =>
    obtain ⟨hrecords, rest, hheld⟩ := ih
    obtain ⟨rest', hheld', -⟩ := hheld.others ho
    exact ⟨hrecords, rest', hheld'⟩

/-- The `n` bytes from `start` on are aligned and do not cross a multiple of `boundary`. -/
structure Fits (start n align boundary : ℕ) : Prop where
  aligned : start % align = 0
  inside : ∀ off < n, (start + off) / boundary = start / boundary

/-- The bytes of a block. -/
def BlockByte (block : U64 × U64) (v : ℕ) : Prop :=
  block.1.toNat ≤ v ∧ v < block.1.toNat + block.2.toNat

/-- What is claimed of a state with the given live blocks. -/
structure XhciSound (x : Xhci) (live foreign : List (U64 × U64)) : Prop where
  /-- The records are the live blocks, each once, with the size it was allocated with. -/
  records : ∃ l, Lists x.records 0 l ∧ l.map Prod.snd = live
  once : (live.map Prod.fst).Nodup
  apart : ∀ block ∈ live, ∀ block' ∈ live, block ≠ block' → ∀ v, BlockByte block v →
    ¬ BlockByte block' v
  frames_apart : ∀ block ∈ live, ∀ block' ∈ live ++ foreign, block ≠ block' → ∀ f,
    BlockFrame x.kernel.space block f → ¬ BlockFrame x.kernel.space block' f
  /-- Behind a block is a run of physical addresses. -/
  consecutive : ∀ p n, (p, n) ∈ live → ∀ off < n.toNat,
    x.kernel.space.translation (p + BitVec.ofNat 64 off) =
      x.kernel.space.translation p + BitVec.ofNat 64 off
  fits : ∀ p n, (p, n) ∈ live → n.toNat ≤ 4096 → ∀ align boundary, align ∣ 4096 →
    4096 ∣ boundary → Fits p.toNat n.toNat align boundary ∧
      Fits (x.kernel.space.translation p).toNat n.toNat align boundary
  allocate : ∀ c heap, heap.Serves → ∀ size align boundary, ∃ p x',
    run (Xhci.perform c heap) (Xhci.allocate size align boundary) x = some (p, x') ∧ (p ≠ 0 →
      ∃ x₁ : Xhci, Obtained x.kernel.space x₁.kernel.space (live ++ foreign) (p, size) ∧
        x'.kernel = heap.new x₁)
  /-- `Free` of a live block gives back its frames and no others, before `delete`. -/
  free : ∀ c heap, heap.Serves → ∀ p n, (p, n) ∈ live → ∃ x₁ x',
    run (Xhci.perform c heap) (Xhci.free p) x = some ((), x') ∧
      Returned x.kernel.space x₁.kernel.space ((live.filter fun block => block.1 ≠ p) ++ foreign)
        (p, n) ∧ x'.kernel = heap.delete x₁
  free_other : ∀ c heap q, q ∉ live.map Prod.fst →
    run (Xhci.perform c heap) (Xhci.free q) x = some ((), x)
  destructor : ∀ c heap, heap.Serves → ∃ x',
    run (Xhci.perform c heap) Xhci.destructor x = some ((), x') ∧
      ∀ block ∈ live, ∀ f, BlockFrame x.kernel.space block f → ¬ x'.kernel.space.pmm.Used f

/-- A page-aligned block of at most a page. -/
theorem fits_of_page {start n align boundary : ℕ} (hstart : start % 4096 = 0) (hn : n ≤ 4096)
    (halign : align ∣ 4096) (hboundary : 4096 ∣ boundary) : Fits start n align boundary := by
  refine ⟨Nat.mod_eq_zero_of_dvd (halign.trans (Nat.dvd_of_mod_eq_zero hstart)), fun off hoff => ?_⟩
  obtain ⟨m, rfl⟩ := hboundary
  rw [← Nat.div_div_eq_div_mul, ← Nat.div_div_eq_div_mul]
  congr 1
  omega

/-- What translates from a held block. -/
theorem DmaHeld.translation (h : DmaHeld k held rest) (hmem : (p, n) ∈ held) :
    ∃ phys : U64, k.space.translation p = phys ∧ phys.toNat % 4096 = 0 ∧
      phys.toNat + n.toNat ≤ 0x3F800000 ∧ 0 < n.toNat ∧ p.toNat % 4096 = 0 ∧
      0x140000000 ≤ p.toNat ∧ p.toNat + n.toNat ≤ 0x140100000 ∧
      ∀ off < n.toNat, k.space.translation (p + BitVec.ofNat 64 off) =
        phys + BitVec.ofNat 64 off := by
  obtain ⟨q, phys, rfl, hfits, hpos, haligned, hbelow, htrans⟩ := h.block hmem
  obtain ⟨hn, hle, -⟩ := toNat_le_of_dmaPageCount hpos
  have hzero := htrans 0 (by omega)
  rw [BitVec.add_zero, BitVec.add_zero] at hzero
  rw [dmaPages] at hfits
  have hva : (dmaAt q).toNat = 0x140000000 + q * 4096 := toNat_dmaAt (by rw [dmaPages]; omega)
  exact ⟨phys, hzero, haligned, by omega, hn, by omega, by omega, by omega,
    fun off hoff => htrans off (by omega)⟩

/-- **The allocator tracks its blocks exactly**, in every run. -/
theorem xhci_blocks_exact (h : XhciReach x live foreign) : XhciSound x live foreign := by
  have hinv := h.inv
  obtain ⟨l, hl, hmap, -⟩ := hinv.records
  obtain ⟨rest, hheld⟩ := hinv.held
  have hall : ∀ {block}, block ∈ live → block ∈ live ++ foreign :=
    fun hmem => List.mem_append_left _ hmem
  constructor
  case records => exact ⟨l, hl, hmap⟩
  case once =>
    have hnodup := hheld.nodup
    rw [List.map_append, List.nodup_append] at hnodup
    exact hnodup.1
  case apart =>
    intro block hmem block' hmem' hne v hv hv'
    -- two blocks that share an address would share a page
    refine hne (hheld.apart (hall hmem) (hall hmem') ⟨hv.1, lt_of_lt_of_le hv.2 ?_⟩
      ⟨hv'.1, lt_of_lt_of_le hv'.2 ?_⟩)
    · obtain ⟨q, phys, -, -, hpos, -⟩ := hheld.block (hall hmem)
      exact Nat.add_le_add_left (toNat_le_of_dmaPageCount hpos).2.1 _
    · obtain ⟨q, phys, -, -, hpos, -⟩ := hheld.block (hall hmem')
      exact Nat.add_le_add_left (toNat_le_of_dmaPageCount hpos).2.1 _
  case frames_apart =>
    intro block hmem block' hmem' hne f hf hf'
    exact hne (hheld.frames_apart (hall hmem) hmem' hf hf')
  case consecutive =>
    intro p n hmem off hoff
    obtain ⟨phys, hphys, -, -, -, -, -, -, htrans⟩ := hheld.translation (hall hmem)
    rw [htrans off hoff, hphys]
  case fits =>
    intro p n hmem hn align boundary halign hboundary
    obtain ⟨phys, hphys, haligned, -, -, hp, -⟩ := hheld.translation (hall hmem)
    rw [hphys]
    exact ⟨fits_of_page hp hn halign hboundary, fits_of_page haligned hn halign hboundary⟩
  case allocate =>
    intro c heap hheap size align boundary
    obtain ⟨p, x', hrun, hcase⟩ := hinv.allocate hheap c size align boundary
    refine ⟨p, x', hrun, fun hp => ?_⟩
    rcases hcase with ⟨hzero, -⟩ | ⟨-, -, hobtained⟩
    · exact absurd hzero hp
    · exact hobtained
  case free =>
    intro c heap hheap p n hmem
    obtain ⟨x₁, x', hrun, -, hreturned, hkernel⟩ := hinv.free hheap c hmem
    exact ⟨x₁, x', hrun, hreturned, hkernel⟩
  case free_other => exact fun c heap q hq => hinv.free_other hq c heap
  case destructor =>
    intro c heap hheap
    obtain ⟨x', hrun, -, hgone⟩ := hinv.destructor hheap c
    exact ⟨x', hrun, hgone⟩

/-- The addresses of `recordHeap`. -/
def recordAddresses (count : ℕ) : List U64 :=
  (List.range count).map fun i => BitVec.ofNat 64 (24 * (i + 1))

/-- A heap that hands out the first of a few addresses that is not in use. -/
def recordHeap : RecordHeap where
  address x := ((recordAddresses (dmaPages + 1)).find? fun a => (x.records.node a).isNone).getD 0
  new x := x.kernel
  delete x := x.kernel

theorem DmaUntouched.refl {k : Kernel} (h : k.Settled) : DmaUntouched k k :=
  ⟨⟨h.wf, fun _ _ => rfl, fun _ _ ha => ha⟩, rfl, h.dmaFree, h.mmuFree, h.pmmFree⟩

theorem toNat_recordAddress {i : ℕ} (hi : i < 2 ^ 32) :
    (BitVec.ofNat 64 (24 * (i + 1))).toNat = 24 * (i + 1) := by
  rw [BitVec.toNat_ofNat]
  omega

theorem nodup_recordAddresses {count : ℕ} (hcount : count ≤ 2 ^ 32) :
    (recordAddresses count).Nodup := by
  refine List.nodup_range.map_on fun i hi j hj heq => ?_
  rw [List.mem_range] at hi hj
  have hnat := congrArg BitVec.toNat heq
  rw [toNat_recordAddress (by omega), toNat_recordAddress (by omega)] at hnat
  omega

theorem recordAddress_ne_zero {count : ℕ} (hcount : count ≤ 2 ^ 32) {a : U64}
    (ha : a ∈ recordAddresses count) : a ≠ 0 := by
  obtain ⟨i, hi, rfl⟩ := List.mem_map.mp ha
  rw [List.mem_range] at hi
  intro hzero
  have hnat := congrArg BitVec.toNat hzero
  rw [toNat_recordAddress (by omega)] at hnat
  have h0 : (0 : U64).toNat = 0 := rfl
  omega

theorem recordHeap_address {x : Xhci} {a : U64}
    (hfind : (recordAddresses (dmaPages + 1)).find? (fun a => (x.records.node a).isNone) = some a) :
    recordHeap.address x = a := by
  rw [recordHeap]
  show ((recordAddresses (dmaPages + 1)).find? _).getD 0 = a
  rw [hfind]
  rfl

/-- Of more addresses than are in use, one is found. -/
theorem exists_recordAddress {x : Xhci} {count : ℕ} (hcount : count ≤ 2 ^ 32)
    (hfew : {a | x.records.node a ≠ none}.ncard < count) :
    ∃ a, (recordAddresses count).find? (fun a => (x.records.node a).isNone) = some a := by
  rcases hfind : (recordAddresses count).find? (fun a => (x.records.node a).isNone) with _ | a
  · -- all of them in use would be too many
    have hused : ∀ a ∈ recordAddresses count, x.records.node a ≠ none := by
      intro a ha hnone
      have := List.find?_eq_none.mp hfind a ha
      rw [hnone] at this
      exact this rfl
    have hsub : ((recordAddresses count).toFinset : Set U64) ⊆ {a | x.records.node a ≠ none} :=
      fun a ha => hused a (List.mem_toFinset.mp ha)
    have hfinite : Finite U64 := .of_injective BitVec.toFin fun _ _ h => BitVec.eq_of_toFin_eq h
    have hcard := Set.ncard_le_ncard hsub (Set.toFinite _)
    rw [Set.ncard_coe_finset, List.toFinset_card_of_nodup (nodup_recordAddresses hcount),
      recordAddresses, List.length_map, List.length_range] at hcard
    omega
  · exact ⟨a, rfl⟩

theorem recordHeap_serves : recordHeap.Serves := by
  have hcount : dmaPages + 1 ≤ 2 ^ 32 := by
    rw [dmaPages]
    omega
  refine ⟨fun x hfew => ?_, fun x hx => .refl hx, fun x hx => .refl hx, fun _ _ _ hf => hf⟩
  obtain ⟨a, hfind⟩ := exists_recordAddress hcount (Nat.lt_succ_of_le hfew)
  rw [recordHeap_address hfind]
  exact ⟨recordAddress_ne_zero hcount (List.mem_of_find?_eq_some hfind),
    Option.isNone_iff_eq_none.mp
      (List.find?_some (p := fun a => (x.records.node a).isNone) hfind)⟩

/-- What the driver asks of the allocator. -/
inductive BlockCall where
  | allocate (size : U64)
  | free (q : U64)

/-- A whole call of core 0, with the blocks that are live after it. -/
def Xhci.callBlock (r : List (U64 × U64) × Xhci) : BlockCall → Option (List (U64 × U64) × Xhci)
  | .allocate size =>
    (run (Xhci.perform 0 recordHeap) (Xhci.allocate size 64#64 0x10000#64) r.2).map
      fun a => (if a.1 = 0 then r.1 else (a.1, size) :: r.1, a.2)
  | .free q =>
    (run (Xhci.perform 0 recordHeap) (Xhci.free q) r.2).map
      fun a => (r.1.filter fun block => block.1 ≠ q, a.2)

theorem XhciReach.calls {calls : List BlockCall} {r : List (U64 × U64) × Xhci}
    (hx : XhciReach x live []) (h : calls.foldlM Xhci.callBlock (live, x) = some r) :
    XhciReach r.2 r.1 [] := by
  induction calls generalizing x live with
  | nil =>
    obtain rfl := Option.some.inj h
    exact hx
  | cons call calls ih =>
    rw [List.foldlM_cons] at h
    obtain ⟨r₁, hcall, hrest⟩ := Option.bind_eq_some_iff.mp h
    cases call with
    | allocate size =>
      obtain ⟨⟨p, x₁⟩, hrun, rfl⟩ := Option.map_eq_some_iff.mp hcall
      exact ih (.allocate 0 recordHeap size 64#64 0x10000#64 hx recordHeap_serves hrun) hrest
    | free q =>
      obtain ⟨⟨_, x₁⟩, hrun, rfl⟩ := Option.map_eq_some_iff.mp hcall
      exact ih (.free 0 recordHeap q hx recordHeap_serves hrun) hrest

/-- Calls from boot that have been evaluated. -/
theorem exists_xhciReach (calls : List BlockCall) (live : List (U64 × U64))
    (h : (calls.foldlM Xhci.callBlock ([], ⟨fiveFrames.kernel, ⟨0, fun _ => none⟩⟩)).any
      (fun r => r.1 == live) = true) : ∃ x, XhciReach x live [] := by
  obtain ⟨⟨live', x⟩, hrun, hlive⟩ := (Option.any_eq_true _ _).mp h
  obtain rfl : live' = live := eq_of_beq hlive
  exact ⟨x, (XhciReach.boot fiveFrames).calls hrun⟩

/-- A run in which one block of 64 bytes is allocated. -/
theorem xhciReach_first : ∃ x, XhciReach x [(0x140000000#64, 64#64)] [] :=
  exists_xhciReach [.allocate 64#64] _ (by decide +kernel)

/-- Of two blocks the first is freed, and the board has no other frame for the third. -/
theorem xhci_blocks_exact_reused : ∃ x,
    XhciReach x [(0x140002000#64, 4096#64), (0x140001000#64, 128#64)] [] ∧
      XhciSound x [(0x140002000#64, 4096#64), (0x140001000#64, 128#64)] [] := by
  obtain ⟨x, hx⟩ := exists_xhciReach [.allocate 64#64, .allocate 128#64, .free 0x140000000#64,
    .allocate 4096#64] [(0x140002000#64, 4096#64), (0x140001000#64, 128#64)] (by decide +kernel)
  exact ⟨x, hx, xhci_blocks_exact hx⟩

/-! ### Addresses for the controller -/

/-- Bit 36 is clear in the addresses of the window, so it is added. -/
theorem xhciToDma_eq {ptr : U64} (h : ptr.toNat < 2 ^ 36) :
    xhciToDma ptr = ptr + getDmaAddress pcieBusXhci := by
  apply BitVec.eq_of_toNat_eq
  have hbridge : (getDmaAddress pcieBusXhci).toNat = 2 ^ 36 := rfl
  rw [xhciToDma, BitVec.or_comm, BitFields.toNat_or_of_low (n := 36)
    (by rw [hbridge, Nat.mod_self]) h,
    BitVec.toNat_add, hbridge]
  omega

theorem toNat_xhciFromDma (addr : U64) : (xhciFromDma addr).toNat < 2 ^ 32 := by
  rw [xhciFromDma, BitVec.toNat_and]
  exact lt_of_le_of_lt Nat.and_le_right (by decide)

/-- **No address for the controller is right**: it is the virtual address of the block that is
shifted, and what comes back has lost its upper half. -/
theorem xhci_address_wrong (h : XhciReach x live foreign) (hmem : (p, n) ∈ live) {off : ℕ}
    (hoff : off < n.toNat) :
    xhciToDma (p + BitVec.ofNat 64 off) ≠
        x.kernel.space.translation (p + BitVec.ofNat 64 off) + getDmaAddress 0 ∧
      xhciFromDma (xhciToDma (p + BitVec.ofNat 64 off)) ≠ p + BitVec.ofNat 64 off := by
  obtain ⟨rest, hheld⟩ := h.inv.held
  obtain ⟨phys, -, -, hbelow, -, -, hlow, hhigh, htrans⟩ :=
    hheld.translation (List.mem_append_left _ hmem)
  have hptr : (p + BitVec.ofNat 64 off).toNat = p.toNat + off := by
    rw [BitVec.toNat_add, BitVec.toNat_ofNat]
    omega
  have hphys : (phys + BitVec.ofNat 64 off).toNat = phys.toNat + off := by
    rw [BitVec.toNat_add, BitVec.toNat_ofNat]
    omega
  constructor
  · -- the window is above the RAM behind it
    intro heq
    rw [xhciToDma_eq (by omega), htrans off hoff] at heq
    have hsame := congrArg BitVec.toNat ((BitVec.add_left_inj _).mp heq)
    omega
  · intro heq
    have hlt := toNat_xhciFromDma (xhciToDma (p + BitVec.ofNat 64 off))
    rw [heq] at hlt
    omega

theorem xhci_address_wrong_first : ∃ x : Xhci,
    xhciToDma (0x140000000#64 + BitVec.ofNat 64 0) ≠
        x.kernel.space.translation (0x140000000#64 + BitVec.ofNat 64 0) + getDmaAddress 0 ∧
      xhciFromDma (xhciToDma (0x140000000#64 + BitVec.ofNat 64 0)) ≠
        0x140000000#64 + BitVec.ofNat 64 0 := by
  obtain ⟨x, hx⟩ := xhciReach_first
  exact ⟨x, xhci_address_wrong hx List.mem_cons_self (by decide)⟩

/-- The first block after boot: the controller is given an address that is not that of its
frame. -/
theorem not_xhci_address : ¬ ∀ x live foreign, XhciReach x live foreign → ∀ p n, (p, n) ∈ live →
    ∀ off < n.toNat, xhciToDma (p + BitVec.ofNat 64 off) =
        x.kernel.space.translation (p + BitVec.ofNat 64 off) + getDmaAddress 0 ∧
      xhciFromDma (xhciToDma (p + BitVec.ofNat 64 off)) = p + BitVec.ofNat 64 off := by
  intro hall
  obtain ⟨x, hx⟩ := xhciReach_first
  obtain ⟨-, hback⟩ := hall x _ _ hx 0x140000000#64 64#64 List.mem_cons_self 0 (by decide)
  exact absurd hback (by decide)

end GamingConsole
