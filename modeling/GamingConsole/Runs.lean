/-
Runs from boot.

`Board.inv` is the invariant at boot and `Reach.inv` carries it to every
reachable state, by the rely-guarantee rule of `Interleaving` and the safety of
every call.  What the properties of the memory subsystem start from is read off
there: `Reach.wf` for the page tables, `Reach.holder` for the frames.
-/
import GamingConsole.Calls

namespace GamingConsole

open Space Prog Interleaving

/-! ### Boot -/

/-- Under an empty L1 table there is no other. -/
theorem Space.table_of_empty {s : Space} (hempty : ∀ i, s.mem s.l1Table i = 0) :
    ∀ {p : List (Fin 512)} {t : U64}, s.table p = some t → p = [] ∧ t = s.l1Table := by
  intro p
  induction p with
  | nil => exact fun ht => ⟨rfl, (Option.some.inj ht).symm⟩
  | cons i p ih =>
    intro t ht
    obtain ⟨n, hn, hnext⟩ := table_cons_eq_some ht
    rw [(ih hn).2, hempty, nextTable_zero] at hnext
    exact absurd hnext (by simp)

theorem Space.leaf_of_empty {s : Space} (hempty : ∀ i, s.mem s.l1Table i = 0) (pg : Page) :
    s.leaf pg = 0 := by
  refine leaf_of_no_table ?_
  rcases hp : s.table pg.l3Path with _ | t
  · rfl
  · exact absurd (table_of_empty hempty hp).1 (by simp [Page.l3Path])

/-- An empty L1 table on a used frame. -/
theorem Space.wf_of_empty {s : Space} (h : s.pmm.WF) (hroot : s.pmm.Used s.l1Table)
    (hempty : ∀ i, s.mem s.l1Table i = 0) : s.WF := by
  refine ⟨h, fun p q n _ _ hp hq =>
    (table_of_empty hempty hp).1.trans (table_of_empty hempty hq).1.symm, ?_, ?_, ?_⟩
  · rintro a ⟨p, -, hp⟩
    rw [(table_of_empty hempty hp).2]
    exact hroot
  · intro p t i _ hp
    rw [(table_of_empty hempty hp).2]
    exact Or.inl (hempty i)
  · exact fun pg => Or.inl (leaf_of_empty hempty pg)

namespace Board

variable (b : Board)

/-- The L1 table is a free frame of the fresh allocator. -/
theorem l1Alloc_eq : ∃ f < (Pmm.pmmInit b.image.kernelEnd).totalFrames.toNat,
    b.l1Alloc = ((Pmm.pmmInit b.image.kernelEnd).frame f,
    (Pmm.pmmInit b.image.kernelEnd).mark f) := by
  rcases Pmm.allocFrame_cases (Pmm.pmmInit_wf b.image) with ⟨hall, -⟩ | ⟨f, hf, -, -, heq⟩
  · have h0 := hall 0 b.frames
    rw [Pmm.bit_pmmInit] at h0
    have := b.frames
    simp at h0
    omega
  · exact ⟨f, hf, heq⟩

/-- At boot the L1 table's frame is the only used one. -/
theorem used_boot (a : U64) : b.l1Alloc.2.Used a ↔ a = b.l1Alloc.1 := by
  obtain ⟨f, hf, heq⟩ := b.l1Alloc_eq
  rw [heq, Pmm.used_mark_iff (Pmm.pmmInit_wf b.image) hf]
  constructor
  · rintro (⟨i, hi, -, hbit⟩ | h)
    · rw [Pmm.bit_pmmInit] at hbit
      simp at hbit
      omega
    · exact h
  · exact Or.inr

end Board

variable {r : U64 × Pmm} {ram : U64 → Fin 512 → U64}

theorem Space.boot_empty (i : Fin 512) :
    (Space.boot r ram).mem (Space.boot r ram).l1Table i = 0 := by
  change Function.update ram r.1 (fun _ => (0 : U64)) r.1 i = 0
  rw [Function.update_self]

theorem Space.wf_boot (h : r.2.WF) (hused : ∀ a, r.2.Used a ↔ a = r.1) : (Space.boot r ram).WF :=
  Space.wf_of_empty h ((hused _).mpr rfl) Space.boot_empty

/-- The invariant where only the L1 table is used and the heap is empty. -/
theorem inv_boot {s : Space} {daif : ℕ → U64} {errno : ℕ → ℕ} (m : Mode) (h : s.WF)
    (hused : ∀ a, s.pmm.Used a ↔ a = s.l1Table) :
    Inv m (World.boot (Kernel.boot s daif errno)) where
  wf := h
  active := rfl
  used := by
    intro a
    refine (hused a).trans ?_
    change _ ↔ Function.update (fun _ => none) s.l1Table (some Role.table) a ≠ none
    by_cases ha : a = s.l1Table
    · rw [ha, Function.update_self]
      exact iff_of_true rfl (by simp)
    · rw [Function.update_of_ne ha]
      exact iff_of_false ha (by simp)
  table := by
    intro a ha
    rw [(hused a).mp (h.used a ha)]
    change Function.update (fun _ => none) s.l1Table (some Role.table) s.l1Table = some .table
    rw [Function.update_self]
  flush := ⟨fun _ he => absurd he (by simp [World.boot]),
    fun _ hpg => absurd hpg (by simp [World.boot]), fun _ => Or.inl rfl⟩
  cached := fun _ he => absurd he (by simp [World.boot])
  swept := fun _ => ⟨fun _ he => absurd he (by simp [World.boot]),
    fun _ he => absurd he (by simp [World.boot]), rfl⟩
  heap := by
    intro _
    have hend : (World.boot (Kernel.boot s daif errno)).kernel.var .heapEnd = heapBase :=
      Kernel.withVar_self
    have hbump : (World.boot (Kernel.boot s daif errno)).kernel.var .bumpPtr = heapBase :=
      (Kernel.withVar_of_ne (by decide)).trans Kernel.withVar_self
    have hpages : (World.boot (Kernel.boot s daif errno)).heapPages = 0 := by
      rw [World.heapPages, hend, Nat.sub_self]
    refine ⟨by rw [hend, hpages]; rfl, by rw [hpages]; omega, ?_, ?_, ?_, by rw [hend, hbump]⟩ <;>
    · intro i hi
      rw [hpages] at hi
      omega

theorem inv_boot_of_alloc {daif : ℕ → U64} {errno : ℕ → ℕ} (m : Mode) (h : r.2.WF)
    (hused : ∀ a, r.2.Used a ↔ a = r.1) :
    Inv m (World.boot (Kernel.boot (Space.boot r ram) daif errno)) :=
  inv_boot m (Space.wf_boot h hused) hused

namespace Board

variable (b : Board)

theorem inv (m : Mode) : Inv m (World.boot b.kernel) :=
  inv_boot_of_alloc m (Pmm.pmmInit_wf b.image).allocFrame b.used_boot

theorem idle (m : Mode) (c : ℕ) : Idle m c (World.boot b.kernel) :=
  ⟨b.inv m, by simp [World.boot, kernel, Kernel.boot, kheapInit, Kernel.withLock, Kernel.withVar],
    by simp [World.boot, kernel, Kernel.boot, kheapInit, Kernel.withLock, Kernel.withVar]⟩

end Board

/-! ### Every reachable state -/

variable {b : Board} {m : Mode} {x : Cores}

/-- What the environment does keeps the invariant. -/
theorem Inv.env {w w' : World} (h : Inv m w) (he : World.Env m w w') : Inv m w' := by
  cases he with
  | fill e hc hok =>
    refine ⟨h.wf, h.active, h.used, h.table, ⟨fun e' he' hcl => ?_, h.flush.unmapped, h.flush.done⟩,
      fun e' he' hl => ?_, fun hm => (h.heap hm).of_same rfl (fun _ _ => rfl) fun _ ha => ha,
      fun hm => ⟨fun e' he' hl => ?_, fun e' he' => ?_, (h.swept hm).left⟩⟩
    · rcases List.mem_cons.mp he' with rfl | hmem
      · exact Or.inr hc
      · exact h.flush.fresh e' hmem hcl
    · rcases List.mem_cons.mp he' with rfl | hmem
      · exact Or.inl hc
      · exact h.cached e' hmem hl
    · rcases List.mem_cons.mp he' with rfl | hmem
      · exact h.table _ (hc.isTable hl)
      · exact (h.swept hm).named e' hmem hl
    · rcases List.mem_cons.mp he' with rfl | hmem
      · exact hok hm
      · exact (h.swept hm).pending e' hmem
  | data a words ha =>
    have hsame : SameTables w.space { w.space with mem := Function.update w.space.mem a words } :=
      ⟨rfl, fun t ht => Function.update_of_ne (fun (hta : t = a) => ha (hta ▸ h.table t ht)) _ _⟩
    exact ⟨h.wf.of_sameTables hsame h.wf.pmm h.wf.used, h.active, h.used,
      fun t ht => h.table t (hsame.isTable_iff.mp ht),
      h.flush.of_sameTables hsame rfl rfl rfl rfl Or.inl, h.cached.of_sameTables hsame rfl rfl,
      fun hm => (h.heap hm).of_same rfl (fun i _ => hsame.leaf _) fun _ hr => hr,
      fun hm => (h.swept hm).of_same rfl rfl (fun _ _ _ hr => hr) fun _ _ hf => hf⟩

/-- **The invariant holds in every reachable state**, and every core is idle or
safe to go on. -/
theorem Reach.safe (h : Reach m b.boot x) :
    Inv m x.shared ∧ ∀ c, ThreadSafe (system m) m.Ok (Inv m) (Foot m) (Idle m) x c :=
  Interleaving.Reach.safe (fun _ => Idle.stable) (fun _ _ hi he => Inv.env hi he)
    (fun _ _ _ _ hidle hallowed => Call.safe hidle hallowed) h (b.inv m) fun c => b.idle m c

theorem Reach.inv (h : Reach m b.boot x) : Inv m x.shared := (Reach.safe h).1

/-- The page tables are well formed. -/
theorem Reach.wf (h : Reach m b.boot x) : x.shared.space.WF := (Reach.inv h).wf

/-- A run that meets more conditions is a run that meets fewer. -/
theorem Reach.mono {m' : Mode} {y : Cores} (hapart : m'.apart → m.apart) (hfed : m'.fed → m.fed)
    (hswept : m'.swept → m.swept) (h : Reach m x y) : Reach m' x y := by
  refine Relation.ReflTransGen.mono (fun y z hstep => ?_) _ _ h
  cases hstep with
  | call c call hidle hop =>
    refine .call c call hidle ?_
    change call.Allowed m c y.shared at hop
    change call.Allowed m' c y.shared
    cases call with
    | map => exact fun hm => hop (hapart hm)
    | unmap => exact fun hm => hop (hapart hm)
    | _ => exact hop
  | act c e k r w hprog hok hact =>
    refine .act c e k r w hprog ?_ hact
    cases e with
    | pmmAlloc => exact fun hm => hok (hfed hm)
    | pmmFree => exact fun hm => hok (hswept hm)
    | load => exact fun hm => hok (hswept hm)
    | _ => trivial
  | done c hprog => exact .done c hprog
  | env w he =>
    refine .env w ?_
    change World.Env m _ _ at he
    change World.Env m' _ _
    cases he with
    | fill e hc hok => exact .fill e hc fun hm => hok (hswept hm)
    | data a words ha => exact .data a words ha

/-- The runs of any mode are runs. -/
theorem Reach.all {y : Cores} (h : Reach m x y) : Reach Mode.all x y :=
  h.mono False.elim False.elim False.elim

/-! ### Runs of whole calls

`play` runs calls and cache fills one after the other, so that a run can be
evaluated. -/

instance (s : Space) (e : TlbEntry) : Decidable (s.Cacheable e) :=
  inferInstanceAs (Decidable (_ ∧ _))

instance (pg : Page) : Decidable (InHeapWindow pg) :=
  inferInstanceAs (Decidable (∃ i < 256, pg = pageAt heapBase i))

/-- A call, or a fill of a cache. -/
inductive Move where
  | call (c : ℕ) (call : Call)
  | fill (e : TlbEntry)

/-- Whether the call keeps out of the kernel heap and frees what its core holds. -/
def Call.fits (c : ℕ) : Call → World → Bool
  | .freeFrame addr, w => w.role addr = some (.client c)
  | .map va _ size _, _ => ∀ i < numPages size, ¬ InHeapWindow (pageAt va i)
  | .unmap va size, _ => ∀ i < numPages size, ¬ InHeapWindow (pageAt va i)
  | _, _ => true

theorem Call.allowed_of_fits {c : ℕ} {call : Call} {w : World} (h : call.fits c w = true) :
    call.Allowed m c w := by
  cases call with
  | freeFrame addr => exact of_decide_eq_true (p := w.role addr = some (.client c)) h
  | map va phys size flags =>
    exact fun _ => of_decide_eq_true (p := ∀ i < numPages size, ¬ InHeapWindow (pageAt va i)) h
  | unmap va size =>
    exact fun _ => of_decide_eq_true (p := ∀ i < numPages size, ¬ InHeapWindow (pageAt va i)) h
  | _ => trivial

/-- The mode in which moves are played. -/
abbrev Mode.played (fed swept : Bool) : Mode := ⟨True, fed, swept⟩

instance (fed swept : Bool) (c : ℕ) (e : Action) (w : World) :
    Decidable ((Mode.played fed swept).Ok c e w) :=
  match e with
  | .pmmAlloc => inferInstanceAs (Decidable (_ → _ → _ → _ ≠ _))
  | .pmmFree _ => inferInstanceAs (Decidable (_ → _ → ∀ e ∈ w.tlb, _ → _ ≠ _))
  | .load _ _ => inferInstanceAs (Decidable (_ → _ → ∀ e ∈ w.tlb, e.page ∉ w.stale))
  | .spinLock _ | .spinUnlock _ _ | .pmmAllocRun _ | .pmmInRange _ | .l1Table | .tableIsEmpty _
  | .zeroTable _ | .linkTable _ _ _ | .unlinkTable _ _ | .setPage _ _ _ | .clearPage _ _
  | .tlbi _ | .get _ | .set _ _ | .setErrno _ | .panic _ | .stuck => .isTrue trivial

instance (w : World) (pg : Page) : Decidable (w.Flushes pg) :=
  inferInstanceAs (Decidable (_ → _ → _ ∧ _))

/-- `perform`, which refuses what the mode does not admit. -/
def World.performIn (fed swept : Bool) (c : ℕ) (e : Action) (w : World) :
    Option (e.Answer × World) :=
  if (Mode.played fed swept).Ok c e w then w.perform c e else none

/-- One move. -/
def World.move (fed swept : Bool) (w : World) : Move → Option World
  | .call c call =>
    if call.fits c w then (run (World.performIn fed swept c) call.prog w).map Prod.snd else none
  | .fill e =>
    if w.space.Cacheable e ∧ (swept → w.Flushes e.page) then some { w with tlb := e :: w.tlb }
    else none

/-- The moves one after the other. -/
def World.play (fed swept : Bool) (w : World) (moves : List Move) : Option World :=
  moves.foldlM (World.move fed swept) w

theorem Mode.admits (fed swept : Bool) (c : ℕ) :
    Admits (system (Mode.played fed swept)) (Mode.played fed swept).Ok c
      (World.performIn fed swept c) := by
  intro e w r w' h
  rw [World.performIn] at h
  split at h
  · exact ⟨‹_›, h⟩
  · exact absurd h (by simp)

/-- What `play` reaches is reachable. -/
theorem Reach.play {fed swept : Bool} : ∀ {moves : List Move} {x : Cores} {w : World},
    (∀ c, x.threads c = none) → x.shared.play fed swept moves = some w →
    Reach (Mode.played fed swept) x { x with shared := w } := by
  intro moves
  induction moves with
  | nil =>
    intro x w _ h
    rw [World.play, List.foldlM_nil] at h
    cases h
    exact Relation.ReflTransGen.refl
  | cons move moves ih =>
    intro x w hidle h
    rw [World.play, List.foldlM_cons] at h
    obtain ⟨w₁, hmove, hrest⟩ := Option.bind_eq_some_iff.mp h
    -- a call that is played runs without any other core in between
    have hstep : Reach (Mode.played fed swept) x { x with shared := w₁ } := by
      cases move with
      | call c call =>
        rw [World.move] at hmove
        split at hmove
        · rename_i hfits
          obtain ⟨⟨_, w₂⟩, hrun, rfl⟩ := Option.map_eq_some_iff.mp hmove
          exact Interleaving.Reach.call (Mode.admits fed swept c) (hidle c)
            (Call.allowed_of_fits hfits) hrun
        · exact absurd hmove (by simp)
      | fill e =>
        rw [World.move] at hmove
        split at hmove
        · rename_i hc
          rw [Option.some_inj] at hmove
          rw [← hmove]
          exact Relation.ReflTransGen.single (.env _ (.fill e hc.1 hc.2))
        · exact absurd hmove (by simp)
    exact hstep.trans (ih (x := { x with shared := w₁ }) hidle hrest)

/-- A board whose kernel image ends at `kernelEnd`, with zeros in its RAM. -/
def Board.ofKernelEnd (kernelEnd : U64)
    (fits : (roundUp kernelEnd pageSize).toNat ≤ physMemEnd.toNat)
    (frames : 0 < (Pmm.pmmInit kernelEnd).totalFrames.toNat) : Board where
  image := ⟨kernelEnd, fits⟩
  ram := fun _ _ => 0
  daif := fun _ => 0
  errno := fun _ => 0
  frames := frames

/-- A board with two frames, of which the L1 table takes one. -/
def twoFrames : Board := .ofKernelEnd 0x3F7FD000#64 (by decide) (by decide)

/-- A board with five frames. -/
def fiveFrames : Board := .ofKernelEnd 0x3F7FA000#64 (by decide) (by decide)

/-- A state that moves from boot lead to. -/
theorem exists_play {b : Board} (moves : List Move) (fed swept : Bool) (P : World → Bool)
    (h : ((World.boot b.kernel).play fed swept moves).any P = true) :
    ∃ x, Reach (Mode.played fed swept) b.boot x ∧ P x.shared = true := by
  obtain ⟨w, hw, hP⟩ := (Option.any_eq_true _ _).mp h
  exact ⟨{ b.boot with shared := w }, Reach.play (fun _ => rfl) hw, hP⟩

end GamingConsole
