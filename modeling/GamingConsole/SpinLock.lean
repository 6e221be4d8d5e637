/-
The spinlock, instruction by instruction (`spinlock.cpp`, `circle/spinlock.h`).

Every core runs `spin_lock` and `spin_unlock` in matched pairs on one lock, and
`SpinStep` interleaves their instructions.  The lock word comes with an exclusive
monitor for each core.  `slot` says which variable a core passes for `flags`: its
own, on the stack, or one that all cores share, as in `CSpinLock`.

* `excluding_reachable` — the invariant of the two nested loops, and with it
  **`mutual_exclusion`**;
* **`daif_restored`** — what `CSpinLock` gives back, if no core overwrites what
  another has saved; `not_daif_restored` is what happens otherwise.
-/
import GamingConsole.Sd
import Mathlib.Logic.Relation

namespace GamingConsole

open Relation

variable {ι κ : Type} [DecidableEq ι]

/-! ### The lock word -/

/-- A lock word, and for each core whether its exclusive monitor is set for it. -/
structure SpinWord (ι : Type) where
  word : U32
  monitor : ι → Bool

namespace SpinWord

/-- `LDAXR` by core `i`; the value loaded is `word`. -/
def ldaxr (w : SpinWord ι) (i : ι) : SpinWord ι :=
  { w with monitor := Function.update w.monitor i true }

/-- `STLXR` by core `i`, with its result: 0 for a store that was done. -/
def stlxr (w : SpinWord ι) (i : ι) (v : U32) : U32 × SpinWord ι :=
  if w.monitor i then (0#32, { word := v, monitor := fun _ => false }) else (1#32, w)

/-- `STLR` by core `i`. -/
def stlr (w : SpinWord ι) (i : ι) (v : U32) : SpinWord ι :=
  { word := v, monitor := fun j => decide (j = i) && w.monitor j }

/-- The monitor of core `i` is cleared for some other reason. -/
def clear (w : SpinWord ι) (i : ι) : SpinWord ι :=
  { w with monitor := Function.update w.monitor i false }

end SpinWord

/-! ### The cores -/

/-- Where a core is, by the instruction it comes to next: in `spin_lock` from `save`
to `store`, between the calls at `held`, in `spin_unlock` from `testRelease` to
`restore`, and at `returned` just after it. -/
inductive SpinPc where
  | outside
  | save
  | mask
  | test
  | load
  | wait
  | store
  | held
  | testRelease
  | release
  | wake
  | restore
  | returned
  deriving DecidableEq

/-- A core.  `arg` is the `flags` argument of its `spin_unlock`.  `entry` (its DAIF
when it called `spin_lock`) and `claimed` (its `STLXR` has succeeded, its `STLR` is
still to come) are kept for the properties only. -/
structure SpinCore where
  pc : SpinPc
  daif : U64
  arg : U64
  entry : U64
  claimed : Bool

/-- The cores with the lock, the variables for `flags` and `MMU_ACTIVE`. -/
structure Spin (ι κ : Type) where
  active : Bool
  lock : SpinWord ι
  flags : κ → U64
  core : ι → SpinCore

/-- Core `i` is now as `c` says. -/
def Spin.set (s : Spin ι κ) (i : ι) (c : SpinCore) : Spin ι κ :=
  { s with core := Function.update s.core i c }

/-- The bits that `DAIFSet #0xf` sets. -/
def daifMask : U64 := 0x3C0#64

/-- One instruction of one core.  Between the calls a core may set its DAIF itself,
and a monitor may be lost at any time. -/
inductive SpinStep [DecidableEq κ] (slot : ι → κ) : Spin ι κ → Spin ι κ → Prop where
  | call {s : Spin ι κ} (i : ι) (h : (s.core i).pc = .outside) : SpinStep slot s
      (s.set i { s.core i with pc := .save, entry := (s.core i).daif })
  | mrs {s : Spin ι κ} (i : ι) (h : (s.core i).pc = .save) : SpinStep slot s
      (Spin.set { s with flags := Function.update s.flags (slot i) (s.core i).daif } i
        { s.core i with pc := .mask })
  | daifSet {s : Spin ι κ} (i : ι) (h : (s.core i).pc = .mask) : SpinStep slot s
      (s.set i { s.core i with pc := .test, daif := (s.core i).daif ||| daifMask })
  | testActive {s : Spin ι κ} (i : ι) (h : (s.core i).pc = .test) : SpinStep slot s
      (s.set i { s.core i with pc := if s.active then .load else .held })
  | ldaxr {s : Spin ι κ} (i : ι) (h : (s.core i).pc = .load) : SpinStep slot s
      (Spin.set { s with lock := s.lock.ldaxr i } i
        { s.core i with pc := if s.lock.word ≠ 0 then .wait else .store })
  | wfe {s : Spin ι κ} (i : ι) (h : (s.core i).pc = .wait) : SpinStep slot s
      (s.set i { s.core i with pc := .load })
  | stlxr {s : Spin ι κ} (i : ι) (h : (s.core i).pc = .store) : SpinStep slot s
      (Spin.set { s with lock := (s.lock.stlxr i 1#32).2 } i
        { s.core i with
          pc := if (s.lock.stlxr i 1#32).1 ≠ 0 then .load else .held
          claimed := (s.lock.stlxr i 1#32).1 == 0 })
  | unlock {s : Spin ι κ} (i : ι) (h : (s.core i).pc = .held) : SpinStep slot s
      (s.set i { s.core i with pc := .testRelease, arg := s.flags (slot i) })
  | testRelease {s : Spin ι κ} (i : ι) (h : (s.core i).pc = .testRelease) : SpinStep slot s
      (s.set i { s.core i with pc := if s.active then .release else .restore })
  | stlr {s : Spin ι κ} (i : ι) (h : (s.core i).pc = .release) : SpinStep slot s
      (Spin.set { s with lock := s.lock.stlr i 0#32 } i
        { s.core i with pc := .wake, claimed := false })
  | sev {s : Spin ι κ} (i : ι) (h : (s.core i).pc = .wake) : SpinStep slot s
      (s.set i { s.core i with pc := .restore })
  | msr {s : Spin ι κ} (i : ι) (h : (s.core i).pc = .restore) : SpinStep slot s
      (s.set i { s.core i with pc := .returned, daif := (s.core i).arg })
  | leave {s : Spin ι κ} (i : ι) (h : (s.core i).pc = .returned) : SpinStep slot s
      (s.set i { s.core i with pc := .outside })
  | caller {s : Spin ι κ} (i : ι) (v : U64) (h : (s.core i).pc = .outside ∨ (s.core i).pc = .held) :
      SpinStep slot s (s.set i { s.core i with daif := v })
  | lose {s : Spin ι κ} (i : ι) : SpinStep slot s { s with lock := s.lock.clear i }

/-- No core is in a call, or between two. -/
def Spin.Outside (s : Spin ι κ) : Prop :=
  ∀ i, (s.core i).pc = .outside ∧ (s.core i).claimed = false

variable {s s' : Spin ι κ} {i j : ι} {c : SpinCore}

theorem Spin.set_core_self : (s.set i c).core i = c := by
  show Function.update s.core i c i = c
  rw [Function.update_self]

theorem Spin.set_core_ne (h : j ≠ i) : (s.set i c).core j = s.core j := by
  show Function.update s.core i c j = s.core j
  rw [Function.update_of_ne h]

/-- What holds of every core once core `i` has changed. -/
theorem Spin.forall_set {P : ι → SpinCore → Prop} (hi : P i c) (h : ∀ j, j ≠ i → P j (s.core j)) :
    ∀ j, P j ((s.set i c).core j) := by
  intro j
  by_cases hj : j = i
  · rw [hj, set_core_self]
    exact hi
  · rw [set_core_ne hj]
    exact h j hj

/-! ### Mutual exclusion -/

/-- The places from the return of `spin_lock` to the `STLR`. -/
def SpinPc.Owns (pc : SpinPc) : Prop := pc = .held ∨ pc = .testRelease ∨ pc = .release

instance : DecidablePred SpinPc.Owns := fun pc =>
  inferInstanceAs (Decidable (pc = .held ∨ pc = .testRelease ∨ pc = .release))

/-- The invariant: the word is 1 exactly while a core has claimed it, that core is
where it thinks it owns the lock, and a core with its monitor still set has loaded
what the word still is. -/
structure Excluding (s : Spin ι κ) : Prop where
  active : s.active = true
  owns : ∀ i, (s.core i).claimed = true ↔ (s.core i).pc.Owns
  one : ∀ i j, (s.core i).claimed = true → (s.core j).claimed = true → i = j
  held : ∀ i, (s.core i).claimed = true → s.lock.word = 1
  free : (∀ i, (s.core i).claimed = false) → s.lock.word = 0
  fresh : ∀ i, (s.core i).pc = .store → s.lock.monitor i = true → s.lock.word = 0

/-- A step of core `i` that neither claims nor releases. -/
theorem Excluding.move (h : Excluding s) (hclaimed : c.claimed = (s.core i).claimed)
    (howns : c.pc.Owns ↔ (s.core i).pc.Owns)
    (hfresh : c.pc = .store → s.lock.monitor i = true → s.lock.word = 0) :
    Excluding (s.set i c) := by
  have hsame : ∀ j, ((s.set i c).core j).claimed = (s.core j).claimed :=
    Spin.forall_set (P := fun j c => c.claimed = (s.core j).claimed) hclaimed fun _ _ => rfl
  refine ⟨h.active, ?_, ?_, ?_, ?_, ?_⟩
  · refine Spin.forall_set (P := fun _ c => c.claimed = true ↔ c.pc.Owns) ?_ fun j _ => h.owns j
    rw [hclaimed, howns]
    exact h.owns i
  · intro j k hj hk
    rw [hsame] at hj hk
    exact h.one j k hj hk
  · intro j hj
    rw [hsame] at hj
    exact h.held j hj
  · intro hnone
    exact h.free fun j => by rw [← hsame]; exact hnone j
  · exact Spin.forall_set (P := fun j c => c.pc = .store → s.lock.monitor j = true →
      s.lock.word = 0)
      hfresh fun j _ => h.fresh j

/-- Loading sets the monitor, and the core goes on only if the word was free. -/
theorem Excluding.ldaxr (h : Excluding s) (hpc : (s.core i).pc = .load) :
    Excluding (Spin.set { s with lock := s.lock.ldaxr i } i
      { s.core i with pc := if s.lock.word ≠ 0 then .wait else .store }) := by
  have hloaded : Excluding { s with lock := s.lock.ldaxr i } := by
    refine ⟨h.active, h.owns, h.one, h.held, h.free, fun j hj hmon => ?_⟩
    have hne : j ≠ i := by
      rintro rfl
      rw [hpc] at hj
      cases hj
    have hsame : (s.lock.ldaxr i).monitor j = s.lock.monitor j := Function.update_of_ne hne _ _
    exact h.fresh j hj (hsame ▸ hmon)
  refine hloaded.move rfl ?_ fun hstore _ => ?_
  · have hnot : ¬ (s.core i).pc.Owns := by
      rw [hpc]
      decide
    refine iff_of_false ?_ hnot
    dsimp only
    split_ifs <;> decide
  · show s.lock.word = 0
    by_contra hne
    have hwait : (if s.lock.word ≠ 0 then SpinPc.wait else .store) = .store := hstore
    rw [if_pos hne] at hwait
    cases hwait

/-- A store that is done finds the word still free. -/
theorem Excluding.claim (h : Excluding s) (hpc : (s.core i).pc = .store)
    (hmon : s.lock.monitor i = true) :
    Excluding (Spin.set { s with lock := { word := 1#32, monitor := fun _ => false } } i
      { s.core i with pc := .held, claimed := true }) := by
  have hfree := h.fresh i hpc hmon
  have hnone : ∀ j, (s.core j).claimed = false := by
    intro j
    by_contra hj
    have hheld := h.held j (Bool.not_eq_false _ ▸ hj)
    rw [hfree] at hheld
    exact absurd hheld (by decide)
  have honly : ∀ j, ((s.set i { s.core i with pc := .held, claimed := true }).core j).claimed =
      true → j = i :=
    Spin.forall_set (P := fun j c => c.claimed = true → j = i) (fun _ => rfl) fun j _ hj => by
      rw [hnone j] at hj
      cases hj
  refine ⟨h.active, ?_, fun j k hj hk => (honly j hj).trans (honly k hk).symm, fun _ _ => rfl,
    fun hno => ?_, fun _ _ => nofun⟩
  · exact Spin.forall_set (P := fun _ c => c.claimed = true ↔ c.pc.Owns)
      (iff_of_true rfl (Or.inl rfl)) fun j _ => h.owns j
  · have hi : ((s.set i { s.core i with pc := .held, claimed := true }).core i).claimed = false :=
      hno i
    rw [Spin.set_core_self] at hi
    cases hi

theorem Excluding.stlxr (h : Excluding s) (hpc : (s.core i).pc = .store) :
    Excluding (Spin.set { s with lock := (s.lock.stlxr i 1#32).2 } i
      { s.core i with
        pc := if (s.lock.stlxr i 1#32).1 ≠ 0 then .load else .held
        claimed := (s.lock.stlxr i 1#32).1 == 0 }) := by
  cases hmon : s.lock.monitor i with
  | false =>
    have hnot : ¬ (s.core i).pc.Owns := by
      rw [hpc]
      decide
    have hunclaimed : (s.core i).claimed = false := by
      rw [← Bool.not_eq_true, h.owns i]
      exact hnot
    have hfail : s.lock.stlxr i 1#32 = (1#32, s.lock) := by
      rw [SpinWord.stlxr, if_neg (by simp [hmon])]
    rw [hfail]
    exact h.move hunclaimed.symm (iff_of_false (by decide : ¬ SpinPc.load.Owns) hnot) nofun
  | true =>
    have hdone : s.lock.stlxr i 1#32 = (0#32, { word := 1#32, monitor := fun _ => false }) := by
      rw [SpinWord.stlxr, if_pos hmon]
    rw [hdone]
    exact h.claim hpc hmon

/-- The release is by the one core that has claimed the word. -/
theorem Excluding.stlr (h : Excluding s) (hpc : (s.core i).pc = .release) :
    Excluding (Spin.set { s with lock := s.lock.stlr i 0#32 } i
      { s.core i with pc := .wake, claimed := false }) := by
  have hclaimed : (s.core i).claimed = true := by
    rw [h.owns i, hpc]
    exact Or.inr (Or.inr rfl)
  have hnone : ∀ j, ((s.set i { s.core i with pc := .wake, claimed := false }).core j).claimed =
      false :=
    Spin.forall_set (P := fun _ c => c.claimed = false) rfl fun j hj => by
      by_contra hother
      exact hj (h.one j i (Bool.not_eq_false _ ▸ hother) hclaimed)
  have hcontra : ∀ {j} {P : Prop}, ((s.set i { s.core i with pc := .wake, claimed := false }).core
      j).claimed = true → P := fun {j} _ hj => by
    rw [hnone j] at hj
    cases hj
  refine ⟨h.active, ?_, fun j k hj _ => hcontra hj, fun j hj => hcontra hj, fun _ => rfl,
    fun _ _ _ => rfl⟩
  exact Spin.forall_set (P := fun _ c => c.claimed = true ↔ c.pc.Owns)
    (iff_of_false nofun (by decide : ¬ SpinPc.wake.Owns)) fun j _ => h.owns j

variable {slot : ι → κ}

/-- **Every instruction keeps the invariant.** -/
theorem Excluding.step [DecidableEq κ] (h : Excluding s) (hstep : SpinStep slot s s') :
    Excluding s' := by
  cases hstep with
  | ldaxr i hpc => exact h.ldaxr hpc
  | stlxr i hpc => exact h.stlxr hpc
  | stlr i hpc => exact h.stlr hpc
  | lose i =>
    refine ⟨h.active, h.owns, h.one, h.held, h.free, fun j hj hmon => h.fresh j hj ?_⟩
    by_cases hji : j = i
    · have hcleared : (s.lock.clear i).monitor j = false := by
        rw [hji]
        exact Function.update_self _ _ _
      exact absurd (hcleared.symm.trans hmon) (by decide)
    · have hsame : (s.lock.clear i).monitor j = s.lock.monitor j := Function.update_of_ne hji _ _
      exact hsame ▸ hmon
  | mrs i hpc =>
    have hflags : Excluding { s with flags := Function.update s.flags (slot i) (s.core i).daif } :=
      ⟨h.active, h.owns, h.one, h.held, h.free, h.fresh⟩
    exact hflags.move rfl (by simp [SpinPc.Owns, hpc]) nofun
  | testActive i hpc =>
    exact h.move rfl (by simp [SpinPc.Owns, hpc, h.active]) (by simp [h.active])
  | testRelease i hpc =>
    exact h.move rfl (by simp [SpinPc.Owns, hpc, h.active]) (by simp [h.active])
  | caller i v hpc =>
    refine h.move rfl Iff.rfl fun hstore => ?_
    rcases hpc with hpc | hpc <;>
    · rw [hpc] at hstore
      cases hstore
  | call i hpc | daifSet i hpc | wfe i hpc | unlock i hpc | sev i hpc | msr i hpc | leave i hpc =>
    exact h.move rfl (by simp [SpinPc.Owns, hpc]) nofun

theorem excluding_reachable [DecidableEq κ] {s₀ : Spin ι κ} (hactive : s₀.active = true)
    (hfree : s₀.lock.word = 0) (hout : s₀.Outside)
    (h : ReflTransGen (SpinStep slot) s₀ s) : Excluding s := by
  induction h with
  | refl =>
    refine ⟨hactive, fun i => ?_, fun i j hi => ?_, fun i hi => ?_, fun _ => hfree,
      fun _ _ _ => hfree⟩
    · rw [(hout i).1, (hout i).2]
      exact iff_of_false nofun (by decide)
    · rw [(hout i).2] at hi
      cases hi
    · rw [(hout i).2] at hi
      cases hi
  | tail _ hstep ih => exact ih.step hstep

/-- **Mutual exclusion.**  At most one core has claimed the word and not released it,
the word is 1 exactly while one has and 0 otherwise, and `spin_lock` has returned
only to a core that has. -/
theorem mutual_exclusion [DecidableEq κ] {s₀ : Spin ι κ} (hactive : s₀.active = true)
    (hfree : s₀.lock.word = 0) (hout : s₀.Outside) (h : ReflTransGen (SpinStep slot) s₀ s) :
    (∀ i j, (s.core i).claimed = true → (s.core j).claimed = true → i = j) ∧
      (s.lock.word = 1 ↔ ∃ i, (s.core i).claimed = true) ∧
      (s.lock.word = 0 ↔ ∀ i, (s.core i).claimed = false) ∧
      ∀ i, (s.core i).pc = .held → (s.core i).claimed = true := by
  have hinv := excluding_reachable hactive hfree hout h
  have hword : s.lock.word = 1 → ∃ i, (s.core i).claimed = true := by
    intro hone
    by_contra hnone
    rw [hinv.free fun i => Bool.eq_false_iff.mpr fun hi => hnone ⟨i, hi⟩] at hone
    exact absurd hone (by decide)
  refine ⟨hinv.one, ⟨hword, fun ⟨i, hi⟩ => hinv.held i hi⟩, ⟨fun hzero i => ?_, hinv.free⟩,
    fun i hi => (hinv.owns i).mpr (Or.inl hi)⟩
  by_contra hi
  have hone := hinv.held i (Bool.not_eq_false _ ▸ hi)
  rw [hzero] at hone
  exact absurd hone (by decide)

/-! ### Two cores at one lock -/

/-- The cores are outside, with these DAIFs, and the lock is free. -/
def freeSpin (daif : Bool → U64) : Spin Bool Unit :=
  { active := true
    lock := { word := 0, monitor := fun _ => false }
    flags := fun _ => 0
    core := fun i => { pc := .outside, daif := daif i, arg := 0, entry := 0, claimed := false } }

/-- The first core has the lock; the second has only saved its DAIF. -/
def contended (daif : Bool → U64) : Spin Bool Unit :=
  { active := true
    lock := { word := 1, monitor := fun _ => false }
    flags := fun _ => daif true
    core := fun i =>
      if i then { pc := .mask, daif := daif i, arg := 0, entry := daif i, claimed := false }
      else
        { pc := .held, daif := daif i ||| daifMask, arg := 0, entry := daif i, claimed := true } }

/-- The two cores are where the two records say. -/
theorem Spin.ext_cores {s s' : Spin Bool Unit} (hactive : s.active = s'.active)
    (hlock : s.lock = s'.lock) (hflags : s.flags () = s'.flags ())
    (hfirst : s.core false = s'.core false) (hsecond : s.core true = s'.core true) : s = s' := by
  cases s
  cases s'
  simp only [Spin.mk.injEq]
  refine ⟨hactive, hlock, funext fun _ => hflags, funext fun i => ?_⟩
  cases i
  · exact hfirst
  · exact hsecond

theorem contended_reachable (daif : Bool → U64) :
    ReflTransGen (SpinStep fun _ : Bool => ()) (freeSpin daif) (contended daif) := by
  have hrun := (((((((ReflTransGen.refl (a := freeSpin daif)
    (r := SpinStep fun _ : Bool => ())).tail (.call false rfl)).tail
    (.mrs false rfl)).tail (.daifSet false rfl)).tail (.testActive false rfl)).tail
    (.ldaxr false rfl)).tail (.stlxr false rfl)).tail (.call true rfl) |>.tail (.mrs true rfl)
  refine cast (congrArg _ (Spin.ext_cores ?_ ?_ ?_ ?_ ?_)) hrun
  all_goals rfl

/-- One core owns the lock, the other waits for it. -/
theorem mutual_exclusion_contended :
    ((contended fun _ => 0).lock.word = 1 ↔
      ∃ i, ((contended fun _ => 0).core i).claimed = true) ∧
      ((contended fun _ => 0).core false).claimed = true := by
  have h := mutual_exclusion rfl rfl (fun _ => ⟨rfl, rfl⟩) (contended_reachable fun _ => 0)
  exact ⟨h.2.1, h.2.2.2 false rfl⟩

/-! ### What `spin_unlock` restores -/

/-- What keeps a core's DAIF safe, at each place: the register itself, the variable
for `flags`, or the argument of `spin_unlock`. -/
def SpinCore.Keeps (flags : U64) (c : SpinCore) : Prop :=
  match c.pc with
  | .outside => True
  | .save | .returned => c.daif = c.entry
  | .mask | .test | .load | .wait | .store | .held => flags = c.entry
  | .testRelease | .release | .wake | .restore => c.arg = c.entry

/-- The places at which the variable for `flags` is what counts. -/
def SpinPc.Saved (pc : SpinPc) : Prop :=
  pc = .mask ∨ pc = .test ∨ pc = .load ∨ pc = .wait ∨ pc = .store ∨ pc = .held

instance : DecidablePred SpinPc.Saved := fun pc => inferInstanceAs (Decidable (pc = .mask ∨
  pc = .test ∨ pc = .load ∨ pc = .wait ∨ pc = .store ∨ pc = .held))

/-- A core that saves its DAIF saves the same as every core whose saved DAIF it
overwrites. -/
def SaveFits (slot : ι → κ) (s s' : Spin ι κ) : Prop :=
  ∀ i, (s.core i).pc = .save → (s'.core i).pc = .mask → ∀ j, j ≠ i → slot j = slot i →
    (s.core j).pc.Saved → (s.core j).entry = (s.core i).daif

/-- Where the variable does not count, it may hold anything. -/
theorem SpinCore.Keeps.of_not_saved {f f' : U64} (h : c.Keeps f) (hnot : ¬ c.pc.Saved) :
    c.Keeps f' := by
  revert h hnot
  rw [Keeps, Keeps]
  cases c.pc <;> simp [SpinPc.Saved]

theorem SpinCore.Keeps.of_saved {f : U64} (h : c.pc.Saved) (hf : f = c.entry) : c.Keeps f := by
  rw [Keeps]
  rcases h with h | h | h | h | h | h <;> rw [h] <;> exact hf

/-- A step of core `i` that leaves the variables alone. -/
theorem keeps_set (h : ∀ j, (s.core j).Keeps (s.flags (slot j))) (hc : c.Keeps (s.flags (slot i))) :
    ∀ j, ((s.set i c).core j).Keeps ((s.set i c).flags (slot j)) :=
  Spin.forall_set (P := fun j c => c.Keeps (s.flags (slot j))) hc fun j _ => h j

variable [DecidableEq κ]

/-- Saving over what other cores have saved. -/
theorem keeps_mrs (h : ∀ j, (s.core j).Keeps (s.flags (slot j))) (hpc : (s.core i).pc = .save)
    (hfits : ∀ j, j ≠ i → slot j = slot i → (s.core j).pc.Saved →
      (s.core j).entry = (s.core i).daif) :
    ∀ j, ((s.set i { s.core i with pc := .mask }).core j).Keeps
      (Function.update s.flags (slot i) (s.core i).daif (slot j)) := by
  refine Spin.forall_set (P := fun j c => c.Keeps (Function.update s.flags (slot i)
    (s.core i).daif (slot j))) ?_ fun j hj => ?_
  · have hi := h i
    rw [SpinCore.Keeps, hpc] at hi
    rw [Function.update_self]
    exact hi
  · by_cases hslot : slot j = slot i
    · rw [hslot, Function.update_self]
      by_cases hsaved : (s.core j).pc.Saved
      · exact .of_saved hsaved (hfits j hj hslot hsaved).symm
      · exact (h j).of_not_saved hsaved
    · rw [Function.update_of_ne hslot]
      exact h j

theorem keeps_step (h : ∀ j, (s.core j).Keeps (s.flags (slot j))) (hstep : SpinStep slot s s')
    (hfits : SaveFits slot s s') : ∀ j, (s'.core j).Keeps (s'.flags (slot j)) := by
  cases hstep with
  | mrs i hpc =>
    refine keeps_mrs h hpc (hfits i hpc ?_)
    rw [Spin.set_core_self]
  | caller i v hpc =>
    have hi := h i
    refine keeps_set h ?_
    rw [SpinCore.Keeps] at hi ⊢
    rcases hpc with hpc | hpc <;>
    · rw [hpc] at hi ⊢
      exact hi
  | lose i => exact h
  | call i hpc => exact keeps_set h rfl
  | leave i hpc => exact keeps_set h trivial
  | unlock i hpc | msr i hpc =>
    have hi := h i
    rw [SpinCore.Keeps, hpc] at hi
    exact keeps_set h hi
  | testActive i hpc | ldaxr i hpc | stlxr i hpc | testRelease i hpc =>
    have hi := h i
    rw [SpinCore.Keeps, hpc] at hi
    refine keeps_set (s := { s with lock := _ }) h ?_
    rw [SpinCore.Keeps]
    dsimp only
    split_ifs <;> exact hi
  | daifSet i hpc | wfe i hpc | sev i hpc | stlr i hpc =>
    have hi := h i
    rw [SpinCore.Keeps, hpc] at hi
    exact keeps_set (s := { s with lock := _ }) h hi

/-- Every run keeps what it has saved, as long as nothing else is saved over it. -/
theorem keeps_reachable {s₀ : Spin ι κ} (hout : s₀.Outside)
    (h : ReflTransGen (fun s s' => SpinStep slot s s' ∧ SaveFits slot s s') s₀ s) :
    ∀ i, (s.core i).Keeps (s.flags (slot i)) := by
  induction h with
  | refl =>
    intro i
    rw [SpinCore.Keeps, (hout i).1]
    trivial
  | tail _ hstep ih => exact keeps_step ih hstep.1 hstep.2

theorem daif_of_keeps {f : U64} (h : c.Keeps f) (hpc : c.pc = .returned) : c.daif = c.entry := by
  rwa [SpinCore.Keeps, hpc] at h

/-- With a variable of its own, as in `SpinLockGuard`, every core gets its DAIF back. -/
theorem daif_restored_own {s₀ : Spin ι κ} (hslot : Function.Injective slot) (hout : s₀.Outside)
    (h : ReflTransGen (SpinStep slot) s₀ s) (i : ι) (hpc : (s.core i).pc = .returned) :
    (s.core i).daif = (s.core i).entry := by
  have hrun : ReflTransGen (fun s s' => SpinStep slot s s' ∧ SaveFits slot s s') s₀ s :=
    h.lift id fun s s' hstep => ⟨hstep, fun i _ _ j hj hsame => absurd (hslot hsame) hj⟩
  exact daif_of_keeps (keeps_reachable hout hrun i) hpc

/-- **After every `Release` the core has the DAIF it had before its `Acquire`**, if no
core saves another DAIF over one that is still to be restored. -/
theorem daif_restored {s₀ s : Spin ι Unit} (hout : s₀.Outside)
    (h : ReflTransGen (fun s s' => SpinStep (fun _ => ()) s s' ∧ SaveFits (fun _ => ()) s s') s₀ s)
    (i : ι) (hpc : (s.core i).pc = .returned) : (s.core i).daif = (s.core i).entry :=
  daif_of_keeps (keeps_reachable hout h i) hpc

/-- A core that waits leaves its DAIF to the core it waits for. -/
theorem not_daif_restored : ¬ ∀ (s₀ s : Spin Bool Unit), s₀.Outside →
    ReflTransGen (SpinStep fun _ => ()) s₀ s → ∀ i, (s.core i).pc = .returned →
      (s.core i).daif = (s.core i).entry := by
  intro hall
  have hrun := ((((contended_reachable fun i => if i then 0x80#64 else 0#64).tail
    (.unlock false rfl)).tail (.testRelease false rfl)).tail (.stlr false rfl)).tail
    (.sev false rfl) |>.tail (.msr false rfl)
  have hsame := hall _ _ (fun _ => ⟨rfl, rfl⟩) hrun false rfl
  exact absurd hsame (by decide)

/-- Two cores with the same DAIF, of which one waits while the other returns. -/
theorem daif_restored_same : ∃ s : Spin Bool Unit, (s.core false).pc = .returned ∧
    (s.core true).pc = .mask ∧ (s.core false).daif = (s.core false).entry := by
  have hrun := (((((((((((((ReflTransGen.refl (a := freeSpin fun _ => 0x80#64)
    (r := fun s s' => SpinStep (fun _ => ()) s s' ∧ SaveFits (fun _ => ()) s s')).tail
    ⟨.call false rfl, by unfold SaveFits; decide⟩).tail
    ⟨.mrs false rfl, by unfold SaveFits; decide⟩).tail
    ⟨.daifSet false rfl, by unfold SaveFits; decide⟩).tail
    ⟨.testActive false rfl, by unfold SaveFits; decide⟩).tail
    ⟨.ldaxr false rfl, by unfold SaveFits; decide⟩).tail
    ⟨.stlxr false rfl, by unfold SaveFits; decide⟩).tail
    ⟨.call true rfl, by unfold SaveFits; decide⟩).tail
    ⟨.mrs true rfl, by unfold SaveFits; decide⟩).tail
    ⟨.unlock false rfl, by unfold SaveFits; decide⟩).tail
    ⟨.testRelease false rfl, by unfold SaveFits; decide⟩).tail
    ⟨.stlr false rfl, by unfold SaveFits; decide⟩).tail
    ⟨.sev false rfl, by unfold SaveFits; decide⟩) |>.tail
    ⟨.msr false rfl, by unfold SaveFits; decide⟩
  exact ⟨_, rfl, rfl, daif_restored (fun _ => ⟨rfl, rfl⟩) hrun false rfl⟩

end GamingConsole
