/-
Which cores execute exclusive accesses with translation on.

`MMU_ACTIVE` is one flag for all cores, `SCTLR_EL1.M` a bit of each: `mmu_init` sets
both on core 0, and `secondary_entry` (`boot.S`) leads straight to `uart_puts`
without setting the second on its own core.  A core runs a list of `BootOp`s; inside
`spin_lock` it goes through the same instructions as in `SpinLock`
(`spinStep_of_spinNext`).  `boot_translated_iff` answers for every behaviour of the
firmware.
-/
import GamingConsole.SpinLock

namespace GamingConsole

open Relation

variable {ι κ : Type} [DecidableEq ι]

/-! ### `spin_lock`, one instruction at a time -/

/-- The next instruction of `spin_lock`; DAIF and the variable for it are left out. -/
def spinNext (active : Bool) (i : ι) (pc : SpinPc) (w : SpinWord ι) : SpinPc × SpinWord ι :=
  match pc with
  | .save => (.mask, w)
  | .mask => (.test, w)
  | .test => (if active then .load else .held, w)
  | .load => (if w.word ≠ 0 then .wait else .store, w.ldaxr i)
  | .wait => (.load, w)
  | .store => (if (w.stlxr i 1#32).1 ≠ 0 then .load else .held, (w.stlxr i 1#32).2)
  | pc => (pc, w)

/-- The places inside `spin_lock`. -/
def SpinPc.Locking (pc : SpinPc) : Prop :=
  pc = .save ∨ pc = .mask ∨ pc = .test ∨ pc = .load ∨ pc = .wait ∨ pc = .store

theorem spinStep_of_spinNext [DecidableEq κ] (slot : ι → κ) (s : Spin ι κ) (i : ι)
    (h : (s.core i).pc.Locking) : ∃ s', SpinStep slot s s' ∧
      ((s'.core i).pc, s'.lock) = spinNext s.active i (s.core i).pc s.lock := by
  rcases h with h | h | h | h | h | h <;> rw [h]
  · exact ⟨_, .mrs i h, by rw [Spin.set_core_self]; rfl⟩
  · exact ⟨_, .daifSet i h, by rw [Spin.set_core_self]; rfl⟩
  · exact ⟨_, .testActive i h, by rw [Spin.set_core_self]; rfl⟩
  · exact ⟨_, .ldaxr i h, by rw [Spin.set_core_self]; rfl⟩
  · exact ⟨_, .wfe i h, by rw [Spin.set_core_self]; rfl⟩
  · exact ⟨_, .stlxr i h, by rw [Spin.set_core_self]; rfl⟩

/-! ### The boot -/

/-- The locks of the kernel. -/
inductive BootLock where
  | uart
  | timer
  | pmm
  | mmu
  | heap
  | newlib
  | dma
  deriving DecidableEq

/-- What a core does on the way.  `code` is any code of the kernel: it takes and
releases whatever locks it likes, as often as it likes. -/
inductive BootOp where
  | clearM
  | clearActive
  | setM
  | setActive
  | cpuOn (target : Fin 4)
  | code
  | lock (lk : BootLock)
  | unlock (lk : BootLock)
  deriving DecidableEq

/-- `uart_putc`. -/
def uartPutc : List BootOp := [.lock .uart, .unlock .uart]

/-- `uart_puts`. -/
def uartPuts (str : String) : List BootOp := str.toList.flatMap fun _ => uartPutc

/-- `secondary_entry` and `secondary_main`; the core's number has one digit. -/
def secondaryMain : List BootOp :=
  uartPuts "Core " ++ uartPutc ++ uartPuts " has been turned on.\r\n"

/-- `el1_entry` and `kernel_main`: the code up to the end of `mmu_init`, and the code
around the loop that starts the other cores. -/
def kernelMain : List BootOp :=
  -- The MMU is turned off, and .bss, where MMU_ACTIVE is, is zeroed.
  [.clearM, .clearActive, .code, .setM, .setActive, .code, .cpuOn 1, .code, .cpuOn 2, .code,
    .cpuOn 3, .code]

/-- A core: what it has still to do, and the `spin_lock` it is in. -/
structure BootCore where
  ops : List BootOp
  call : Option (BootLock × SpinPc)

/-- The cores, of which some are off, with the bit M of each, the lock words and
`MMU_ACTIVE`. -/
structure Boot where
  active : Bool
  enabled : Fin 4 → Bool
  word : BootLock → SpinWord (Fin 4)
  core : Fin 4 → Option BootCore

namespace Boot

/-- Core `i` is now as `c` says. -/
def set (s : Boot) (i : Fin 4) (c : BootCore) : Boot :=
  { s with core := fun j => if j = i then some c else s.core j }

/-- The bit M of core `i` is now `m`. -/
def setEnabled (s : Boot) (i : Fin 4) (m : Bool) : Boot :=
  { s with enabled := fun j => if j = i then m else s.enabled j }

/-- The word of `lk` is now `w`. -/
def setWord (s : Boot) (lk : BootLock) (w : SpinWord (Fin 4)) : Boot :=
  { s with word := Function.update s.word lk w }

/-- `spin_unlock` by core `i`. -/
def stlr (s : Boot) (i : Fin 4) (lk : BootLock) : Boot :=
  if s.active then s.setWord lk ((s.word lk).stlr i 0#32) else s

/-- The firmware turns a core on, if it does, with its MMU off. -/
def cpuOn (starts : Fin 4 → Bool) (s : Boot) (target : Fin 4) : Boot :=
  { s with
    enabled := fun j => if j = target ∧ starts j ∧ (s.core j).isNone then false else s.enabled j
    core := fun j => if j = target ∧ starts j ∧ (s.core j).isNone then
      some { ops := secondaryMain, call := none } else s.core j }

end Boot

/-- One step of one core.  `starts` says which cores the firmware turns on when
`psci_cpu_on` asks for them. -/
inductive BootStep (starts : Fin 4 → Bool) : Boot → Boot → Prop where
  | clearM {s : Boot} (i : Fin 4) {ops : List BootOp} (h : s.core i = some ⟨.clearM :: ops, none⟩) :
      BootStep starts s ((s.setEnabled i false).set i ⟨ops, none⟩)
  | clearActive {s : Boot} (i : Fin 4) {ops : List BootOp}
      (h : s.core i = some ⟨.clearActive :: ops, none⟩) :
      BootStep starts s (Boot.set { s with active := false } i ⟨ops, none⟩)
  | setM {s : Boot} (i : Fin 4) {ops : List BootOp} (h : s.core i = some ⟨.setM :: ops, none⟩) :
      BootStep starts s ((s.setEnabled i true).set i ⟨ops, none⟩)
  | setActive {s : Boot} (i : Fin 4) {ops : List BootOp}
      (h : s.core i = some ⟨.setActive :: ops, none⟩) :
      BootStep starts s (Boot.set { s with active := true } i ⟨ops, none⟩)
  | cpuOn {s : Boot} (i target : Fin 4) {ops : List BootOp}
      (h : s.core i = some ⟨.cpuOn target :: ops, none⟩) :
      BootStep starts s ((s.cpuOn starts target).set i ⟨ops, none⟩)
  | leave {s : Boot} (i : Fin 4) {ops : List BootOp} (h : s.core i = some ⟨.code :: ops, none⟩) :
      BootStep starts s (s.set i ⟨ops, none⟩)
  | codeLock {s : Boot} (i : Fin 4) (lk : BootLock) {ops : List BootOp}
      (h : s.core i = some ⟨.code :: ops, none⟩) :
      BootStep starts s (s.set i ⟨.code :: ops, some (lk, .save)⟩)
  | codeUnlock {s : Boot} (i : Fin 4) (lk : BootLock) {ops : List BootOp}
      (h : s.core i = some ⟨.code :: ops, none⟩) : BootStep starts s (s.stlr i lk)
  | lock {s : Boot} (i : Fin 4) {lk : BootLock} {ops : List BootOp}
      (h : s.core i = some ⟨.lock lk :: ops, none⟩) :
      BootStep starts s (s.set i ⟨ops, some (lk, .save)⟩)
  | unlock {s : Boot} (i : Fin 4) {lk : BootLock} {ops : List BootOp}
      (h : s.core i = some ⟨.unlock lk :: ops, none⟩) :
      BootStep starts s ((s.stlr i lk).set i ⟨ops, none⟩)
  | spin {s : Boot} (i : Fin 4) {lk : BootLock} {pc : SpinPc} {ops : List BootOp}
      (h : s.core i = some ⟨ops, some (lk, pc)⟩) : BootStep starts s
      ((s.setWord lk (spinNext s.active i pc (s.word lk)).2).set i
        ⟨ops, if (spinNext s.active i pc (s.word lk)).1 = .held then none
          else some (lk, (spinNext s.active i pc (s.word lk)).1)⟩)

/-- Power-on: core 0 is at `el1_entry`, the others are off. -/
def bootStart (active : Bool) (enabled : Fin 4 → Bool) (word : BootLock → SpinWord (Fin 4)) :
    Boot :=
  { active := active
    enabled := enabled
    word := word
    core := fun i => if i = 0 then some ⟨kernelMain, none⟩ else none }

/-- The core comes next to `LDAXR` or `STLXR`. -/
def BootCore.AtExclusive (c : BootCore) : Prop :=
  ∃ lk pc, c.call = some (lk, pc) ∧ (pc = .load ∨ pc = .store)

/-- Every core that comes next to an exclusive access has its MMU on. -/
def Boot.Translated (s : Boot) : Prop :=
  ∀ i c, s.core i = some c → c.AtExclusive → s.enabled i = true

variable {starts : Fin 4 → Bool} {s s' : Boot} {i j : Fin 4} {c d : BootCore}

theorem Boot.set_core_self : (s.set i c).core i = some c := by
  show (if i = i then some c else s.core i) = some c
  rw [if_pos rfl]

theorem Boot.set_core_ne (h : j ≠ i) : (s.set i c).core j = s.core j := by
  show (if j = i then some c else s.core j) = s.core j
  rw [if_neg h]

theorem Boot.setEnabled_self (m : Bool) : (s.setEnabled i m).enabled i = m := by
  show (if i = i then m else s.enabled i) = m
  rw [if_pos rfl]

/-! ### Core 0 alone -/

/-- The places of `spin_lock` behind the test of `MMU_ACTIVE`. -/
def SpinPc.Exclusive (pc : SpinPc) : Prop := pc = .load ∨ pc = .wait ∨ pc = .store

/-- Core 0 is alone.  Up to the zeroing of .bss it takes no lock; up to the `MSR` of
`mmu_init` no lock uses exclusive accesses; from there on its MMU is on. -/
structure Lone (s : Boot) (c : BootCore) : Prop where
  core : s.core 0 = some c
  others : ∀ j, j ≠ 0 → s.core j = none
  suffix : c.ops <:+ kernelMain
  early : .clearActive ∈ c.ops → c.call = none
  before : .clearActive ∉ c.ops → .setM ∈ c.ops → s.active = false ∧
    ∀ lk pc, c.call = some (lk, pc) → ¬ pc.Exclusive
  after : .setM ∉ c.ops → s.enabled 0 = true

theorem Lone.translated {c : BootCore} (h : Lone s c) : s.Translated := by
  intro i d hcore ⟨lk, pc, hcall, hpc⟩
  by_cases hi : i = 0
  · subst hi
    obtain rfl : d = c := Option.some_inj.mp (hcore.symm.trans h.core)
    by_cases hactive : .clearActive ∈ d.ops
    · rw [h.early hactive] at hcall
      cases hcall
    · by_cases hM : .setM ∈ d.ops
      · exact absurd (hpc.imp_right Or.inr) ((h.before hactive hM).2 lk pc hcall)
      · exact h.after hM
  · rw [h.others i hi] at hcore
    cases hcore

/-- Where in `kernel_main` an operation stands. -/
theorem suffix_kernelMain {op : BootOp} {ops : List BootOp} (h : op :: ops <:+ kernelMain) :
    (op = .clearM ∧ .clearActive ∈ ops ∧ .setM ∈ ops) ∨
      (op = .clearActive ∧ .clearActive ∉ ops ∧ .setM ∈ ops) ∨
      (op = .setM ∧ .clearActive ∉ ops ∧ .setM ∉ ops) ∨
      (op = .code ∧ .clearActive ∉ ops) ∨
      ((op = .setActive ∨ ∃ j, j ≠ 0 ∧ op = .cpuOn j) ∧ .clearActive ∉ ops ∧ .setM ∉ ops) := by
  simp only [kernelMain, List.suffix_cons_iff, List.cons.injEq, List.suffix_nil, reduceCtorEq,
    or_false] at h
  rcases h with ⟨rfl, rfl⟩ | ⟨rfl, rfl⟩ | ⟨rfl, rfl⟩ | ⟨rfl, rfl⟩ | ⟨rfl, rfl⟩ | ⟨rfl, rfl⟩ |
    ⟨rfl, rfl⟩ | ⟨rfl, rfl⟩ | ⟨rfl, rfl⟩ | ⟨rfl, rfl⟩ | ⟨rfl, rfl⟩ | ⟨rfl, rfl⟩ <;> simp

/-- Only core 0 takes steps. -/
theorem Lone.eq_of_core (h : Lone s c) (hcore : s.core i = some d) : i = 0 ∧ d = c := by
  by_cases hi : i = 0
  · subst hi
    exact ⟨rfl, Option.some_inj.mp (hcore.symm.trans h.core)⟩
  · rw [h.others i hi] at hcore
    cases hcore

/-- The state after core 0 has come to `d`. -/
theorem Lone.set (hothers : ∀ j, j ≠ 0 → s.core j = none) (hsuffix : d.ops <:+ kernelMain)
    (hearly : .clearActive ∈ d.ops → d.call = none)
    (hbefore : .clearActive ∉ d.ops → .setM ∈ d.ops → s.active = false ∧
      ∀ lk pc, d.call = some (lk, pc) → ¬ pc.Exclusive)
    (hafter : .setM ∉ d.ops → s.enabled 0 = true) : Lone (s.set 0 d) d where
  core := Boot.set_core_self
  others j hj := (Boot.set_core_ne hj).trans (hothers j hj)
  suffix := hsuffix
  early := hearly
  before := hbefore
  after := hafter

/-- Only the lock words have changed. -/
theorem Lone.of_same (h : Lone s c) (hcore : s'.core = s.core) (hactive : s'.active = s.active)
    (henabled : s'.enabled = s.enabled) : Lone s' c where
  core := (congrFun hcore 0).trans h.core
  others j hj := (congrFun hcore j).trans (h.others j hj)
  suffix := h.suffix
  early := h.early
  before h1 h2 := hactive ▸ h.before h1 h2
  after h1 := (congrFun henabled 0).trans (h.after h1)

theorem Boot.stlr_same (s : Boot) (i : Fin 4) (lk : BootLock) :
    (s.stlr i lk).core = s.core ∧ (s.stlr i lk).active = s.active ∧
      (s.stlr i lk).enabled = s.enabled := by
  rw [stlr]
  split_ifs
  · exact ⟨rfl, rfl, rfl⟩
  · exact ⟨rfl, rfl, rfl⟩

/-- Without `MMU_ACTIVE` nothing leads to an exclusive access. -/
theorem not_exclusive_spinNext {pc : SpinPc} (w : SpinWord (Fin 4)) (h : ¬ pc.Exclusive) :
    ¬ (spinNext false i pc w).1.Exclusive := by
  cases pc <;> simp_all [spinNext, SpinPc.Exclusive]

/-- A core that is not turned on stays off. -/
theorem cpuOn_of_not_starts {target : Fin 4} (h : starts target = false) :
    s.cpuOn starts target = s := by
  have hnot : ∀ j, ¬ (j = target ∧ starts j = true ∧ (s.core j).isNone = true) := by
    rintro j ⟨rfl, hon, -⟩
    rw [h] at hon
    cases hon
  simp only [Boot.cpuOn, if_neg (hnot _)]

/-- The firmware turns no other core on: core 0 stays alone. -/
theorem Lone.step (hno : ∀ j, j ≠ 0 → starts j = false) (h : Lone s c)
    (hstep : BootStep starts s s') : ∃ c', Lone s' c' := by
  cases hstep with
  | @clearM i ops hcore =>
    obtain ⟨rfl, rfl⟩ := h.eq_of_core hcore
    obtain ⟨hactive, hM⟩ : BootOp.clearActive ∈ ops ∧ .setM ∈ ops := by
      simpa using suffix_kernelMain h.suffix
    exact ⟨_, Lone.set h.others ((List.suffix_cons _ _).trans h.suffix) (fun _ => rfl)
      (fun hnot => absurd hactive hnot) fun hnot => absurd hM hnot⟩
  | @clearActive i ops hcore =>
    obtain ⟨rfl, rfl⟩ := h.eq_of_core hcore
    obtain ⟨hactive, hM⟩ : BootOp.clearActive ∉ ops ∧ .setM ∈ ops := by
      simpa using suffix_kernelMain h.suffix
    exact ⟨_, Lone.set h.others ((List.suffix_cons _ _).trans h.suffix) (fun _ => rfl)
      (fun _ _ => ⟨rfl, nofun⟩) fun hnot => absurd hM hnot⟩
  | @setM i ops hcore =>
    obtain ⟨rfl, rfl⟩ := h.eq_of_core hcore
    obtain ⟨hactive, hM⟩ : BootOp.clearActive ∉ ops ∧ .setM ∉ ops := by
      simpa using suffix_kernelMain h.suffix
    exact ⟨_, Lone.set h.others ((List.suffix_cons _ _).trans h.suffix) (fun _ => rfl)
      (fun _ hin => absurd hin hM) fun _ => Boot.setEnabled_self true⟩
  | @setActive i ops hcore =>
    obtain ⟨rfl, rfl⟩ := h.eq_of_core hcore
    obtain ⟨hactive, hM⟩ : BootOp.clearActive ∉ ops ∧ .setM ∉ ops := by
      simpa using suffix_kernelMain h.suffix
    exact ⟨_, Lone.set h.others ((List.suffix_cons _ _).trans h.suffix) (fun _ => rfl)
      (fun _ hin => absurd hin hM) fun _ => h.after (by simpa using hM)⟩
  | @cpuOn i target ops hcore =>
    obtain ⟨rfl, rfl⟩ := h.eq_of_core hcore
    obtain ⟨htarget, hactive, hM⟩ : target ≠ 0 ∧ BootOp.clearActive ∉ ops ∧ .setM ∉ ops := by
      simpa using suffix_kernelMain h.suffix
    -- the only step that could wake another core
    rw [cpuOn_of_not_starts (hno target htarget)]
    exact ⟨_, Lone.set h.others ((List.suffix_cons _ _).trans h.suffix) (fun _ => rfl)
      (fun _ hin => absurd hin hM) fun _ => h.after (by simpa using hM)⟩
  | @leave i ops hcore =>
    obtain ⟨rfl, rfl⟩ := h.eq_of_core hcore
    have hactive : BootOp.clearActive ∉ ops := by simpa using suffix_kernelMain h.suffix
    exact ⟨_, Lone.set h.others ((List.suffix_cons _ _).trans h.suffix) (fun _ => rfl)
      (fun _ hin => ⟨(h.before (by simpa using hactive) (List.mem_cons_of_mem _ hin)).1, nofun⟩)
      fun hM => h.after (by simpa using hM)⟩
  | @codeLock i lk ops hcore =>
    obtain ⟨rfl, rfl⟩ := h.eq_of_core hcore
    have hactive : BootOp.clearActive ∉ ops := by simpa using suffix_kernelMain h.suffix
    refine ⟨_, Lone.set h.others h.suffix (fun hin => absurd hin (by simpa using hactive))
      (fun hnot hin => ⟨(h.before hnot hin).1, ?_⟩) h.after⟩
    rintro _ _ ⟨⟩
    simp [SpinPc.Exclusive]
  | codeUnlock i lk hcore =>
    obtain ⟨h1, h2, h3⟩ := s.stlr_same i lk
    exact ⟨c, h.of_same h1 h2 h3⟩
  | lock i hcore =>
    obtain ⟨rfl, rfl⟩ := h.eq_of_core hcore
    exact absurd (suffix_kernelMain h.suffix) (by simp)
  | unlock i hcore =>
    obtain ⟨rfl, rfl⟩ := h.eq_of_core hcore
    exact absurd (suffix_kernelMain h.suffix) (by simp)
  | @spin _ lk pc ops hcore =>
    obtain ⟨rfl, rfl⟩ := h.eq_of_core hcore
    refine ⟨_, Lone.set h.others h.suffix (fun hin => absurd (h.early hin) nofun)
      (fun hnot hin => ⟨(h.before hnot hin).1, fun lk' pc' hcall => ?_⟩) h.after⟩
    obtain ⟨hactive, hpc⟩ := h.before hnot hin
    have hnext := not_exclusive_spinNext (i := 0) (s.word lk) (hpc lk pc rfl)
    rw [← hactive] at hnext
    dsimp only at hcall
    split_ifs at hcall with hheld
    cases hcall
    exact hnext

theorem lone_reachable (hno : ∀ j, j ≠ 0 → starts j = false) {active : Bool}
    {enabled : Fin 4 → Bool} {word : BootLock → SpinWord (Fin 4)}
    (h : ReflTransGen (BootStep starts) (bootStart active enabled word) s) : ∃ c, Lone s c := by
  induction h with
  | refl =>
    refine ⟨⟨kernelMain, none⟩, rfl, fun j hj => if_neg hj, List.suffix_refl _, fun _ => rfl,
      fun hnot => absurd ?_ hnot, fun hnot => absurd ?_ hnot⟩ <;> simp [kernelMain]
  | tail _ hstep ih =>
    obtain ⟨c, hc⟩ := ih
    exact hc.step hno hstep

/-! ### A core that is turned on -/

section

variable (starts)

/-- Core 0 comes to the end of `mmu_init`, taking no lock on the way. -/
theorem reaches_mmuInit (active : Bool) (enabled : Fin 4 → Bool)
    (word : BootLock → SpinWord (Fin 4)) :
    ∃ s, ReflTransGen (BootStep starts) (bootStart active enabled word) s ∧
    s.active = true ∧ (∀ j, j ≠ 0 → s.core j = none) ∧
    s.core 0 = some ⟨[.code, .cpuOn 1, .code, .cpuOn 2, .code, .cpuOn 3, .code], none⟩ := by
  have hrun := ((((ReflTransGen.refl (r := BootStep starts)
    (a := bootStart active enabled word)).tail (.clearM 0 rfl)).tail (.clearActive 0 rfl)).tail
    (.leave 0 rfl)).tail (.setM 0 rfl) |>.tail (.setActive 0 rfl)
  refine ⟨_, hrun, rfl, fun j hj => ?_, rfl⟩
  simp [Boot.set, Boot.setEnabled, bootStart, hj]

/-- From there it asks for core `j` next, which is still off if it was. -/
theorem reaches_cpuOn {ops : List BootOp} (hactive : s.active = true)
    (h0 : s.core 0 = some ⟨.code :: .cpuOn j :: ops, none⟩) (hj : j ≠ 0) :
    ∃ s', ReflTransGen (BootStep starts) s s' ∧ s'.active = true ∧
      s'.core 0 = some ⟨ops, none⟩ ∧ (∀ k, k ≠ 0 → k ≠ j → s'.core k = s.core k) ∧
      (starts j = true → s.core j = none →
        s'.core j = some ⟨secondaryMain, none⟩ ∧ s'.enabled j = false) := by
  have hfirst : BootStep starts s (s.set 0 ⟨.cpuOn j :: ops, none⟩) := .leave 0 h0
  have hsecond : BootStep starts (s.set 0 ⟨.cpuOn j :: ops, none⟩) _ :=
    .cpuOn 0 j Boot.set_core_self
  refine ⟨_, (ReflTransGen.single hfirst).tail hsecond, hactive, Boot.set_core_self,
    fun k hk hkj => ?_, fun hon hoff => ⟨?_, ?_⟩⟩
  · simp [Boot.set, Boot.cpuOn, hk, hkj]
  · simp [Boot.set, Boot.cpuOn, hj, hon, hoff]
  · simp [Boot.set, Boot.cpuOn, hj, hon, hoff]

/-- One instruction of `spin_lock` that does not end it. -/
theorem reaches_spinNext {lk : BootLock} {pc : SpinPc} {ops : List BootOp} (pc' : SpinPc)
    (hcore : s.core j = some ⟨ops, some (lk, pc)⟩) (hpc : pc' ≠ .held)
    (hnext : (spinNext s.active j pc (s.word lk)).1 = pc') :
    ∃ s', BootStep starts s s' ∧ s'.active = s.active ∧ s'.enabled = s.enabled ∧
      s'.core j = some ⟨ops, some (lk, pc')⟩ := by
  refine ⟨_, .spin j hcore, rfl, rfl, ?_⟩
  rw [Boot.set_core_self, hnext, if_neg hpc]

/-- A core that has been turned on comes to `LDAXR` with its MMU off. -/
theorem reaches_exclusive (hactive : s.active = true) (hm : s.enabled j = false)
    (hcore : s.core j = some ⟨secondaryMain, none⟩) :
    ∃ s', ReflTransGen (BootStep starts) s s' ∧ ¬ s'.Translated := by
  obtain ⟨ops, hops⟩ : ∃ ops, secondaryMain = .lock .uart :: ops := ⟨_, rfl⟩
  rw [hops] at hcore
  have hlock : BootStep starts s (s.set j ⟨ops, some (.uart, .save)⟩) := .lock j hcore
  obtain ⟨s₁, hsave, ha₁, he₁, hc₁⟩ := reaches_spinNext starts .mask
    (Boot.set_core_self (s := s) (i := j) (c := ⟨ops, some (.uart, .save)⟩)) (by decide) rfl
  obtain ⟨s₂, hmask, ha₂, he₂, hc₂⟩ := reaches_spinNext starts .test hc₁
    (by decide) rfl
  have hactive₂ : s₂.active = true := ha₂.trans (ha₁.trans hactive)
  obtain ⟨s₃, htest, -, he₃, hc₃⟩ := reaches_spinNext starts .load hc₂
    (by decide) (by rw [hactive₂]; rfl)
  refine ⟨s₃, (((ReflTransGen.single hlock).tail hsave).tail hmask).tail htest, fun htrans => ?_⟩
  have hon := htrans j _ hc₃ ⟨.uart, .load, rfl, Or.inl rfl⟩
  rw [he₃, he₂, he₁] at hon
  exact absurd (hm.symm.trans hon) (by decide)

/-- A core that the firmware turns on is reached. -/
theorem reaches_secondary (active : Bool) (enabled : Fin 4 → Bool)
    (word : BootLock → SpinWord (Fin 4)) (hi : i ≠ 0) (hon : starts i = true) :
    ∃ s, ReflTransGen (BootStep starts) (bootStart active enabled word) s ∧ s.active = true ∧
      s.enabled i = false ∧ s.core i = some ⟨secondaryMain, none⟩ := by
  obtain ⟨s₀, hrun₀, ha₀, hoff₀, hc₀⟩ := reaches_mmuInit starts active enabled word
  obtain ⟨s₁, hrun₁, ha₁, hc₁, hsame₁, hon₁⟩ := reaches_cpuOn starts ha₀ hc₀ (by decide)
  obtain ⟨s₂, hrun₂, ha₂, hc₂, hsame₂, hon₂⟩ := reaches_cpuOn starts ha₁ hc₁ (by decide)
  obtain ⟨s₃, hrun₃, ha₃, hc₃, hsame₃, hon₃⟩ := reaches_cpuOn starts ha₂ hc₂ (by decide)
  have hcases : i = 1 ∨ i = 2 ∨ i = 3 := by omega
  rcases hcases with rfl | rfl | rfl
  · obtain ⟨hcore, hm⟩ := hon₁ hon (hoff₀ 1 hi)
    exact ⟨s₁, hrun₀.trans hrun₁, ha₁, hm, hcore⟩
  · have hoff : s₁.core 2 = none := (hsame₁ 2 hi (by decide)).trans (hoff₀ 2 hi)
    obtain ⟨hcore, hm⟩ := hon₂ hon hoff
    exact ⟨s₂, (hrun₀.trans hrun₁).trans hrun₂, ha₂, hm, hcore⟩
  · have hoff : s₂.core 3 = none := (hsame₂ 3 hi (by decide)).trans
      ((hsame₁ 3 hi (by decide)).trans (hoff₀ 3 hi))
    obtain ⟨hcore, hm⟩ := hon₃ hon hoff
    exact ⟨s₃, ((hrun₀.trans hrun₁).trans hrun₂).trans hrun₃, ha₃, hm, hcore⟩

end

/-- **Exclusive accesses are executed with translation on exactly if the firmware
turns no other core on**: none of cores 1-3 ever sets its own bit M. -/
theorem boot_translated_iff (starts : Fin 4 → Bool) (active : Bool) (enabled : Fin 4 → Bool)
    (word : BootLock → SpinWord (Fin 4)) :
    (∀ s, ReflTransGen (BootStep starts) (bootStart active enabled word) s → s.Translated) ↔
      ∀ i, i ≠ 0 → starts i = false := by
  constructor
  · intro h i hi
    by_contra hon
    obtain ⟨s, hrun, hactive, hm, hcore⟩ := reaches_secondary starts active enabled word hi
      (Bool.not_eq_false _ ▸ hon)
    obtain ⟨s', hrun', hnot⟩ := reaches_exclusive starts hactive hm hcore
    exact hnot (h s' (hrun.trans hrun'))
  · intro hno s hrun
    obtain ⟨c, hc⟩ := lone_reachable hno hrun
    exact hc.translated

/-- Core 1 is turned on, and takes `uart_lock`. -/
theorem not_boot_translated : ¬ ∀ (starts : Fin 4 → Bool) (active : Bool) (enabled : Fin 4 → Bool)
    (word : BootLock → SpinWord (Fin 4)) (s : Boot),
    ReflTransGen (BootStep starts) (bootStart active enabled word) s → s.Translated := by
  intro h
  obtain ⟨s, hrun, hactive, hm, hcore⟩ := reaches_secondary (fun _ => true) false
    (fun _ => false) (fun _ => ⟨0, fun _ => false⟩) (by decide : (1 : Fin 4) ≠ 0) rfl
  obtain ⟨s', hrun', hnot⟩ := reaches_exclusive (fun _ => true) hactive hm hcore
  exact hnot (h _ _ _ _ s' (hrun.trans hrun'))

end GamingConsole
