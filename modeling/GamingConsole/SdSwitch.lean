/-
What a failed voltage switch leaves behind.

`switchPort` is a controller of which two registers are known: CLOCK_CONTROL holds in its
two enables what was written, and HOST_CONTROL_2 what was written or, as the controller
takes 1.8V Signaling Enable back when the switch fails, what was read last.  Everything
else, the end of CMD11 and the levels of the DAT lines among it, is as the controller
pleases.

* `onPort_sendCommand` — a command leaves the two registers alone;
* `ends_switchSignaling` — whatever happens after CMD11, a failure leaves the clock off or
  1.8 V on;
* `voltage_switch_restored_iff` — the bus is as it was where CMD11 itself has failed.
-/
import GamingConsole.SdMachine

namespace GamingConsole

open Prog

/-- Two registers, and the log of the accesses. -/
structure SwitchPort where
  clockControl : U16
  hostControl2 : U16
  log : List Event

namespace SwitchPort

/-- Internal Clock Enable. -/
def internalClock (p : SwitchPort) : Bool := p.clockControl.getLsbD 0

/-- SD Clock Enable. -/
def sdClock (p : SwitchPort) : Bool := p.clockControl.getLsbD 2

/-- 1.8V Signaling Enable. -/
def signaling18 (p : SwitchPort) : Bool := p.hostControl2.getLsbD 3

end SwitchPort

/-- An access, on the two registers. -/
def switchPort : Device SwitchPort := fun e p r p' =>
  p'.log = ⟨e, r⟩ :: p.log ∧
    match e, r with
    | .read .clockControl, r => p'.clockControl = p.clockControl ∧
        p'.hostControl2 = p.hostControl2 ∧
        r.getLsbD 0 = p.internalClock ∧ r.getLsbD 2 = p.sdClock
    | .write .clockControl v, _ => p'.clockControl = v ∧ p'.hostControl2 = p.hostControl2
    | .read .hostControl2, r => p'.clockControl = p.clockControl ∧ p'.hostControl2 = r
    | .write .hostControl2 v, _ => p'.clockControl = p.clockControl ∧ p'.hostControl2 = v
    | _, _ => p'.clockControl = p.clockControl ∧ p'.hostControl2 = p.hostControl2

/-- A command of the log has ended with an error. -/
def ErrorSeen (log : List Event) : Prop :=
  ∃ v : U16, v ≠ 0 ∧ (⟨.read .errorInterruptStatus, v⟩ : Event) ∈ log

/-- The SD clock is running. -/
def SwitchPort.Running (p : SwitchPort) : Prop := p.internalClock = true ∧ p.sdClock = true

/-- The enables of the clock are as they were, and the signals at 3.3 V. -/
structure SwitchUndone (p p' : SwitchPort) : Prop where
  internalClock : p'.internalClock = p.internalClock
  sdClock : p'.sdClock = p.sdClock
  signaling18 : p'.signaling18 = false

variable {s s' : Sd SwitchPort} {α : Type}

/-! ### A command -/

/-- The two registers are as they were. -/
def SameRegs (p p' : SwitchPort) : Prop :=
  p'.clockControl = p.clockControl ∧ p'.hostControl2 = p.hostControl2

/-- Actions on neither of the two registers. -/
def OffPort : SdAction → Prop
  | .read r => r ≠ .clockControl ∧ r ≠ .hostControl2
  | .write r _ => r ≠ .clockControl ∧ r ≠ .hostControl2
  | _ => True

/-- Actions that learn of no error either. -/
def Uneventful (e : SdAction) : Prop := OffPort e ∧ e ≠ .read .errorInterruptStatus

theorem OffPort.same {e : SdAction} {r : e.Answer} (he : OffPort e)
    (hact : sdAct switchPort e s r s') :
    SameRegs s.dev s'.dev ∧ s'.dev.log = ⟨e, r⟩ :: s.dev.log := by
  obtain ⟨-, p, ⟨hlog, hp⟩, rfl⟩ := hact
  rw [Sd.after_dev]
  refine ⟨?_, hlog⟩
  cases e with
  | read reg => cases reg <;> first | exact hp | exact absurd rfl he.1 | exact absurd rfl he.2
  | write reg v => cases reg <;> first | exact hp | exact absurd rfl he.1 | exact absurd rfl he.2
  | _ => exact hp

theorem ErrorSeen.cons {log : List Event} (h : ErrorSeen log) (e : Event) :
    ErrorSeen (e :: log) := by
  obtain ⟨v, hv, hmem⟩ := h
  exact ⟨v, hv, List.mem_cons_of_mem e hmem⟩

theorem not_errorSeen_cons {log : List Event} {e : SdAction} (r : e.Answer) (h : ¬ ErrorSeen log)
    (he : e ≠ .read .errorInterruptStatus) : ¬ ErrorSeen (⟨e, r⟩ :: log) := by
  rintro ⟨v, hv, hmem⟩
  rcases List.mem_cons.mp hmem with heq | hmem
  · exact he (congrArg Sigma.fst heq).symm
  · exact h ⟨v, hv, hmem⟩

/-- On the way: the registers are those of `p`, and an error has or has not been seen. -/
structure OnPort (p : SwitchPort) (error : Prop) (s : Sd SwitchPort) : Prop where
  same : SameRegs p s.dev
  error : ErrorSeen s.dev.log ↔ error

variable {p : SwitchPort} {error : Prop}

theorem OnPort.step {e : SdAction} {r : e.Answer} (h : OnPort p error s) (he : Uneventful e)
    (hact : sdAct switchPort e s r s') : OnPort p error s' := by
  obtain ⟨hsame, hlog⟩ := he.1.same hact
  refine ⟨⟨hsame.1.trans h.same.1, hsame.2.trans h.same.2⟩, ?_⟩
  rw [hlog, ← h.error]
  constructor
  · intro hcons
    by_contra hnot
    exact not_errorSeen_cons r hnot he.2 hcons
  · exact fun hold => hold.cons _

/-- No assertion about the states in between. -/
abbrev PortEnds (q : SdProg α) (s : Sd SwitchPort) (Q : α → Sd SwitchPort → Prop) : Prop :=
  Holds (sdAct switchPort) (fun _ => True) Q q s

theorem OnPort.access {e : SdAction} {f : e.Answer → SdProg α} {Q : α → Sd SwitchPort → Prop}
    (h : OnPort p error s) (he : Uneventful e)
    (hf : ∀ r s', OnPort p error s' → PortEnds (f r) s' Q) : PortEnds (sd e >>= f) s Q :=
  Holds.step trivial fun r s' hact => hf r s' (h.step he hact)

theorem OnPort.only {q : SdProg α} (h : OnPort p error s) (hq : Only Uneventful q) :
    PortEnds q s fun _ s' => OnPort p error s' :=
  (hq.holds h fun _ _ _ _ he hs hact => hs.step he hact).mono (fun _ _ => trivial) fun _ _ h => h

theorem uneventful_read {r : Reg} (h : r ≠ .clockControl ∧ r ≠ .hostControl2)
    (herror : r ≠ .errorInterruptStatus) : Uneventful (.read r) :=
  ⟨h, fun he => herror (SdAction.read.inj he)⟩

theorem uneventful_write {r : Reg} {v : BitVec r.width}
    (h : r ≠ .clockControl ∧ r ≠ .hostControl2) :
    Uneventful (.write r v) := ⟨h, fun he => by cases he⟩

theorem uneventful_waitCmdFree : ∀ n, Only Uneventful (waitCmdFree n)
  | 0 => Only.step ⟨trivial, by simp⟩ fun e => nomatch e
  | n + 1 => by
    refine Only.step (uneventful_read (by simp) (by simp)) fun present => ?_
    split
    · exact uneventful_waitCmdFree n
    · exact Only.ret _

theorem uneventful_writeArgument (arg : U32) : Only Uneventful (writeArgument arg) :=
  Only.step (uneventful_write (by simp)) fun _ => Only.perform (uneventful_write (by simp))

theorem uneventful_resetLineLoop (bit : U8) (msg : String) (start : U64) :
    ∀ n, Only Uneventful (resetLineLoop bit msg start n)
  | 0 => Only.step ⟨trivial, by simp⟩ fun e => nomatch e
  | n + 1 => by
    refine Only.step (uneventful_read (by simp) (by simp)) fun v => ?_
    split
    · refine Only.step ⟨trivial, by simp⟩ fun late => ?_
      split
      · exact Only.step ⟨trivial, by simp⟩ fun _ =>
          Only.step (uneventful_read (by simp) (by simp)) fun _ =>
          Only.step ⟨trivial, by simp⟩ fun _ => Only.step ⟨trivial, by simp⟩ fun _ => Only.ret _
      · exact uneventful_resetLineLoop bit msg start n
    · exact Only.ret _

theorem uneventful_resetLine (bit : U8) (msg : String) (polls : ℕ) :
    Only Uneventful (resetLine bit msg polls) :=
  Only.step (uneventful_write (by simp)) fun _ => Only.step ⟨trivial, by simp⟩ fun start =>
    uneventful_resetLineLoop bit msg start polls

/-- The wait ends with the error that it has seen, if it has seen one. -/
theorem onPort_waitStatus (mask : U16) : ∀ (n : ℕ) (s : Sd SwitchPort), OnPort p False s →
    PortEnds (waitStatus mask n) s fun r s' => OnPort p (r.2 ≠ 0) s' := by
  intro n
  induction n with
  | zero => exact fun s _ => Holds.step trivial fun e => nomatch e
  | succ n ih =>
    intro s hs
    refine hs.access (uneventful_read (by simp) (by simp)) fun normalStatus s hs => ?_
    refine Holds.step trivial fun errorStatus s' hact => ?_
    obtain ⟨hsame, hlog⟩ := OffPort.same (by simp [OffPort]) hact
    have hs' : OnPort p (errorStatus ≠ 0) s' := by
      refine ⟨⟨hsame.1.trans hs.same.1, hsame.2.trans hs.same.2⟩, ?_⟩
      rw [hlog]
      constructor
      · rintro ⟨v, hv, hmem⟩
        rcases List.mem_cons.mp hmem with heq | hmem
        · cases heq
          exact hv
        · exact absurd (hs.error.mp ⟨v, hv, hmem⟩) not_false
      · exact fun hne => ⟨errorStatus, hne, List.mem_cons_self⟩
    split
    · rename_i hclear
      have hnone : (errorStatus ≠ 0) = False := eq_false (not_not.mpr hclear.2)
      rw [hnone] at hs'
      exact ih s' hs'
    · exact Holds.ret hs'

/-- A command fails if and only if an error is seen. -/
theorem onPort_sendCommand {cmd : U8} {arg : U32} {rt : SDResponseType} {out : Option U32}
    (polls : ℕ) (hs : OnPort p False s) :
    PortEnds (sendCommand cmd arg rt out polls) s fun r s' => OnPort p (r.1 ≠ .success) s' := by
  refine Holds.bind (hs.only (uneventful_waitCmdFree polls)) fun _ s hs => ?_
  refine Holds.bind (hs.only (uneventful_writeArgument arg)) fun _ s hs => ?_
  refine hs.access (uneventful_write (by simp)) fun _ s hs => ?_
  refine Holds.bind (onPort_waitStatus 1#16 polls s hs) fun status s hs => ?_
  obtain ⟨normalStatus, errorStatus⟩ := status
  dsimp only at hs ⊢
  split
  · rename_i hne
    refine hs.access (uneventful_write (by simp)) fun _ s hs => ?_
    refine Holds.bind (hs.only (uneventful_resetLine _ _ polls)) fun _ s hs => ?_
    refine hs.access ⟨trivial, by simp⟩ fun _ s hs => ?_
    refine hs.access ⟨trivial, by simp⟩ fun _ s hs => ?_
    refine hs.access ⟨trivial, by simp⟩ fun _ s hs => ?_
    refine hs.access ⟨trivial, by simp⟩ fun _ s hs => ?_
    refine hs.access ⟨trivial, by simp⟩ fun _ s hs => ?_
    refine Holds.ret ⟨hs.same, hs.error.trans ?_⟩
    exact iff_of_true hne (commandError_ne_success errorStatus)
  · rename_i heq
    refine hs.access (uneventful_write (by simp)) fun _ s hs => ?_
    -- what is read of the response does not change the result
    have hdone : ∀ s' (out' : Option U32), OnPort p (errorStatus ≠ 0) s' →
        PortEnds (pure (SDCommandStatus.success, out')) s' fun r s' =>
          OnPort p (r.1 ≠ .success) s' := by
      intro s' out' hs'
      refine Holds.ret ⟨hs'.same, hs'.error.trans ?_⟩
      exact iff_of_false heq (not_not.mpr rfl)
    rw [readResponse]
    split
    · refine hs.access (uneventful_read (by simp) (by simp)) fun r s hs => ?_
      exact hdone s (some r) hs
    · exact hdone s out hs

/-! ### The switch -/

/-- What a failure after CMD11 leaves: the clock is off, or the signals are at 1.8 V. -/
def Stranded (p : SwitchPort) : Prop := p.internalClock = false ∨ p.signaling18 = true

/-- No command has failed, and the registers are as `R` says. -/
structure Switching (R : SwitchPort → Prop) (s : Sd SwitchPort) : Prop where
  clean : ¬ ErrorSeen s.dev.log
  regs : R s.dev

variable {R R' : SwitchPort → Prop}

/-- An access of the switch. -/
theorem Switching.access {e : SdAction} {f : e.Answer → SdProg α} {Q : α → Sd SwitchPort → Prop}
    (h : Switching R s) (he : e ≠ .read .errorInterruptStatus)
    (hf : ∀ r s', Switching (fun p' => ∃ p, R p ∧ switchPort e p r p') s' → PortEnds (f r) s' Q) :
    PortEnds (sd e >>= f) s Q := by
  refine Holds.step trivial fun r s' hact => hf r s' ?_
  obtain ⟨-, p', hport, rfl⟩ := hact
  refine ⟨?_, s.dev, h.regs, by rw [Sd.after_dev]; exact hport⟩
  rw [Sd.after_dev, hport.1]
  exact not_errorSeen_cons r h.clean he

theorem Switching.mono (h : Switching R s) (R' : SwitchPort → Prop) (himp : ∀ p, R p → R' p) :
    Switching R' s :=
  ⟨h.clean, himp _ h.regs⟩

/-- An access to another register. -/
theorem Switching.elsewhere {e : SdAction} {f : e.Answer → SdProg α}
    {Q : α → Sd SwitchPort → Prop} (h : Switching R s) (he : Uneventful e)
    (hR : ∀ p p', SameRegs p p' → R p → R p')
    (hf : ∀ r s', Switching R s' → PortEnds (f r) s' Q) : PortEnds (sd e >>= f) s Q := by
  refine Holds.step trivial fun r s' hact => hf r s' ?_
  obtain ⟨hsame, hlog⟩ := he.1.same hact
  refine ⟨?_, hR _ _ hsame h.regs⟩
  rw [hlog]
  exact not_errorSeen_cons r h.clean he.2

/-- The read-modify-write of the clock's enable. -/
theorem Switching.modifyClock {f : U16 → U16} (h : Switching R s) :
    PortEnds (modifyClockControl f) s fun _ s' => Switching
      (fun p' => (∃ v, p'.clockControl = f v) ∧ ∃ p, R p ∧
        p'.hostControl2 = p.hostControl2) s' := by
  refine h.access (by simp) fun v s h => ⟨trivial, fun _ s' hact => ?_⟩
  obtain ⟨-, p', hport, rfl⟩ := hact
  obtain ⟨p, hp, hread⟩ := h.regs
  refine ⟨?_, ?_⟩ <;> rw [Sd.after_dev]
  · rw [hport.1]
    exact not_errorSeen_cons _ h.clean (by simp)
  · exact ⟨⟨v, hport.2.1⟩, p, hp, hport.2.2.trans hread.2.2.1⟩

theorem internalClock_of_cleared {p : SwitchPort} {v : U16} (h : p.clockControl = v &&& ~~~1#16) :
    p.internalClock = false := by
  rw [SwitchPort.internalClock, h, BitVec.getLsbD_and]
  exact Bool.and_false _

theorem signaling18_of_read {p : SwitchPort} (h : p.hostControl2 >>> 3 &&& 1#16 = 1#16) :
    p.signaling18 = true := by
  have hbit := congrArg (fun w : U16 => w.getLsbD 0) h
  simpa [SwitchPort.signaling18] using hbit

/-- The rest of `_sdio_voltage_switch`, after CMD11 has succeeded. -/
theorem ends_switchSignaling (hs : ¬ ErrorSeen s.dev.log) :
    PortEnds switchSignaling s fun ok s' =>
      ¬ ErrorSeen s'.dev.log ∧ (ok = false → Stranded s'.dev) := by
  have hstart : Switching (fun _ => True) s := ⟨hs, trivial⟩
  have hoff : ∀ p p' : SwitchPort, p'.clockControl = p.clockControl → p.internalClock = false →
      p'.internalClock = false := by
    intro p p' h hp
    rw [SwitchPort.internalClock, h]
    exact hp
  refine Holds.bind hstart.modifyClock fun _ s hs => ?_
  have hs := hs.mono (fun p => p.internalClock = false) fun p hp =>
    internalClock_of_cleared hp.1.choose_spec
  refine hs.elsewhere (uneventful_read (by simp) (by simp)) (fun p p' h => hoff p p' h.1)
    fun present s hs => ?_
  split
  · -- the DAT lines are not low: the clock stays off
    exact Holds.ret ⟨hs.clean, fun _ => Or.inl hs.regs⟩
  refine hs.access (by simp) fun signalEnable s hs => ?_
  have hs := hs.mono (fun p => p.internalClock = false) fun p' ⟨p, hp, hport⟩ =>
    hoff p p' hport.2.1 hp
  refine hs.access (by simp) fun _ s hs => ?_
  have hs := hs.mono (fun p => p.internalClock = false) fun p' ⟨p, hp, hport⟩ =>
    hoff p p' hport.2.1 hp
  refine hs.elsewhere ⟨trivial, by simp⟩ (fun p p' h => hoff p p' h.1) fun _ s hs => ?_
  refine hs.access (by simp) fun signalEnable s hs => ?_
  have hs := hs.mono (fun p => p.internalClock = false ∧ p.hostControl2 = signalEnable)
    fun p' ⟨p, hp, hport⟩ => ⟨hoff p p' hport.2.1 hp, hport.2.2⟩
  split
  · -- the controller has taken 1.8 V back: the clock stays off
    exact Holds.ret ⟨hs.clean, fun _ => Or.inl hs.regs.1⟩
  rename_i hsignal
  have hsignal := not_not.mp hsignal
  refine Holds.bind hs.modifyClock fun _ s hs => ?_
  have hs := hs.mono (fun p => p.signaling18 = true) fun p' ⟨_, p, hp, hport⟩ =>
    signaling18_of_read (by rw [hport, hp.2]; exact hsignal)
  have hon : ∀ p p' : SwitchPort, SameRegs p p' → p.signaling18 = true →
      p'.signaling18 = true := by
    intro p p' h hp
    rw [SwitchPort.signaling18, h.2]
    exact hp
  refine hs.elsewhere ⟨trivial, by simp⟩ hon fun _ s hs => ?_
  refine hs.elsewhere (uneventful_read (by simp) (by simp)) hon fun present s hs => ?_
  split
  · -- the DAT lines are not high: 1.8 V stays on
    exact Holds.ret ⟨hs.clean, fun _ => Or.inr hs.regs⟩
  · exact Holds.ret ⟨hs.clean, fun h => by cases h⟩

/-- **A failed voltage switch leaves the bus as it was** where CMD11 itself has failed, with
1.8V Signaling Enable clear before. -/
theorem voltage_switch_restored_iff {s s' : Sd SwitchPort} {s18a : U32} {polls : ℕ}
    (hlog : s.dev.log = []) (hrunning : s.dev.Running)
    (hret : Returns (sdAct switchPort) (sdioVoltageSwitch s18a polls) s false s') :
    SwitchUndone s.dev s'.dev ↔ ErrorSeen s'.dev.log ∧ s.dev.signaling18 = false := by
  have hends : PortEnds (sdioVoltageSwitch s18a polls) s fun ok s' => ok = false →
      (SwitchUndone s.dev s'.dev ↔ ErrorSeen s'.dev.log ∧ s.dev.signaling18 = false) := by
    rw [sdioVoltageSwitch]
    split
    · exact Holds.ret fun h => by cases h
    have hstart : OnPort s.dev False s :=
      ⟨⟨rfl, rfl⟩, by rw [hlog]; exact iff_false_intro fun ⟨_, _, hmem⟩ => by cases hmem⟩
    refine Holds.bind (onPort_sendCommand polls hstart) fun result s₁ h₁ => ?_
    obtain ⟨status, response⟩ := result
    dsimp only at h₁ ⊢
    split
    · rename_i hfailed
      -- CMD11 has failed, and nothing has been touched
      refine Holds.ret fun _ => ?_
      have hsignal : s₁.dev.signaling18 = s.dev.signaling18 := by
        rw [SwitchPort.signaling18, h₁.same.2]
        rfl
      constructor
      · intro hundone
        exact ⟨h₁.error.mpr hfailed, hsignal ▸ hundone.signaling18⟩
      · rintro ⟨-, hclear⟩
        refine ⟨?_, ?_, hsignal.trans hclear⟩
        · rw [SwitchPort.internalClock, h₁.same.1]
          rfl
        · rw [SwitchPort.sdClock, h₁.same.1]
          rfl
    · rename_i hdone
      refine (ends_switchSignaling fun herror => hdone (h₁.error.mp herror)).mono (fun _ h => h)
        fun ok s₂ h₂ hok => iff_of_false (fun hundone => ?_) fun h => h₂.1 h.1
      rcases h₂.2 hok with hoff | hon
      · rw [hundone.internalClock, hrunning.1] at hoff
        cases hoff
      · rw [hundone.signaling18] at hon
        cases hon
  exact hends.of_returns hret rfl

/-! ### Two controllers -/

/-- A controller on which commands end with `errorStatus`, and the DAT lines stay high. -/
def SwitchPort.choose (errorStatus : U16) : (e : SdAction) → SwitchPort → Option e.Answer
  | .read .clockControl, p => some p.clockControl
  | .read .hostControl2, p => some p.hostControl2
  | .read .presentState, _ => some 0xF00000#32
  | .read .normalInterruptStatus, _ => some 1#16
  | .read .errorInterruptStatus, _ => some errorStatus
  | e, _ => e.zero

/-- The registers after an access. -/
def SwitchPort.next (p : SwitchPort) (e : SdAction) (r : e.Answer) : SwitchPort where
  clockControl := match e with
    | .write .clockControl v => v
    | _ => p.clockControl
  hostControl2 := match e with
    | .write .hostControl2 v => v
    | _ => p.hostControl2
  log := ⟨e, r⟩ :: p.log

def SwitchPort.serve (errorStatus : U16) (e : SdAction) (s : Sd SwitchPort) :
    Option (e.Answer × Sd SwitchPort) :=
  (s.dev.choose errorStatus e).map fun r => (s.own e r, s.after (s.dev.next e (s.own e r)) e)

theorem SwitchPort.sdAct_of_serve {errorStatus : U16} (e : SdAction) (s : Sd SwitchPort)
    (r : e.Answer) (s' : Sd SwitchPort) (h : SwitchPort.serve errorStatus e s = some (r, s')) :
    sdAct switchPort e s r s' := by
  obtain ⟨r₀, hr₀, heq⟩ := Option.map_eq_some_iff.mp h
  rw [Prod.mk.injEq] at heq
  obtain ⟨rfl, rfl⟩ := heq
  refine ⟨s.answers_own e r₀, _, ⟨rfl, ?_⟩, rfl⟩
  cases e with
  | read reg =>
    cases reg with
    | clockControl =>
      cases hr₀
      exact ⟨rfl, rfl, rfl, rfl⟩
    | hostControl2 =>
      cases hr₀
      exact ⟨rfl, rfl⟩
    | _ => exact ⟨rfl, rfl⟩
  | write reg v => cases reg <;> exact ⟨rfl, rfl⟩
  | _ => exact ⟨rfl, rfl⟩

/-- The SD clock is running, and the signals are at 3.3 V. -/
def runningPort : Sd SwitchPort :=
  { var := fun _ => 0
    buf := fun _ => 0
    dev := { clockControl := 0x0007#16, hostControl2 := 0, log := [] } }

/-- CMD11 succeeds and the card does not pull the DAT lines low: the clock stays off. -/
theorem voltage_switch_strands : ∃ s',
    Returns (sdAct switchPort) (sdioVoltageSwitch 1#32 1) runningPort false s' ∧
      runningPort.dev.Running ∧ ¬ SwitchUndone runningPort.dev s'.dev := by
  have hplay : ((run (SwitchPort.serve 0) (sdioVoltageSwitch 1#32 1) runningPort).any fun w =>
      !w.1 && !w.2.dev.internalClock) = true := by
    decide +kernel
  obtain ⟨⟨ok, s'⟩, hrun, hoff⟩ := (Option.any_eq_true _ _).mp hplay
  rw [Bool.and_eq_true, Bool.not_eq_true', Bool.not_eq_true'] at hoff
  obtain ⟨rfl, hoff⟩ := hoff
  refine ⟨s', Returns.of_run SwitchPort.sdAct_of_serve hrun, ⟨rfl, rfl⟩, fun hundone => ?_⟩
  have hclock := hundone.internalClock
  rw [show s'.dev.internalClock = false from hoff] at hclock
  cases hclock

/-- Whether an event reads an error. -/
def Event.isError : Event → Bool
  | ⟨.read .errorInterruptStatus, v⟩ => decide (v ≠ 0#16)
  | _ => false

theorem errorSeen_of_any {log : List Event} (h : log.any Event.isError = true) : ErrorSeen log := by
  obtain ⟨e, hmem, he⟩ := List.any_eq_true.mp h
  unfold Event.isError at he
  split at he
  · exact ⟨_, of_decide_eq_true he, hmem⟩
  · cases he

/-- CMD11 times out: nothing has changed. -/
theorem voltage_switch_timeout : ∃ s',
    Returns (sdAct switchPort) (sdioVoltageSwitch 1#32 1) runningPort false s' ∧
      SwitchUndone runningPort.dev s'.dev := by
  have hplay : ((run (SwitchPort.serve 1) (sdioVoltageSwitch 1#32 1) runningPort).any fun w =>
      !w.1 && w.2.dev.log.any Event.isError) = true := by
    decide +kernel
  obtain ⟨⟨ok, s'⟩, hrun, herror⟩ := (Option.any_eq_true _ _).mp hplay
  rw [Bool.and_eq_true, Bool.not_eq_true'] at herror
  obtain ⟨rfl, herror⟩ := herror
  have hret := Returns.of_run SwitchPort.sdAct_of_serve hrun
  exact ⟨s', hret, (voltage_switch_restored_iff rfl ⟨rfl, rfl⟩ hret).mpr
    ⟨errorSeen_of_any herror, rfl⟩⟩

end GamingConsole
