/-
What `sdio_init` does after a failed clock set-up.

The second place that sets the clock up, in `_sdio_identify_stage1`, gives up when
it fails; the first, at the start of `sdio_init`, drops the result.
`init_silent_iff` says for which readings of the first set-up the rule holds that
`sdio_init` sends nothing after a failure and returns false.
-/
import GamingConsole.SdMachine

namespace GamingConsole

open Prog

variable {s s' s₁ : Sd (List Event)} {α : Type}

/-! ### Runs that agree on the log -/

/-- The log only grows. -/
theorem suffix_of_runs {p q : SdProg α} (h : Runs (sdAct bus) p s q s') : s.dev <:+ s'.dev := by
  induction h with
  | refl => exact List.suffix_refl _
  | step hact _ ih =>
    rw [sdAct_bus hact, Sd.after_dev] at ih
    exact (List.suffix_cons _ _).trans ih

/-- A run that starts with the accesses of another goes on where that one ended. -/
theorem runs_resume {β : Type} {p : SdProg α} {f : α → SdProg β} {a : α} {q : SdProg β}
    (h : Returns (sdAct bus) p s a s₁) (h' : Runs (sdAct bus) (p >>= f) s q s')
    (hlog : s₁.dev <:+ s'.dev) : Runs (sdAct bus) (f a) s₁ q s' := by
  induction p generalizing s with
  | ret b =>
    cases h
    exact h'
  | vis e k ih =>
    cases h with
    | @step _ _ r _ s₂ _ _ hact hrest =>
      cases h' with
      | refl =>
        have hlen := ((suffix_of_runs hrest).trans hlog).length_le
        rw [sdAct_bus hact, Sd.after_dev, List.length_cons] at hlen
        omega
      | @step _ _ r' _ s₃ _ _ hact' hrest' =>
        have hl := (suffix_of_runs hrest).trans hlog
        have hl' := suffix_of_runs hrest'
        rw [sdAct_bus hact, Sd.after_dev] at hl
        rw [sdAct_bus hact', Sd.after_dev] at hl'
        -- The two logs have the same length inside the same list.
        have heq := List.IsSuffix.eq_of_length (List.suffix_of_suffix_length_le hl hl' (by simp))
          (by simp)
        have hr : r = r' := by simpa using heq
        subst hr
        rw [sdAct_bus hact'] at hrest'
        rw [sdAct_bus hact] at hrest
        exact ih r hrest hrest'

/-! ### Marks -/

/-- Every action but the marks. -/
def Unmarked : SdAction → Prop
  | .note _ => False
  | _ => True

/-- Every action but the marks and the stores to `card_inserted`. -/
def Unlatched : SdAction → Prop
  | .note _ => False
  | .set .cardInserted _ => False
  | _ => True

theorem Unlatched.unmarked {e : SdAction} (h : Unlatched e) : Unmarked e := by
  cases e <;> first | exact trivial | exact h

theorem Polling.unlatched {e : SdAction} (h : Polling e) : Unlatched e := by
  cases e with
  | set x v => exact False.elim h
  | note m => exact False.elim h
  | _ => exact trivial

/-- Actions that have no part in a command: neither its argument nor the command is
written, and neither the error status nor a response is read. -/
def Calm : SdAction → Prop
  | .write .argumentLow _ => False
  | .write .argumentHigh _ => False
  | .write .command _ => False
  | .read .errorInterruptStatus => False
  | .read .response0 => False
  | .note _ => False
  | _ => True

theorem Calm.unmarked {e : SdAction} (h : Calm e) : Unmarked e := by
  cases e <;> first | exact trivial | exact h

theorem calm_stuck {α : Type} : Only Calm (sdStuck : SdProg α) :=
  Only.step trivial fun e => nomatch e

/-- Both at once. -/
def Plain (e : SdAction) : Prop := Calm e ∧ Unlatched e

theorem plain_stuck {α : Type} : Only Plain (sdStuck : SdProg α) :=
  Only.step ⟨trivial, trivial⟩ fun e => nomatch e

theorem unlatched_writeArgument (arg : U32) : Only Unlatched (writeArgument arg) :=
  Only.step trivial fun _ => Only.perform trivial

theorem unlatched_sendCommand (cmd : U8) (arg : U32) (rt : SDResponseType) (out : Option U32)
    (polls : ℕ) : Only Unlatched (sendCommand cmd arg rt out polls) := by
  refine ((polling_waitCmdFree polls).mono fun _ => Polling.unlatched).bind fun _ => ?_
  refine (unlatched_writeArgument arg).bind fun _ => Only.step trivial fun _ => ?_
  refine ((polling_waitStatus _ polls).mono fun _ => Polling.unlatched).bind fun status => ?_
  rcases status with ⟨normalStatus, errorStatus⟩
  dsimp only
  split
  · refine Only.step trivial fun _ => ?_
    refine ((polling_resetLine _ _ polls).mono fun _ => Polling.unlatched).bind fun _ => ?_
    exact Only.step trivial fun _ => Only.step trivial fun _ => Only.step trivial fun _ =>
      Only.step trivial fun _ => Only.step trivial fun _ => Only.ret _
  · refine Only.step trivial fun _ => ?_
    exact ((polling_readResponse _ _).mono fun _ => Polling.unlatched).bind fun _ => Only.ret _

theorem unlatched_sendAppCommand (cmd : SDAppCommand) (arg : U32) (rt : SDResponseType)
    (out : Option U32) (polls : ℕ) : Only Unlatched (sendAppCommand cmd arg rt out polls) := by
  refine (unlatched_sendCommand _ _ _ _ polls).bind fun result => ?_
  dsimp only
  split_ifs
  · exact Only.ret _
  · exact Only.ret _
  · exact unlatched_sendCommand _ _ _ _ polls

theorem unlatched_readCid (polls : ℕ) : Only Unlatched (sdioReadCid polls) := by
  refine Only.step trivial fun _ => (unlatched_sendCommand _ _ _ _ polls).bind fun result => ?_
  dsimp only
  split_ifs
  · exact Only.ret _
  · exact Only.step trivial fun _ => Only.step trivial fun _ => Only.step trivial fun _ =>
      Only.step trivial fun _ => Only.step trivial fun _ => Only.step trivial fun _ =>
      Only.step trivial fun _ => Only.ret _

theorem unlatched_finishIdentification (polls : ℕ) :
    Only Unlatched (sdioFinishIdentification polls) := by
  refine (unlatched_readCid polls).bind fun status => ?_
  split_ifs
  · exact Only.ret _
  refine (unlatched_sendCommand _ _ _ _ polls).bind fun ⟨status, response⟩ => ?_
  dsimp only
  split_ifs
  · exact Only.ret _
  refine Only.step trivial fun _ => Only.step trivial fun _ => ?_
  refine (unlatched_sendCommand _ _ _ _ polls).bind fun ⟨status, response⟩ => ?_
  dsimp only
  split_ifs
  · exact Only.ret _
  refine (unlatched_sendCommand _ _ _ _ polls).bind fun ⟨status, response⟩ => ?_
  dsimp only
  split_ifs
  · exact Only.ret _
  · exact Only.ret _

theorem unlatched_acmd41PollLoop (start : U64) (arg : U32) (polls : ℕ) :
    ∀ n out, Only Unlatched (acmd41PollLoop start arg polls n out) := by
  intro n
  induction n with
  | zero => exact fun _ => polling_stuck.mono fun _ => Polling.unlatched
  | succ n ih =>
    refine fun out => Only.step trivial fun late => ?_
    split_ifs
    · exact Only.ret _
    refine (unlatched_sendAppCommand _ _ _ _ polls).bind fun result => ?_
    dsimp only
    split_ifs
    · exact Only.ret _
    · exact ih _
    · exact Only.ret _

theorem unlatched_acmd41Poll (arg : U32) (out : Option U32) (polls : ℕ) :
    Only Unlatched (sdioAcmd41Poll arg out polls) :=
  Only.step trivial fun _ => unlatched_acmd41PollLoop _ _ _ _ _

theorem plain_modifyClockControl (f : U16 → U16) : Only Plain (modifyClockControl f) :=
  Only.step ⟨trivial, trivial⟩ fun _ => Only.perform ⟨trivial, trivial⟩

theorem plain_switchSignaling : Only Plain switchSignaling := by
  refine (plain_modifyClockControl _).bind fun _ => Only.step ⟨trivial, trivial⟩ fun _ => ?_
  split_ifs
  · exact Only.ret _
  refine Only.step ⟨trivial, trivial⟩ fun _ => Only.step ⟨trivial, trivial⟩ fun _ =>
    Only.step ⟨trivial, trivial⟩ fun _ =>
    Only.step ⟨trivial, trivial⟩ fun _ => ?_
  split_ifs
  · exact Only.ret _
  refine (plain_modifyClockControl _).bind fun _ => Only.step ⟨trivial, trivial⟩ fun _ =>
    Only.step ⟨trivial, trivial⟩ fun _ => ?_
  split_ifs
  · exact Only.ret _
  · exact Only.ret _

theorem calm_switchSignaling : Only Calm switchSignaling :=
  plain_switchSignaling.mono fun _ h => h.1

theorem unlatched_voltageSwitch (s18a : U32) (polls : ℕ) :
    Only Unlatched (sdioVoltageSwitch s18a polls) := by
  rw [sdioVoltageSwitch]
  split_ifs
  · exact Only.ret _
  refine (unlatched_sendCommand _ _ _ _ polls).bind fun result => ?_
  dsimp only
  split_ifs
  · exact Only.ret _
  · exact plain_switchSignaling.mono fun _ h => h.2

theorem unlatched_initLegacy (out : Option U32) (polls : ℕ) :
    Only Unlatched (initLegacy out polls) := by
  refine (unlatched_acmd41Poll _ _ polls).bind fun result => ?_
  dsimp only
  split_ifs
  · exact Only.ret _
  · exact Only.step trivial fun _ => Only.step trivial fun _ => unlatched_finishIdentification polls

theorem unlatched_retryIdentification (switched : Bool) (out : Option U32) (polls : ℕ) :
    Only Unlatched (retryIdentification switched out polls) := by
  rw [retryIdentification]
  split_ifs
  · exact Only.step trivial fun _ => (unlatched_acmd41Poll _ _ polls).bind fun _ => Only.ret _
  · exact Only.ret _

theorem unlatched_initHighCapacity (out : Option U32) (polls : ℕ) :
    Only Unlatched (initHighCapacity out polls) := by
  refine Only.step trivial fun _ => (unlatched_voltageSwitch _ polls).bind fun switched => ?_
  refine (unlatched_retryIdentification switched out polls).bind fun ready => ?_
  split_ifs
  · exact Only.ret _
  · exact Only.step trivial fun _ => Only.step trivial fun _ => unlatched_finishIdentification polls

theorem unlatched_initVersion2 (out : Option U32) (polls : ℕ) :
    Only Unlatched (initVersion2 out polls) := by
  refine (unlatched_acmd41Poll _ _ polls).bind fun result => ?_
  dsimp only
  split_ifs
  · exact Only.ret _
  · exact Only.step trivial fun _ => Only.step trivial fun _ => unlatched_finishIdentification polls
  · exact unlatched_initHighCapacity _ polls

/-- The commands mark nothing. -/
theorem unmarked_sendCommand (cmd : U8) (arg : U32) (rt : SDResponseType) (out : Option U32)
    (polls : ℕ) : Only Unmarked (sendCommand cmd arg rt out polls) :=
  (unlatched_sendCommand cmd arg rt out polls).mono fun _ => Unlatched.unmarked

theorem unmarked_sendAppCommand (cmd : SDAppCommand) (arg : U32) (rt : SDResponseType)
    (out : Option U32) (polls : ℕ) : Only Unmarked (sendAppCommand cmd arg rt out polls) :=
  (unlatched_sendAppCommand cmd arg rt out polls).mono fun _ => Unlatched.unmarked

theorem unmarked_initLegacy (out : Option U32) (polls : ℕ) :
    Only Unmarked (initLegacy out polls) :=
  (unlatched_initLegacy out polls).mono fun _ => Unlatched.unmarked

theorem unmarked_initVersion2 (out : Option U32) (polls : ℕ) :
    Only Unmarked (initVersion2 out polls) :=
  (unlatched_initVersion2 out polls).mono fun _ => Unlatched.unmarked

/-! ### Failures in the log -/

/-- The mark of a `_sdio_clock_init` that has returned false. -/
def clockFailed : Event := ⟨.note (.clockInit false), ()⟩

/-- Some `_sdio_clock_init` has returned false. -/
def Failed (log : List Event) : Prop := clockFailed ∈ log

/-- No command has been sent since a `_sdio_clock_init` returned false. -/
def Silent (log : List Event) : Prop :=
  ∀ later earlier, log = later ++ clockFailed :: earlier →
    ∀ v : U16, (⟨.write .command v, ()⟩ : Event) ∉ later

/-- The run has not seen a failure, or has returned false with nothing sent since. -/
abbrev Careful (p : SdProg α) (s : Sd (List Event)) (Q : α → List Event → Prop) : Prop :=
  Holds (sdAct bus) (fun s => ¬ Failed s.dev) (fun a s => Q a s.dev) p s

theorem careful_of_unmarked {p : SdProg α} (hp : Only Unmarked p) (hs : ¬ Failed s.dev) :
    Careful p s fun _ log => ¬ Failed log :=
  only_log (I := fun log => ¬ Failed log) hp hs fun e r log he hlog hmem => by
    rcases List.mem_cons.mp hmem with heq | hmem
    · cases heq
      exact he
    · exact hlog hmem

theorem silent_of_not_failed {log : List Event} (h : ¬ Failed log) : Silent log := by
  rintro later earlier rfl
  exact absurd (List.mem_append_right _ List.mem_cons_self) h

/-- Right after the first failure. -/
theorem silent_cons_failed {log : List Event} (h : ¬ Failed log) : Silent (clockFailed :: log) := by
  intro later earlier heq v hv
  cases later with
  | nil => exact absurd hv (by simp)
  | cons e later =>
    rw [List.cons_append, List.cons.injEq] at heq
    exact absurd (heq.2 ▸ List.mem_append_right _ List.mem_cons_self) h

/-- What `sdio_init` and its parts owe: the call goes on only if nothing has failed. -/
def Owes (ok : Bool) (log : List Event) : Prop :=
  Silent log ∧ (ok = true → ¬ Failed log)

theorem plain_waitClockStableLoop (start : U64) :
    ∀ n, Only Plain (waitClockStableLoop start n)
  | 0 => plain_stuck
  | n + 1 => by
    refine Only.step ⟨trivial, trivial⟩ fun v => ?_
    split_ifs
    · refine Only.step ⟨trivial, trivial⟩ fun late => ?_
      split_ifs
      · exact Only.step ⟨trivial, trivial⟩ fun _ => Only.step ⟨trivial, trivial⟩ fun _ =>
          Only.step ⟨trivial, trivial⟩ fun _ =>
          Only.step ⟨trivial, trivial⟩ fun _ => Only.ret _
      · exact plain_waitClockStableLoop start n
    · exact Only.ret _

theorem plain_waitClockStable (polls : ℕ) : Only Plain (sdioWaitClockStable polls) :=
  Only.step ⟨trivial, trivial⟩ fun start => plain_waitClockStableLoop start polls

theorem plain_waitResetAll (start : U64) : ∀ n, Only Plain (waitResetAll start n)
  | 0 => plain_stuck
  | n + 1 => by
    refine Only.step ⟨trivial, trivial⟩ fun v => ?_
    split_ifs
    · refine Only.step ⟨trivial, trivial⟩ fun late => ?_
      split_ifs
      · exact Only.step ⟨trivial, trivial⟩ fun _ => Only.ret _
      · exact plain_waitResetAll start n
    · exact Only.ret _

theorem plain_readBaseClock (capabilities : U32) :
    Only Plain (readBaseClock capabilities) := by
  refine Only.step ⟨trivial, trivial⟩ fun version => Only.bind ?_ fun _ => ?_
  · rw [warnBaseClock]
    split_ifs
    · exact Only.perform ⟨trivial, trivial⟩
    · exact Only.ret _
  · split_ifs
    · exact Only.step ⟨trivial, trivial⟩ fun _ => Only.ret _
    · exact Only.ret _

theorem plain_startClock (divisor : U64) (polls : ℕ) : Only Plain (startClock divisor polls) := by
  refine (plain_modifyClockControl _).bind fun _ => (plain_modifyClockControl _).bind fun _ =>
    (plain_modifyClockControl _).bind fun _ => (plain_waitClockStable polls).bind fun _ => ?_
  split_ifs
  · exact Only.ret _
  refine (plain_modifyClockControl _).bind fun _ =>
    (plain_waitClockStable polls).bind fun _ => ?_
  split_ifs
  · exact Only.ret _
  · exact (plain_modifyClockControl _).bind fun _ => Only.ret _

theorem plain_powerUp (polls : ℕ) : Only Plain (powerUp polls) :=
  Only.step ⟨trivial, trivial⟩ fun _ => Only.step ⟨trivial, trivial⟩ fun _ =>
    Only.step ⟨trivial, trivial⟩ fun _ => Only.step ⟨trivial, trivial⟩ fun _ =>
    (plain_readBaseClock _).bind fun _ => Only.step ⟨trivial, trivial⟩ fun _ =>
    Only.step ⟨trivial, trivial⟩ fun _ => plain_startClock _ polls

theorem calm_setUpClock (polls : ℕ) : Only Calm (setUpClock polls) := by
  refine Only.bind (Only.step trivial fun _ => Only.perform trivial) fun _ => ?_
  refine Only.bind (Only.step trivial fun _ => Only.perform trivial) fun _ => ?_
  refine Only.step trivial fun _ => Only.step trivial fun _ => ?_
  split_ifs
  · exact Only.step trivial fun _ => Only.ret _
  · exact (plain_powerUp polls).mono fun _ h => h.1

theorem calm_clockInit (polls : ℕ) : Only Calm (clockInit polls) := by
  refine Only.step trivial fun _ => Only.step trivial fun start => ?_
  refine ((plain_waitResetAll start polls).mono fun _ h => h.1).bind fun reset => ?_
  split_ifs
  · exact Only.ret _
  · exact calm_setUpClock polls

theorem unmarked_clockInit (polls : ℕ) : Only Unmarked (clockInit polls) :=
  (calm_clockInit polls).mono fun _ => Calm.unmarked

theorem careful_clockInit (polls : ℕ) (hs : ¬ Failed s.dev) :
    Careful (sdioClockInit polls) s Owes := by
  refine Holds.bind (careful_of_unmarked (unmarked_clockInit polls) hs) fun ok s₁ h => ?_
  refine Holds.step h fun _ s₂ hact => ?_
  show Owes ok s₂.dev
  rw [sdAct_bus hact, Sd.after_dev]
  cases ok with
  | true =>
    have hnot : ¬ Failed (⟨.note (.clockInit true), ()⟩ :: s₁.dev) := by
      intro hmem
      rcases List.mem_cons.mp hmem with heq | hmem
      · exact absurd heq (by simp [clockFailed])
      · exact h hmem
    exact ⟨silent_of_not_failed hnot, fun _ => hnot⟩
  | false => exact ⟨silent_cons_failed h, fun hf => absurd hf (by simp)⟩

theorem careful_identifyStage1Loop (f8 polls : ℕ) : ∀ n (s : Sd (List Event)), ¬ Failed s.dev →
    Careful (identifyStage1Loop f8 polls n) s fun r => Owes r.1 := by
  intro n
  induction n with
  | zero => exact fun s hs => ⟨silent_of_not_failed hs, fun hf => absurd hf (by simp)⟩
  | succ n ih =>
    intro s hs
    refine Holds.bind (careful_of_unmarked (unmarked_sendCommand _ _ _ _ polls) hs)
      fun _ s₁ h₁ => ?_
    refine Holds.bind (careful_of_unmarked (unmarked_sendCommand _ _ _ _ polls) h₁)
      fun ⟨status, response⟩ s₂ h₂ => ?_
    dsimp only
    split_ifs
    · exact ⟨silent_of_not_failed h₂, fun _ => h₂⟩
    · refine Holds.bind (careful_clockInit polls h₂) fun ok s₃ h₃ => ?_
      cases ok with
      | true => exact ih s₃ (h₃.2 rfl)
      | false => exact ⟨h₃.1, fun hf => absurd hf (by simp)⟩
    · exact ⟨silent_of_not_failed h₂, fun _ => h₂⟩

/-- From a state without a failure, `sdio_init` does what it owes. -/
theorem careful_identify (polls : ℕ) (hs : ¬ Failed s.dev) :
    Careful (identify polls) s fun ok log => Silent log ∧ (Failed log → ok = false) := by
  refine Holds.bind (careful_identifyStage1Loop 1 polls 2 s hs) fun ⟨usable, f8⟩ s₁ h₁ => ?_
  cases usable with
  | false => exact ⟨h₁.1, fun _ => rfl⟩
  | true =>
    refine Holds.bind (careful_of_unmarked (unmarked_sendAppCommand _ _ _ _ polls) (h₁.2 rfl))
      fun inquiry s₂ h₂ => ?_
    obtain ⟨status, response⟩ := inquiry
    -- what follows does not set the clock up again
    have hspared : ∀ {p : SdProg Bool}, Only Unmarked p →
        Careful p s₂ fun ok log => Silent log ∧ (Failed log → ok = false) := fun hp =>
      Holds.mono (careful_of_unmarked hp h₂) (fun _ h => h)
        fun _ _ h => ⟨silent_of_not_failed h, fun hf => absurd hf h⟩
    dsimp only
    split_ifs
    · exact hspared (Only.ret _)
    · exact hspared (Only.ret _)
    · exact hspared (unmarked_initLegacy _ polls)
    · exact hspared (unmarked_initVersion2 _ polls)

/-! ### When the first set-up succeeds -/

/-- A reading that a clock set-up goes on after: no time-out, a card in the slot. -/
def Up : Event → Prop
  | ⟨.ticksElapsedMs _ _, late⟩ => late = false
  | ⟨.read .presentState, v⟩ => v >>> 16 &&& 1#32 = 1#32
  | _ => True

/-- The software reset and the internal clock were in time whenever they were asked
for, and Card Inserted read 1. -/
def ClockUp (log : List Event) : Prop := ∀ e ∈ log, Up e

theorem clockUp_cons {e : Event} {log : List Event} :
    ClockUp (e :: log) ↔ Up e ∧ ClockUp log := List.forall_mem_cons

theorem ends_waitResetAll (start : U64) : ∀ (n : ℕ) (s : Sd (List Event)), ClockUp s.dev →
    Ends (waitResetAll start n) s fun ok log => ok = true ↔ ClockUp log := by
  intro n
  induction n with
  | zero => exact fun s _ => Ends.step fun e => nomatch e
  | succ n ih =>
    intro s hs
    refine Ends.step fun v => ?_
    split_ifs
    · refine Ends.step fun late => ?_
      cases late with
      | true =>
        refine Ends.step fun _ => Ends.ret (iff_of_false (by simp) fun hup => ?_)
        exact absurd (clockUp_cons.mp (clockUp_cons.mp hup).2).1 (by simp [Up])
      | false => exact ih _ (clockUp_cons.mpr ⟨rfl, clockUp_cons.mpr ⟨trivial, hs⟩⟩)
    · exact Ends.ret (iff_of_true rfl (clockUp_cons.mpr ⟨trivial, hs⟩))

theorem ends_waitClockStableLoop (start : U64) : ∀ (n : ℕ) (s : Sd (List Event)), ClockUp s.dev →
    Ends (waitClockStableLoop start n) s fun ok log => ok = true ↔ ClockUp log := by
  intro n
  induction n with
  | zero => exact fun s _ => Ends.step fun e => nomatch e
  | succ n ih =>
    intro s hs
    refine Ends.step fun v => ?_
    split_ifs
    · refine Ends.step fun late => ?_
      cases late with
      | true =>
        refine Ends.step fun _ => Ends.step fun _ => Ends.step fun _ => Ends.step fun _ => ?_
        refine Ends.ret (iff_of_false (by simp) fun hup => ?_)
        have hlate := hup ⟨.ticksElapsedMs start 150#64, true⟩ (by simp)
        exact absurd hlate (by simp [Up])
      | false => exact ih _ (clockUp_cons.mpr ⟨rfl, clockUp_cons.mpr ⟨trivial, hs⟩⟩)
    · exact Ends.ret (iff_of_true rfl (clockUp_cons.mpr ⟨trivial, hs⟩))

/-- Actions that read nothing the set-up depends on. -/
def Steady : SdAction → Prop
  | .ticksElapsedMs _ _ => False
  | .read r => r ≠ .presentState
  | _ => True

theorem Steady.up {e : SdAction} (h : Steady e) (r : e.Answer) : Up ⟨e, r⟩ := by
  cases e with
  | read reg => cases reg <;> first | exact trivial | exact (h rfl).elim
  | ticksElapsedMs start ms => exact h.elim
  | _ => exact trivial

theorem ends_steady {p : SdProg α} (hp : Only Steady p) (hs : ClockUp s.dev) :
    Ends p s fun _ log => ClockUp log :=
  Holds.mono (only_log (I := ClockUp) hp hs fun _ r _ he hlog =>
    clockUp_cons.mpr ⟨he.up r, hlog⟩) (fun _ _ => trivial) fun _ _ h => h

theorem steady_read {r : Reg} (h : r ≠ .presentState) : Steady (.read r) := h

theorem steady_modifyClockControl (f : U16 → U16) : Only Steady (modifyClockControl f) :=
  Only.step (steady_read (by decide)) fun _ => Only.perform trivial

theorem ends_waitClockStable (polls : ℕ) (hs : ClockUp s.dev) :
    Ends (sdioWaitClockStable polls) s fun ok log => ok = true ↔ ClockUp log :=
  Ends.step fun start =>
    ends_waitClockStableLoop start polls _ (clockUp_cons.mpr ⟨trivial, hs⟩)

theorem ends_startClock (divisor : U64) (polls : ℕ) (hs : ClockUp s.dev) :
    Ends (startClock divisor polls) s fun ok log => ok = true ↔ ClockUp log := by
  refine Ends.bind (ends_steady (steady_modifyClockControl _) hs) fun _ s₁ h₁ => ?_
  refine Ends.bind (ends_steady (steady_modifyClockControl _) h₁) fun _ s₂ h₂ => ?_
  refine Ends.bind (ends_steady (steady_modifyClockControl _) h₂) fun _ s₃ h₃ => ?_
  refine Ends.bind (ends_waitClockStable polls h₃) fun stable s₄ h₄ => ?_
  cases stable with
  | false => exact h₄
  | true =>
    refine Ends.bind (ends_steady (steady_modifyClockControl _) (h₄.mp rfl)) fun _ s₅ h₅ => ?_
    refine Ends.bind (ends_waitClockStable polls h₅) fun stable s₆ h₆ => ?_
    cases stable with
    | false => exact h₆
    | true =>
      refine Ends.bind (ends_steady (steady_modifyClockControl _) (h₆.mp rfl)) fun _ s₇ h₇ => ?_
      exact Ends.ret (iff_of_true rfl h₇)

theorem steady_readBaseClock (capabilities : U32) : Only Steady (readBaseClock capabilities) := by
  refine Only.step (steady_read (by decide)) fun version => Only.bind ?_ fun _ => ?_
  · rw [warnBaseClock]
    split_ifs
    · exact Only.perform trivial
    · exact Only.ret _
  · split_ifs
    · exact Only.step trivial fun _ => Only.ret _
    · exact Only.ret _

theorem and_one_eq (v : U32) (h : v &&& 1#32 ≠ 0) : v &&& 1#32 = 1#32 := by
  have hv : (v &&& 1#32).toNat = v.toNat % 2 := by
    rw [BitVec.toNat_and]
    exact Nat.and_one_is_mod _
  have hne : (v &&& 1#32).toNat ≠ 0 := fun h0 => h (BitVec.eq_of_toNat_eq h0)
  apply BitVec.eq_of_toNat_eq
  show (v &&& 1#32).toNat = 1
  omega

theorem ends_setUpClock (polls : ℕ) (hs : ClockUp s.dev) :
    Ends (setUpClock polls) s fun ok log => ok = true ↔ ClockUp log := by
  have hpin : Only Steady sdioPinctrlInit :=
    Only.step (steady_read (by decide)) fun _ => Only.perform trivial
  have hcfg : Only Steady sdioCfgSelectSdPinTiming :=
    Only.step (steady_read (by decide)) fun _ => Only.perform trivial
  refine Ends.bind (ends_steady hpin hs) fun _ s₁ h₁ => ?_
  refine Ends.bind (ends_steady hcfg h₁) fun _ s₂ h₂ => ?_
  refine Ends.step fun present => Ends.step fun _ => ?_
  split_ifs with hcard
  · refine Ends.step fun _ => Ends.ret (iff_of_false (by simp) fun hup => ?_)
    have hin := hup ⟨.read .presentState, present⟩ (by simp)
    rw [Up, hcard] at hin
    exact absurd hin (by decide)
  · have h₃ : ClockUp (⟨.set .cardInserted (present >>> 16 &&& 1#32), ()⟩ ::
        ⟨.read .presentState, present⟩ :: s₂.dev) :=
      clockUp_cons.mpr ⟨trivial, clockUp_cons.mpr ⟨and_one_eq _ hcard, h₂⟩⟩
    refine Ends.step fun _ => Ends.step fun _ => Ends.step fun _ => Ends.step fun _ => ?_
    refine Ends.bind (ends_steady (steady_readBaseClock _) ?_) fun _ s₄ h₄ => ?_
    · exact clockUp_cons.mpr ⟨trivial, clockUp_cons.mpr ⟨trivial, clockUp_cons.mpr ⟨trivial,
        clockUp_cons.mpr ⟨trivial, h₃⟩⟩⟩⟩
    · refine Ends.step fun _ => Ends.step fun _ => ends_startClock _ polls ?_
      exact clockUp_cons.mpr ⟨trivial, clockUp_cons.mpr ⟨trivial, h₄⟩⟩

/-- The set-up succeeds exactly if everything it reads is as it should be. -/
theorem ends_clockInit (polls : ℕ) (hs : ClockUp s.dev) :
    Ends (clockInit polls) s fun ok log => ok = true ↔ ClockUp log := by
  refine Ends.step fun _ => Ends.step fun start => ?_
  refine Ends.bind (ends_waitResetAll start polls _
    (clockUp_cons.mpr ⟨trivial, clockUp_cons.mpr ⟨trivial, hs⟩⟩)) fun reset s₁ h₁ => ?_
  cases reset with
  | false => exact h₁
  | true => exact ends_setUpClock polls (h₁.mp rfl)

/-! ### Sending all the same -/

/-- A command can always be sent. -/
theorem runs_sendCommand (cmd : U8) (arg : U32) (rt : SDResponseType) (out : Option U32) (n : ℕ)
    (s : Sd (List Event)) : ∃ q s', Runs (sdAct bus) (sendCommand cmd arg rt out (n + 1)) s q s' ∧
      ∃ v log, s'.dev = ⟨.write .command v, ()⟩ :: log ∧ s.dev <:+ log := by
  have hstep : ∀ (e : SdAction) (r : e.Answer) (s : Sd (List Event)), s.Answers e r →
      sdAct bus e s r (s.after (⟨e, r⟩ :: s.dev) e) := fun _ _ _ h => sdAct_bus_of_answers h
  have hfree : ∀ s : Sd (List Event), ∃ s', Returns (sdAct bus) (waitCmdFree (n + 1)) s () s' :=
    fun s => ⟨_, .step (hstep (.read .presentState) 0#32 s trivial) (.ret () _)⟩
  have harg : ∀ s : Sd (List Event), ∃ s', Returns (sdAct bus) (writeArgument arg) s () s' :=
    fun s => ⟨_, .step (hstep (.write .argumentLow _) () s trivial)
      (.perform (hstep (.write .argumentHigh _) () _ trivial))⟩
  obtain ⟨s₁, h₁⟩ := hfree s
  obtain ⟨s₂, h₂⟩ := harg s₁
  refine ⟨_, _, (Runs.bind _ h₁).trans ((Runs.bind _ h₂).trans
    (.step (hstep (.write .command _) () s₂ trivial) (.refl _ _))), _, s₂.dev, rfl, ?_⟩
  exact (suffix_of_runs h₁).trans (suffix_of_runs h₂)

/-- Without polls the reset is never seen to clear. -/
theorem polls_pos {polls : ℕ} {ok : Bool} (h : Returns (sdAct bus) (clockInit polls) s ok s₁) :
    polls ≠ 0 := by
  rintro rfl
  have hnever : Ends (clockInit 0) s fun _ _ => False :=
    Ends.step fun _ => Ends.step fun _ => Ends.step fun e => nomatch e
  exact hnever.of_returns h

/-- `sdio_init` from the end of the first set-up on. -/
def afterClockInit (ok : Bool) (polls : ℕ) : SdProg Bool := do
  sd (.note (.clockInit ok))
  identify polls

theorem sdioInit_eq (polls : ℕ) :
    sdioInit polls = clockInit polls >>= fun ok => afterClockInit ok polls := by
  rw [sdioInit, sdioClockInit, bind_assoc']
  rfl

/-- After a failed set-up CMD0 is sent. -/
theorem runs_after_failure (n : ℕ) (s : Sd (List Event)) :
    ∃ q s', Runs (sdAct bus) (afterClockInit false (n + 1)) s q s' ∧ s.dev <:+ s'.dev ∧
      ¬ Silent s'.dev := by
  set s₁ := s.after (clockFailed :: s.dev) (.note (.clockInit false))
  obtain ⟨q, s', hrun, v, log, hdev, hlog⟩ := runs_sendCommand SDCommand.cmd0.index 0#32 .none none
    n s₁
  have hnote : sdAct bus (.note (.clockInit false)) s () s₁ := sdAct_bus_of_answers trivial
  have hident : ∃ q, Runs (sdAct bus) (identify (n + 1)) s₁ q s' :=
    ⟨_, Runs.bind _ (Runs.bind _ hrun)⟩
  obtain ⟨q', hident⟩ := hident
  refine ⟨q', s', .step hnote hident, ?_, fun hsilent => ?_⟩
  · rw [hdev]
    exact (List.suffix_cons _ _).trans (hlog.trans (List.suffix_cons _ _))
  · obtain ⟨later, hlater⟩ := hlog
    refine hsilent (⟨.write .command v, ()⟩ :: later) s.dev ?_ v List.mem_cons_self
    rw [hdev, ← hlater]
    rfl

/-- **`sdio_init` sends nothing after a failed clock set-up exactly if its first
set-up does not fail**: nothing is late, and a card is in the slot. -/
theorem init_silent_iff {polls : ℕ} {ok : Bool} (hs : s.dev = [])
    (hfirst : Returns (sdAct bus) (clockInit polls) s ok s₁) :
    (∀ q s', Runs (sdAct bus) (sdioInit polls) s q s' → s₁.dev <:+ s'.dev →
        Silent s'.dev ∧ (Failed s'.dev → q = .ret false)) ↔ ClockUp s₁.dev := by
  have hup : ClockUp s.dev := by
    rw [hs]
    exact fun e he => absurd he (by simp)
  have hok : ok = true ↔ ClockUp s₁.dev := (ends_clockInit polls hup).of_returns hfirst
  have hclean : ¬ Failed s.dev := by
    rw [hs]
    exact fun hf => absurd hf (by simp [Failed])
  have hclean₁ : ¬ Failed s₁.dev :=
    (careful_of_unmarked (unmarked_clockInit polls) hclean).of_returns hfirst
  rw [← hok, sdioInit_eq]
  constructor
  · intro h
    cases ok with
    | true => rfl
    | false =>
      -- a set-up that has failed is followed by CMD0 all the same
      obtain ⟨n, rfl⟩ := Nat.exists_eq_succ_of_ne_zero (polls_pos hfirst)
      obtain ⟨q, s', hrun, hlog, hnot⟩ := runs_after_failure n s₁
      exact absurd (h q s' ((Runs.bind _ hfirst).trans hrun) hlog).1 hnot
  · rintro rfl q s' hrun hlog
    have hrest := runs_resume hfirst hrun hlog
    have hcareful : Careful (afterClockInit true polls) s₁ fun ok log =>
        Silent log ∧ (Failed log → ok = false) := by
      refine Holds.step hclean₁ fun _ s₂ hact => careful_identify polls ?_
      rw [sdAct_bus hact, Sd.after_dev]
      intro hmem
      rcases List.mem_cons.mp hmem with heq | hmem
      · exact absurd heq (by simp [clockFailed])
      · exact hclean₁ hmem
    have hend := hcareful.of_runs hrest
    cases q with
    | ret b => exact ⟨hend.1, fun hf => by rw [hend.2 hf]⟩
    | vis e k => exact ⟨silent_of_not_failed hend.1, fun hf => absurd hf hend.1⟩

/-! ### An empty slot, and a card in it -/

theorem can_modifyClockControl (f : U16 → U16) : Can (modifyClockControl f) () :=
  .step 0#16 (fun _ => trivial) (.step () (fun _ => trivial) (.ret ()))

theorem can_waitClockStable : Can (sdioWaitClockStable 1) true :=
  .step 0#64 (fun _ => trivial) (.step 0xFFFF#16 (fun _ => trivial) (.ret true))

theorem can_startClock (divisor : U64) : Can (startClock divisor 1) true :=
  .bind (can_modifyClockControl _) (.bind (can_modifyClockControl _) (.bind
    (can_modifyClockControl _) (.bind can_waitClockStable (.bind (can_modifyClockControl _)
    (.bind can_waitClockStable (.bind (can_modifyClockControl _) (.ret true)))))))

/-- Card Inserted may read either way. -/
theorem can_clockInit (present : U32) (ok : Bool)
    (h : Can (if present >>> 16 &&& 1#32 = 0 then do
        sd (.uartPuts ("[SDIO] error: Card Inserted bit reads 0; no card detected" ++
          " (or card-detect logic is wrong for this controller).\r\n"))
        pure false
      else powerUp 1) ok) : Can (clockInit 1) ok := by
  refine .step () (fun _ => trivial) (.step 0#64 (fun _ => trivial) ?_)
  refine .bind (a := true) (.step 0#8 (fun _ => trivial) (.ret true)) ?_
  refine .bind (a := ()) (.step 0#32 (fun _ => trivial) (.step () (fun _ => trivial) (.ret ()))) ?_
  refine .bind (a := ()) (.step 0#32 (fun _ => trivial) (.step () (fun _ => trivial) (.ret ()))) ?_
  exact .step present (fun _ => trivial) (.step () (fun _ => trivial) h)

/-- Without a card the set-up fails. -/
theorem can_clockInit_empty : Can (clockInit 1) false :=
  can_clockInit 0#32 false (.step () (fun _ => trivial) (.ret false))

/-- With a card and nothing late it succeeds. -/
theorem can_clockInit_card : Can (clockInit 1) true := by
  refine can_clockInit 0x10000#32 true (.step 0#32 (fun _ => trivial) ?_)
  refine .step () (fun _ => trivial) (.step () (fun _ => trivial) (.step () (fun _ => trivial) ?_))
  refine .bind (a := 200#32) (.step 0#16 (fun _ => trivial) (.bind (.ret ()) ?_)) ?_
  · exact .step () (fun _ => trivial) (.ret 200#32)
  · refine .step () (fun _ => trivial) (.own (fun _ => ⟨_, rfl⟩) fun baseClock => ?_)
    exact can_startClock _

/-- With no card in the slot `sdio_init` goes on to send CMD0. -/
theorem not_init_silent : ¬ ∀ (polls : ℕ) (s : Sd (List Event)) (q : SdProg Bool)
    (s' : Sd (List Event)), s.dev = [] → Runs (sdAct bus) (sdioInit polls) s q s' →
    Silent s'.dev ∧ (Failed s'.dev → q = .ret false) := by
  intro h
  obtain ⟨s₁, hfirst⟩ := can_clockInit_empty blockCard
  obtain ⟨q, s', hrun, -, hnot⟩ := runs_after_failure 0 s₁
  refine hnot (h 1 blockCard q s' rfl ?_).1
  rw [sdioInit_eq]
  exact (Runs.bind _ hfirst).trans hrun

/-- With a card in the slot and nothing late it sends nothing after a failure. -/
theorem init_silent_card : ∃ s₁, Returns (sdAct bus) (clockInit 1) blockCard true s₁ ∧
    ∀ q s', Runs (sdAct bus) (sdioInit 1) blockCard q s' → s₁.dev <:+ s'.dev →
      Silent s'.dev ∧ (Failed s'.dev → q = .ret false) := by
  obtain ⟨s₁, hfirst⟩ := can_clockInit_card blockCard
  have hup : ClockUp s₁.dev :=
    ((ends_clockInit 1 (by simp [ClockUp, blockCard])).of_returns hfirst).mp rfl
  exact ⟨s₁, hfirst, (init_silent_iff rfl hfirst).mpr hup⟩

end GamingConsole
