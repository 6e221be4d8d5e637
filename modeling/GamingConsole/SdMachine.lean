/-
The driver on a machine.

`Sd δ` is the driver's own state (its globals and the caller's buffer) next to the
state of a device `δ`; a device is a relation on its states, which sees every
action of the driver (`sdAct`).  `bus` is the device of which nothing is known: it
answers as it pleases and keeps the log of all accesses.
-/
import GamingConsole.SdInit

namespace GamingConsole

open Prog

/-- The driver's state next to that of a device. -/
structure Sd (δ : Type) where
  var : (x : SdVar) → BitVec x.width
  buf : ℕ → U8
  dev : δ

/-- How a device takes an action: its state before, its answer, its state after. -/
abbrev Device (δ : Type) : Type := (e : SdAction) → δ → e.Answer → δ → Prop

namespace Sd

variable {δ : Type}

/-- The answers that the driver's own state gives. -/
def Answers (s : Sd δ) : (e : SdAction) → e.Answer → Prop
  | .get x, v => v = s.var x
  | .loadByte i, b => b = s.buf i
  | _, _ => True

/-- The state after an action that leaves the device in `d`. -/
def after (s : Sd δ) (d : δ) : SdAction → Sd δ
  | .set x v => { s with var := Function.update s.var x v, dev := d }
  | .storeByte i b => { s with buf := Function.update s.buf i b, dev := d }
  | _ => { s with dev := d }

@[simp] theorem after_dev (s : Sd δ) (d : δ) (e : SdAction) : (s.after d e).dev = d := by
  cases e <;> rfl

end Sd

/-- One action of the driver. -/
def sdAct {δ : Type} (D : Device δ) (e : SdAction) (s : Sd δ) (r : e.Answer) (s' : Sd δ) : Prop :=
  s.Answers e r ∧ ∃ d, D e s.dev r d ∧ s' = s.after d e

/-! ### Evaluating a run -/

/-- An answer for any action but `stuck`. -/
def SdAction.zero : (e : SdAction) → Option e.Answer
  | .read _ => some 0
  | .write _ _ => some ()
  | .get _ => some 0
  | .set _ _ => some ()
  | .loadByte _ => some 0
  | .storeByte _ _ => some ()
  | .getTicks => some 0
  | .ticksElapsedMs _ _ => some false
  | .delayMs _ => some ()
  | .uartPuts _ => some ()
  | .uartPutHex _ => some ()
  | .note _ => some ()
  | .stuck => none

namespace Sd

variable {δ : Type}

/-- The answer of the driver's own state, where it has one. -/
def own (s : Sd δ) : (e : SdAction) → e.Answer → e.Answer
  | .get x, _ => s.var x
  | .loadByte i, _ => s.buf i
  | _, r => r

theorem answers_own (s : Sd δ) (e : SdAction) (r : e.Answer) : s.Answers e (s.own e r) := by
  cases e <;> first | exact rfl | exact trivial

/-- Run on a device that settles its answers with `serve`. -/
def play (serve : (e : SdAction) → δ → Option (e.Answer × δ)) (e : SdAction) (s : Sd δ) :
    Option (e.Answer × Sd δ) :=
  (serve e s.dev).map fun r => (s.own e r.1, s.after r.2 e)

/-- What `play` does the device can do. -/
theorem sdAct_of_play {serve : (e : SdAction) → δ → Option (e.Answer × δ)} {D : Device δ}
    (hserve : ∀ e (s : Sd δ) r d, serve e s.dev = some (r, d) → D e s.dev (s.own e r) d)
    (e : SdAction) (s : Sd δ) (r : e.Answer) (s' : Sd δ) (h : play serve e s = some (r, s')) :
    sdAct D e s r s' := by
  obtain ⟨⟨r₀, d⟩, hs, heq⟩ := Option.map_eq_some_iff.mp h
  rw [Prod.mk.injEq] at heq
  obtain ⟨rfl, rfl⟩ := heq
  exact ⟨s.answers_own e r₀, d, hserve e s r₀ d hs, rfl⟩

end Sd

/-! ### A bus of which nothing is known -/

/-- An action and its answer. -/
abbrev Event : Type := Σ e : SdAction, e.Answer

/-- Any answer will do; the log grows at its head. -/
def bus : Device (List Event) := fun e log r log' => log' = ⟨e, r⟩ :: log

theorem sdAct_bus {e : SdAction} {s s' : Sd (List Event)} {r : e.Answer} (h : sdAct bus e s r s') :
    s' = s.after (⟨e, r⟩ :: s.dev) e := by
  obtain ⟨-, d, rfl, hs⟩ := h
  exact hs

/-- The device answers as it is asked to. -/
theorem sdAct_bus_of_answers {e : SdAction} {s : Sd (List Event)} {r : e.Answer}
    (h : s.Answers e r) : sdAct bus e s r (s.after (⟨e, r⟩ :: s.dev) e) :=
  ⟨h, _, rfl, rfl⟩

/-- A program that performs only actions in `P` adds only such actions to the log. -/
theorem only_log {α : Type} {P : SdAction → Prop} {p : SdProg α} {s : Sd (List Event)}
    {I : List Event → Prop} (hp : Only P p) (hs : I s.dev)
    (hkeep : ∀ e (r : e.Answer) log, P e → I log → I (⟨e, r⟩ :: log)) :
    Holds (sdAct bus) (fun s => I s.dev) (fun _ s => I s.dev) p s :=
  hp.holds hs fun e s r s' he hI hact => by
    rw [sdAct_bus hact, Sd.after_dev]
    exact hkeep e r s.dev he hI

variable {s : Sd (List Event)}

/-- No assertion about the states in between. -/
abbrev Ends {α : Type} (p : SdProg α) (s : Sd (List Event)) (Q : α → List Event → Prop) : Prop :=
  Holds (sdAct bus) (fun _ => True) (fun a s => Q a s.dev) p s

/-- One action, whatever it is answered. -/
theorem Ends.step {α : Type} {e : SdAction} {f : e.Answer → SdProg α}
    {Q : α → List Event → Prop} (h : ∀ r, Ends (f r) (s.after (⟨e, r⟩ :: s.dev) e) Q) :
    Ends (sd e >>= f) s Q :=
  Holds.step trivial fun r s' hact => by
    rw [sdAct_bus hact]
    exact h r

theorem Ends.perform {e : SdAction} {Q : e.Answer → List Event → Prop}
    (h : ∀ r, Q r (⟨e, r⟩ :: s.dev)) : Ends (sd e) s Q :=
  ⟨trivial, fun r s' hact => by
    show Q r s'.dev
    rw [sdAct_bus hact, Sd.after_dev]
    exact h r⟩

theorem Ends.bind {α β : Type} {p : SdProg α} {f : α → SdProg β} {Q : α → List Event → Prop}
    {Q' : β → List Event → Prop} (hp : Ends p s Q)
    (hf : ∀ a s', Q a s'.dev → Ends (f a) s' Q') : Ends (p >>= f) s Q' :=
  Holds.bind hp hf

theorem Ends.ret {α : Type} {a : α} {Q : α → List Event → Prop} (h : Q a s.dev) :
    Ends (pure a) s Q := h

/-! ### What a device can bring about -/

/-- From whatever state with `I` the device can make `p` return `a`, and keep `I`. -/
def Brings {δ α : Type} (D : Device δ) (I : Sd δ → Prop) (p : SdProg α) (a : α) : Prop :=
  ∀ s, I s → ∃ s', Returns (sdAct D) p s a s' ∧ I s'

namespace Brings

variable {δ α β : Type} {D : Device δ} {I : Sd δ → Prop} {a : α} {b : β}

theorem ret (a : α) : Brings D I (pure a) a := fun s hs => ⟨s, .ret a s, hs⟩

theorem bind {p : SdProg α} {f : α → SdProg β} (hp : Brings D I p a) (hf : Brings D I (f a) b) :
    Brings D I (p >>= f) b := by
  intro s hs
  obtain ⟨s', h, hs'⟩ := hp s hs
  obtain ⟨s'', h', hs''⟩ := hf s' hs'
  exact ⟨s'', h.bind h', hs''⟩

/-- The device has an answer. -/
theorem step {e : SdAction} {f : e.Answer → SdProg β} {Q : e.Answer → Prop}
    (h : ∀ s, I s → ∃ r s', Q r ∧ sdAct D e s r s' ∧ I s')
    (hf : ∀ r, Q r → Brings D I (f r) b) : Brings D I (sd e >>= f) b := by
  intro s hs
  obtain ⟨r, s₁, hr, hact, hs₁⟩ := h s hs
  obtain ⟨s', hret, hs'⟩ := hf r hr s₁ hs₁
  exact ⟨s', .step hact hret, hs'⟩

end Brings

/-! ### What the controller can bring about -/

/-- Whatever state `p` starts in, the controller can make it return `a`. -/
def Can {α : Type} (p : SdProg α) (a : α) : Prop := ∀ s, ∃ s', Returns (sdAct bus) p s a s'

namespace Can

variable {α β : Type} {a : α} {b : β}

theorem of_brings {p : SdProg α} (h : Brings bus (fun _ => True) p a) : Can p a := by
  intro s
  obtain ⟨s', hret, -⟩ := h s trivial
  exact ⟨s', hret⟩

theorem ret (a : α) : Can (pure a) a := fun s => ⟨s, .ret a s⟩

theorem bind {p : SdProg α} {f : α → SdProg β} (hp : Can p a) (hf : Can (f a) b) :
    Can (p >>= f) b := by
  intro s
  obtain ⟨s', h⟩ := hp s
  obtain ⟨s'', h'⟩ := hf s'
  exact ⟨s'', h.bind h'⟩

/-- The controller chooses the answer. -/
theorem step {e : SdAction} {f : e.Answer → SdProg β} (r : e.Answer)
    (hr : ∀ s : Sd (List Event), s.Answers e r) (hf : Can (f r) b) : Can (sd e >>= f) b := by
  intro s
  obtain ⟨s', h⟩ := hf (s.after (⟨e, r⟩ :: s.dev) e)
  exact ⟨s', .step (sdAct_bus_of_answers (hr s)) h⟩

/-- The driver's own state gives the answer. -/
theorem own {e : SdAction} {f : e.Answer → SdProg β}
    (hr : ∀ s : Sd (List Event), ∃ r, s.Answers e r) (hf : ∀ r, Can (f r) b) :
    Can (sd e >>= f) b := by
  intro s
  obtain ⟨r, h⟩ := hr s
  obtain ⟨s', h'⟩ := hf r (s.after (⟨e, r⟩ :: s.dev) e)
  exact ⟨s', .step (sdAct_bus_of_answers h) h'⟩

end Can

/-- The log is empty, and the driver has found a card addressed by blocks. -/
def blockCard : Sd (List Event) :=
  { var := fun
      | .ccs => 1#32
      | _ => 0
    buf := fun _ => 0
    dev := [] }

/-! ### What the helpers do -/

/-- Actions that neither set up a transfer nor move data nor acknowledge an event: reads
of other registers than the data port, the handling of errors, messages. -/
def Polling : SdAction → Prop
  | .read r => r ≠ .bufferData0
  | .write r _ => r = .softwareReset ∨ r = .errorInterruptStatus
  | .get _ => True
  | .getTicks => True
  | .ticksElapsedMs _ _ => True
  | .uartPuts _ => True
  | .uartPutHex _ => True
  | .stuck => True
  | _ => False

/-- Actions that are polling, or acknowledge an event. -/
def Acking (e : SdAction) : Prop := Polling e ∨ ∃ v, e = .write .normalInterruptStatus v

theorem polling_read {r : Reg} (h : r ≠ .bufferData0) : Polling (.read r) := h

theorem polling_stuck {α : Type} : Only Polling (sdStuck : SdProg α) :=
  Only.step trivial fun e => nomatch e

theorem polling_waitCmdFree : ∀ n, Only Polling (waitCmdFree n)
  | 0 => polling_stuck
  | n + 1 => Only.step (polling_read (by decide)) fun present => by
    split
    · exact polling_waitCmdFree n
    · exact Only.ret _

theorem polling_waitLinesFree : ∀ n, Only Polling (waitLinesFree n)
  | 0 => polling_stuck
  | n + 1 => Only.step (polling_read (by decide)) fun present => by
    split
    · exact polling_waitLinesFree n
    · refine Only.step (polling_read (by decide)) fun present => ?_
      split
      · exact polling_waitLinesFree n
      · exact Only.ret _

theorem polling_waitStatus (mask : U16) : ∀ n, Only Polling (waitStatus mask n)
  | 0 => polling_stuck
  | n + 1 => by
    refine Only.step (polling_read (by decide)) fun normalStatus => ?_
    refine Only.step (polling_read (by decide)) fun errorStatus => ?_
    split
    · exact polling_waitStatus mask n
    · exact Only.ret _

theorem polling_resetLineLoop (bit : U8) (msg : String) (start : U64) :
    ∀ n, Only Polling (resetLineLoop bit msg start n)
  | 0 => polling_stuck
  | n + 1 => by
    refine Only.step (polling_read (by decide)) fun v => ?_
    split
    · refine Only.step trivial fun late => ?_
      split
      · exact Only.step trivial fun _ => Only.step (polling_read (by decide)) fun _ =>
          Only.step trivial fun _ => Only.step trivial fun _ => Only.ret _
      · exact polling_resetLineLoop bit msg start n
    · exact Only.ret _

theorem polling_resetLine (bit : U8) (msg : String) (n : ℕ) : Only Polling (resetLine bit msg n) :=
  Only.step (Or.inl rfl) fun _ => Only.step trivial fun _ => polling_resetLineLoop bit msg _ n

theorem dataError_ne_success (errorStatus : U16) : dataError errorStatus ≠ .success := by
  rw [dataError]
  split_ifs <;> simp

theorem commandError_ne_success (errorStatus : U16) : commandError errorStatus ≠ .success := by
  rw [commandError]
  split_ifs <;> simp

theorem polling_failData (errorStatus : U16) (n : ℕ) : Only Polling (failData errorStatus n) :=
  Only.step (Or.inr rfl) fun _ => (polling_resetLine _ _ n).bind fun _ => Only.ret _

theorem polling_readResponse (responseType : SDResponseType) (out : Option U32) :
    Only Polling (readResponse responseType out) := by
  rw [readResponse]
  split
  · exact Only.step (polling_read (by decide)) fun _ => Only.ret _
  · exact Only.ret _

theorem acking_of_polling {α : Type} {p : SdProg α} (hp : Only Polling p) : Only Acking p :=
  hp.mono fun _ => Or.inl

theorem acking_finishTransfer (n : ℕ) : Only Acking (finishTransfer n) := by
  refine (acking_of_polling (polling_waitStatus _ n)).bind fun ⟨normalStatus, errorStatus⟩ => ?_
  dsimp only
  split
  · exact acking_of_polling (polling_failData errorStatus n)
  · exact Only.step (Or.inr ⟨_, rfl⟩) fun _ => Only.ret _

theorem acking_startBlock (isRead : Bool) (i n : ℕ) : Only Acking (startBlock isRead i n) := by
  rw [startBlock]
  split
  · refine (acking_of_polling (polling_waitStatus _ n)).bind fun ⟨normalStatus, errorStatus⟩ => ?_
    dsimp only
    split
    · exact (acking_of_polling (polling_failData errorStatus n)).bind fun _ => Only.ret _
    · exact Only.step (Or.inr ⟨_, rfl⟩) fun _ => Only.ret _
  · exact Only.ret _

theorem polling_reportDataError (who : String) (status : SDCommandStatus) :
    Only Polling (sdioReportDataError who status) :=
  Only.step trivial fun _ => Only.step trivial fun _ => Only.step trivial fun _ =>
    Only.perform trivial

theorem polling_checkCardStatus (who : String) (status : U32) :
    Only Polling (sdioCheckCardStatus who status) := by
  rw [sdioCheckCardStatus]
  split
  · exact Only.ret _
  · exact Only.step trivial fun _ => Only.step trivial fun _ => Only.step trivial fun _ =>
      Only.step trivial fun _ => Only.step trivial fun _ => Only.ret _

end GamingConsole
