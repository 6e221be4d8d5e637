/-
Whose Transfer Complete it is.

`Latch` is a controller that keeps apart what the status register merges: which
commands still owe a Transfer Complete, which have raised theirs, and which were
reported as successful before they did.  A busy response (CMD7) owes one as a data
command does, and `_send_command` leaves it latched, so that the first data command
after `sdio_init` can take it for its own (`not_complete_own`).

* `sure_call` — a call that finds nothing latched and nothing owed (`Latch.Settled`)
  waits for its own Transfer Complete, whatever the timing, and a success leaves the
  controller settled for the next;
* `might_call` — a call that finds anything else need not;
* **`complete_own_iff`** — after `sdio_init` only the sessions that transfer nothing wait
  for their own with every timing, and of the later calls those that find the controller
  settled.
-/
import GamingConsole.SdEvents
import GamingConsole.SdClock
import GamingConsole.SdTransfer

namespace GamingConsole

open Prog Relation

/-- The controller's status.  Commands are numbered as they are sent, `serial` being
the last; `due` and `raised` list those whose Transfer Complete is still to come and
those that have raised it, `failed` the data commands that ended with an error, `early`
those reported as successful before their Transfer Complete. -/
structure Latch where
  normal : U16
  error : U16
  serial : ℕ
  due : List ℕ
  raised : List ℕ
  failed : List ℕ
  early : List ℕ

/-- Transfer Complete. -/
def transferComplete : U16 := 1#16 <<< 1

/-- What the controller does on its own.  A command raises its Transfer Complete at
any time after it was sent; only that of a data command that has failed may never come. -/
inductive LatchEvent : Latch → Latch → Prop where
  | complete {l : Latch} (i : ℕ) (h : i ∈ l.due) : LatchEvent l
      { l with
        due := l.due.erase i
        raised := i :: l.raised
        normal := l.normal ||| transferComplete }
  | abort {l : Latch} (i : ℕ) (h : i ∈ l.failed) : LatchEvent l { l with due := l.due.erase i }
  | other {l : Latch} (bits : U16) (h : bits &&& transferComplete = 0) :
      LatchEvent l { l with normal := l.normal ||| bits }
  | error {l : Latch} (bits : U16) : LatchEvent l { l with error := bits }

/-- Data Present Select. -/
def hasData (command : U16) : Bool := command.getLsbD 5

/-- Response Type Select 11b: a response with busy. -/
def hasBusy (command : U16) : Bool := command &&& 3#16 == 3#16

/-- How the controller answers.  Status bits latch until they are written with 1. -/
def Latch.answer : Device Latch
  | .read .normalInterruptStatus, l, v, l' => v = l.normal ∧ l' = l
  | .read .errorInterruptStatus, l, v, l' => v = l.error ∧ l' = l
  | .write .normalInterruptStatus v, l, _, l' => l' = { l with normal := l.normal &&& ~~~v }
  | .write .errorInterruptStatus v, l, _, l' => l' = { l with error := l.error &&& ~~~v }
  | .write .command v, l, _, l' =>
    l' = { l with
      serial := l.serial + 1
      due := if hasData v || hasBusy v then (l.serial + 1) :: l.due else l.due }
  | .note (.dataCommand status), l, _, l' =>
    l' = if status = .success then
      { l with early := if l.serial ∈ l.raised then l.early else l.serial :: l.early }
    else { l with failed := l.serial :: l.failed }
  | _, l, _, l' => l' = l

/-- The controller as a device. -/
def latch : Device Latch := eventful LatchEvent Latch.answer

/-- No Transfer Complete is latched, and none is still to come. -/
def Latch.Settled (l : Latch) : Prop := l.normal &&& transferComplete = 0 ∧ l.due = []

/-- Commands that have not been sent owe nothing and have raised nothing. -/
def Latch.Numbered (l : Latch) : Prop :=
  (∀ i ∈ l.due, i ≤ l.serial) ∧ ∀ i ∈ l.raised, i ≤ l.serial

/-! ### Sessions -/

/-- A call of the driver after `sdio_init`. -/
inductive SdCall where
  | read (lba count : U32)
  | write (lba count : U32)

/-- The number of blocks. -/
def SdCall.count : SdCall → U32
  | .read _ count => count
  | .write _ count => count

def SdCall.prog : SdCall → ℕ → SdProg Bool
  | .read lba count => sdioRead lba count
  | .write lba count => sdioWrite lba count

/-- The calls, one after the other. -/
def sdCalls (polls : ℕ) : List SdCall → SdProg Unit
  | [] => pure ()
  | call :: calls => do
    let _ ← call.prog polls
    sdCalls polls calls

/-- `sdio_init`, then the calls. -/
def session (polls : ℕ) (calls : List SdCall) : SdProg Unit := do
  let _ ← sdioInit polls
  sdCalls polls calls

variable {s : Sd Latch} {l l' : Latch} {c : ℕ}

/-! ### One data command -/

/-- Nothing was reported too early. -/
def Clean (s : Sd Latch) : Prop := s.dev.early = []

/-- Nothing is latched or owed either. -/
def NothingOwed (s : Sd Latch) : Prop := Clean s ∧ s.dev.Settled

/-- The command `c` is the last one sent, nothing else owes a Transfer Complete, and
one that is latched is its own. -/
structure Owning (c : ℕ) (s : Sd Latch) : Prop where
  serial : s.dev.serial = c
  due : s.dev.due = [c] ∨ s.dev.due = []
  latched : s.dev.normal &&& transferComplete ≠ 0 → c ∈ s.dev.raised ∧ s.dev.due = []
  early : s.dev.early = []

/-- The command `c` has raised its Transfer Complete, and nothing is owed. -/
def Completed (c : ℕ) (s : Sd Latch) : Prop := Owning c s ∧ c ∈ s.dev.raised ∧ s.dev.due = []

/-- The same with the status bit acknowledged. -/
def Finished (c : ℕ) (s : Sd Latch) : Prop := Completed c s ∧ s.dev.Settled

theorem clean_event : EventStable LatchEvent Clean := by
  intro s l' h he
  cases he <;> exact h

theorem settled_event {l l' : Latch} (h : l.Settled) (he : LatchEvent l l') : l'.Settled := by
  obtain ⟨hnormal, hdue⟩ := h
  cases he with
  | complete i hi =>
    rw [hdue] at hi
    exact absurd hi List.not_mem_nil
  | abort i hi => exact ⟨hnormal, by rw [hdue]; rfl⟩
  | other bits hbits =>
    refine ⟨?_, hdue⟩
    show (l.normal ||| bits) &&& transferComplete = 0
    rw [BitVec.and_or_distrib_right, hnormal, hbits]
    rfl
  | error bits => exact ⟨hnormal, hdue⟩

theorem nothingOwed_event : EventStable LatchEvent NothingOwed :=
  fun s l' h he => ⟨clean_event s l' h.1 he, settled_event h.2 he⟩

theorem owning_event : EventStable LatchEvent (Owning c) := by
  intro s l' h he
  cases he with
  | complete i hi =>
    rcases h.due with hdue | hdue
    · obtain rfl : i = c := List.mem_singleton.mp (hdue ▸ hi)
      have herase : s.dev.due.erase i = [] := by rw [hdue, List.erase_cons_head]
      exact ⟨h.serial, Or.inr herase, fun _ => ⟨List.mem_cons_self, herase⟩, h.early⟩
    · rw [hdue] at hi
      exact absurd hi List.not_mem_nil
  | abort i hi =>
    have herase : ∀ {due : List ℕ}, due = [] → due.erase i = [] := by
      rintro _ rfl
      rfl
    refine ⟨h.serial, ?_, fun hne => ⟨(h.latched hne).1, herase (h.latched hne).2⟩, h.early⟩
    show s.dev.due.erase i = [c] ∨ s.dev.due.erase i = []
    rcases h.due with hdue | hdue
    · rw [hdue]
      by_cases hic : c = i
      · rw [hic, List.erase_cons_head]
        exact Or.inr rfl
      · exact Or.inl (List.erase_of_not_mem fun hmem => hic (List.mem_singleton.mp hmem).symm)
    · exact Or.inr (herase hdue)
  | other bits hbits =>
    refine ⟨h.serial, h.due, fun hne => h.latched fun h0 => hne ?_, h.early⟩
    show (s.dev.normal ||| bits) &&& transferComplete = 0
    rw [BitVec.and_or_distrib_right, h0, hbits]
    rfl
  | error bits => exact ⟨h.serial, h.due, h.latched, h.early⟩

theorem completed_event : EventStable LatchEvent (Completed c) := by
  intro s l' h he
  refine ⟨owning_event s l' h.1 he, ?_⟩
  cases he with
  | complete i hi =>
    rw [h.2.2] at hi
    exact absurd hi List.not_mem_nil
  | abort i hi => exact ⟨h.2.1, by show s.dev.due.erase i = []; rw [h.2.2]; rfl⟩
  | other bits hbits => exact h.2
  | error bits => exact h.2

theorem finished_event : EventStable LatchEvent (Finished c) :=
  fun s l' h he => ⟨completed_event s l' h.1 he, settled_event h.2 he⟩

/-- Reads and the handling of errors leave all but the error status alone. -/
theorem readStable_latch {I : Sd Latch → Prop} (hI : EventStable LatchEvent I) :
    ReadStable Latch.answer I := by
  intro e s r l' he hs hans
  cases e with
  | read reg =>
    cases reg <;> first
      | exact (he rfl).elim
      | (obtain rfl : l' = s.dev := hans
         exact hs)
      | (obtain rfl : l' = s.dev := hans.2
         exact hs)
  | write reg v =>
    rcases he with rfl | rfl
    · obtain rfl : l' = s.dev := hans
      exact hs
    · obtain rfl : l' = _ := hans
      exact hI s _ hs (.error _)
  | get x | getTicks | ticksElapsedMs start ms | uartPuts msg | uartPutHex v =>
    obtain rfl : l' = s.dev := hans
    exact hs
  | stuck => exact nomatch r
  | _ => exact he.elim

/-- Every action but the sending of a command and the marks. -/
def Within : SdAction → Prop
  | .write r _ => r ≠ .command
  | .note _ => False
  | _ => True

theorem Polling.within {e : SdAction} (h : Polling e) : Within e := by
  cases e with
  | write reg v => rcases h with rfl | rfl <;> exact nofun
  | note m => exact h
  | _ => exact trivial

theorem within_write {r : Reg} {v : BitVec r.width} (h : r ≠ .command) : Within (.write r v) := h

theorem within_moveWord (isRead : Bool) (offset : ℕ) : Only Within (moveWord isRead offset) := by
  cases isRead with
  | true =>
    exact Only.step trivial fun _ => Only.step trivial fun _ => Only.step trivial fun _ =>
      Only.step trivial fun _ => Only.perform trivial
  | false =>
    exact Only.step trivial fun _ => Only.step trivial fun _ => Only.step trivial fun _ =>
      Only.step trivial fun _ => Only.perform (within_write (by decide))

theorem within_setUpTransfer (arg : U32) (count : U16) (isRead : Bool) :
    Only Within (setUpTransfer arg count isRead) := by
  refine Only.step trivial fun _ => Only.step (within_write (by decide)) fun _ =>
    Only.step (within_write (by decide)) fun _ => Only.bind ?_ fun _ => ?_
  · exact Only.step (within_write (by decide)) fun _ => Only.perform (within_write (by decide))
  · exact Only.step trivial fun _ => Only.perform (within_write (by decide))

/-- What such an action leaves alone: all but the latched bits, of which none is set. -/
theorem within_answer {e : SdAction} {r : e.Answer} (he : Within e)
    (hans : Latch.answer e l r l') :
    l'.serial = l.serial ∧ l'.due = l.due ∧ l'.raised = l.raised ∧ l'.early = l.early ∧
      (l'.normal &&& transferComplete ≠ 0 → l.normal &&& transferComplete ≠ 0) := by
  have hsame : ∀ {l'}, l' = l → l'.serial = l.serial ∧ l'.due = l.due ∧ l'.raised = l.raised ∧
      l'.early = l.early ∧
      (l'.normal &&& transferComplete ≠ 0 → l.normal &&& transferComplete ≠ 0) := by
    rintro _ rfl
    exact ⟨rfl, rfl, rfl, rfl, fun h => h⟩
  cases e with
  | read reg => cases reg <;> first | exact hsame hans | exact hsame hans.2
  | write reg v =>
    cases reg <;> first
      | exact (he rfl).elim
      | exact hsame hans
      | (obtain rfl : l' = _ := hans
         refine ⟨rfl, rfl, rfl, rfl, fun hne h0 => hne ?_⟩
         first
           | exact h0
           | (show l.normal &&& ~~~v &&& transferComplete = 0
              rw [BitVec.and_assoc, BitVec.and_comm (~~~v), ← BitVec.and_assoc, h0]
              exact BitVec.zero_and))
  | note m => exact he.elim
  | stuck => exact nomatch r
  | _ => exact hsame hans

theorem clean_within {e : SdAction} {r : e.Answer} (he : Within e) (hs : Clean s)
    (hans : Latch.answer e s.dev r l') : Clean (s.after l' e) := by
  rw [Clean, Sd.after_dev, (within_answer he hans).2.2.2.1]
  exact hs

theorem settled_within {e : SdAction} {r : e.Answer} (he : Within e) (hs : l.Settled)
    (hans : Latch.answer e l r l') : l'.Settled := by
  obtain ⟨-, h2, -, -, h5⟩ := within_answer he hans
  exact ⟨not_not.mp fun hne => h5 hne hs.1, h2.trans hs.2⟩

theorem nothingOwed_within {e : SdAction} {r : e.Answer} (he : Within e) (hs : NothingOwed s)
    (hans : Latch.answer e s.dev r l') : NothingOwed (s.after l' e) := by
  refine ⟨clean_within he hs.1 hans, ?_⟩
  rw [Sd.after_dev]
  exact settled_within he hs.2 hans

theorem owning_within {e : SdAction} {r : e.Answer} (he : Within e) (hs : Owning c s)
    (hans : Latch.answer e s.dev r l') : Owning c (s.after l' e) := by
  obtain ⟨h1, h2, h3, h4, h5⟩ := within_answer he hans
  refine ⟨?_, ?_, ?_, ?_⟩ <;> rw [Sd.after_dev]
  · exact h1.trans hs.serial
  · rw [h2]
    exact hs.due
  · intro hne
    rw [h3, h2]
    exact hs.latched (h5 hne)
  · exact h4.trans hs.early

theorem completed_within {e : SdAction} {r : e.Answer} (he : Within e) (hs : Completed c s)
    (hans : Latch.answer e s.dev r l') : Completed c (s.after l' e) := by
  obtain ⟨-, h2, h3, -⟩ := within_answer he hans
  refine ⟨owning_within he hs.1 hans, ?_⟩
  rw [Sd.after_dev, h2, h3]
  exact hs.2

/-- The last Transfer Complete is acknowledged. -/
theorem Completed.acknowledge {u : Unit} (hs : Completed c s)
    (hans : Latch.answer (.write .normalInterruptStatus (1#16 <<< 1)) s.dev u l') :
    Finished c (s.after l' (.write .normalInterruptStatus (1#16 <<< 1))) := by
  refine ⟨completed_within (within_write (by decide)) hs hans, ?_⟩
  obtain rfl : l' = _ := hans
  refine ⟨?_, hs.2.2⟩
  show s.dev.normal &&& ~~~(1#16 <<< 1) &&& transferComplete = 0
  rw [BitVec.and_assoc, show ~~~(1#16 <<< 1) &&& transferComplete = (0 : U16) by decide]
  exact BitVec.and_zero

theorem sure_failData_latch {errorStatus : U16} {polls : ℕ} (hs : Owning c s) :
    Sure LatchEvent Latch.answer (failData errorStatus polls) s fun status s' =>
      Owning c s' ∧ status ≠ .success := by
  refine Sure.step hs owning_event fun s hs _ d _ hans => ?_
  refine Sure.bind (Sure.only (polling_resetLine _ _ polls)
    (owning_within (within_write (by decide)) hs hans) owning_event
    fun e s r d he hs hans => owning_within he.within hs hans) fun _ s hs => ?_
  exact Sure.ret ⟨hs, dataError_ne_success errorStatus⟩

theorem sure_finishTransfer_latch {polls : ℕ} (hs : Owning c s) :
    Sure LatchEvent Latch.answer (finishTransfer polls) s fun status s' =>
      Owning c s' ∧ (status = .success → Finished c s') := by
  refine Sure.bind (Sure.waitStatus (F := Completed c) owning_event
    (readStable_latch owning_event) completed_event (readStable_latch completed_event) ?_
    polls s hs)
    fun ⟨normalStatus, errorStatus⟩ s h => ?_
  · rintro s r d hs ⟨rfl, rfl⟩ hbit
    exact ⟨hs, hs.latched hbit⟩
  · dsimp only
    split
    · exact Sure.mono (sure_failData_latch h.1) fun _ _ h => ⟨h.1, fun hsuc => absurd hsuc h.2⟩
    · rename_i herr
      refine Sure.step (h.2 (not_not.mp herr)) completed_event fun s hs _ d _ hans => ?_
      have hend := hs.acknowledge hans
      exact Sure.ret ⟨hend.1.1, fun _ => hend⟩

theorem sure_startBlock_latch {isRead : Bool} {i polls : ℕ} (hs : Owning c s) :
    Sure LatchEvent Latch.answer (startBlock isRead i polls) s fun failed s' =>
      Owning c s' ∧ failed ≠ some .success := by
  rw [startBlock]
  split
  · refine Sure.bind (Sure.polling (polling_waitStatus _ polls) hs owning_event
      (readStable_latch owning_event)) fun status s h => ?_
    obtain ⟨normalStatus, errorStatus⟩ := status
    dsimp only
    split
    · refine Sure.bind (sure_failData_latch h) fun status s h => ?_
      exact Sure.ret ⟨h.1, fun heq => h.2 (Option.some_inj.mp heq)⟩
    · refine Sure.step h owning_event fun s hs _ d _ hans => ?_
      exact Sure.ret ⟨owning_within (within_write (by decide)) hs hans, by simp⟩
  · exact Sure.ret ⟨hs, by simp⟩

theorem sure_moveWords_latch {isRead : Bool} {polls : ℕ} : ∀ m i (s : Sd Latch), Owning c s →
    Sure LatchEvent Latch.answer (moveWords isRead polls m i) s fun failed s' =>
      Owning c s' ∧ failed ≠ some .success := by
  intro m
  induction m with
  | zero => exact fun i s hs => Sure.ret ⟨hs, by simp⟩
  | succ m ih =>
    intro i s hs
    refine Sure.bind (sure_startBlock_latch hs) fun failed s h => ?_
    cases failed with
    | some status => exact Sure.ret h
    | none =>
      refine Sure.bind (Sure.only (within_moveWord isRead _) h.1 owning_event
        fun e s r d he hs hans => owning_within he hs hans) fun _ s hs => ?_
      exact ih (i + 1) s hs

/-- The data phase ends with success only after the command's own Transfer Complete. -/
theorem sure_dataPhase_latch {isRead : Bool} {count : U16} {polls : ℕ} (hs : Owning c s) :
    Sure LatchEvent Latch.answer (dataPhase isRead count polls) s fun status s' =>
      Owning c s' ∧ (status = .success → Finished c s') := by
  refine Sure.bind (sure_moveWords_latch _ _ s hs) fun failed s h => ?_
  cases failed with
  | some status => exact Sure.ret ⟨h.1, fun heq => absurd (congrArg some heq) h.2⟩
  | none => exact sure_finishTransfer_latch h.1

theorem hasData_dataCommand (cmd : SDCommand) :
    hasData (commandVal cmd.index .r1 ||| 1#16 <<< 5) = true := by
  cases cmd <;> decide

/-- A command with data that finds the controller settled owes the only Transfer
Complete there is. -/
theorem owning_sent {v : U16} {u : Unit} (hdata : hasData v = true) (hs : NothingOwed s)
    (hans : Latch.answer (.write .command v) s.dev u l') :
    Owning (s.dev.serial + 1) (s.after l' (.write .command v)) := by
  obtain ⟨hclean, hnormal, hdue⟩ := hs
  obtain rfl : l' = _ := hans
  refine ⟨rfl, Or.inl ?_, fun hne => absurd hnormal hne, hclean⟩
  show (if hasData v || hasBusy v then (s.dev.serial + 1) :: s.dev.due else s.dev.due) = _
  rw [hdata, Bool.true_or, if_pos rfl, hdue]

theorem sure_dataCommand_latch (cmd : SDCommand) {arg : U32} {count : U16} {isRead : Bool}
    {out : Option U32} {polls : ℕ} (hs : NothingOwed s) :
    Sure LatchEvent Latch.answer
      (dataCommand cmd.index arg .r1 count isRead out polls) s fun r s' =>
        ∃ c, Owning c s' ∧ (r.1 = .success → Finished c s') := by
  refine Sure.bind (Sure.polling (polling_waitLinesFree polls) hs nothingOwed_event
    (readStable_latch nothingOwed_event)) fun _ s hs => ?_
  refine Sure.bind (Sure.only (within_setUpTransfer arg count isRead) hs nothingOwed_event
    fun e s r d he hs hans => nothingOwed_within he hs hans) fun _ s hs => ?_
  refine Sure.step hs nothingOwed_event fun s hs _ d _ hans => ?_
  have howning := owning_sent (hasData_dataCommand cmd) hs hans
  refine Sure.bind (Sure.polling (polling_waitStatus _ polls) howning owning_event
    (readStable_latch owning_event)) fun ⟨normalStatus, errorStatus⟩ s₁ h₁ => ?_
  dsimp only
  split
  · refine Sure.step h₁ owning_event fun s₁ h₁ _ d₁ _ hans₁ => ?_
    refine Sure.bind (Sure.only (polling_resetLine _ _ polls)
      (owning_within (within_write (by decide)) h₁ hans₁) owning_event
      fun e s r d he hs hans => owning_within he.within hs hans) fun _ s₂ h₂ => ?_
    exact Sure.ret ⟨_, h₂, fun heq => absurd heq (commandError_ne_success errorStatus)⟩
  · refine Sure.step h₁ owning_event fun s₁ h₁ _ d₁ _ hans₁ => ?_
    refine Sure.bind (Sure.polling (polling_readResponse _ _)
      (owning_within (within_write (by decide)) h₁ hans₁) owning_event
      (readStable_latch owning_event)) fun response s₂ h₂ => ?_
    exact Sure.bind (sure_dataPhase_latch h₂) fun status s₃ h₃ => Sure.ret ⟨_, h₃⟩

/-! ### Calls that find the controller settled -/

theorem sure_sendDataCommand_latch (cmd : SDCommand) {arg : U32} {count : U16} {isRead : Bool}
    {out : Option U32} {polls : ℕ} (hs : NothingOwed s) :
    Sure LatchEvent Latch.answer
      (sendDataCommand cmd.index arg .r1 count isRead out polls) s fun r s' =>
        Clean s' ∧ (r.1 = .success → s'.dev.Settled) := by
  refine Sure.bind (sure_dataCommand_latch cmd hs) fun ⟨status, response⟩ s₁ h₁ => ?_
  obtain ⟨c, howning, hfinished⟩ := h₁
  -- Up to the mark the controller may still have events of its own.
  have hevent := (owning_event (c := c)).and
    (EventStable.imp (status = .success) (finished_event (c := c)))
  refine Sure.step ⟨howning, hfinished⟩ hevent fun s h _ d _ hans => Sure.ret ?_
  obtain rfl : d = _ := hans
  rw [Clean, Sd.after_dev]
  by_cases hsuc : status = .success
  · rw [if_pos hsuc]
    obtain ⟨⟨-, hraised, -⟩, hsettled⟩ := h.2 hsuc
    refine ⟨?_, fun _ => hsettled⟩
    show (if s.dev.serial ∈ s.dev.raised then s.dev.early else s.dev.serial :: s.dev.early) = []
    rw [h.1.serial, if_pos hraised, h.1.early]
  · rw [if_neg hsuc]
    exact ⟨h.1.early, fun h => absurd h hsuc⟩

/-- Every action but the marks of data commands. -/
def Undecided : SdAction → Prop
  | .note (.dataCommand _) => False
  | _ => True

theorem Unmarked.undecided {e : SdAction} (h : Unmarked e) : Undecided e := by
  cases e <;> first | exact trivial | exact h.elim

theorem clean_undecided {e : SdAction} {r : e.Answer} (he : Undecided e) (hs : Clean s)
    (hans : Latch.answer e s.dev r l') : Clean (s.after l' e) := by
  rw [Clean, Sd.after_dev]
  cases e with
  | read reg =>
    cases reg <;> first
      | (obtain rfl : l' = s.dev := hans
         exact hs)
      | (obtain rfl : l' = s.dev := hans.2
         exact hs)
  | write reg v =>
    cases reg <;>
    · obtain rfl : l' = _ := hans
      exact hs
  | note m =>
    cases m with
    | clockInit ok =>
      obtain rfl : l' = s.dev := hans
      exact hs
    | dataCommand status => exact he.elim
  | stuck => exact nomatch r
  | _ =>
    obtain rfl : l' = s.dev := hans
    exact hs

theorem undecided_clockInit (polls : ℕ) : Only Undecided (sdioClockInit polls) :=
  ((unmarked_clockInit polls).mono fun _ => Unmarked.undecided).bind fun _ =>
    Only.step trivial fun _ => Only.ret _

theorem undecided_identifyStage1Loop (f8 polls : ℕ) :
    ∀ n, Only Undecided (identifyStage1Loop f8 polls n) := by
  intro n
  induction n with
  | zero => exact Only.ret _
  | succ n ih =>
    refine ((unmarked_sendCommand _ _ _ _ polls).mono fun _ => Unmarked.undecided).bind fun _ => ?_
    refine ((unmarked_sendCommand _ _ _ _ polls).mono fun _ => Unmarked.undecided).bind
      fun result => ?_
    dsimp only
    split_ifs
    · exact Only.ret _
    · refine (undecided_clockInit polls).bind fun ok => ?_
      split_ifs
      · exact Only.ret _
      · exact ih
    · exact Only.ret _

theorem undecided_identify (polls : ℕ) : Only Undecided (identify polls) := by
  refine (undecided_identifyStage1Loop 1 polls 2).bind fun ⟨usable, f8⟩ => ?_
  dsimp only
  split_ifs
  · exact Only.ret _
  all_goals
    refine ((unmarked_sendAppCommand _ _ _ _ polls).mono fun _ => Unmarked.undecided).bind
      fun ⟨status, response⟩ => ?_
    split_ifs
    · exact Only.ret _
    · exact Only.ret _
    first
      | exact (unmarked_initLegacy _ polls).mono fun _ => Unmarked.undecided
      | exact (unmarked_initVersion2 _ polls).mono fun _ => Unmarked.undecided

/-- Initialising sends no data command. -/
theorem undecided_sdioInit (polls : ℕ) : Only Undecided (sdioInit polls) :=
  (undecided_clockInit polls).bind fun _ => undecided_identify polls

/-- A part of a call in which nothing happens to Transfer Complete. -/
theorem sure_rest_latch {α : Type} {p : SdProg α} {P : Prop} (hp : Only Polling p)
    (hs : Clean s ∧ (P → s.dev.Settled)) :
    Sure LatchEvent Latch.answer p s fun _ s' => Clean s' ∧ (P → s'.dev.Settled) := by
  have hevent := clean_event.and (EventStable.imp P nothingOwed_event)
  refine (Sure.polling hp ⟨hs.1, fun h => ⟨hs.1, hs.2 h⟩⟩ hevent ?_).mono
    fun _ s h => ⟨h.1, fun hP => (h.2 hP).2⟩
  exact fun e s r d he h hans => ⟨readStable_latch clean_event e s r d he h.1 hans,
    fun hP => readStable_latch nothingOwed_event e s r d he (h.2 hP) hans⟩

theorem sure_transferWith_latch (who : String) (cmd : SDCommand) {isRead : Bool} {arg : U32}
    {count : U16} {polls : ℕ} (hs : NothingOwed s) :
    Sure LatchEvent Latch.answer (transferWith who cmd isRead arg count polls) s
      fun ok s' => Clean s' ∧ (ok = true → s'.dev.Settled) := by
  refine Sure.bind (sure_sendDataCommand_latch cmd hs) fun ⟨status, response⟩ s h => ?_
  dsimp only
  split
  · exact Sure.bind (sure_rest_latch (polling_reportDataError who status) h) fun _ s h =>
      Sure.ret ⟨h.1, nofun⟩
  · rename_i hsuc
    exact (sure_rest_latch (polling_checkCardStatus who _) h).mono fun _ s h =>
      ⟨h.1, fun _ => h.2 (not_not.mp hsuc)⟩

theorem sure_sdioTransfer_latch (who unexpected : String) (single multiple : SDCommand)
    {isRead : Bool} {lba count : U32} {polls : ℕ} (hs : NothingOwed s) :
    Sure LatchEvent Latch.answer
      (sdioTransfer who single multiple isRead unexpected lba count polls) s
      fun ok s' => Clean s' ∧ (ok = true → s'.dev.Settled) := by
  refine Sure.step hs nothingOwed_event fun s hs ccs d _ hans => ?_
  have hs' := nothingOwed_within (e := .get .ccs) trivial hs hans
  split_ifs
  · exact sure_transferWith_latch who single hs'
  · exact sure_transferWith_latch who multiple hs'
  · refine Sure.step hs' nothingOwed_event fun s hs _ d _ hans => Sure.ret ?_
    exact ⟨(nothingOwed_within (e := .uartPuts unexpected) trivial hs hans).1, nofun⟩

/-- **A call that finds the controller settled waits for its own Transfer Complete**, and
leaves the controller settled if it succeeds. -/
theorem sure_call (call : SdCall) {polls : ℕ} (hs : NothingOwed s) :
    Sure LatchEvent Latch.answer (call.prog polls) s fun ok s' =>
      Clean s' ∧ (ok = true → s'.dev.Settled) := by
  cases call with
  | read lba count => exact sure_sdioTransfer_latch _ _ _ _ hs
  | write lba count => exact sure_sdioTransfer_latch _ _ _ _ hs

/-- A call for no blocks sends nothing. -/
theorem undecided_call {call : SdCall} (hcount : call.count = 0) (polls : ℕ) :
    Only Undecided (call.prog polls) := by
  have hnone : ∀ who single multiple isRead unexpected lba,
      Only Undecided (sdioTransfer who single multiple isRead unexpected lba 0 polls) :=
    fun _ _ _ _ _ _ => Only.step trivial fun _ => Only.step trivial fun _ => Only.ret _
  cases call with
  | read lba count =>
    obtain rfl : count = 0 := hcount
    exact hnone _ _ _ _ _ _
  | write lba count =>
    obtain rfl : count = 0 := hcount
    exact hnone _ _ _ _ _ _

theorem undecided_sdCalls (polls : ℕ) : ∀ calls : List SdCall, (∀ call ∈ calls, call.count = 0) →
    Only Undecided (sdCalls polls calls) := by
  intro calls hcounts
  induction calls with
  | nil => exact Only.ret _
  | cons call calls ih =>
    rw [List.forall_mem_cons] at hcounts
    exact (undecided_call hcounts.1 polls).bind fun _ => ih hcounts.2

/-! ### Calls that find it otherwise -/

/-- A Transfer Complete is latched that is not that of command `c`; `n` is the last command
sent. -/
structure Latch.Primed (n c : ℕ) (l : Latch) : Prop where
  serial : l.serial = n
  raised : c ∉ l.raised
  latched : l.normal.getLsbD 1 = true

variable {n : ℕ}

theorem and_transferComplete {w : U16} : w &&& transferComplete = 0 ↔ w.getLsbD 1 = false := by
  constructor
  · intro h
    have hbit := congrArg (BitVec.getLsbD · 1) h
    simpa [transferComplete] using hbit
  · intro h
    refine BitVec.eq_of_getLsbD_eq fun i hi => ?_
    have hbit : transferComplete.getLsbD i = decide (i = 1) := by
      revert i
      decide
    rw [BitVec.getLsbD_and, hbit, BitVec.ofNat_eq_ofNat, BitVec.getLsbD_zero]
    by_cases h1 : i = 1
    · rw [h1, h, Bool.false_and]
    · rw [decide_eq_false h1, Bool.and_false]

/-- All the other status bits may be set too. -/
theorem or_eq_allOnes {w : U16} (h : w.getLsbD 1 = true) : w ||| 0xFFFD#16 = 0xFFFF#16 := by
  refine BitVec.eq_of_getLsbD_eq fun i hi => ?_
  have hrest : (0xFFFD#16).getLsbD i = !decide (i = 1) := by
    revert i
    decide
  have hall : (0xFFFF#16).getLsbD i = true := by
    revert i
    decide
  rw [BitVec.getLsbD_or, hrest, hall]
  by_cases h1 : i = 1
  · rw [h1, h, Bool.true_or]
  · rw [decide_eq_false h1, Bool.not_false, Bool.or_true]

/-- The controller acts on its own, and then answers. -/
theorem sdAct_latch {e : SdAction} {r : e.Answer} {l d : Latch} (hr : s.Answers e r)
    (hev : ReflTransGen LatchEvent s.dev l) (hans : Latch.answer e l r d) :
    sdAct latch e s r (s.after d e) := ⟨hr, d, ⟨l, hev, hans⟩, rfl⟩

/-- A primed controller can be ready all through a data command. -/
theorem alwaysReady_latch : AlwaysReady latch fun s => s.dev.Primed n c := by
  intro e he s hs
  obtain ⟨r, hr, hown⟩ := exists_ready he s
  -- in most cases nothing happens
  have hnow : ∀ d, Latch.answer e s.dev r d → d.Primed n c →
      ∃ r s', Ready e r ∧ sdAct latch e s r s' ∧ s'.dev.Primed n c := fun d hans hd =>
    ⟨r, _, hr, sdAct_latch hown .refl hans, by rw [Sd.after_dev]; exact hd⟩
  cases e with
  | read reg =>
    cases reg with
    | normalInterruptStatus =>
      have hset := or_eq_allOnes hs.latched
      have hother : LatchEvent s.dev { s.dev with normal := s.dev.normal ||| 0xFFFD#16 } :=
        .other 0xFFFD#16 (by decide)
      refine ⟨0xFFFF#16, _, rfl, sdAct_latch trivial (.single hother) ⟨hset.symm, rfl⟩, ?_⟩
      refine ⟨hs.serial, hs.raised, ?_⟩
      show (s.dev.normal ||| 0xFFFD#16).getLsbD 1 = true
      rw [hset]
      rfl
    | errorInterruptStatus =>
      refine ⟨0#16, _, rfl, sdAct_latch trivial (.single (.error 0#16)) ⟨rfl, rfl⟩, ?_⟩
      exact ⟨hs.serial, hs.raised, hs.latched⟩
    | _ => exact hnow _ rfl hs
  | write reg v =>
    cases reg with
    | command => exact he.elim
    | normalInterruptStatus =>
      refine hnow _ rfl ⟨hs.serial, hs.raised, ?_⟩
      have hv : v.getLsbD 1 = false := and_transferComplete.mp he
      show (s.dev.normal &&& ~~~v).getLsbD 1 = true
      rw [BitVec.getLsbD_and, hs.latched, BitVec.getLsbD_not, hv]
      rfl
    | errorInterruptStatus => exact hnow _ rfl ⟨hs.serial, hs.raised, hs.latched⟩
    | _ => exact hnow _ rfl hs
  | note m => exact he.elim
  | stuck => exact he.elim
  | _ => exact hnow _ rfl hs

/-- A part of a data command, on a primed controller. -/
theorem Might.of_brings {α β : Type} {p : SdProg α} {f : α → SdProg β} {a : α}
    {Q : β → Sd Latch → Prop} (hp : Brings latch (fun s => s.dev.Primed n c) p a)
    (hs : s.dev.Primed n c)
    (hf : ∀ s : Sd Latch, s.dev.Primed n c → Might (sdAct latch) (f a) s Q) :
    Might (sdAct latch) (p >>= f) s Q := by
  obtain ⟨s', hret, hs'⟩ := hp s hs
  obtain ⟨b, s'', hret', hb⟩ := hf s' hs'
  exact ⟨b, s'', hret.bind hret', hb⟩

theorem Might.midway {β : Type} {e : SdAction} {f : e.Answer → SdProg β} {Q : β → Sd Latch → Prop}
    (he : Midway e) (hs : s.dev.Primed n c)
    (hf : ∀ r (s : Sd Latch), s.dev.Primed n c → Might (sdAct latch) (f r) s Q) :
    Might (sdAct latch) (sd e >>= f) s Q := by
  obtain ⟨r, s', -, hact, hs'⟩ := alwaysReady_latch e he s hs
  exact Might.step hact (hf r s' hs')

/-- The wait for Transfer Complete finds the one that is latched. -/
theorem might_dataCommand (cmd : SDCommand) {arg : U32} {count : U16} {isRead : Bool} (polls : ℕ)
    (hs : s.dev.Primed n (n + 1)) :
    Might (sdAct latch) (dataCommand cmd.index arg .r1 count isRead (some 0#32) (polls + 1)) s
      fun r s' => r = (.success, some 0#32) ∧ s'.dev.serial ∉ s'.dev.raised := by
  refine Might.of_brings (.waitLinesFree alwaysReady_latch polls) hs fun s hs => ?_
  refine Might.of_brings (.setUpTransfer alwaysReady_latch arg count isRead) hs fun s hs => ?_
  refine Might.step (r := ()) (sdAct_latch trivial .refl rfl) ?_
  generalize hsent : s.after _ (.write .command _) = s₁
  have hs₁ : s₁.dev.Primed (n + 1) (n + 1) := by
    rw [← hsent, Sd.after_dev]
    exact ⟨congrArg (· + 1) hs.serial, hs.raised, hs.latched⟩
  refine Might.of_brings (.waitStatus alwaysReady_latch (by decide) polls) hs₁ fun s hs => ?_
  refine Might.midway (by exact rfl) hs fun _ s hs => ?_
  refine Might.of_brings (.readResponse alwaysReady_latch) hs fun s hs => ?_
  refine Might.bind (Q := fun status s' => status = .success ∧ s'.dev.serial ∉ s'.dev.raised) ?_
    fun status s h => Might.ret ⟨by rw [h.1], h.2⟩
  refine Might.of_brings (.moveWords alwaysReady_latch isRead polls _ 0) hs fun s hs => ?_
  refine Might.of_brings (.waitStatus alwaysReady_latch (by decide) polls) hs fun s hs => ?_
  refine Might.step (r := ()) (sdAct_latch trivial .refl rfl) (Might.ret ⟨rfl, ?_⟩)
  rw [Sd.after_dev]
  show s.dev.serial ∉ s.dev.raised
  rw [hs.serial]
  exact hs.raised

theorem might_transferWith (who : String) (cmd : SDCommand) {isRead : Bool} {arg : U32}
    {count : U16} (polls : ℕ) (hs : s.dev.Primed n (n + 1)) :
    Might (sdAct latch) (transferWith who cmd isRead arg count (polls + 1)) s
      fun _ s' => s'.dev.early ≠ [] := by
  have hsend : Might (sdAct latch)
      (sendDataCommand cmd.index arg .r1 count isRead (some 0#32) (polls + 1)) s
      fun r s' => r = (.success, some 0#32) ∧ s'.dev.early ≠ [] := by
    refine Might.bind (might_dataCommand cmd polls hs) ?_
    rintro _ s ⟨rfl, hearly⟩
    refine Might.step (r := ()) (sdAct_latch trivial .refl rfl) (Might.ret ⟨rfl, ?_⟩)
    rw [Sd.after_dev, if_pos rfl, if_neg hearly]
    exact List.cons_ne_nil _ _
  refine Might.bind hsend ?_
  rintro _ s ⟨rfl, hearly⟩
  exact Might.ret hearly

/-- What is owed may come at any time. -/
theorem Latch.exists_primed (hn : l.Numbered) (hunsettled : ¬ l.Settled) :
    ∃ l', ReflTransGen LatchEvent l l' ∧ l'.Primed l.serial (l.serial + 1) := by
  obtain ⟨hdue, hraised⟩ := hn
  by_cases hlatched : l.normal.getLsbD 1 = true
  · refine ⟨l, .refl, rfl, fun hmem => ?_, hlatched⟩
    have := hraised _ hmem
    omega
  · rw [Bool.not_eq_true] at hlatched
    rcases hlist : l.due with _ | ⟨i, due⟩
    · exact absurd ⟨and_transferComplete.mpr hlatched, hlist⟩ hunsettled
    · have hi : i ∈ l.due := hlist ▸ List.mem_cons_self
      refine ⟨_, .single (.complete i hi), rfl, fun hmem => ?_, ?_⟩
      · have hle := hdue i hi
        rcases List.mem_cons.mp hmem with heq | hmem
        · omega
        · have := hraised _ hmem
          omega
      · show (l.normal ||| transferComplete).getLsbD 1 = true
        rw [BitVec.getLsbD_or, show transferComplete.getLsbD 1 = true by decide, Bool.or_true]

theorem might_sdioTransfer (who unexpected : String) (single multiple : SDCommand) {isRead : Bool}
    {lba count : U32} (polls : ℕ) (hcount : count ≠ 0) (hn : s.dev.Numbered)
    (hunsettled : ¬ s.dev.Settled) :
    Might (sdAct latch)
      (sdioTransfer who single multiple isRead unexpected lba count (polls + 1)) s
      fun _ s' => s'.dev.early ≠ [] := by
  obtain ⟨l, hev, hprimed⟩ := Latch.exists_primed hn hunsettled
  have hget : sdAct latch (.get .ccs) s (s.var .ccs) (s.after l (.get .ccs)) :=
    sdAct_latch rfl hev rfl
  refine Might.step hget ?_
  have hs : (s.after l (.get .ccs)).dev.Primed s.dev.serial (s.dev.serial + 1) := hprimed
  split_ifs with hone hmany
  · exact might_transferWith who single polls hs
  · exact might_transferWith who multiple polls hs
  · refine absurd (BitVec.eq_of_toNat_eq ?_) hcount
    rw [GT.gt, BitVec.lt_def] at hmany
    change ¬ 1 < count.toNat at hmany
    have hne : count.toNat ≠ 1 := fun h => hone (BitVec.eq_of_toNat_eq h)
    show count.toNat = 0
    omega

/-- **A call that finds something latched or owed can take it for its own.** -/
theorem might_call (call : SdCall) (polls : ℕ) (hcount : call.count ≠ 0) (hn : s.dev.Numbered)
    (hunsettled : ¬ s.dev.Settled) :
    Might (sdAct latch) (call.prog (polls + 1)) s fun _ s' => s'.dev.early ≠ [] := by
  cases call with
  | read lba count => exact might_sdioTransfer _ _ _ _ polls hcount hn hunsettled
  | write lba count => exact might_sdioTransfer _ _ _ _ polls hcount hn hunsettled

/-! ### A busy that ends late -/

/-- Every event but Transfer Complete has happened; the oldest command that owes one
raises it if `fate` says so. -/
def Latch.proceed (fate : ℕ → Bool) (l : Latch) : Latch :=
  let l := { l with normal := l.normal ||| 0x31#16 }
  match l.due with
  | [] => l
  | i :: due =>
    if fate i then
      { l with
        due := due
        raised := i :: l.raised
        normal := l.normal ||| transferComplete }
    else l

/-- A controller with a standard capacity card behind it, whose status moves on when
it is read; CMD17 is answered as the eleventh command. -/
def Latch.serve (fate : ℕ → Bool) : (e : SdAction) → Latch → Option (e.Answer × Latch)
  | .read .normalInterruptStatus, l => some ((l.proceed fate).normal, l.proceed fate)
  | .read .errorInterruptStatus, l => some (l.error, l)
  | .read .presentState, l => some (0x10000#32, l)
  | .read .clockControl, l => some (0xFFFF#16, l)
  | .read .response0, l => some (if l.serial = 11 then 0x900#32 else 0x800001AA#32, l)
  | .write .normalInterruptStatus v, l => some ((), { l with normal := l.normal &&& ~~~v })
  | .write .errorInterruptStatus v, l => some ((), { l with error := l.error &&& ~~~v })
  | .write .command v, l => some ((),
    { l with
      serial := l.serial + 1
      due := if hasData v || hasBusy v then (l.serial + 1) :: l.due else l.due })
  | .note (.dataCommand status), l => some ((),
    if status = .success then
      { l with early := if l.serial ∈ l.raised then l.early else l.serial :: l.early }
    else { l with failed := l.serial :: l.failed })
  | e, l => e.zero.map fun r => (r, l)

theorem Latch.proceed_events (fate : ℕ → Bool) (l : Latch) :
    ReflTransGen LatchEvent l (l.proceed fate) := by
  have hother : LatchEvent l { l with normal := l.normal ||| 0x31#16 } :=
    .other 0x31#16 (by decide)
  rw [proceed]
  dsimp only
  split
  · exact .single hother
  · rename_i i due hdue
    have hmem : i ∈ l.due := hdue ▸ List.mem_cons_self
    have herase : l.due.erase i = due := by rw [hdue, List.erase_cons_head]
    split
    · have hstep := LatchEvent.complete (l := { l with normal := l.normal ||| 0x31#16 }) i hmem
      dsimp only at hstep
      rw [herase] at hstep
      exact (ReflTransGen.single hother).tail hstep
    · exact .single hother

theorem Latch.serve_answer {fate : ℕ → Bool} (e : SdAction) (s : Sd Latch) (r : e.Answer)
    (d : Latch) (h : Latch.serve fate e s.dev = some (r, d)) : latch e s.dev (s.own e r) d := by
  -- only a read of the status lets the device act before it answers
  have hnow : ∀ {e : SdAction} {r : e.Answer} {d : Latch}, Latch.answer e s.dev r d →
      latch e s.dev r d := fun h => ⟨s.dev, .refl, h⟩
  cases e with
  | read reg =>
    cases reg with
    | normalInterruptStatus =>
      obtain ⟨rfl, rfl⟩ := Prod.mk.inj (Option.some_inj.mp h)
      exact ⟨s.dev.proceed fate, s.dev.proceed_events fate, rfl, rfl⟩
    | errorInterruptStatus =>
      obtain ⟨rfl, rfl⟩ := Prod.mk.inj (Option.some_inj.mp h)
      exact hnow ⟨rfl, rfl⟩
    | _ =>
      obtain ⟨rfl, rfl⟩ := Prod.mk.inj (Option.some_inj.mp h)
      exact hnow rfl
  | write reg v =>
    cases reg <;>
    · obtain ⟨rfl, rfl⟩ := Prod.mk.inj (Option.some_inj.mp h)
      exact hnow rfl
  | note m =>
    cases m <;>
    · obtain ⟨rfl, rfl⟩ := Prod.mk.inj (Option.some_inj.mp h)
      exact hnow rfl
  | stuck => exact nomatch r
  | _ =>
    obtain ⟨rfl, rfl⟩ := Prod.mk.inj (Option.some_inj.mp h)
    exact hnow rfl

/-- The driver at power-on. -/
def quietLatch : Sd Latch :=
  { var := fun _ => 0
    buf := fun _ => 0
    dev :=
      { normal := 0
        error := 0
        serial := 0
        due := []
        raised := []
        failed := []
        early := [] } }

/-- CMD7 is the ninth command. If its busy ends, and CMD17, the eleventh, never
raises anything, `sdio_read` still succeeds. -/
theorem not_complete_own : ¬ ∀ (polls : ℕ) (calls : List SdCall) (s s' : Sd Latch),
    s.dev.early = [] → Returns (sdAct latch) (session polls calls) s () s' →
    s'.dev.early = [] := by
  intro hall
  have hplay : ((run (Sd.play (Latch.serve fun i => decide (i = 9)))
      (session 2 [.read 0#32 1#32]) quietLatch).any fun w => decide (w.2.dev.early = [11])) =
      true := by
    decide +kernel
  obtain ⟨⟨_, s'⟩, hrun, hearly⟩ := (Option.any_eq_true _ _).mp hplay
  have hret := Returns.of_run (Sd.sdAct_of_play Latch.serve_answer) hrun
  have hclean := hall 2 [.read 0#32 1#32] quietLatch s' rfl hret
  rw [of_decide_eq_true hearly] at hclean
  exact absurd hclean (by simp)

/-! ### Whose it is -/

/-- `sdio_init` can leave CMD7's Transfer Complete latched. -/
theorem exists_unsettled : ∃ (ok : Bool) (s : Sd Latch),
    Returns (sdAct latch) (sdioInit 2) quietLatch ok s ∧ s.dev.early = [] ∧ s.dev.Numbered ∧
      ¬ s.dev.Settled := by
  have hplay : ((run (Sd.play (Latch.serve fun i => decide (i = 9))) (sdioInit 2) quietLatch).any
      fun w => decide (w.2.dev.early = [] ∧ w.2.dev.due = [] ∧
        (∀ i ∈ w.2.dev.raised, i ≤ w.2.dev.serial) ∧ w.2.dev.normal.getLsbD 1 = true)) = true := by
    decide +kernel
  obtain ⟨⟨ok, s⟩, hrun, hdec⟩ := (Option.any_eq_true _ _).mp hplay
  obtain ⟨hearly, hdue, hraised, hlatched⟩ := of_decide_eq_true hdec
  refine ⟨ok, s, Returns.of_run (Sd.sdAct_of_play Latch.serve_answer) hrun, hearly, ⟨?_, hraised⟩,
    fun hsettled => ?_⟩
  · intro i hi
    rw [show s.dev.due = [] from hdue] at hi
    exact absurd hi List.not_mem_nil
  · rw [and_transferComplete.mp hsettled.1] at hlatched
    exact absurd hlatched (by decide)

/-- Calls for no blocks return, and the controller has had nothing to do. -/
theorem might_nothing (polls : ℕ) (calls : List SdCall) (hcounts : ∀ call ∈ calls, call.count = 0) :
    ∀ s : Sd Latch, Might (sdAct latch) (sdCalls polls calls) s fun _ s' => s'.dev = s.dev := by
  have hnone : ∀ who single multiple isRead unexpected lba (s : Sd Latch), Might (sdAct latch)
      (sdioTransfer who single multiple isRead unexpected lba 0 polls) s
      fun _ s' => s'.dev = s.dev := by
    intro who single multiple isRead unexpected lba s
    have hget : sdAct latch (.get .ccs) s (s.var .ccs) (s.after s.dev (.get .ccs)) :=
      sdAct_latch rfl .refl rfl
    have hputs : sdAct latch (.uartPuts unexpected) (s.after s.dev (.get .ccs)) ()
        ((s.after s.dev (.get .ccs)).after s.dev (.uartPuts unexpected)) :=
      sdAct_latch trivial .refl rfl
    exact Might.step hget (Might.step hputs (Might.ret rfl))
  induction calls with
  | nil => exact fun s => Might.ret rfl
  | cons call calls ih =>
    intro s
    rw [List.forall_mem_cons] at hcounts
    have hcall : Might (sdAct latch) (call.prog polls) s fun _ s' => s'.dev = s.dev := by
      cases call with
      | read lba count =>
        obtain rfl : count = 0 := hcounts.1
        exact hnone _ _ _ _ _ _ s
      | write lba count =>
        obtain rfl : count = 0 := hcounts.1
        exact hnone _ _ _ _ _ _ s
    refine Might.bind hcall fun _ s₁ h₁ => ?_
    obtain ⟨_, s₂, hret, h₂⟩ := ih hcounts.2 s₁
    exact ⟨_, s₂, hret, h₂.trans h₁⟩

theorem sdCalls_append (polls : ℕ) (first last : List SdCall) :
    sdCalls polls (first ++ last) = sdCalls polls first >>= fun _ => sdCalls polls last := by
  induction first with
  | nil => rfl
  | cons call first ih =>
    show (call.prog polls >>= fun _ => sdCalls polls (first ++ last)) =
      (call.prog polls >>= fun _ => sdCalls polls first) >>= fun _ => sdCalls polls last
    rw [ih, bind_assoc']

/-- After `sdio_init` the first call that transfers anything can take CMD7's Transfer
Complete for its own. -/
theorem might_session {first : List SdCall} {call : SdCall}
    (hcounts : ∀ x ∈ first, x.count = 0) (hcount : call.count ≠ 0) :
    Might (sdAct latch) (session 2 (first ++ [call])) quietLatch
      fun _ s' => s'.dev.early ≠ [] := by
  obtain ⟨ok, s, hret, -, hn, hunsettled⟩ := exists_unsettled
  refine Might.bind (Q := fun _ s => s.dev.Numbered ∧ ¬ s.dev.Settled)
    ⟨ok, s, hret, hn, hunsettled⟩ fun _ s h => ?_
  rw [sdCalls_append]
  refine Might.bind (might_nothing 2 first hcounts s) fun _ s' h' => ?_
  refine Might.bind (might_call call 1 hcount ?_ ?_) fun _ s'' h'' => Might.ret h''
  · rw [h']
    exact h.1
  · rw [h']
    exact h.2

/-- Where nothing is transferred no data command is sent. -/
theorem clean_session {polls : ℕ} {calls : List SdCall} {s s' : Sd Latch}
    (hcounts : ∀ call ∈ calls, call.count = 0) (hs : s.dev.early = [])
    (h : Returns (sdAct latch) (session polls calls) s () s') : s'.dev.early = [] := by
  have hsession : Only Undecided (session polls calls) :=
    (undecided_sdioInit polls).bind fun _ => undecided_sdCalls polls calls hcounts
  have hclean : Sure LatchEvent Latch.answer (session polls calls) s fun _ s' => Clean s' :=
    Sure.only hsession hs clean_event fun e s r d he hs hans => clean_undecided he hs hans
  exact hclean.of_returns h

/-- **Whose Transfer Complete it is.**  After `sdio_init` the calls wait for their own, with
every timing, only if none of them transfers anything.  A later call does so if and only if it
finds nothing latched and nothing owed; if it succeeds, the next one finds it so too. -/
theorem complete_own_iff (calls : List SdCall) :
    ((∀ polls first, first <+: calls → ∀ s s' : Sd Latch, s.dev.early = [] →
        Returns (sdAct latch) (session polls first) s () s' → s'.dev.early = []) ↔
      ∀ call ∈ calls, call.count = 0) ∧
    ∀ (call : SdCall) (s : Sd Latch), call.count ≠ 0 → s.dev.Numbered → s.dev.early = [] →
      ((∀ polls ok s', Returns (sdAct latch) (call.prog polls) s ok s' → s'.dev.early = []) ↔
        s.dev.Settled) ∧
      (s.dev.Settled → ∀ polls s', Returns (sdAct latch) (call.prog polls) s true s' →
        s'.dev.Settled) := by
  refine ⟨⟨fun hall => ?_, fun hcounts polls first hfirst s s' hs h => ?_⟩, ?_⟩
  · -- the first of the calls that transfers something can be wrong
    by_contra hnot
    rcases hfind : calls.find? fun call => decide (call.count ≠ 0) with _ | call
    · refine hnot fun call hmem => ?_
      simpa using List.find?_eq_none.mp hfind call hmem
    · obtain ⟨hcount, first, last, hcalls, hcounts⟩ := List.find?_eq_some_iff_append.mp hfind
      have hfirst : ∀ x ∈ first, x.count = 0 := fun x hx => by simpa using hcounts x hx
      obtain ⟨_, s', hret, hearly⟩ := might_session hfirst (of_decide_eq_true hcount)
      refine hearly (hall 2 (first ++ [call]) ⟨last, ?_⟩ quietLatch s' rfl hret)
      rw [hcalls, List.append_assoc, List.singleton_append]
  · exact clean_session (fun call hmem => hcounts call (hfirst.subset hmem)) hs h
  · intro call s hcount hn hs
    refine ⟨⟨fun hall => ?_, fun hsettled polls ok s' h => ?_⟩, fun hsettled polls s' h => ?_⟩
    · by_contra hunsettled
      obtain ⟨ok, s', hret, hearly⟩ := might_call call 0 hcount hn hunsettled
      exact hearly (hall 1 ok s' hret)
    · exact ((sure_call call ⟨hs, hsettled⟩).of_returns h).1
    · exact ((sure_call call ⟨hs, hsettled⟩).of_returns h).2 rfl

/-- CMD7 and the first CMD17 raise theirs before the driver looks, so that one write
acknowledges both; the second read has a settled controller. -/
theorem complete_own_second : ∃ s, Returns (sdAct latch) (session 2 [.read 0#32 1#32]) quietLatch
    () s ∧ 11 ∈ s.dev.raised ∧ ∀ polls ok s',
      Returns (sdAct latch) ((SdCall.read 1#32 1#32).prog polls) s ok s' → s'.dev.early = [] := by
  have hplay : ((run (Sd.play (Latch.serve fun _ => true)) (session 2 [.read 0#32 1#32])
      quietLatch).any fun w => decide (11 ∈ w.2.dev.raised ∧ w.2.dev.early = [] ∧
        (∀ i ∈ w.2.dev.raised, i ≤ w.2.dev.serial) ∧
        w.2.dev.normal &&& transferComplete = 0 ∧ w.2.dev.due = [])) = true := by
    decide +kernel
  obtain ⟨⟨_, s⟩, hrun, hdec⟩ := (Option.any_eq_true _ _).mp hplay
  obtain ⟨hown, hearly, hraised, hnormal, hdue⟩ := of_decide_eq_true hdec
  have hret := Returns.of_run (Sd.sdAct_of_play Latch.serve_answer) hrun
  have hn : s.dev.Numbered := by
    refine ⟨fun i hi => ?_, hraised⟩
    rw [show s.dev.due = [] from hdue] at hi
    exact absurd hi List.not_mem_nil
  have hsecond := (complete_own_iff [.read 1#32 1#32]).2 (.read 1#32 1#32) s (by decide) hn hearly
  exact ⟨s, hret, hown, hsecond.1.mpr ⟨hnormal, hdue⟩⟩

end GamingConsole
