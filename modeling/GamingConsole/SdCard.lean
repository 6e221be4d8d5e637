/-
What a failed transfer leaves behind in the card.

`Card` is a card behind its host controller.  CMD18 and CMD25 put it into its
data-transfer state, in which it refuses further transfers; only CMD12 brings it
back, and the only CMD12 there is comes from the host, after the last block.  The
driver, on an error, resets the host's DAT line and nothing else, so the card stays
where it is (`not_card_usable`).  `card_usable` says when that does not happen: no
error hits a CMD18 or CMD25, none is sent while an error or a Transfer Complete is
latched, and none for a count that is cut down to zero blocks or one.  Of the
transfers of single blocks nothing is asked.
-/
import GamingConsole.SdPort
import GamingConsole.SdLatch

namespace GamingConsole

open Prog Relation

/-- What the host is doing: nothing; it has sent a command that the card does not
answer; a data transfer. -/
inductive HostPhase where
  | idle
  | unanswered
  | running
  deriving DecidableEq

/-- The card and its host.  `left` blocks of the running transfer are still to come,
and Auto CMD12 follows the last if `auto` is set; `refused` counts the data commands
that came while the card was in its data-transfer state. -/
structure Card where
  transferring : Bool
  refused : ℕ
  phase : HostPhase
  auto : Bool
  left : ℕ
  mode : U16
  blocks : ℕ
  normal : U16
  error : U16

/-- What happens between two accesses.  Errors come at any point of a transfer, and
after a command without an answer; the other status bits mean nothing here. -/
inductive CardEvent : Card → Card → Prop where
  | block {c : Card} (h : c.phase = .running) : CardEvent c { c with left := c.left - 1 }
  | stop {c : Card} (h : c.phase = .running) (hauto : c.auto = true) (hleft : c.left = 0) :
      CardEvent c { c with transferring := false }
  | complete {c : Card} (h : c.phase = .running) (hleft : c.left = 0)
      (hstop : c.auto = true → c.transferring = false) : CardEvent c
      { c with
        phase := .idle
        normal := c.normal ||| transferComplete }
  | fail {c : Card} (bits : U16) (h : c.phase = .running) (hbits : bits ≠ 0) : CardEvent c
      { c with
        phase := .idle
        error := c.error ||| bits }
  | noAnswer {c : Card} (bits : U16) (h : c.phase = .unanswered) (hbits : bits ≠ 0) : CardEvent c
      { c with
        phase := .idle
        error := c.error ||| bits }
  | other {c : Card} (bits : U16) (h : bits &&& transferComplete = 0) :
      CardEvent c { c with normal := c.normal ||| bits }

/-- CMD18 or CMD25. -/
def opensTransfer (command : U16) : Bool :=
  command >>> 8 &&& 0x3F#16 == 18#16 || command >>> 8 &&& 0x3F#16 == 25#16

/-- Auto CMD Enable 01b. -/
def autoCmd12 (mode : U16) : Bool := !mode.getLsbD 3 && mode.getLsbD 2

/-- The card has accepted a data command. -/
def Card.accept (c : Card) (command : U16) : Card :=
  { c with
    transferring := opensTransfer command
    phase := .running
    auto := autoCmd12 c.mode
    left := if c.mode.getLsbD 5 then c.blocks else 1 }

/-- The card does not take a data command in its data-transfer state; in Transfer
state it takes it, or the command is lost. -/
def Card.Takes (c : Card) (command : U16) (c' : Card) : Prop :=
  if c.transferring then
    c' = { c with
      phase := .unanswered
      refused := c.refused + 1 }
  else c' = c.accept command ∨ c' = { c with phase := .unanswered }

/-- How the host answers.  Status bits latch until they are written with 1. -/
def Card.answer : Device Card
  | .read .normalInterruptStatus, c, v, c' => v = c.normal ∧ c' = c
  | .read .errorInterruptStatus, c, v, c' => v = c.error ∧ c' = c
  | .write .normalInterruptStatus v, c, _, c' => c' = { c with normal := c.normal &&& ~~~v }
  | .write .errorInterruptStatus v, c, _, c' => c' = { c with error := c.error &&& ~~~v }
  | .write .blockCount v, c, _, c' => c' = { c with blocks := v.toNat }
  | .write .transferMode v, c, _, c' => c' = { c with mode := v }
  | .write .command v, c, _, c' => if hasData v then c.Takes v c' else c' = c
  | _, c, _, c' => c' = c

/-- The card and its host as a device. -/
def card : Device Card := eventful CardEvent Card.answer

/-- An event that is no error of a CMD18 or CMD25 transfer. -/
def SparedEvent (c c' : Card) : Prop :=
  CardEvent c c' ∧ (c.transferring = true → c'.error = c.error)

/-- The steps in which CMD18 and CMD25 are sent with neither an error nor a Transfer
Complete latched. -/
def Card.clearAnswer : Device Card := fun e c r c' =>
  (∀ v, e = .write .command v → opensTransfer v = true →
    c.error = 0 ∧ c.normal &&& transferComplete = 0) ∧ Card.answer e c r c'

/-- The card and its host in the runs in which no error hits such a transfer, and each
starts with nothing latched. -/
def sparedCard : Device Card := eventful SparedEvent Card.clearAnswer

/-- The count is none of those that lose their blocks to the 16-bit parameter. -/
def SdCall.Fits : SdCall → Prop
  | .read _ count => count.toNat ≤ 1 ∨ 2 ≤ count.toNat % 65536
  | .write _ count => count.toNat ≤ 1 ∨ 2 ≤ count.toNat % 65536

/-- The card is in Transfer state, and has refused nothing. -/
structure Card.Usable (c : Card) : Prop where
  transfer : c.transferring = false
  accepted : c.refused = 0

/-- The host is idle too, with nothing latched that a transfer waits for. -/
structure Card.Rested (c : Card) : Prop extends c.Usable where
  idle : c.phase = .idle
  error : c.error = 0
  latched : c.normal &&& transferComplete = 0

/-- During a data command: the card is in its data-transfer state only while the host
will stop it, and a latched end is the only one. -/
structure Card.Underway (c : Card) : Prop where
  accepted : c.refused = 0
  stopped : c.transferring = true → c.phase = .running ∧ c.auto = true
  idleAfter : c.error ≠ 0 ∨ c.normal &&& transferComplete ≠ 0 → c.phase = .idle
  either : c.error = 0 ∨ c.normal &&& transferComplete = 0

/-- The data command has ended with the error status `v`. -/
structure Card.Failed (v : U16) (c : Card) : Prop extends c.Usable where
  idle : c.phase = .idle
  error : c.error = v
  latched : c.normal &&& transferComplete = 0

variable {s s' : Sd Card} {c c' : Card} {v : U16}

/-! ### Events -/

theorem Card.Underway.transfer_of_idle (h : c.Underway) (hidle : c.phase = .idle) :
    c.transferring = false := by
  by_contra htrans
  have hrun := (h.stopped (Bool.not_eq_false _ ▸ htrans)).1
  rw [hidle] at hrun
  cases hrun

/-- Before its end a data command has nothing latched. -/
theorem Card.Underway.open_of_not_idle (h : c.Underway) (hne : c.phase ≠ .idle) :
    c.error = 0 ∧ c.normal &&& transferComplete = 0 := by
  constructor
  · by_contra herr
    exact hne (h.idleAfter (Or.inl herr))
  · by_contra hdone
    exact hne (h.idleAfter (Or.inr hdone))

theorem underway_event : EventStable SparedEvent fun s => s.dev.Underway := by
  rintro s c' h ⟨he, hspared⟩
  show c'.Underway
  cases he with
  | block hrun => exact ⟨h.accepted, h.stopped, h.idleAfter, h.either⟩
  | stop hrun hauto hleft => exact ⟨h.accepted, nofun, h.idleAfter, h.either⟩
  | complete hrun hleft hstop =>
    have hopen := h.open_of_not_idle (by rw [hrun]; exact nofun)
    refine ⟨h.accepted, fun htrans => ?_, fun _ => rfl, Or.inl hopen.1⟩
    -- The card would have been stopped first.
    exact absurd (hstop (h.stopped htrans).2) (by rw [htrans]; exact nofun)
  | fail bits hrun hbits =>
    have hopen := h.open_of_not_idle (by rw [hrun]; exact nofun)
    refine ⟨h.accepted, fun htrans => ?_, fun _ => rfl, Or.inr hopen.2⟩
    have hsame : s.dev.error ||| bits = s.dev.error := hspared htrans
    exact absurd (by simpa [hopen.1] using hsame) hbits
  | noAnswer bits hun hbits =>
    have hopen := h.open_of_not_idle (by rw [hun]; exact nofun)
    refine ⟨h.accepted, fun htrans => ?_, fun _ => rfl, Or.inr hopen.2⟩
    have hrun := (h.stopped htrans).1
    rw [hun] at hrun
    cases hrun
  | other bits hbits =>
    have hsame : (s.dev.normal ||| bits) &&& transferComplete =
        s.dev.normal &&& transferComplete := by
      rw [BitVec.and_or_distrib_right, hbits]
      exact BitVec.or_zero
    exact ⟨h.accepted, h.stopped, fun hor => h.idleAfter (hsame ▸ hor), hsame.symm ▸ h.either⟩

/-- With the host idle only the status bits without a meaning change. -/
theorem SparedEvent.of_idle (h : SparedEvent c c') (hidle : c.phase = .idle) :
    ∃ bits, bits &&& transferComplete = 0 ∧ c' = { c with normal := c.normal ||| bits } := by
  obtain ⟨he, -⟩ := h
  cases he with
  | other bits hbits => exact ⟨bits, hbits, rfl⟩
  | block hp | stop hp | complete hp | fail _ hp | noAnswer _ hp =>
    rw [hidle] at hp
    cases hp

theorem rested_event : EventStable SparedEvent fun s => s.dev.Rested := by
  intro s c' h he
  obtain ⟨bits, hbits, rfl⟩ := he.of_idle h.idle
  exact ⟨⟨h.transfer, h.accepted⟩, h.idle, h.error, or_and_eq_zero h.latched hbits⟩

/-- In Transfer state the card has nothing to fail or to stop. -/
theorem usable_event : EventStable SparedEvent fun s => s.dev.Usable := by
  rintro s c' h ⟨he, -⟩
  cases he with
  | stop => exact ⟨rfl, h.accepted⟩
  | _ => exact ⟨h.transfer, h.accepted⟩

theorem failed_event : EventStable SparedEvent fun s => s.dev.Failed v := by
  intro s c' h he
  obtain ⟨bits, hbits, rfl⟩ := he.of_idle h.idle
  exact ⟨⟨h.transfer, h.accepted⟩, h.idle, h.error, or_and_eq_zero h.latched hbits⟩

/-- The settings for the next command stay as they are. -/
theorem mode_event (m : U16) : EventStable SparedEvent fun s => s.dev.mode = m := by
  rintro s c' h ⟨he, -⟩
  cases he <;> exact h

theorem latched_event (mask : U16) :
    EventStable SparedEvent fun s => s.dev.normal &&& mask ≠ 0 := by
  have hor : ∀ w bits : U16, w &&& mask ≠ 0 → (w ||| bits) &&& mask ≠ 0 := by
    intro w bits hne h0
    refine hne (BitVec.eq_of_getLsbD_eq fun i hi => ?_)
    have hbit := congrArg (BitVec.getLsbD · i) h0
    simp only [BitVec.getLsbD_and, BitVec.getLsbD_or, BitVec.ofNat_eq_ofNat,
      BitVec.getLsbD_zero] at hbit ⊢
    cases hw : w.getLsbD i <;> simp_all
  rintro s c' h ⟨he, -⟩
  cases he with
  | complete => exact hor _ _ h
  | other bits => exact hor _ _ h
  | _ => exact h

/-! ### Actions -/

/-- What the actions other than commands and marks leave alone. -/
theorem within_card {e : SdAction} {r : e.Answer} (he : Within e) (hans : Card.answer e c r c') :
    c'.transferring = c.transferring ∧ c'.refused = c.refused ∧ c'.phase = c.phase ∧
      c'.auto = c.auto ∧ (c.error = 0 → c'.error = 0) ∧
      (c.normal &&& transferComplete = 0 → c'.normal &&& transferComplete = 0) := by
  have hsame : ∀ {c'}, c' = c → c'.transferring = c.transferring ∧ c'.refused = c.refused ∧
      c'.phase = c.phase ∧ c'.auto = c.auto ∧ (c.error = 0 → c'.error = 0) ∧
      (c.normal &&& transferComplete = 0 → c'.normal &&& transferComplete = 0) := by
    rintro _ rfl
    exact ⟨rfl, rfl, rfl, rfl, fun h => h, fun h => h⟩
  cases e with
  | read reg => cases reg <;> first | exact hsame hans | exact hsame hans.2
  | write reg w =>
    cases reg with
    | command => exact (he rfl).elim
    | normalInterruptStatus =>
      obtain rfl : c' = _ := hans
      exact ⟨rfl, rfl, rfl, rfl, fun h => h, and_not_and⟩
    | errorInterruptStatus =>
      obtain rfl : c' = _ := hans
      refine ⟨rfl, rfl, rfl, rfl, fun h => ?_, fun h => h⟩
      show c.error &&& ~~~w = 0
      rw [h]
      exact BitVec.zero_and
    | blockCount | transferMode =>
      obtain rfl : c' = _ := hans
      exact ⟨rfl, rfl, rfl, rfl, fun h => h, fun h => h⟩
    | _ => exact hsame hans
  | note m => exact he.elim
  | stuck => exact nomatch r
  | _ => exact hsame hans

theorem Card.Underway.within {e : SdAction} {r : e.Answer} (h : c.Underway) (he : Within e)
    (hans : Card.answer e c r c') : c'.Underway := by
  obtain ⟨h1, h2, h3, h4, h5, h6⟩ := within_card he hans
  refine ⟨h2.trans h.accepted, ?_, ?_, ?_⟩
  · rw [h1, h3, h4]
    exact h.stopped
  · rw [h3]
    exact fun hor => h.idleAfter (hor.imp (mt h5) (mt h6))
  · exact h.either.imp h5 h6

theorem usable_within (e : SdAction) (s : Sd Card) (r : e.Answer) (d : Card) (he : Within e)
    (hs : s.dev.Usable) (hans : Card.answer e s.dev r d) : (s.after d e).dev.Usable := by
  obtain ⟨h1, h2, -⟩ := within_card he hans
  rw [Sd.after_dev]
  exact ⟨h1.trans hs.transfer, h2.trans hs.accepted⟩

theorem Card.Rested.within {e : SdAction} {r : e.Answer} (h : c.Rested) (he : Within e)
    (hans : Card.answer e c r c') : c'.Rested := by
  obtain ⟨h1, h2, h3, h4, h5, h6⟩ := within_card he hans
  exact ⟨⟨h1.trans h.transfer, h2.trans h.accepted⟩, h3.trans h.idle, h5 h.error, h6 h.latched⟩

theorem underway_within (e : SdAction) (s : Sd Card) (r : e.Answer) (d : Card) (he : Within e)
    (hs : s.dev.Underway) (hans : Card.answer e s.dev r d) : (s.after d e).dev.Underway := by
  rw [Sd.after_dev]
  exact hs.within he hans

theorem rested_within (e : SdAction) (s : Sd Card) (r : e.Answer) (d : Card) (he : Within e)
    (hs : s.dev.Rested) (hans : Card.answer e s.dev r d) : (s.after d e).dev.Rested := by
  rw [Sd.after_dev]
  exact hs.within he hans

theorem readStable_underway : ReadStable Card.answer fun s => s.dev.Underway :=
  fun e s r d he hs hans => underway_within e s r d he.within hs hans

theorem readStable_rested : ReadStable Card.answer fun s => s.dev.Rested :=
  fun e s r d he hs hans => rested_within e s r d he.within hs hans

/-- Reading leaves the status alone. -/
theorem readStable_latched (mask : U16) : ReadStable Card.answer
    fun s => s.dev.normal &&& mask ≠ 0 := by
  intro e s r d he hs hans
  show (s.after d e).dev.normal &&& mask ≠ 0
  rw [Sd.after_dev]
  cases e with
  | read reg =>
    cases reg <;> first
      | exact (he rfl).elim
      | (obtain rfl : d = s.dev := hans
         exact hs)
      | (obtain rfl : d = s.dev := hans.2
         exact hs)
  | write reg w =>
    rcases he with rfl | rfl
    · obtain rfl : d = s.dev := hans
      exact hs
    · obtain rfl : d = _ := hans
      exact hs
  | get x | getTicks | ticksElapsedMs start ms | uartPuts msg | uartPutHex w =>
    obtain rfl : d = s.dev := hans
    exact hs
  | stuck => exact nomatch r
  | _ => exact he.elim

/-! ### One data command -/

/-- What a wait has seen when it ends. -/
theorem sure_waitStatus {mask : U16} (n : ℕ) (hs : s.dev.Underway) :
    Sure SparedEvent Card.answer (waitStatus mask n) s fun r s' =>
      s'.dev.Underway ∧ (r.2 = 0 → s'.dev.normal &&& mask ≠ 0) ∧
        (r.2 ≠ 0 → s'.dev.Failed r.2) := by
  have hseen := Sure.waitStatus underway_event readStable_underway
    (latched_event mask) (readStable_latched mask) (fun s r d _ hans hbit => by
      obtain ⟨rfl, rfl⟩ := hans
      exact hbit) n s hs
  have herror := Sure.waitStatus_error (G := fun v s => s.dev.Failed v) mask
    underway_event readStable_underway (fun s r d hs hans hne => by
      obtain ⟨rfl, rfl⟩ := hans
      have hidle := hs.idleAfter (Or.inl hne)
      exact ⟨⟨hs.transfer_of_idle hidle, hs.accepted⟩, hidle, rfl,
        hs.either.resolve_left hne⟩) n s hs
  exact (Holds.and hseen herror).mono (fun _ _ => trivial) fun r s' h => ⟨h.1.1, h.1.2, h.2⟩

/-- Clearing the error status that was read. -/
theorem sure_clearError {α : Type} {f : Unit → SdProg α} {Q : α → Sd Card → Prop}
    (hs : s.dev.Failed v)
    (h : ∀ s : Sd Card, s.dev.Rested → Sure SparedEvent Card.answer (f ()) s Q) :
    Sure SparedEvent Card.answer (sd (.write .errorInterruptStatus v) >>= f) s Q := by
  refine Sure.step hs failed_event fun s hs _ d _ hans => h _ ?_
  obtain rfl : d = _ := hans
  refine ⟨⟨hs.transfer, hs.accepted⟩, hs.idle, ?_, hs.latched⟩
  show s.dev.error &&& ~~~v = 0
  rw [hs.error, BitVec.and_not_self]

theorem sure_polling_rested {α : Type} {p : SdProg α} (hp : Only Polling p) (hs : s.dev.Rested) :
    Sure SparedEvent Card.answer p s fun _ s' => s'.dev.Rested :=
  Sure.polling hp hs rested_event readStable_rested

theorem sure_failData_card {polls : ℕ} (hs : s.dev.Failed v) :
    Sure SparedEvent Card.answer (failData v polls) s fun _ s' => s'.dev.Rested :=
  sure_clearError hs fun _ hs =>
    Sure.bind (sure_polling_rested (polling_resetLine _ _ polls) hs) fun _ _ hs => Sure.ret hs

/-- Where a loop over the words leaves the card. -/
def Handed (failed : Option SDCommandStatus) (s : Sd Card) : Prop :=
  match failed with
  | some _ => s.dev.Rested
  | none => s.dev.Underway

theorem sure_startBlock_card {isRead : Bool} {i polls : ℕ} (hs : s.dev.Underway) :
    Sure SparedEvent Card.answer (startBlock isRead i polls) s Handed := by
  rw [startBlock]
  split
  · refine Sure.bind (sure_waitStatus polls hs) fun status s h => ?_
    obtain ⟨normalStatus, errorStatus⟩ := status
    dsimp only
    split
    · rename_i hne
      exact Sure.bind (sure_failData_card (h.2.2 hne)) fun status s hs => Sure.ret hs
    · refine Sure.step h.1 underway_event fun s hs r d _ hans => Sure.ret ?_
      exact underway_within _ s r d (within_write (by decide)) hs hans
  · exact Sure.ret hs

theorem sure_moveWords_card {isRead : Bool} {polls : ℕ} : ∀ m i (s : Sd Card), s.dev.Underway →
    Sure SparedEvent Card.answer (moveWords isRead polls m i) s Handed := by
  intro m
  induction m with
  | zero => exact fun i s hs => Sure.ret hs
  | succ m ih =>
    intro i s hs
    refine Sure.bind (sure_startBlock_card hs) fun failed s h => ?_
    cases failed with
    | some status => exact Sure.ret h
    | none =>
      exact Sure.bind (Sure.only (within_moveWord isRead _) h underway_event underway_within)
        fun _ s hs => ih (i + 1) s hs

theorem sure_finishTransfer_card {polls : ℕ} (hs : s.dev.Underway) :
    Sure SparedEvent Card.answer (finishTransfer polls) s fun _ s' => s'.dev.Rested := by
  refine Sure.bind (sure_waitStatus polls hs) fun ⟨normalStatus, errorStatus⟩ s h => ?_
  dsimp only
  split
  · rename_i hne
    exact sure_failData_card (h.2.2 hne)
  · rename_i herr
    have hstable := underway_event.and (latched_event (1#16 <<< 1))
    refine Sure.step ⟨h.1, h.2.1 (not_not.mp herr)⟩ hstable fun s hs _ d _ hans => Sure.ret ?_
    obtain rfl : d = _ := hans
    obtain ⟨hs, hseen⟩ := hs
    have hidle := hs.idleAfter (Or.inr hseen)
    exact ⟨⟨hs.transfer_of_idle hidle, hs.accepted⟩, hidle, hs.either.resolve_right hseen,
      and_not_self _ _⟩

/-- After the data phase, however it ended, the card is back. -/
theorem sure_dataPhase_card {isRead : Bool} {count : U16} {polls : ℕ} (hs : s.dev.Underway) :
    Sure SparedEvent Card.answer (dataPhase isRead count polls) s fun _ s' => s'.dev.Rested := by
  refine Sure.bind (sure_moveWords_card _ _ s hs) fun failed s h => ?_
  cases failed with
  | some status => exact Sure.ret h
  | none => exact sure_finishTransfer_card h

theorem autoCmd12_transferModeVal (mode count : U16) (isRead : Bool) :
    autoCmd12 (transferModeVal mode count isRead) = decide (count > 1#16) := by
  by_cases hc : count > 1#16 <;> cases isRead <;> simp [autoCmd12, transferModeVal, hc]

theorem sure_setUpTransfer_card {arg : U32} {count : U16} {isRead : Bool} (hs : s.dev.Usable) :
    Sure SparedEvent Card.answer (setUpTransfer arg count isRead) s fun _ s' =>
      s'.dev.Usable ∧ autoCmd12 s'.dev.mode = decide (count > 1#16) := by
  refine Sure.step hs usable_event fun s hs r d _ hans => ?_
  refine Sure.step (usable_within _ s r d trivial hs hans) usable_event fun s hs r d _ hans => ?_
  refine Sure.step (usable_within _ s r d (within_write (by decide)) hs hans) usable_event
    fun s hs r d _ hans => ?_
  have hargument : Only Within (writeArgument arg) :=
    Only.step (within_write (by decide)) fun _ => Only.perform (within_write (by decide))
  refine Sure.bind (Sure.only hargument (usable_within _ s r d (within_write (by decide)) hs hans)
    usable_event usable_within) fun _ s hs => ?_
  refine Sure.step hs usable_event fun s hs mode d _ hans => ?_
  refine Sure.perform (usable_within _ s mode d trivial hs hans) usable_event
    fun s hs r d _ hans => ⟨usable_within _ s r d (within_write (by decide)) hs hans, ?_⟩
  obtain rfl : d = _ := hans
  exact autoCmd12_transferModeVal mode count isRead

/-- With nothing latched the card takes the command, or the command is lost. -/
theorem Card.Usable.sent (h : c.Usable) (herror : c.error = 0)
    (hlatched : c.normal &&& transferComplete = 0)
    (hopen : opensTransfer v = true → autoCmd12 c.mode = true)
    (hdata : hasData v = true) {u : Unit} (hans : Card.answer (.write .command v) c u c') :
    c'.Underway := by
  have htakes : if hasData v then c.Takes v c' else c' = c := hans
  rw [if_pos hdata, Card.Takes, if_neg (by rw [h.transfer]; exact nofun)] at htakes
  rcases htakes with rfl | rfl
  · refine ⟨h.accepted, fun htrans => ⟨rfl, hopen htrans⟩, fun hor => ?_, Or.inl herror⟩
    exact absurd hor (by simp [Card.accept, herror, hlatched])
  · refine ⟨h.accepted, fun htrans => ?_, fun hor => ?_, Or.inl herror⟩
    · exact absurd htrans (by simp [h.transfer])
    · exact absurd hor (by simp [herror, hlatched])

/-! ### Transfers of several blocks -/

theorem clear_answer (e : SdAction) (c : Card) (r : e.Answer) (c' : Card)
    (h : Card.clearAnswer e c r c') : Card.answer e c r c' := h.2

theorem sure_dataCommand_card (cmd : SDCommand) {arg : U32} {count : U16} {isRead : Bool}
    {out : Option U32} {polls : ℕ}
    (hopens : opensTransfer (commandVal cmd.index .r1 ||| 1#16 <<< 5) = true)
    (hcount : count > 1#16) (hs : s.dev.Usable) :
    Sure SparedEvent Card.clearAnswer (dataCommand cmd.index arg .r1 count isRead out polls) s
      fun _ s' => s'.dev.Usable := by
  refine Sure.bind ((Sure.only (polling_waitLinesFree polls) hs usable_event
    fun e s r d he hs hans => usable_within e s r d he.within hs hans).restrict clear_answer)
    fun _ s hs => ?_
  refine Sure.bind ((sure_setUpTransfer_card hs).restrict clear_answer) fun _ s h => ?_
  refine Sure.step ⟨h.1, rfl⟩ (usable_event.and (mode_event s.dev.mode)) fun s₁ h₁ _ d _ hans => ?_
  obtain ⟨hclear, hans⟩ := hans
  obtain ⟨herror, hlatched⟩ := hclear _ rfl hopens
  have hsent : d.Underway := h₁.1.sent herror hlatched (fun _ => by
    rw [h₁.2, h.2]
    exact decide_eq_true hcount) (hasData_dataCommand cmd) hans
  -- from here on the command is its own
  refine Sure.restrict ?_ clear_answer
  refine Sure.mono (Q := fun _ s' => s'.dev.Rested) ?_ fun _ _ h => h.toUsable
  refine Sure.bind (sure_waitStatus (s := s₁.after d _) polls (by rwa [Sd.after_dev]))
    fun ⟨normalStatus, errorStatus⟩ s₂ h₂ => ?_
  dsimp only
  split
  · rename_i hne
    refine sure_clearError (h₂.2.2 hne) fun s₃ h₃ => ?_
    exact Sure.bind (sure_polling_rested (polling_resetLine _ _ polls) h₃) fun _ _ hs => Sure.ret hs
  · refine Sure.step h₂.1 underway_event fun s₃ h₃ r d _ hans => ?_
    refine Sure.bind (Sure.polling (polling_readResponse _ _)
      (underway_within _ s₃ r d (within_write (by decide)) h₃ hans) underway_event
      readStable_underway) fun response s₄ h₄ => ?_
    exact Sure.bind (sure_dataPhase_card h₄) fun status s₅ h₅ => Sure.ret h₅

/-! ### Transfers of one block -/

/-- Actions that cannot take a card out of Transfer state. -/
def Harmless : SdAction → Prop
  | .write .command v => opensTransfer v = false
  | _ => True

theorem Within.harmless {e : SdAction} (h : Within e) : Harmless e := by
  cases e with
  | write reg v => cases reg <;> first | exact trivial | exact (h rfl).elim
  | _ => exact trivial

theorem usable_harmless (e : SdAction) (s : Sd Card) (r : e.Answer) (d : Card) (he : Harmless e)
    (hs : s.dev.Usable) (hans : Card.clearAnswer e s.dev r d) : (s.after d e).dev.Usable := by
  obtain ⟨-, hans⟩ := hans
  have hsame : ∀ {d}, d = s.dev → (s.after d e).dev.Usable := by
    rintro _ rfl
    rw [Sd.after_dev]
    exact hs
  cases e with
  | write reg v =>
    cases reg with
    | command =>
      have htakes : if hasData v then s.dev.Takes v d else d = s.dev := hans
      split at htakes
      · rw [Card.Takes, if_neg (by rw [hs.transfer]; exact nofun)] at htakes
        rw [Sd.after_dev]
        rcases htakes with rfl | rfl
        · exact ⟨he, hs.accepted⟩
        · exact ⟨hs.transfer, hs.accepted⟩
      · exact hsame htakes
    | _ => exact usable_within _ s r d nofun hs hans
  | note m => exact hsame hans
  | stuck => exact nomatch r
  | _ => exact usable_within _ s r d trivial hs hans

theorem harmless_of_polling {α : Type} {p : SdProg α} (hp : Only Polling p) : Only Harmless p :=
  hp.mono fun _ h => h.within.harmless

theorem harmless_startBlock (isRead : Bool) (i polls : ℕ) :
    Only Harmless (startBlock isRead i polls) :=
  (acking_startBlock isRead i polls).mono fun _ h => by
    rcases h with h | ⟨v, rfl⟩
    · exact h.within.harmless
    · exact trivial

theorem harmless_moveWords (isRead : Bool) (polls : ℕ) :
    ∀ m i, Only Harmless (moveWords isRead polls m i) := by
  intro m
  induction m with
  | zero => exact fun i => Only.ret _
  | succ m ih =>
    intro i
    refine (harmless_startBlock isRead i polls).bind fun failed => ?_
    cases failed with
    | some status => exact Only.ret _
    | none =>
      exact ((within_moveWord isRead _).mono fun _ => Within.harmless).bind fun _ => ih (i + 1)

theorem harmless_dataPhase (isRead : Bool) (count : U16) (polls : ℕ) :
    Only Harmless (dataPhase isRead count polls) := by
  refine (harmless_moveWords isRead polls _ 0).bind fun failed => ?_
  cases failed with
  | some status => exact Only.ret _
  | none =>
    refine (acking_finishTransfer polls).mono fun _ h => ?_
    rcases h with h | ⟨v, rfl⟩
    · exact h.within.harmless
    · exact trivial

/-- CMD17 and CMD24. -/
theorem harmless_dataCommand (cmd : SDCommand) (arg : U32) (count : U16) (isRead : Bool)
    (out : Option U32) (polls : ℕ)
    (hsingle : opensTransfer (commandVal cmd.index .r1 ||| 1#16 <<< 5) = false) :
    Only Harmless (dataCommand cmd.index arg .r1 count isRead out polls) := by
  refine (harmless_of_polling (polling_waitLinesFree polls)).bind fun _ => ?_
  refine ((within_setUpTransfer arg count isRead).mono fun _ => Within.harmless).bind fun _ => ?_
  refine Only.step hsingle fun _ => (harmless_of_polling (polling_waitStatus _ polls)).bind
    fun ⟨normalStatus, errorStatus⟩ => ?_
  dsimp only
  split
  · exact Only.step trivial fun _ =>
      (harmless_of_polling (polling_resetLine _ _ polls)).bind fun _ => Only.ret _
  · exact Only.step trivial fun _ => (harmless_of_polling (polling_readResponse _ _)).bind fun _ =>
      (harmless_dataPhase isRead count polls).bind fun _ => Only.ret _

/-! ### Calls -/

theorem sure_transferWith_card (who : String) (cmd : SDCommand) {isRead : Bool} {arg : U32}
    {count : U16} {polls : ℕ}
    (hopen : opensTransfer (commandVal cmd.index .r1 ||| 1#16 <<< 5) = true → count > 1#16)
    (hs : s.dev.Usable) :
    Sure SparedEvent Card.clearAnswer (transferWith who cmd isRead arg count polls) s
      fun _ s' => s'.dev.Usable := by
  have hcommand : Sure SparedEvent Card.clearAnswer
      (dataCommand cmd.index arg .r1 count isRead (some 0#32) polls) s
      fun _ s' => s'.dev.Usable := by
    cases hopens : opensTransfer (commandVal cmd.index .r1 ||| 1#16 <<< 5) with
    | true => exact sure_dataCommand_card cmd hopens (hopen hopens) hs
    | false =>
      exact Sure.only (harmless_dataCommand cmd arg count isRead _ polls hopens) hs usable_event
        usable_harmless
  have hsend : Sure SparedEvent Card.clearAnswer
      (sendDataCommand cmd.index arg .r1 count isRead (some 0#32) polls) s
      fun _ s' => s'.dev.Usable :=
    Sure.bind hcommand fun ⟨status, response⟩ s hs =>
      Sure.step hs usable_event fun s hs _ d _ hans =>
        Sure.ret (usable_harmless (.note (.dataCommand status)) s () d trivial hs hans)
  refine Sure.bind hsend fun ⟨status, response⟩ s hs => ?_
  dsimp only
  split
  · exact Sure.only ((harmless_of_polling (polling_reportDataError who status)).bind
      fun _ => Only.ret _) hs usable_event usable_harmless
  · exact Sure.only (harmless_of_polling (polling_checkCardStatus who _)) hs usable_event
      usable_harmless

theorem sure_sdioTransfer_card (who unexpected : String) {single : SDCommand} (multiple : SDCommand)
    (hsingle : opensTransfer (commandVal single.index .r1 ||| 1#16 <<< 5) = false) {isRead : Bool}
    {lba count : U32} {polls : ℕ} (hcount : count.toNat ≤ 1 ∨ 2 ≤ count.toNat % 65536)
    (hs : s.dev.Usable) :
    Sure SparedEvent Card.clearAnswer
      (sdioTransfer who single multiple isRead unexpected lba count polls) s
      fun _ s' => s'.dev.Usable := by
  refine Sure.step hs usable_event fun s hs ccs d _ hans => ?_
  have hs' := usable_harmless (.get .ccs) s ccs d trivial hs hans
  split_ifs with hone hmany
  · exact sure_transferWith_card who single (fun hop => by rw [hsingle] at hop; cases hop) hs'
  · refine sure_transferWith_card who multiple (fun _ => ?_) hs'
    have hlt : 1 < count.toNat := hmany
    show 1 < (count.setWidth 16).toNat
    rw [BitVec.toNat_setWidth]
    omega
  · refine Sure.step hs' usable_event fun s hs r d _ hans => Sure.ret ?_
    exact usable_harmless (.uartPuts unexpected) s r d trivial hs hans

/-- **Every call leaves the card in Transfer state**, in any session whose counts fit, in
which each CMD18 and CMD25 starts with nothing latched and no error hits it. -/
theorem card_usable (polls : ℕ) (calls : List SdCall) (hfits : ∀ call ∈ calls, call.Fits)
    {s s' : Sd Card} (hs : s.dev.Usable)
    (h : Returns (sdAct sparedCard) (sdCalls polls calls) s () s') : s'.dev.Usable := by
  have hsession : Sure SparedEvent Card.clearAnswer (sdCalls polls calls) s
      fun _ s' => s'.dev.Usable := by
    clear h
    induction calls generalizing s with
    | nil => exact Sure.ret hs
    | cons call calls ih =>
      rw [List.forall_mem_cons] at hfits
      refine Sure.bind (Q := fun _ s => s.dev.Usable) ?_ fun _ s hs => ih hfits.2 hs
      cases call with
      | read lba count => exact sure_sdioTransfer_card _ _ _ (by decide) hfits.1 hs
      | write lba count => exact sure_sdioTransfer_card _ _ _ (by decide) hfits.1 hs
  exact hsession.of_returns h

/-! ### An error in the middle of CMD18 -/

/-- One block more, or the end of the transfer: an error if `fails` says so. -/
def Card.proceed (fails : Card → Bool) (c : Card) : Card :=
  let c := { c with normal := c.normal ||| 0x31#16 }
  match c.phase with
  | .idle => c
  | .unanswered =>
    { c with
      phase := .idle
      error := c.error ||| 1#16 }
  | .running =>
    if fails c then
      { c with
        phase := .idle
        error := c.error ||| 0x10#16 }
    else if c.left = 0 then
      { c with
        transferring := c.transferring && !c.auto
        phase := .idle
        normal := c.normal ||| transferComplete }
    else { c with left := c.left - 1 }

/-- A host that gets on whenever its status is read; `spare` stops a run in which an
error hits a CMD18 or CMD25, or one of them is sent with something latched. -/
def Card.serve (spare : Bool) (fails : Card → Bool) :
    (e : SdAction) → Card → Option (e.Answer × Card)
  | .read .normalInterruptStatus, c =>
    if spare = true ∧ c.transferring = true ∧ (c.proceed fails).error ≠ c.error then none
    else some ((c.proceed fails).normal, c.proceed fails)
  | .read .errorInterruptStatus, c => some (c.error, c)
  | .write .normalInterruptStatus v, c => some ((), { c with normal := c.normal &&& ~~~v })
  | .write .errorInterruptStatus v, c => some ((), { c with error := c.error &&& ~~~v })
  | .write .blockCount v, c => some ((), { c with blocks := v.toNat })
  | .write .transferMode v, c => some ((), { c with mode := v })
  | .write .command v, c =>
    if spare = true ∧ opensTransfer v = true ∧
      ¬ (c.error = 0 ∧ c.normal &&& transferComplete = 0) then none
    else some ((),
      if hasData v then
        if c.transferring then
          { c with
            phase := .unanswered
            refused := c.refused + 1 }
        else c.accept v
      else c)
  | e, c => e.zero.map fun r => (r, c)

/-- The events behind `proceed`, of which the last may be an error. -/
theorem Card.proceed_events {event : Card → Card → Prop} {fails : Card → Bool} {c : Card}
    (hquiet : ∀ c₁ c₂, CardEvent c₁ c₂ → c₂.error = c₁.error → event c₁ c₂)
    (hlast : ∀ c₁, CardEvent c₁ (c.proceed fails) → c₁.transferring = c.transferring →
      c₁.error = c.error → event c₁ (c.proceed fails)) :
    ReflTransGen event c (c.proceed fails) := by
  set c₁ : Card := { c with normal := c.normal ||| 0x31#16 } with hc₁
  have hother : ReflTransGen event c c₁ := .single (hquiet _ _ (.other 0x31#16 (by decide)) rfl)
  have hlast := hlast c₁
  rw [proceed, ← hc₁] at hlast ⊢
  revert hlast
  cases hphase : c₁.phase with
  | idle => exact fun _ => hother
  | unanswered => exact fun hlast => hother.tail (hlast (.noAnswer 1#16 hphase (by decide)) rfl rfl)
  | running =>
    dsimp only
    split_ifs with hfail hleft
    · exact fun hlast => hother.tail (hlast (.fail 0x10#16 hphase (by decide)) rfl rfl)
    · intro _
      by_cases hauto : c₁.auto = true
      · -- The host stops the card before it reports the end.
        have hstop := hquiet c₁ _ (.stop hphase hauto hleft) rfl
        have hdone := hquiet { c₁ with transferring := false } _
          (.complete hphase hleft fun _ => rfl) rfl
        rw [hauto, Bool.not_true, Bool.and_false]
        rw [hauto] at hstop hdone
        exact (hother.tail hstop).tail hdone
      · rw [Bool.not_eq_true] at hauto
        have hdone := hquiet c₁ _ (.complete hphase hleft fun h => by
          rw [hauto] at h
          cases h) rfl
        rw [hauto, Bool.not_false, Bool.and_true]
        rw [hauto] at hdone
        exact hother.tail hdone
    · intro _
      have hblock := hquiet c₁ _ (.block hphase) rfl
      rw [hphase] at hblock
      exact hother.tail hblock

theorem Card.serve_answer {spare : Bool} {fails : Card → Bool} (e : SdAction) (s : Sd Card)
    (r : e.Answer) (d : Card) (h : Card.serve spare fails e s.dev = some (r, d)) :
    (if spare then sparedCard else card) e s.dev (s.own e r) d := by
  -- what the handler lets the card do before it answers are events of the card
  have hevent : ∀ c₁ : Card, (∀ event, (∀ c c', CardEvent c c' → c'.error = c.error → event c c') →
      (∀ c c', CardEvent c c' → ¬ (spare = true ∧ c.transferring = true ∧ c'.error ≠ c.error) →
        event c c') → ReflTransGen event s.dev c₁) →
      (∀ v, e = .write .command v → opensTransfer v = true → spare = true →
        c₁.error = 0 ∧ c₁.normal &&& transferComplete = 0) →
      Card.answer e c₁ (s.own e r) d →
        (if spare then sparedCard else card) e s.dev (s.own e r) d := by
    intro c₁ hev hclear hans
    cases spare with
    | false => exact ⟨c₁, hev _ (fun c c' h _ => h) fun c c' h _ => h, hans⟩
    | true =>
      refine ⟨c₁, hev _ (fun c c' h herr => ⟨h, fun _ => herr⟩) fun c c' h hnot =>
        ⟨h, fun ht => ?_⟩, fun v he hopens => hclear v he hopens rfl, hans⟩
      exact not_not.mp fun hne => hnot ⟨rfl, ht, hne⟩
  -- in all the other cases it does nothing
  have hnow : (∀ v, e = .write .command v → opensTransfer v = true → spare = true →
      s.dev.error = 0 ∧ s.dev.normal &&& transferComplete = 0) →
      Card.answer e s.dev (s.own e r) d →
        (if spare then sparedCard else card) e s.dev (s.own e r) d :=
    fun hclear hans => hevent _ (fun _ _ _ => .refl) hclear hans
  cases e with
  | read reg =>
    cases reg with
    | normalInterruptStatus =>
      rw [Card.serve] at h
      split at h
      · exact nomatch h
      · rename_i hguard
        obtain ⟨rfl, rfl⟩ := Prod.mk.inj (Option.some_inj.mp h)
        refine hevent (s.dev.proceed fails) (fun event hquiet hlast => ?_) nofun ⟨rfl, rfl⟩
        refine Card.proceed_events hquiet fun c₁ hc ht herr => hlast _ _ hc ?_
        rwa [ht, herr]
    | errorInterruptStatus =>
      obtain ⟨rfl, rfl⟩ := Prod.mk.inj (Option.some_inj.mp h)
      exact hnow nofun ⟨rfl, rfl⟩
    | _ =>
      obtain ⟨rfl, rfl⟩ := Prod.mk.inj (Option.some_inj.mp h)
      exact hnow nofun rfl
  | write reg v =>
    cases reg with
    | command =>
      rw [Card.serve] at h
      split at h
      · exact nomatch h
      · rename_i hguard
        obtain ⟨rfl, rfl⟩ := Prod.mk.inj (Option.some_inj.mp h)
        refine hnow ?_ ?_
        · rintro _ ⟨⟩ hopens hspare
          exact not_not.mp fun hnot => hguard ⟨hspare, hopens, hnot⟩
        · show if hasData v then s.dev.Takes v _ else _ = s.dev
          split_ifs with hdata htrans
          · rw [Card.Takes, if_pos htrans]
          · rw [Card.Takes, if_neg htrans]
            exact Or.inl rfl
          · rfl
    | _ =>
      obtain ⟨rfl, rfl⟩ := Prod.mk.inj (Option.some_inj.mp h)
      exact hnow nofun rfl
  | stuck => exact nomatch r
  | _ =>
    obtain ⟨rfl, rfl⟩ := Prod.mk.inj (Option.some_inj.mp h)
    exact hnow nofun rfl

/-- A driver whose card is in Transfer state. -/
def restedCard : Sd Card :=
  { var := fun _ => 1
    buf := fun _ => 0
    dev :=
      { transferring := false
        refused := 0
        phase := .idle
        auto := false
        left := 0
        mode := 0
        blocks := 0
        normal := 0
        error := 0 } }

theorem restedCard_rested : restedCard.dev.Rested :=
  ⟨⟨rfl, rfl⟩, rfl, rfl, by decide⟩

/-- A data timeout in the second block of CMD18 leaves the card sending, and CMD17 is
refused. -/
theorem not_card_usable : ¬ ∀ (polls : ℕ) (calls : List SdCall) (s s' : Sd Card),
    s.dev.Rested → Returns (sdAct card) (sdCalls polls calls) s () s' → s'.dev.Usable := by
  intro hall
  have hplay : ((run (Sd.play (Card.serve false fun c => c.transferring && decide (c.left = 1)))
      (sdCalls 2 [.read 0#32 2#32, .read 0#32 1#32]) restedCard).any
      fun w => decide (w.2.dev.refused = 1)) = true := by
    decide +kernel
  obtain ⟨⟨_, s'⟩, hrun, hrefused⟩ := (Option.any_eq_true _ _).mp hplay
  have hret := Returns.of_run (Sd.sdAct_of_play Card.serve_answer) hrun
  have husable := hall 2 _ restedCard s' restedCard_rested hret
  rw [husable.accepted] at hrefused
  exact absurd hrefused (by decide)

/-- The same with a Transfer Complete latched, which is how `sdio_init` leaves it. -/
def latchedCard : Sd Card :=
  { restedCard with dev := { restedCard.dev with normal := transferComplete } }

/-- One block by CMD17, a timeout in CMD24, and then two blocks by CMD18. -/
theorem card_usable_three : ∃ s', Returns (sdAct sparedCard)
    (sdCalls 2 [.read 0#32 1#32, .write 5#32 1#32, .read 0#32 2#32]) latchedCard () s' ∧
      s'.dev.Usable := by
  have hplay : (run (Sd.play (Card.serve true fun c =>
      !c.transferring && decide (c.blocks = 1 ∧ c.left = 0 ∧ c.mode.getLsbD 4 = false)))
      (sdCalls 2 [.read 0#32 1#32, .write 5#32 1#32, .read 0#32 2#32]) latchedCard).isSome =
      true := by
    decide +kernel
  obtain ⟨⟨_, s'⟩, hrun⟩ := Option.isSome_iff_exists.mp hplay
  have hret := Returns.of_run (Sd.sdAct_of_play Card.serve_answer) hrun
  refine ⟨s', hret, card_usable 2 _ ?_ ⟨rfl, rfl⟩ hret⟩
  simp [SdCall.Fits]

end GamingConsole
