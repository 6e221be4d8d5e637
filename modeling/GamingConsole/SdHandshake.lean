/-
Which capabilities the identification asks for.

`watch` follows the log of a run: the argument and the index of the last command, what
CMD8 has shown of the card, and for which argument of ACMD41 the card has offered 1.8 V.
`Lawful` is the rule that every command keeps to (`Handshake.Allows`); `Refused` says
that the card has accepted no CMD55 of the first polling loop, so that the loop has sent
no ACMD41.

* `Outcome` — how one command ends, and what the log then says;
* `Polls`, `Retries` — what the two loops of ACMD41 keep;
* `handshake_lawful` — the rule is kept by the runs that are refused, and by no others.
-/
import GamingConsole.SdClock
import GamingConsole.SdTransfer

namespace GamingConsole

open Prog

variable {s s' : Sd (List Event)} {α : Type} {log log' log₁ : List Event}

/-! ### Following the log -/

/-- The index in a value of COMMAND. -/
def commandIndex (v : U16) : U16 := v >>> 8 &&& 0x3F#16

/-- The fields of ACMD41's argument: HCS, S18R, the voltage window. -/
def hcs (argument : U32) : U32 := argument >>> 30 &&& 1#32

def s18r (argument : U32) : U32 := argument >>> 24 &&& 1#32

def voltageWindow (argument : U32) : U32 := argument &&& 0xFFFFFF#32

/-- What a log says about the handshake. -/
structure Handshake where
  /-- The argument registers. -/
  argumentLow : U16
  argumentHigh : U16
  /-- The index of the last command. -/
  command : U16
  /-- Whether CMD8 was echoed (`F8 = 1`) or has timed out (`F8 = 0`). -/
  f8 : Option Bool
  /-- How often CMD55 has been sent. -/
  appCommands : ℕ
  /-- CMD11 has been sent. -/
  switching : Bool
  /-- The argument of the last ACMD41, if it was answered with S18A = 1. -/
  offer : Option U32

namespace Handshake

def start : Handshake := ⟨0, 0, 0, none, 0, false, none⟩

def argument (h : Handshake) : U32 := h.argumentHigh ++ h.argumentLow

/-- Both halves of the argument have been written. -/
def argued (h : Handshake) (argument : U32) : Handshake :=
  { h with
    argumentLow := (argument &&& 0xFFFF#32).setWidth 16
    argumentHigh := (argument >>> 16 &&& 0xFFFF#32).setWidth 16 }

/-- A command has been sent. -/
def sent (h : Handshake) (index : U16) : Handshake :=
  { h with
    command := index
    appCommands := if index = 55#16 then h.appCommands + 1 else h.appCommands
    switching := h.switching || decide (index = 11#16) }

/-- The command has ended with an error. -/
def failed (h : Handshake) (errorStatus : U16) : Handshake :=
  if h.command = 8#16 ∧ commandError errorStatus = .timeout then { h with f8 := some false } else h

/-- The response to the command has been read. -/
def answered (h : Handshake) (response : U32) : Handshake :=
  if h.command = 8#16 then
    if response >>> 8 &&& 0xF#32 = 0b0001#32 ∧ response &&& 0xFF#32 = 0xAA#32 then
      { h with f8 := some true }
    else h
  else if h.command = 41#16 then
    { h with offer := if response >>> 24 &&& 1#32 = 1#32 then some h.argument else none }
  else h

def step (h : Handshake) : Event → Handshake
  | ⟨.write .argumentLow v, _⟩ => { h with argumentLow := v }
  | ⟨.write .argumentHigh v, _⟩ => { h with argumentHigh := v }
  | ⟨.write .command v, _⟩ => h.sent (commandIndex v)
  | ⟨.read .errorInterruptStatus, v⟩ => if v = 0 then h else h.failed v
  | ⟨.read .response0, r⟩ => h.answered r
  | _ => h

/-- The command with this index may be sent. -/
structure Allows (h : Handshake) (index : U16) : Prop where
  legacy : index = 41#16 → voltageWindow h.argument ≠ 0 → h.f8 = some false →
    hcs h.argument = 0 ∧ s18r h.argument = 0
  version2 : index = 41#16 → voltageWindow h.argument ≠ 0 → h.f8 = some true →
    h.switching = false → hcs h.argument = 1 ∧ s18r h.argument = 1
  retry : index = 41#16 → h.switching = true → s18r h.argument = 0
  switch : index = 11#16 → ∃ argument ∈ h.offer, s18r argument = 1

set_option synthInstance.maxSize 512 in
instance (h : Handshake) (index : U16) : Decidable (h.Allows index) :=
  decidable_of_iff
    ((index = 41#16 → voltageWindow h.argument ≠ 0 → h.f8 = some false →
        hcs h.argument = 0 ∧ s18r h.argument = 0) ∧
      (index = 41#16 → voltageWindow h.argument ≠ 0 → h.f8 = some true →
        h.switching = false → hcs h.argument = 1 ∧ s18r h.argument = 1) ∧
      (index = 41#16 → h.switching = true → s18r h.argument = 0) ∧
      (index = 11#16 → ∃ argument ∈ h.offer, s18r argument = 1))
    ⟨fun ⟨h1, h2, h3, h4⟩ => ⟨h1, h2, h3, h4⟩, fun ⟨h1, h2, h3, h4⟩ => ⟨h1, h2, h3, h4⟩⟩

theorem argument_argued (h : Handshake) (arg : U32) : (h.argued arg).argument = arg := by
  apply BitVec.eq_of_toNat_eq
  rw [argument, argued, BitVec.toNat_append, ← Nat.shiftLeft_add_eq_or_of_lt (BitVec.isLt _),
    Nat.shiftLeft_eq]
  exact toNat_halves arg

@[simp] theorem argument_sent (h : Handshake) (index : U16) :
    (h.sent index).argument = h.argument := rfl

theorem failed_of_ne {h : Handshake} (h8 : h.command ≠ 8#16) (v : U16) : h.failed v = h := by
  rw [failed, if_neg fun hc => h8 hc.1]

theorem answered_of_ne {h : Handshake} (h8 : h.command ≠ 8#16) (h41 : h.command ≠ 41#16)
    (r : U32) : h.answered r = h := by
  rw [answered, if_neg h8, if_neg h41]

theorem failed_same (h : Handshake) (v : U16) :
    (h.failed v).appCommands = h.appCommands ∧ (h.failed v).switching = h.switching := by
  rw [failed]
  split <;> exact ⟨rfl, rfl⟩

theorem answered_same (h : Handshake) (r : U32) :
    (h.answered r).appCommands = h.appCommands ∧ (h.answered r).switching = h.switching ∧
      (h.command ≠ 8#16 → (h.answered r).f8 = h.f8) := by
  rw [answered]
  split_ifs with h8
  · exact ⟨rfl, rfl, fun hne => absurd h8 hne⟩
  · exact ⟨rfl, rfl, fun hne => absurd h8 hne⟩
  all_goals exact ⟨rfl, rfl, fun _ => rfl⟩

theorem answered_echo {h : Handshake} (h8 : h.command = 8#16) {r : U32}
    (hecho : r >>> 8 &&& 0xF#32 = 0b0001#32 ∧ r &&& 0xFF#32 = 0xAA#32) :
    (h.answered r).f8 = some true := by
  rw [answered, if_pos h8, if_pos hecho]

theorem answered_offer {h : Handshake} (h41 : h.command = 41#16) {r : U32}
    (hs18a : r >>> 24 &&& 1#32 = 1#32) : (h.answered r).offer = some h.argument := by
  have h8 : h.command ≠ 8#16 := by simp [h41]
  rw [answered, if_neg h8, if_pos h41, if_pos hs18a]

/-- A command that the rule has nothing to say about. -/
theorem allows_other (h : Handshake) {index : U16} (h11 : index ≠ 11#16) (h41 : index ≠ 41#16) :
    h.Allows index :=
  ⟨fun he => absurd he h41, fun he => absurd he h41, fun he => absurd he h41,
    fun he => absurd he h11⟩

/-- `r` is no acceptance of a CMD55 of the first polling loop: the first CMD55 is the
inquiry's, and the loop is over when CMD11 is sent. -/
def Declines (h : Handshake) (r : U32) : Prop :=
  h.command = 55#16 → 2 ≤ h.appCommands → h.switching = false → r >>> 5 &&& 1#32 = 0

instance (h : Handshake) (r : U32) : Decidable (h.Declines r) :=
  inferInstanceAs (Decidable (h.command = 55#16 → 2 ≤ h.appCommands → h.switching = false →
    r >>> 5 &&& 1#32 = 0))

theorem declines_of_clear (h : Handshake) {r : U32} (hr : r >>> 5 &&& 1#32 = 0) : h.Declines r :=
  fun _ _ _ => hr

theorem declines_of_ne {h : Handshake} (h55 : h.command ≠ 55#16) (r : U32) : h.Declines r :=
  fun hc => absurd hc h55

end Handshake

def watch : List Event → Handshake
  | [] => .start
  | e :: log => (watch log).step e

/-- The value an event writes to COMMAND. -/
def Event.command : Event → Option U16
  | ⟨.write .command v, _⟩ => some v
  | _ => none

/-- The response an event reads. -/
def Event.response : Event → Option U32
  | ⟨.read .response0, r⟩ => some r
  | _ => none

/-- `P` holds of every event and of what the log says before it. -/
def Throughout (P : Handshake → Event → Prop) : List Event → Prop
  | [] => True
  | e :: log => P (watch log) e ∧ Throughout P log

instance Throughout.decidable {P : Handshake → Event → Prop} [∀ h e, Decidable (P h e)] :
    DecidablePred (Throughout P)
  | [] => .isTrue trivial
  | _ :: log => @instDecidableAnd _ _ _ (Throughout.decidable log)

/-- Every command was allowed. -/
def Lawful : List Event → Prop :=
  Throughout fun h e => ∀ v ∈ Event.command e, h.Allows (commandIndex v)

/-- No CMD55 of the first polling loop has been answered with APP_CMD set. -/
def Refused : List Event → Prop :=
  Throughout fun h e => ∀ r ∈ Event.response e, h.Declines r

instance : DecidablePred Lawful := fun _ => Throughout.decidable _

instance : DecidablePred Refused := fun _ => Throughout.decidable _

theorem lawful_cons (e : Event) (log : List Event) : Lawful (e :: log) ↔
    (∀ v ∈ Event.command e, (watch log).Allows (commandIndex v)) ∧ Lawful log := Iff.rfl

theorem refused_cons (e : Event) (log : List Event) : Refused (e :: log) ↔
    (∀ r ∈ Event.response e, (watch log).Declines r) ∧ Refused log := Iff.rfl

/-- What every run keeps, -/
def InBounds (log : List Event) : Prop := Refused log → Lawful log

/-- and what holds between the commands. -/
def Accounted (log : List Event) : Prop := Lawful log ↔ Refused log

theorem Accounted.inBounds (h : Accounted log) : InBounds log := h.mpr

/-- `log'` goes on from `log`: the handshake is now `h`, and the events in between are
lawful if `law`, refused if `refusal`. -/
structure Follows (log : List Event) (h : Handshake) (law refusal : Prop) (log' : List Event) :
    Prop where
  watch : watch log' = h
  lawful : Lawful log' ↔ law ∧ Lawful log
  refused : Refused log' ↔ refusal ∧ Refused log

/-- Nothing about the handshake has changed. -/
abbrev Same (log log' : List Event) : Prop := Follows log (watch log) True True log'

theorem Same.refl (log : List Event) : Same log log := ⟨rfl, by simp, by simp⟩

theorem Same.then {h : Handshake} {law refusal : Prop} (h₁ : Same log log₁)
    (h₂ : Follows log₁ h law refusal log') : Follows log h law refusal log' :=
  ⟨h₂.watch, by rw [h₂.lawful, h₁.lawful, true_and], by rw [h₂.refused, h₁.refused, true_and]⟩

theorem Follows.then {h h' : Handshake} {law refusal : Prop} (h₁ : Follows log h law refusal log₁)
    (h₂ : Follows log₁ h' True True log') : Follows log h' law refusal log' :=
  ⟨h₂.watch, by rw [h₂.lawful, h₁.lawful, true_and], by rw [h₂.refused, h₁.refused, true_and]⟩

theorem Follows.then_same {h : Handshake} {law refusal : Prop}
    (h₁ : Follows log h law refusal log₁) (h₂ : Same log₁ log') :
    Follows log h law refusal log' := by
  rw [Same, h₁.watch] at h₂
  exact h₁.then h₂

theorem Follows.inBounds {h : Handshake} {law refusal : Prop} (h₁ : Follows log h law refusal log')
    (hlog : InBounds log) (hlaw : Refused log → refusal → law) : InBounds log' := by
  intro hrefused
  obtain ⟨hrefusal, hrefused⟩ := h₁.refused.mp hrefused
  exact h₁.lawful.mpr ⟨hlaw hrefused hrefusal, hlog hrefused⟩

theorem Same.inBounds (h : Same log log') (hlog : InBounds log) : InBounds log' :=
  Follows.inBounds h hlog fun _ h => h

theorem Follows.accounted {h : Handshake} (h₁ : Follows log h True True log')
    (hlog : Accounted log) : Accounted log' := by
  rw [Accounted, h₁.lawful, h₁.refused, true_and, true_and]
  exact hlog

/-! ### One command -/

/-- The run keeps `InBounds`, and ends as `Q` says. -/
abbrev Watched (p : SdProg α) (s : Sd (List Event)) (Q : α → List Event → Prop) : Prop :=
  Holds (sdAct bus) (fun s => InBounds s.dev) (fun a s => Q a s.dev) p s

/-- Actions that are no part of a command, marks included. -/
def Aside (e : SdAction) : Prop := Calm e ∨ ∃ m, e = .note m

theorem Aside.silent {e : SdAction} (h : Aside e) (r : e.Answer) :
    Event.command ⟨e, r⟩ = none ∧ Event.response ⟨e, r⟩ = none ∧
      ∀ h : Handshake, h.step ⟨e, r⟩ = h := by
  rcases h with h | ⟨m, rfl⟩
  · cases e with
    | read reg => cases reg <;> first | exact False.elim h | exact ⟨rfl, rfl, fun _ => rfl⟩
    | write reg v => cases reg <;> first | exact False.elim h | exact ⟨rfl, rfl, fun _ => rfl⟩
    | _ => exact ⟨rfl, rfl, fun _ => rfl⟩
  · exact ⟨rfl, rfl, fun _ => rfl⟩

/-- An event that neither writes COMMAND nor reads a response. -/
theorem follows_silent {e : Event} (hcommand : e.command = none) (hresponse : e.response = none)
    (log : List Event) : Follows log ((watch log).step e) True True (e :: log) :=
  ⟨rfl, by rw [lawful_cons, hcommand]; simp, by rw [refused_cons, hresponse]; simp⟩

theorem Aside.same {e : SdAction} (h : Aside e) (r : e.Answer) (log : List Event) :
    Same log (⟨e, r⟩ :: log) := by
  obtain ⟨hcommand, hresponse, hstep⟩ := h.silent r
  have hfollows := follows_silent hcommand hresponse log
  rwa [hstep] at hfollows

theorem watched_aside {p : SdProg α} (hp : Only Aside p) (hs : InBounds s.dev) :
    Watched p s fun _ log => Same s.dev log := by
  have hkeep : Holds (sdAct bus) (fun s' => Same s.dev s'.dev)
      (fun _ s' => Same s.dev s'.dev) p s :=
    only_log (I := fun log => Same s.dev log) hp (Same.refl _) fun e r log he hlog =>
      Follows.then_same hlog (he.same r log)
  exact hkeep.mono (fun s' h => h.inBounds hs) fun _ _ h => h

theorem watched_calm {p : SdProg α} (hp : Only Calm p) (hs : InBounds s.dev) :
    Watched p s fun _ log => Same s.dev log :=
  watched_aside (hp.mono fun _ => Or.inl) hs

theorem calm_waitCmdFree : ∀ n, Only Calm (waitCmdFree n)
  | 0 => calm_stuck
  | n + 1 => Only.step trivial fun present => by
    split
    · exact calm_waitCmdFree n
    · exact Only.ret _

theorem calm_resetLine (bit : U8) (msg : String) (polls : ℕ) :
    Only Calm (resetLine bit msg polls) := by
  refine Only.step trivial fun _ => Only.step trivial fun start => ?_
  induction polls with
  | zero => exact calm_stuck
  | succ n ih =>
    refine Only.step trivial fun v => ?_
    split
    · refine Only.step trivial fun late => ?_
      split
      · exact Only.step trivial fun _ => Only.step trivial fun _ =>
          Only.step trivial fun _ => Only.step trivial fun _ => Only.ret _
      · exact ih
    · exact Only.ret _

/-- One access whose event leads from `s.dev` to a log in bounds. -/
theorem Watched.step {e : SdAction} {f : e.Answer → SdProg α} {Q : α → List Event → Prop}
    (hs : InBounds s.dev) (h : ∀ r, Watched (f r) (s.after (⟨e, r⟩ :: s.dev) e) Q) :
    Watched (sd e >>= f) s Q :=
  Holds.step hs fun r s' hact => by
    rw [sdAct_bus hact]
    exact h r

theorem Watched.perform {e : SdAction} {Q : e.Answer → List Event → Prop} (hs : InBounds s.dev)
    (h : ∀ r, Q r (⟨e, r⟩ :: s.dev)) : Watched (sd e) s Q :=
  Holds.perform hs fun r s' hact => by
    rw [sdAct_bus hact, Sd.after_dev]
    exact h r

/-- An access that is no part of a command. -/
theorem Watched.aside {e : SdAction} {f : e.Answer → SdProg α} {Q : α → List Event → Prop}
    {h : Handshake} {law refusal : Prop} (he : Aside e) (hs : InBounds s.dev)
    (hlog : Follows log h law refusal s.dev)
    (hnext : ∀ r s', InBounds s'.dev → Follows log h law refusal s'.dev → Watched (f r) s' Q) :
    Watched (sd e >>= f) s Q := by
  refine Watched.step hs fun r => hnext r _ ?_ ?_ <;> rw [Sd.after_dev]
  · exact (he.same r s.dev).inBounds hs
  · exact hlog.then_same (he.same r s.dev)

theorem watched_writeArgument (arg : U32) (hs : InBounds s.dev) :
    Watched (writeArgument arg) s fun _ log =>
      Follows s.dev ((watch s.dev).argued arg) True True log := by
  have hlow := follows_silent
    (e := ⟨.write .argumentLow ((arg &&& 0xFFFF#32).setWidth 16), ()⟩) rfl rfl s.dev
  have hhigh := follows_silent
    (e := ⟨.write .argumentHigh ((arg >>> 16 &&& 0xFFFF#32).setWidth 16), ()⟩) rfl rfl
    (⟨.write .argumentLow ((arg &&& 0xFFFF#32).setWidth 16), ()⟩ :: s.dev)
  refine Watched.step hs fun _ => Watched.perform ?_ fun _ => ?_ <;> rw [Sd.after_dev]
  · exact hlow.inBounds hs fun _ h => h
  · exact hlow.then hhigh

/-- The wait for the end of a command sees at most one error, the one it ends with. -/
theorem watched_waitStatus (mask : U16) : ∀ (n : ℕ) (s : Sd (List Event)), InBounds s.dev →
    Watched (waitStatus mask n) s fun r log =>
      (r.2 = 0 → Same s.dev log) ∧
        (r.2 ≠ 0 → Follows s.dev ((watch s.dev).failed r.2) True True log) := by
  intro n
  induction n with
  | zero => exact fun s hs => Watched.step hs fun e => nomatch e
  | succ n ih =>
    intro s hs
    refine Watched.step hs fun normalStatus => ?_
    have haside : Aside (.read .normalInterruptStatus) := Or.inl trivial
    have hnormal := haside.same normalStatus s.dev
    refine Watched.step (by rw [Sd.after_dev]; exact hnormal.inBounds hs) fun errorStatus => ?_
    rw [Sd.after_dev]
    have hread := follows_silent (e := ⟨.read .errorInterruptStatus, errorStatus⟩) rfl rfl
      (⟨.read .normalInterruptStatus, normalStatus⟩ :: s.dev)
    have herror : Follows s.dev
        (if errorStatus = 0 then watch s.dev else (watch s.dev).failed errorStatus) True True
        (⟨.read .errorInterruptStatus, errorStatus⟩ ::
          ⟨.read .normalInterruptStatus, normalStatus⟩ :: s.dev) :=
      hnormal.then hread
    split
    · rename_i hclear
      rw [if_pos hclear.2] at herror
      -- without an error the two readings have changed nothing
      refine (ih _ (by rw [Sd.after_dev]; exact Same.inBounds herror hs)).mono
        (fun _ h => h) fun r s' h => ?_
      rw [Sd.after_dev, Same, herror.watch] at h
      exact ⟨fun hr => Same.then herror (h.1 hr), fun hr => Same.then herror (h.2 hr)⟩
    · refine Holds.ret ?_
      show (errorStatus = 0 → Same s.dev _) ∧ (errorStatus ≠ 0 → Follows s.dev _ True True _)
      rw [Sd.after_dev]
      refine ⟨fun hr => ?_, fun hr => ?_⟩
      · rw [if_pos hr] at herror
        exact herror
      · rw [if_neg hr] at herror
        exact herror

/-- How a command ends that makes the handshake `h`, from the caller's variable `out`: an
error, or success, with the response or, if nobody asked for it, without. -/
inductive Outcome (log : List Event) (h : Handshake) (law asked : Prop) (out : Option U32) :
    SDCommandStatus × Option U32 → List Event → Prop
  | failed (v : U16) {log' : List Event} (hlog : Follows log (h.failed v) law True log') :
      Outcome log h law asked out (commandError v, out) log'
  | unread {log' : List Event} (hasked : ¬ asked) (hlog : Follows log h law True log') :
      Outcome log h law asked out (.success, out) log'
  | answered (r : U32) {log' : List Event}
    (hlog : Follows log (h.answered r) law (h.Declines r) log') :
      Outcome log h law asked out (.success, some r) log'

/-- The end of another command than CMD8 and CMD55. -/
theorem Outcome.other {h : Handshake} {law asked : Prop} {out : Option U32}
    {r : SDCommandStatus × Option U32} (ho : Outcome log h law asked out r log')
    (h8 : h.command ≠ 8#16) (h55 : h.command ≠ 55#16) :
    ∃ h', Follows log h' law True log' ∧ h'.f8 = h.f8 ∧ h'.switching = h.switching ∧
      h'.appCommands = h.appCommands := by
  cases ho with
  | failed v hlog =>
    rw [Handshake.failed_of_ne h8] at hlog
    exact ⟨h, hlog, rfl, rfl, rfl⟩
  | unread _ hlog => exact ⟨h, hlog, rfl, rfl, rfl⟩
  | answered r hlog =>
    rw [eq_true (Handshake.declines_of_ne h55 r)] at hlog
    obtain ⟨happ, hswitch, hf8⟩ := h.answered_same r
    exact ⟨_, hlog, hf8 h8, hswitch, happ⟩

theorem watched_readResponse {rt : SDResponseType} {out : Option U32} {log : List Event}
    {h : Handshake} {law : Prop} (hs : InBounds s.dev) (hlog : Follows log h law True s.dev) :
    Watched (readResponse rt out) s fun out' log' =>
      Outcome log h law (out ≠ none ∧ rt ≠ .none) out (.success, out') log' := by
  rw [readResponse]
  split
  · refine Watched.step hs fun r => Holds.ret ?_
    rw [Sd.after_dev]
    have hlog' : Follows log (h.answered r) law (h.Declines r)
        (⟨.read .response0, r⟩ :: s.dev) := by
      refine ⟨?_, ?_, ?_⟩
      · rw [← hlog.watch]
        rfl
      · rw [lawful_cons, show Event.command ⟨.read .response0, r⟩ = none from rfl, hlog.lawful]
        simp
      · rw [refused_cons, show Event.response ⟨.read .response0, r⟩ = some r from rfl, hlog.watch,
          hlog.refused]
        simp
    exact Outcome.answered r hlog'
  · rename_i hasked
    exact Holds.ret (Outcome.unread hasked hlog)

/-- `_send_command`, where the rule allows the command unless a poll has been accepted. -/
theorem watched_sendCommand {cmd : U8} {arg : U32} {rt : SDResponseType} {out : Option U32}
    (polls : ℕ) (hs : InBounds s.dev)
    (hallow : Refused s.dev →
      ((watch s.dev).argued arg).Allows (commandIndex (commandVal cmd rt))) :
    Watched (sendCommand cmd arg rt out polls) s fun r log =>
      Outcome s.dev (((watch s.dev).argued arg).sent (commandIndex (commandVal cmd rt)))
        (((watch s.dev).argued arg).Allows (commandIndex (commandVal cmd rt)))
        (out ≠ none ∧ rt ≠ .none) out r log := by
  refine Holds.bind (watched_calm (calm_waitCmdFree polls) hs) fun _ s₁ h₁ => ?_
  refine Holds.bind (watched_writeArgument arg (h₁.inBounds hs)) fun _ s₂ h₂ => ?_
  rw [h₁.watch] at h₂
  have h₂ := h₁.then h₂
  refine Watched.step (h₂.inBounds hs fun _ h => h) fun _ => ?_
  -- the command itself is the one exchange that the rule is about
  have h₃ : Follows s.dev (((watch s.dev).argued arg).sent (commandIndex (commandVal cmd rt)))
      (((watch s.dev).argued arg).Allows (commandIndex (commandVal cmd rt))) True
      (⟨.write .command (commandVal cmd rt), ()⟩ :: s₂.dev) := by
    refine ⟨?_, ?_, ?_⟩
    · rw [← h₂.watch]
      rfl
    · rw [lawful_cons, show Event.command ⟨.write .command (commandVal cmd rt), ()⟩ =
        some (commandVal cmd rt) from rfl, h₂.watch, h₂.lawful]
      simp
    · rw [refused_cons,
        show Event.response ⟨.write .command (commandVal cmd rt), ()⟩ = none from rfl,
        h₂.refused]
      simp
  have hs₃ := h₃.inBounds hs fun hrefused _ => hallow hrefused
  refine Holds.bind (watched_waitStatus _ polls _ (by rw [Sd.after_dev]; exact hs₃))
    fun status s₄ h₄ => ?_
  obtain ⟨normalStatus, errorStatus⟩ := status
  rw [Sd.after_dev, Same, h₃.watch] at h₄
  dsimp only at h₄ ⊢
  split
  · rename_i hne
    have hfailed := h₃.then (h₄.2 hne)
    refine Watched.aside (Or.inl trivial) (hfailed.inBounds hs fun hr _ => hallow hr) hfailed
      fun _ s₅ hs₅ h₅ => ?_
    refine Holds.bind (watched_calm (calm_resetLine _ _ polls) hs₅) fun _ s₆ h₆ => ?_
    refine Watched.aside (Or.inl trivial) (h₆.inBounds hs₅) (h₅.then_same h₆) fun _ s₇ hs₇ h₇ => ?_
    refine Watched.aside (Or.inl trivial) hs₇ h₇ fun _ s₇ hs₇ h₇ => ?_
    refine Watched.aside (Or.inl trivial) hs₇ h₇ fun _ s₇ hs₇ h₇ => ?_
    refine Watched.aside (Or.inl trivial) hs₇ h₇ fun _ s₇ hs₇ h₇ => ?_
    refine Watched.aside (Or.inl trivial) hs₇ h₇ fun _ s₇ hs₇ h₇ => ?_
    exact Holds.ret (Outcome.failed errorStatus h₇)
  · rename_i heq
    have hdone := h₃.then (h₄.1 (not_not.mp heq))
    have hs₄ := hdone.inBounds hs fun hrefused _ => hallow hrefused
    refine Watched.aside (Or.inl trivial) hs₄ hdone fun _ s₅ hs₅ h₅ => ?_
    refine Holds.bind (watched_readResponse hs₅ h₅) fun out' s₆ h₆ => ?_
    exact Holds.ret h₆

/-! ### The commands of the identification -/

theorem commandIndex_commandVal (cmd : U8) (rt : SDResponseType) :
    commandIndex (commandVal cmd rt) = cmd.setWidth 16 &&& 0x3F#16 := by
  have hbits : rt.commandBits >>> 8 = 0#16 := by cases rt <;> rfl
  have hlow : (cmd.setWidth 16 &&& 0x3F#16).toNat < 2 ^ 6 := by
    rw [BitVec.toNat_and]
    exact Nat.and_lt_two_pow _ (by simp)
  have hback : (cmd.setWidth 16 &&& 0x3F#16) <<< 8 >>> 8 = cmd.setWidth 16 &&& 0x3F#16 := by
    apply BitVec.eq_of_toNat_eq
    rw [BitVec.toNat_ushiftRight, BitVec.toNat_shiftLeft, Nat.shiftLeft_eq,
      Nat.shiftRight_eq_div_pow]
    omega
  rw [commandIndex, commandVal, BitVec.ushiftRight_or_distrib, hbits, BitVec.or_zero, hback,
    BitVec.and_assoc, BitVec.and_self]

/-- A command that neither the rule nor the handshake asks about. -/
theorem watched_other {cmd : U8} {arg : U32} {rt : SDResponseType} {out : Option U32} (polls : ℕ)
    (hs : InBounds s.dev) {index : U16} (hcmd : cmd.setWidth 16 &&& 0x3F#16 = index)
    (h8 : index ≠ 8#16) (h11 : index ≠ 11#16) (h41 : index ≠ 41#16) (h55 : index ≠ 55#16) :
    Watched (sendCommand cmd arg rt out polls) s fun _ log =>
      Follows s.dev (((watch s.dev).argued arg).sent index) True True log := by
  have hallows := Handshake.allows_other ((watch s.dev).argued arg) h11 h41
  have hindex : commandIndex (commandVal cmd rt) = index := by rw [commandIndex_commandVal, hcmd]
  rw [← hindex] at hallows
  refine (watched_sendCommand polls hs fun _ => hallows).mono (fun _ h => h) fun r s' ho => ?_
  rw [hindex] at ho hallows
  have hlaw : ((watch s.dev).argued arg).Allows index = True := eq_true hallows
  rw [hlaw] at ho
  cases ho with
  | failed v hlog => rwa [Handshake.failed_of_ne h8] at hlog
  | unread _ hlog => exact hlog
  | answered r hlog =>
    rw [Handshake.answered_of_ne h8 h41] at hlog
    have hrefusal : (((watch s.dev).argued arg).sent index).Declines r = True :=
      eq_true (Handshake.declines_of_ne h55 r)
    rwa [hrefusal] at hlog

theorem commandError_cases (v : U16) :
    commandError v = .crcError ∨ commandError v = .indexError ∨ commandError v = .timeout := by
  rw [commandError]
  split_ifs <;> simp

/-- CMD55 has been sent. -/
def Handshake.announced (h : Handshake) : Handshake := (h.argued 0#32).sent 55#16

/-- ACMD41: either CMD55 is not accepted, or the command follows. -/
theorem watched_appCommand {arg : U32} {rt : SDResponseType} {out : Option U32}
    {P : Option U32 → List Event → Prop} (polls : ℕ) (hs : InBounds s.dev)
    (hkept : ∀ log, Follows s.dev (watch s.dev).announced True True log → P out log)
    (haccept : ∀ (s₁ : Sd (List Event)) (r : U32), r >>> 5 &&& 1#32 ≠ 0 →
      Follows s.dev (watch s.dev).announced True ((watch s.dev).announced.Declines r) s₁.dev →
      Watched (sendCommand SDAppCommand.acmd41.index arg rt out polls) s₁ fun r log => P r.2 log) :
    Watched (sendAppCommand .acmd41 arg rt out polls) s fun r log => P r.2 log := by
  have hallows : ((watch s.dev).argued 0#32).Allows 55#16 :=
    Handshake.allows_other _ (by simp) (by simp)
  refine Holds.bind (watched_sendCommand polls hs fun _ => hallows) fun result s₁ ho => ?_
  have hlaw : ((watch s.dev).argued 0#32).Allows 55#16 = True := eq_true hallows
  rw [show commandIndex (commandVal SDCommand.cmd55.index .r1) = 55#16 from rfl, hlaw] at ho
  obtain ⟨status, response⟩ := result
  dsimp only
  cases ho with
  | failed v hlog =>
    rw [Handshake.failed_of_ne (by simp [Handshake.sent])] at hlog
    rw [if_pos (commandError_cases v)]
    exact Holds.ret (hkept _ hlog)
  | unread hasked _ => exact absurd ⟨Option.some_ne_none _, by simp⟩ hasked
  | answered r hlog =>
    rw [Handshake.answered_of_ne (by simp [Handshake.sent]) (by simp [Handshake.sent])] at hlog
    rw [if_neg (by simp), Option.getD_some]
    split
    · rename_i hclear
      have hdeclines := eq_true (Handshake.declines_of_clear (watch s.dev).announced hclear)
      refine Holds.ret (hkept _ ?_)
      rw [Handshake.announced] at hdeclines ⊢
      rwa [hdeclines] at hlog
    · rename_i hset
      exact haccept s₁ r hset hlog

/-- The loop of ACMD41 keeps what one round keeps. -/
theorem watched_acmd41Poll {arg : U32} {polls : ℕ} {J : Option U32 → List Event → Prop}
    (hsound : ∀ out log, J out log → InBounds log)
    (hsame : ∀ out log log', J out log → Same log log' → J out log')
    (hround : ∀ (s : Sd (List Event)) out, J out s.dev →
      Watched (sendAppCommand .acmd41 arg .r3 out polls) s fun r log => J r.2 log)
    {out : Option U32} (hs : J out s.dev) :
    Watched (sdioAcmd41Poll arg out polls) s fun r log => J r.2 log := by
  have hloop : ∀ start n (s : Sd (List Event)) out, J out s.dev →
      Watched (acmd41PollLoop start arg polls n out) s fun r log => J r.2 log := by
    intro start n
    induction n with
    | zero => exact fun s out hs => Watched.step (hsound _ _ hs) fun e => nomatch e
    | succ n ih =>
      intro s out hs
      refine Watched.aside (Or.inl trivial) (hsound _ _ hs) (Same.refl _) fun late s₁ _ h₁ => ?_
      have hs₁ := hsame _ _ _ hs h₁
      split
      · exact Holds.ret hs₁
      · refine Holds.bind (hround s₁ out hs₁) fun result s₂ hs₂ => ?_
        obtain ⟨status, response⟩ := result
        dsimp only
        split_ifs
        · exact Holds.ret hs₂
        · exact ih s₂ response hs₂
        · exact Holds.ret hs₂
  refine Watched.aside (Or.inl trivial) (hsound _ _ hs) (Same.refl _) fun start s₁ _ h₁ => ?_
  exact hloop start polls s₁ out (hsame _ _ _ hs h₁)

/-! ### The first stage -/

/-- Before the inquiry: no CMD55 has been sent. -/
structure Early (log : List Event) : Prop where
  accounted : Accounted log
  appCommands : (watch log).appCommands = 0
  switching : (watch log).switching = false

theorem Early.follows {h : Handshake} (hs : Early log) (hlog : Follows log h True True log')
    (happ : h.appCommands = (watch log).appCommands)
    (hswitch : h.switching = (watch log).switching) : Early log' := by
  refine ⟨hlog.accounted hs.accounted, ?_, ?_⟩
  · rw [hlog.watch, happ, hs.appCommands]
  · rw [hlog.watch, hswitch, hs.switching]

theorem watched_clockInit (polls : ℕ) (hs : InBounds s.dev) :
    Watched (sdioClockInit polls) s fun _ log => Same s.dev log := by
  refine watched_aside ?_ hs
  exact ((calm_clockInit polls).mono fun _ => Or.inl).bind fun _ =>
    Only.step (Or.inr ⟨_, rfl⟩) fun _ => Only.ret _

theorem watched_identifyStage1Loop (polls : ℕ) : ∀ n (s : Sd (List Event)), Early s.dev →
    Watched (identifyStage1Loop 1 polls n) s fun r log =>
      Early log ∧ (r.1 = true → (watch log).f8 = some (decide (r.2 ≠ 0))) := by
  intro n
  induction n with
  | zero => exact fun s hs => Holds.ret ⟨hs, fun h => absurd h (by simp)⟩
  | succ n ih =>
    intro s hs
    have hcmd0 : SDCommand.cmd0.index.setWidth 16 &&& 0x3F#16 = 0#16 := rfl
    refine Holds.bind (watched_other polls hs.accounted.inBounds hcmd0 (by simp) (by simp) (by simp)
      (by simp)) fun _ s₁ h₁ => ?_
    have hs₁ : Early s₁.dev := hs.follows h₁ rfl (by simp [Handshake.sent, Handshake.argued])
    have hallows : ((watch s₁.dev).argued 0x000001AA#32).Allows 8#16 :=
      Handshake.allows_other _ (by simp) (by simp)
    refine Holds.bind (watched_sendCommand polls hs₁.accounted.inBounds fun _ => hallows)
      fun result s₂ ho => ?_
    have hlaw : ((watch s₁.dev).argued 0x000001AA#32).Allows 8#16 = True := eq_true hallows
    rw [show commandIndex (commandVal SDCommand.cmd8.index .r7) = 8#16 from rfl, hlaw] at ho
    obtain ⟨status, response⟩ := result
    dsimp only
    have hsent : ∀ h : Handshake, ((h.argued 0x000001AA#32).sent 8#16).appCommands = h.appCommands ∧
        ((h.argued 0x000001AA#32).sent 8#16).switching = h.switching :=
      fun h => ⟨rfl, by simp [Handshake.sent, Handshake.argued]⟩
    cases ho with
    | failed v hlog =>
      have hsame := Handshake.failed_same (((watch s₁.dev).argued 0x000001AA#32).sent 8#16) v
      have hs₂ : Early s₂.dev := hs₁.follows hlog (hsame.1.trans (hsent _).1)
        (hsame.2.trans (hsent _).2)
      -- no answer to CMD8 is a card of the first version; any other error starts over
      by_cases htimeout : commandError v = .timeout
      · rw [if_pos htimeout]
        refine Holds.ret ⟨hs₂, fun _ => ?_⟩
        rw [hlog.watch, Handshake.failed, if_pos ⟨rfl, htimeout⟩]
        rfl
      · rw [if_neg htimeout, if_pos (by
          rcases commandError_cases v with h | h | h
          · exact Or.inl h
          · exact Or.inr h
          · exact absurd h htimeout)]
        refine Holds.bind (watched_clockInit polls hs₂.accounted.inBounds) fun ok s₃ h₃ => ?_
        have hs₃ : Early s₃.dev := hs₂.follows h₃ rfl rfl
        split
        · exact Holds.ret ⟨hs₃, fun h => absurd h (by simp)⟩
        · exact ih s₃ hs₃
    | unread hasked _ => exact absurd ⟨Option.some_ne_none _, by simp⟩ hasked
    | answered r hlog =>
      have hsame := Handshake.answered_same (((watch s₁.dev).argued 0x000001AA#32).sent 8#16) r
      -- CMD8 is no poll, and so its answer accepts nothing
      have hrefusal := eq_true (Handshake.declines_of_ne
        (h := ((watch s₁.dev).argued 0x000001AA#32).sent 8#16) (by simp [Handshake.sent]) r)
      rw [hrefusal] at hlog
      have hs₂ : Early s₂.dev := hs₁.follows hlog (hsame.1.trans (hsent _).1)
        (hsame.2.1.trans (hsent _).2)
      rw [if_neg (by simp), if_neg (by simp)]
      refine Holds.ret ⟨hs₂, fun hecho => ?_⟩
      have hecho := of_decide_eq_true hecho
      rw [Option.getD_some] at hecho
      rw [hlog.watch, Handshake.answered_echo rfl hecho]
      rfl

/-! ### The first polling loop -/

/-- From the inquiry to CMD11, with `out` in the caller's variable: if no poll has been
accepted, an offer in `out` was made to the inquiry. -/
structure Polls (f8 : Bool) (out : Option U32) (log : List Event) : Prop where
  accounted : Accounted log
  f8 : (watch log).f8 = some f8
  switching : (watch log).switching = false
  appCommands : 1 ≤ (watch log).appCommands
  backed : Refused log → out.getD 0 >>> 24 &&& 1#32 ≠ 0 →
    (watch log).offer = some 0x01000000#32

theorem Polls.same {f8 : Bool} {out : Option U32} (hs : Polls f8 out log) (h : Same log log') :
    Polls f8 out log' := by
  refine ⟨h.accounted hs.accounted, ?_, ?_, ?_, fun hrefused ho => ?_⟩ <;> rw [h.watch]
  · exact hs.f8
  · exact hs.switching
  · exact hs.appCommands
  · exact hs.backed (h.refused.mp hrefused).2 ho

/-- The inquiry. -/
theorem watched_inquiry {f8 : Bool} (polls : ℕ) (hs : Early s.dev)
    (hf8 : (watch s.dev).f8 = some f8) :
    Watched (sendAppCommand .acmd41 0x01000000#32 .r3 (some 0#32) polls) s fun r log =>
      Polls f8 r.2 log := by
  have happ : (watch s.dev).announced.appCommands = 1 := by
    simp [Handshake.announced, Handshake.sent, Handshake.argued, hs.appCommands]
  have hswitch : (watch s.dev).announced.switching = false := by
    simp [Handshake.announced, Handshake.sent, Handshake.argued, hs.switching]
  -- the offer of a variable that is still zero is none
  have hzero : ¬ ((some 0#32 : Option U32).getD 0 >>> 24 &&& 1#32 ≠ 0) := fun h => h rfl
  refine watched_appCommand polls hs.accounted.inBounds (fun log hlog => ?_) fun s₁ r hset h₁ => ?_
  · refine ⟨?_, ?_, ?_, ?_, fun _ ho => absurd ho hzero⟩
    · exact hlog.accounted hs.accounted
    · rw [hlog.watch]
      exact hf8
    · rw [hlog.watch, hswitch]
    · rw [hlog.watch, happ]
  · -- the CMD55 of the inquiry is none of the polling loop's
    have hdeclines : (watch s.dev).announced.Declines r := fun _ h2 => by
      rw [happ] at h2
      exact absurd h2 (by simp)
    rw [eq_true hdeclines] at h₁
    have haccounted : Accounted s₁.dev := h₁.accounted hs.accounted
    have hallows : ((watch s₁.dev).argued 0x01000000#32).Allows 41#16 := by
      have hwindow : ¬ voltageWindow ((watch s₁.dev).argued 0x01000000#32).argument ≠ 0 := by
        rw [Handshake.argument_argued]
        simp [voltageWindow]
      refine ⟨fun _ hw => absurd hw hwindow, fun _ hw => absurd hw hwindow, fun _ hsw => ?_,
        fun h => absurd h (by simp)⟩
      have hoff : (watch s₁.dev).switching = false := by rw [h₁.watch, hswitch]
      exact absurd (hoff.symm.trans hsw) (by simp)
    refine (watched_sendCommand polls haccounted.inBounds fun _ => hallows).mono (fun _ h => h)
      fun result s₂ ho => ?_
    rw [show commandIndex (commandVal SDAppCommand.acmd41.index .r3) = 41#16 from rfl,
      eq_true hallows, h₁.watch] at ho
    have hoff : (((watch s.dev).announced.argued 0x01000000#32).sent 41#16).switching = false := by
      simpa [Handshake.sent, Handshake.argued] using hswitch
    cases ho with
    | failed v hlog =>
      rw [Handshake.failed_of_ne (by simp [Handshake.sent])] at hlog
      refine ⟨hlog.accounted haccounted, ?_, ?_, ?_, fun _ ho => absurd ho hzero⟩
      · rw [hlog.watch]
        exact hf8
      · rw [hlog.watch, hoff]
      · rw [hlog.watch]
        exact happ.ge
    | unread hasked _ => exact absurd ⟨Option.some_ne_none _, by simp⟩ hasked
    | answered r hlog =>
      rw [eq_true (Handshake.declines_of_ne (by simp [Handshake.sent]) r)] at hlog
      have hsame := Handshake.answered_same
        (((watch s.dev).announced.argued 0x01000000#32).sent 41#16) r
      refine ⟨hlog.accounted haccounted, ?_, ?_, ?_, fun _ ho => ?_⟩
      · rw [hlog.watch, hsame.2.2 (by simp [Handshake.sent])]
        exact hf8
      · rw [hlog.watch, hsame.2.1, hoff]
      · rw [hlog.watch, hsame.1]
        exact happ.ge
      · have hs18a : r >>> 24 &&& 1#32 = 1#32 := and_one_eq _ ho
        have hoffer := Handshake.answered_offer
          (h := ((watch s.dev).announced.argued 0x01000000#32).sent 41#16) rfl hs18a
        rw [hlog.watch, hoffer, Handshake.argument_sent, Handshake.argument_argued]

/-- A round of the first polling loop.  A poll that is accepted breaks the rule. -/
theorem watched_poll {f8 : Bool} {arg : U32} {out : Option U32} (polls : ℕ)
    (hbad : ∀ h : Handshake, h.argument = arg → h.f8 = some f8 → h.switching = false →
      ¬ h.Allows 41#16) (hs : Polls f8 out s.dev) :
    Watched (sendAppCommand .acmd41 arg .r3 out polls) s fun r log => Polls f8 r.2 log := by
  have happ : (watch s.dev).announced.appCommands = (watch s.dev).appCommands + 1 := by
    simp [Handshake.announced, Handshake.sent, Handshake.argued]
  have hswitch : (watch s.dev).announced.switching = false := by
    simp [Handshake.announced, Handshake.sent, Handshake.argued, hs.switching]
  have hone := hs.appCommands
  refine watched_appCommand polls hs.accounted.inBounds (fun log hlog => ?_) fun s₁ r hset h₁ => ?_
  · refine ⟨hlog.accounted hs.accounted, ?_, ?_, ?_, fun hrefused ho => ?_⟩
    · rw [hlog.watch]
      exact hs.f8
    · rw [hlog.watch, hswitch]
    · rw [hlog.watch, happ]
      omega
    · rw [hlog.watch]
      exact hs.backed (hlog.refused.mp hrefused).2 ho
  · have haccepted : ¬ Refused s₁.dev := by
      intro hrefused
      refine hset ((h₁.refused.mp hrefused).1 rfl ?_ hswitch)
      omega
    have hbroken : ¬ ((watch s₁.dev).argued arg).Allows 41#16 := by
      refine hbad _ (Handshake.argument_argued _ arg) ?_ ?_
      · rw [h₁.watch]
        exact hs.f8
      · rw [h₁.watch]
        exact hswitch
    refine (watched_sendCommand polls (fun h => absurd h haccepted)
      fun h => absurd h haccepted).mono (fun _ h => h) fun result s₂ ho => ?_
    rw [show commandIndex (commandVal SDAppCommand.acmd41.index .r3) = 41#16 from rfl,
      eq_false hbroken, h₁.watch] at ho
    obtain ⟨h', hlog, hf8, hsw, happ'⟩ := ho.other (by simp [Handshake.sent])
        (by simp [Handshake.sent])
    -- the rule is broken from here on, and there is no more to keep
    have hunlawful : ¬ Lawful s₂.dev := fun h => (hlog.lawful.mp h).1
    have hrefused : ¬ Refused s₂.dev := fun h => haccepted (hlog.refused.mp h).2
    refine ⟨⟨fun h => absurd h hunlawful, fun h => absurd h hrefused⟩, ?_, ?_, ?_,
      fun h => absurd h hrefused⟩
    · rw [hlog.watch, hf8]
      exact hs.f8
    · rw [hlog.watch, hsw]
      simpa [Handshake.sent, Handshake.argued] using hswitch
    · rw [hlog.watch, happ']
      show 1 ≤ (watch s.dev).announced.appCommands
      omega

theorem watched_acmd41Poll_first {f8 : Bool} {arg : U32} {out : Option U32} (polls : ℕ)
    (hbad : ∀ h : Handshake, h.argument = arg → h.f8 = some f8 → h.switching = false →
      ¬ h.Allows 41#16) (hs : Polls f8 out s.dev) :
    Watched (sdioAcmd41Poll arg out polls) s fun r log => Polls f8 r.2 log :=
  watched_acmd41Poll (J := Polls f8) (fun _ _ h => h.accounted.inBounds)
    (fun _ _ _ h hsame => h.same hsame)
    (fun _ _ hs => watched_poll polls hbad hs) hs

/-! ### After the first polling loop -/

/-- Balance is kept. -/
def Keeps (p : SdProg α) : Prop :=
  ∀ s : Sd (List Event), Accounted s.dev → Watched p s fun _ log => Accounted log

theorem Keeps.ret (a : α) : Keeps (pure a) := fun _ hs => Holds.ret hs

theorem Keeps.bind {β : Type} {p : SdProg α} {f : α → SdProg β} (hp : Keeps p)
    (hf : ∀ a, Keeps (f a)) : Keeps (p >>= f) :=
  fun _ hs => Holds.bind (hp _ hs) fun a s' hs' => hf a s' hs'

theorem Keeps.step {e : SdAction} {f : e.Answer → SdProg α} (he : Calm e)
    (hf : ∀ r, Keeps (f r)) : Keeps (sd e >>= f) := fun _ hs =>
  Watched.aside (Or.inl he) hs.inBounds (Same.refl _) fun r s' _ h => hf r s' (h.accounted hs)

theorem Keeps.calm {p : SdProg α} (hp : Only Calm p) : Keeps p := fun _ hs =>
  (watched_calm hp hs.inBounds).mono (fun _ h => h) fun _ _ h => h.accounted hs

theorem keeps_other (cmd : U8) (arg : U32) (rt : SDResponseType) (out : Option U32) (polls : ℕ)
    {index : U16} (hcmd : cmd.setWidth 16 &&& 0x3F#16 = index) (h8 : index ≠ 8#16)
    (h11 : index ≠ 11#16) (h41 : index ≠ 41#16) (h55 : index ≠ 55#16) :
    Keeps (sendCommand cmd arg rt out polls) := fun _ hs =>
  (watched_other polls hs.inBounds hcmd h8 h11 h41 h55).mono (fun _ h => h)
    fun _ _ h => h.accounted hs

theorem keeps_finishIdentification (polls : ℕ) : Keeps (sdioFinishIdentification polls) := by
  have hcmd2 : SDCommand.cmd2.index.setWidth 16 &&& 0x3F#16 = 2#16 := rfl
  have hcmd3 : SDCommand.cmd3.index.setWidth 16 &&& 0x3F#16 = 3#16 := rfl
  have hcmd7 : SDCommand.cmd7.index.setWidth 16 &&& 0x3F#16 = 7#16 := rfl
  have hcmd16 : SDCommand.cmd16.index.setWidth 16 &&& 0x3F#16 = 16#16 := rfl
  -- none of these commands is one of the four that the record looks at
  have hcid : Keeps (sdioReadCid polls) := by
    refine Keeps.step trivial fun cid0 => ?_
    refine Keeps.bind (keeps_other _ _ _ _ polls hcmd2 (by simp) (by simp) (by simp) (by simp))
      fun result => ?_
    obtain ⟨status, response⟩ := result
    dsimp only
    split
    · exact Keeps.ret _
    · exact Keeps.calm (Only.step trivial fun _ => Only.step trivial fun _ => Only.step trivial
        fun _ => Only.step trivial fun _ => Only.step trivial fun _ => Only.step trivial fun _ =>
        Only.step trivial fun _ => Only.ret _)
  refine hcid.bind fun status => ?_
  split
  · exact Keeps.ret _
  refine Keeps.bind (keeps_other _ _ _ _ polls hcmd3 (by simp) (by simp) (by simp) (by simp))
    fun result => ?_
  obtain ⟨status, response⟩ := result
  dsimp only
  split
  · exact Keeps.ret _
  refine Keeps.step trivial fun _ => Keeps.step trivial fun rca => ?_
  refine Keeps.bind (keeps_other _ _ _ _ polls hcmd7 (by simp) (by simp) (by simp) (by simp))
    fun result => ?_
  obtain ⟨status, response'⟩ := result
  dsimp only
  split
  · exact Keeps.ret _
  refine Keeps.bind (keeps_other _ _ _ _ polls hcmd16 (by simp) (by simp) (by simp) (by simp))
    fun result => ?_
  obtain ⟨status, response''⟩ := result
  dsimp only
  split
  · exact Keeps.ret _
  · exact Keeps.ret _

/-- `_sdio_voltage_switch` on an offer that was not made to a poll. -/
theorem watched_voltageSwitch {out : Option U32} (polls : ℕ) (hs : Polls true out s.dev) :
    Watched (sdioVoltageSwitch (out.getD 0 >>> 24 &&& 1#32) polls) s fun ok log =>
      Accounted log ∧ (ok = false → (watch log).f8 = some true ∧ (watch log).switching = true) := by
  rw [sdioVoltageSwitch]
  split
  · exact Holds.ret ⟨hs.accounted, fun h => absurd h (by simp)⟩
  · rename_i hs18a
    have hallows : Refused s.dev → ((watch s.dev).argued 0#32).Allows 11#16 := fun hrefused =>
      ⟨fun h => absurd h (by simp), fun h => absurd h (by simp), fun h => absurd h (by simp),
        fun _ => ⟨0x01000000#32, hs.backed hrefused hs18a, rfl⟩⟩
    refine Holds.bind (watched_sendCommand polls hs.accounted.inBounds hallows)
      fun result s₁ ho => ?_
    rw [show commandIndex (commandVal SDCommand.cmd11.index .r1) = 11#16 from rfl] at ho
    obtain ⟨h', hlog, hf8, hswitch, -⟩ := ho.other (by simp [Handshake.sent])
      (by simp [Handshake.sent])
    have haccounted : Accounted s₁.dev := by
      have haccounted : Lawful s.dev ↔ Refused s.dev := hs.accounted
      rw [Accounted, hlog.lawful, hlog.refused, true_and, haccounted]
      exact ⟨And.right, fun hrefused => ⟨hallows hrefused, hrefused⟩⟩
    have hswitched : (watch s₁.dev).f8 = some true ∧ (watch s₁.dev).switching = true := by
      rw [hlog.watch, hf8, hswitch]
      exact ⟨hs.f8, by simp [Handshake.sent]⟩
    obtain ⟨status, response⟩ := result
    dsimp only
    split
    · exact Holds.ret ⟨haccounted, fun _ => hswitched⟩
    · refine (watched_calm calm_switchSignaling haccounted.inBounds).mono (fun _ h => h)
        fun ok s₂ h₂ => ⟨h₂.accounted haccounted, fun _ => ?_⟩
      rw [h₂.watch]
      exact hswitched

/-- After CMD11. -/
structure Retries (log : List Event) : Prop where
  accounted : Accounted log
  f8 : (watch log).f8 = some true
  switching : (watch log).switching = true

theorem Retries.follows {h : Handshake} (hs : Retries log) (hlog : Follows log h True True log')
    (hf8 : h.f8 = (watch log).f8) (hswitch : h.switching = (watch log).switching) :
    Retries log' := by
  refine ⟨hlog.accounted hs.accounted, ?_, ?_⟩
  · rw [hlog.watch, hf8, hs.f8]
  · rw [hlog.watch, hswitch, hs.switching]

/-- A round of the second polling loop. -/
theorem watched_retry {out : Option U32} (polls : ℕ) (hs : Retries s.dev) :
    Watched (sendAppCommand .acmd41 0x40FF8000#32 .r3 out polls) s fun _ log => Retries log := by
  have hswitch : (watch s.dev).announced.switching = (watch s.dev).switching := by
    simp [Handshake.announced, Handshake.sent, Handshake.argued]
  refine watched_appCommand (P := fun _ log => Retries log) polls hs.accounted.inBounds
    (fun log hlog => hs.follows hlog rfl hswitch) fun s₁ r _ h₁ => ?_
  have hdeclines : (watch s.dev).announced.Declines r := fun _ _ hoff => by
    rw [hswitch, hs.switching] at hoff
    exact absurd hoff (by simp)
  rw [eq_true hdeclines] at h₁
  have hs₁ : Retries s₁.dev := hs.follows h₁ rfl hswitch
  have hallows : ((watch s₁.dev).argued 0x40FF8000#32).Allows 41#16 := by
    refine ⟨fun _ _ hf8 => ?_, fun _ _ _ hoff => ?_, fun _ _ => ?_, fun h => absurd h (by simp)⟩
    · exact absurd (hs₁.f8.symm.trans hf8) (by simp)
    · exact absurd (hs₁.switching.symm.trans hoff) (by simp)
    · rw [Handshake.argument_argued]
      rfl
  refine (watched_sendCommand polls hs₁.accounted.inBounds fun _ => hallows).mono (fun _ h => h)
    fun result s₂ ho => ?_
  rw [show commandIndex (commandVal SDAppCommand.acmd41.index .r3) = 41#16 from rfl,
    eq_true hallows] at ho
  obtain ⟨h', hlog, hf8, hsw, -⟩ := ho.other (by simp [Handshake.sent]) (by simp [Handshake.sent])
  exact hs₁.follows hlog hf8 (hsw.trans (by simp [Handshake.sent, Handshake.argued]))

/-- HCS is 1 in the polls of a card that has not answered CMD8. -/
theorem not_allows_legacy (h : Handshake) (harg : h.argument = 0x40FF8000#32)
    (hf8 : h.f8 = some false) (_ : h.switching = false) : ¬ h.Allows 41#16 := by
  intro hallows
  have hwindow : voltageWindow h.argument ≠ 0 := by simp [harg, voltageWindow]
  have hhcs := (hallows.legacy rfl hwindow hf8).1
  rw [harg] at hhcs
  exact absurd hhcs (by simp [hcs])

/-- S18R is 0 in the polls of a card that has answered CMD8. -/
theorem not_allows_version2 (h : Handshake) (harg : h.argument = 0x50FF8000#32)
    (hf8 : h.f8 = some true) (hswitch : h.switching = false) : ¬ h.Allows 41#16 := by
  intro hallows
  have hwindow : voltageWindow h.argument ≠ 0 := by simp [harg, voltageWindow]
  have hs18r := (hallows.version2 rfl hwindow hf8 hswitch).2
  rw [harg] at hs18r
  exact absurd hs18r (by simp [s18r])

theorem watched_initLegacy {out : Option U32} (polls : ℕ) (hs : Polls false out s.dev) :
    Watched (initLegacy out polls) s fun _ log => Accounted log := by
  refine Holds.bind (watched_acmd41Poll_first polls not_allows_legacy hs) fun result s₁ h₁ => ?_
  obtain ⟨ready, response⟩ := result
  dsimp only
  split
  · exact Holds.ret h₁.accounted
  · suffices hkeeps : Keeps _ from hkeeps s₁ h₁.accounted
    exact Keeps.step trivial fun _ => Keeps.step trivial fun _ => keeps_finishIdentification polls

theorem watched_retryIdentification {switched : Bool} {out : Option U32} (polls : ℕ)
    (hs : Accounted s.dev)
    (hfailed : switched = false → (watch s.dev).f8 = some true ∧ (watch s.dev).switching = true) :
    Watched (retryIdentification switched out polls) s fun _ log => Accounted log := by
  rw [retryIdentification]
  cases switched with
  | true => exact Holds.ret hs
  | false =>
    have hretries : Retries s.dev := ⟨hs, (hfailed rfl).1, (hfailed rfl).2⟩
    refine Watched.aside (Or.inl trivial) hs.inBounds (Same.refl _) fun _ s₁ _ h₁ => ?_
    have hs₁ : Retries s₁.dev := hretries.follows h₁ rfl rfl
    refine Holds.bind (watched_acmd41Poll (J := fun _ log => Retries log)
      (fun _ _ h => h.accounted.inBounds) (fun _ _ _ h hsame => h.follows hsame rfl rfl)
      (fun _ _ hs => watched_retry polls hs) hs₁) fun result s₂ h₂ => ?_
    exact Holds.ret h₂.accounted

theorem watched_initVersion2 {out : Option U32} (polls : ℕ) (hs : Polls true out s.dev) :
    Watched (initVersion2 out polls) s fun _ log => Accounted log := by
  refine Holds.bind (watched_acmd41Poll_first polls not_allows_version2 hs) fun result s₁ h₁ => ?_
  obtain ⟨ready, response⟩ := result
  dsimp only at h₁ ⊢
  split_ifs
  · exact Holds.ret h₁.accounted
  · suffices hkeeps : Keeps _ from hkeeps s₁ h₁.accounted
    exact Keeps.step trivial fun _ => Keeps.step trivial fun _ => keeps_finishIdentification polls
  · -- a card of high capacity
    refine Watched.aside (Or.inl trivial) h₁.accounted.inBounds (Same.refl _) fun _ s₂ _ h₂ => ?_
    refine Holds.bind (watched_voltageSwitch polls (h₁.same h₂)) fun switched s₃ h₃ => ?_
    refine Holds.bind (watched_retryIdentification polls h₃.1 h₃.2) fun ready s₄ h₄ => ?_
    split
    · exact Holds.ret h₄
    · suffices hkeeps : Keeps _ from hkeeps s₄ h₄
      exact Keeps.step trivial fun _ => Keeps.step trivial fun _ => keeps_finishIdentification polls

/-- `sdio_init`, from an empty log. -/
theorem watched_sdioInit (polls : ℕ) (hs : s.dev = []) :
    Watched (sdioInit polls) s fun _ log => Accounted log := by
  have hearly : Early s.dev := by
    rw [hs]
    exact ⟨Iff.rfl, rfl, rfl⟩
  refine Holds.bind (watched_clockInit polls hearly.accounted.inBounds) fun _ s₁ h₁ => ?_
  have hs₁ : Early s₁.dev := hearly.follows h₁ rfl rfl
  refine Holds.bind (watched_identifyStage1Loop polls 2 s₁ hs₁) fun result s₂ h₂ => ?_
  obtain ⟨usable, f8⟩ := result
  dsimp only at h₂ ⊢
  split
  · exact Holds.ret h₂.1.accounted
  · rename_i husable
    have hf8 := h₂.2 (by simpa using husable)
    refine Holds.bind (watched_inquiry polls h₂.1 hf8) fun result s₃ h₃ => ?_
    obtain ⟨status, response⟩ := result
    dsimp only at h₃ ⊢
    split_ifs with _ _ hzero
    · exact Holds.ret h₃.accounted
    · exact Holds.ret h₃.accounted
    · rw [hzero] at h₃
      exact watched_initLegacy polls h₃
    · rw [show decide (f8 ≠ 0) = true from decide_eq_true hzero] at h₃
      exact watched_initVersion2 polls h₃

/-- **The handshake asks for what it should exactly if it is refused**: a run in which the
card accepts no CMD55 of the first polling loop keeps to the rule, and a run that ends
and keeps to it is such a run. -/
theorem handshake_lawful {polls : ℕ} {q : SdProg Bool} (hs : s.dev = [])
    (hrun : Runs (sdAct bus) (sdioInit polls) s q s') :
    (Refused s'.dev → Lawful s'.dev) ∧ (∀ ok, q = pure ok → (Lawful s'.dev ↔ Refused s'.dev)) := by
  have hend := (watched_sdioInit polls hs).of_runs hrun
  refine ⟨?_, ?_⟩
  · cases q with
    | ret ok => exact Accounted.inBounds hend
    | vis e k => exact hend.1
  · rintro ok rfl
    exact hend

/-! ### Two cards -/

/-- Run on a controller that chooses its answers by the log. -/
def Sd.playLog (choose : (e : SdAction) → List Event → Option e.Answer) (e : SdAction)
    (s : Sd (List Event)) : Option (e.Answer × Sd (List Event)) :=
  (choose e s.dev).map fun r => (s.own e r, s.after (⟨e, s.own e r⟩ :: s.dev) e)

theorem Sd.sdAct_of_playLog {choose : (e : SdAction) → List Event → Option e.Answer} (e : SdAction)
    (s : Sd (List Event)) (r : e.Answer) (s' : Sd (List Event))
    (h : Sd.playLog choose e s = some (r, s')) : sdAct bus e s r s' := by
  obtain ⟨r₀, -, heq⟩ := Option.map_eq_some_iff.mp h
  rw [Prod.mk.injEq] at heq
  obtain ⟨rfl, rfl⟩ := heq
  exact sdAct_bus_of_answers (s.answers_own e r₀)

/-- A card in the slot that lets CMD8 time out and answers `response` to everything else. -/
def serveCard (response : U32) : (e : SdAction) → List Event → Option e.Answer
  | .read .clockControl, _ => some 0xFFFF#16
  | .read .presentState, _ => some 0x10000#32
  | .read .normalInterruptStatus, _ => some 1#16
  | .read .errorInterruptStatus, log => some (if (watch log).command = 8#16 then 1#16 else 0#16)
  | .read .response0, _ => some response
  -- a second is over with the fifth command
  | .ticksElapsedMs _ _, log => some (decide (5 ≤ (log.filterMap Event.command).length))
  | e, _ => e.zero

theorem lawful_suffix (h : log' <:+ log) (hlog : Lawful log) : Lawful log' := by
  obtain ⟨later, rfl⟩ := h
  induction later with
  | nil => exact hlog
  | cons e later ih => exact ih hlog.2

theorem refused_of_clear
    (h : (log.all fun e => (Event.response e).all fun r : U32 =>
      decide (r >>> 5 &&& 1#32 = 0)) = true) :
    Refused log := by
  induction log with
  | nil => exact trivial
  | cons e log ih =>
    rw [List.all_cons, Bool.and_eq_true] at h
    refine ⟨fun r hr => (watch log).declines_of_clear ?_, ih h.2⟩
    have hclear := h.1
    rw [Option.mem_def.mp hr, Option.all_some] at hclear
    exact of_decide_eq_true hclear

/-- The last ACMD41 of the log, and what was before it. -/
def lastPoll (log : List Event) : List Event :=
  log.dropWhile fun e => decide ((Event.command e).map commandIndex ≠ some 41#16)

/-- ACMD41 is sent to a card without CMD8, with HCS = 1. -/
def AsksLegacy (e : Event) (h : Handshake) : Prop :=
  (Event.command e).map commandIndex = some 41#16 ∧ h.argument = 0x40FF8000#32 ∧
    h.f8 = some false ∧ h.switching = false

instance (e : Event) (h : Handshake) : Decidable (AsksLegacy e h) :=
  inferInstanceAs (Decidable (_ ∧ _ ∧ _ ∧ _))

theorem not_lawful_of_asks {e : Event} {earlier : List Event} (hlast : lastPoll log = e :: earlier)
    (hasks : AsksLegacy e (watch earlier)) : ¬ Lawful log := by
  intro hlawful
  obtain ⟨hindex, harg, hf8, hswitch⟩ := hasks
  obtain ⟨v, hv, hindex⟩ := Option.map_eq_some_iff.mp hindex
  have hsuffix : e :: earlier <:+ log := hlast ▸ List.dropWhile_suffix _
  have hallows := (lawful_suffix hsuffix hlawful).1 v hv
  rw [hindex] at hallows
  exact not_allows_legacy _ harg hf8 hswitch hallows

/-- To a card that does not know CMD8, the poll says HCS = 1. -/
theorem not_handshake_lawful : ¬ ∀ (polls : ℕ) (q : SdProg Bool) (s s' : Sd (List Event)),
    s.dev = [] → Runs (sdAct bus) (sdioInit polls) s q s' → Lawful s'.dev := by
  intro hall
  have hplay : ((run (Sd.playLog (serveCard 0x80000020#32)) (sdioInit 1) blockCard).any fun w =>
      match lastPoll w.2.dev with
      | [] => false
      | e :: earlier => decide (AsksLegacy e (watch earlier))) = true := by
    decide +kernel
  obtain ⟨⟨ok, s'⟩, hrun, hasks⟩ := (Option.any_eq_true _ _).mp hplay
  have hret := Returns.of_run Sd.sdAct_of_playLog hrun
  have hlawful := hall 1 _ _ s' rfl hret
  dsimp only at hasks
  split at hasks
  · exact absurd hasks (by simp)
  · rename_i e earlier hlast
    exact not_lawful_of_asks hlast (of_decide_eq_true hasks) hlawful

/-- A card that never accepts CMD55. -/
theorem handshake_lawful_lost : ∃ s', Returns (sdAct bus) (sdioInit 3) blockCard false s' ∧
    Lawful s'.dev := by
  have hplay : ((run (Sd.playLog (serveCard 0#32)) (sdioInit 3) blockCard).any fun w =>
      !w.1 && w.2.dev.all fun e => (Event.response e).all fun r : U32 =>
        decide (r >>> 5 &&& 1#32 = 0)) = true := by
    decide +kernel
  obtain ⟨⟨ok, s'⟩, hrun, hclear⟩ := (Option.any_eq_true _ _).mp hplay
  rw [Bool.and_eq_true, Bool.not_eq_true'] at hclear
  obtain ⟨rfl, hclear⟩ := hclear
  have hret := Returns.of_run Sd.sdAct_of_playLog hrun
  exact ⟨s', hret, (handshake_lawful rfl hret).1 (refused_of_clear hclear)⟩

end GamingConsole
