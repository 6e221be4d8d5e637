/-
What `_sdio_acmd41_poll` takes for an answer.

`exchanges` is what a log says about the commands of a call: the index of each, and the
response that was read for it.  The loop of the poll decides by the caller's variable,
which a CMD55 without APP_CMD leaves as it is.  Once a response has been stored, or where
the variable starts with its bit 31 clear, the decision is about the last response; a
variable that starts with the bit set is taken for one.

* `ends_sendCommand`, `ends_sendAppCommand` — how a command ends, and what the log says;
* `ends_pollLoop` — the loop, from a variable that does not say "ready";
* `acmd41_fresh_iff` — a result is fresh, unless the bit was set and the first CMD55 was
  not accepted.
-/
import GamingConsole.SdHandshake

namespace GamingConsole

open Prog

variable {s : Sd (List Event)} {α : Type}

/-! ### The commands of a log -/

/-- What an event adds to the commands: a new one, or the response to the last. -/
def Event.record (e : Event) (l : List (U16 × Option U32)) : List (U16 × Option U32) :=
  match e.command, e.response with
  | some v, _ => (commandIndex v, none) :: l
  | none, some r => l.modifyHead fun x => (x.1, some r)
  | none, none => l

/-- The commands of a log, the last one first: the index, and the response if one was
read. -/
def exchanges : List Event → List (U16 × Option U32)
  | [] => []
  | e :: log => e.record (exchanges log)

/-- Actions that are no command and read no response. -/
def NoExchange (e : SdAction) : Prop :=
  ∀ r, Event.command ⟨e, r⟩ = none ∧ Event.response ⟨e, r⟩ = none

theorem Calm.noExchange {e : SdAction} (h : Calm e) : NoExchange e := fun r =>
  ⟨(Aside.silent (Or.inl h) r).1, (Aside.silent (Or.inl h) r).2.1⟩

theorem NoExchange.exchanges {e : SdAction} (h : NoExchange e) (r : e.Answer) (log : List Event) :
    exchanges (⟨e, r⟩ :: log) = exchanges log := by
  show Event.record ⟨e, r⟩ (GamingConsole.exchanges log) = _
  rw [Event.record, (h r).1, (h r).2]

theorem noExchange_writeArgument (arg : U32) : Only NoExchange (writeArgument arg) :=
  Only.step (fun _ => ⟨rfl, rfl⟩) fun _ => Only.perform fun _ => ⟨rfl, rfl⟩

theorem noExchange_waitStatus (mask : U16) : ∀ n, Only NoExchange (waitStatus mask n)
  | 0 => Only.step (fun e => nomatch e) fun e => nomatch e
  | n + 1 => by
    refine Only.step (fun _ => ⟨rfl, rfl⟩) fun normalStatus => ?_
    refine Only.step (fun _ => ⟨rfl, rfl⟩) fun errorStatus => ?_
    split
    · exact noExchange_waitStatus mask n
    · exact Only.ret _

theorem ends_noExchange {p : SdProg α} (hp : Only NoExchange p) :
    Ends p s fun _ log => exchanges log = exchanges s.dev := by
  have hkeep : Holds (sdAct bus) (fun s' => exchanges s'.dev = exchanges s.dev)
      (fun _ s' => exchanges s'.dev = exchanges s.dev) p s :=
    only_log (I := fun log => exchanges log = exchanges s.dev) hp rfl fun e r log he hlog => by
      rw [he.exchanges, hlog]
  exact hkeep.mono (fun _ _ => trivial) fun _ _ h => h

/-- An access that is no part of the commands. -/
theorem Ends.other {e : SdAction} {f : e.Answer → SdProg α} {Q : α → List Event → Prop}
    {l : List (U16 × Option U32)} (he : NoExchange e) (hs : exchanges s.dev = l)
    (h : ∀ r s', exchanges s'.dev = l → Ends (f r) s' Q) : Ends (sd e >>= f) s Q :=
  Ends.step fun r => h r _ (by rw [Sd.after_dev, he.exchanges, hs])

/-- A part of a program that is no part of the commands. -/
theorem Ends.aside {β : Type} {p : SdProg β} {f : β → SdProg α} {Q : α → List Event → Prop}
    {l : List (U16 × Option U32)} (hp : Only NoExchange p) (hs : exchanges s.dev = l)
    (h : ∀ b s', exchanges s'.dev = l → Ends (f b) s' Q) : Ends (p >>= f) s Q :=
  (ends_noExchange hp).bind fun b s' hs' => h b s' (hs'.trans hs)

/-- How a command with a response ends: with an error, or with the response in the
caller's variable. -/
inductive Exchanged (index : U16) (before : List (U16 × Option U32)) (out : U32) :
    SDCommandStatus × Option U32 → List Event → Prop
  | failed {status : SDCommandStatus} {log : List Event}
      (herror : status = .crcError ∨ status = .indexError ∨ status = .timeout)
      (hlog : exchanges log = (index, none) :: before) :
      Exchanged index before out (status, some out) log
  | answered {r : U32} {log : List Event} (hlog : exchanges log = (index, some r) :: before) :
      Exchanged index before out (.success, some r) log

/-- `_send_command`, of a command that has a response, for a caller that wants it. -/
theorem ends_sendCommand {cmd : U8} {arg : U32} {rt : SDResponseType} {out : U32} (polls : ℕ)
    (hrt : rt ≠ .none) {before : List (U16 × Option U32)} (hs : exchanges s.dev = before) :
    Ends (sendCommand cmd arg rt (some out) polls) s fun r log =>
      Exchanged (commandIndex (commandVal cmd rt)) before out r log := by
  have hwait : Only NoExchange (waitCmdFree polls) :=
    (calm_waitCmdFree polls).mono fun _ => Calm.noExchange
  refine Ends.aside hwait hs fun _ s hs => ?_
  refine Ends.aside (noExchange_writeArgument arg) hs fun _ s hs => ?_
  refine Ends.step fun u => ?_
  have hsent : exchanges (s.after (⟨.write .command (commandVal cmd rt), u⟩ :: s.dev)
      (.write .command (commandVal cmd rt))).dev =
        (commandIndex (commandVal cmd rt), none) :: before := by
    rw [Sd.after_dev, ← hs]
    rfl
  refine Ends.aside (noExchange_waitStatus 1#16 polls) hsent fun status s hs => ?_
  obtain ⟨normalStatus, errorStatus⟩ := status
  dsimp only
  split
  · -- the error is acknowledged and reported, and the command line reset
    have hreset : Only NoExchange (sdioResetCmdLine polls) :=
      (calm_resetLine _ _ polls).mono fun _ => Calm.noExchange
    refine Ends.other (fun _ => ⟨rfl, rfl⟩) hs fun _ s hs => ?_
    refine Ends.aside hreset hs fun _ s hs => ?_
    refine Ends.other (fun _ => ⟨rfl, rfl⟩) hs fun _ s hs => ?_
    refine Ends.other (fun _ => ⟨rfl, rfl⟩) hs fun _ s hs => ?_
    refine Ends.other (fun _ => ⟨rfl, rfl⟩) hs fun _ s hs => ?_
    refine Ends.other (fun _ => ⟨rfl, rfl⟩) hs fun _ s hs => ?_
    refine Ends.other (fun _ => ⟨rfl, rfl⟩) hs fun _ s hs => ?_
    exact Ends.ret (.failed (commandError_cases errorStatus) hs)
  · refine Ends.other (fun _ => ⟨rfl, rfl⟩) hs fun _ s hs => ?_
    rw [readResponse, if_pos ⟨Option.some_ne_none _, hrt⟩]
    refine Ends.step fun r => Ends.ret (.answered ?_)
    rw [Sd.after_dev]
    show (exchanges s.dev).modifyHead (fun x => (x.1, some r)) = _
    rw [hs]
    rfl

/-- How an attempt of ACMD41 ends: CMD55 fails, or is answered without APP_CMD, or the
command itself fails or is answered. -/
inductive Attempted (before : List (U16 × Option U32)) (out : U32) :
    SDCommandStatus × Option U32 → List Event → Prop
  | failed {status : SDCommandStatus} {log : List Event}
      (herror : status = .crcError ∨ status = .indexError ∨ status = .timeout)
      (hlog : exchanges log = (55#16, none) :: before ∨ ∃ r : U32, r >>> 5 &&& 1#32 ≠ 0 ∧
        exchanges log = (41#16, none) :: (55#16, some r) :: before) :
      Attempted before out (status, some out) log
  | declined {r : U32} {log : List Event} (hr : r >>> 5 &&& 1#32 = 0)
      (hlog : exchanges log = (55#16, some r) :: before) :
      Attempted before out (.notExpected, some out) log
  | answered {r ocr : U32} {log : List Event} (hr : r >>> 5 &&& 1#32 ≠ 0)
      (hlog : exchanges log = (41#16, some ocr) :: (55#16, some r) :: before) :
      Attempted before out (.success, some ocr) log

theorem ends_sendAppCommand {arg out : U32} (polls : ℕ) {before : List (U16 × Option U32)}
    (hs : exchanges s.dev = before) :
    Ends (sendAppCommand .acmd41 arg .r3 (some out) polls) s (Attempted before out) := by
  refine (ends_sendCommand polls (by decide) hs).bind fun result s₁ h₁ => ?_
  rw [show commandIndex (commandVal SDCommand.cmd55.index .r1) = 55#16 from rfl] at h₁
  obtain ⟨status, response⟩ := result
  dsimp only
  cases h₁ with
  | failed herror hlog =>
    rw [if_pos herror]
    exact Ends.ret (.failed herror (Or.inl hlog))
  | answered hlog =>
    rename_i r
    rw [if_neg (by simp), Option.getD_some]
    by_cases hr : r >>> 5 &&& 1#32 = 0
    · rw [if_pos hr]
      exact Ends.ret (.declined hr hlog)
    · rw [if_neg hr]
      refine (ends_sendCommand polls (by decide) hlog).mono (fun _ h => h) fun result s₂ h₂ => ?_
      rw [show commandIndex (commandVal SDAppCommand.acmd41.index .r3) = 41#16 from rfl] at h₂
      cases h₂ with
      | failed herror hlog => exact .failed herror (Or.inr ⟨r, hr, hlog⟩)
      | answered hlog => exact .answered hr hlog

/-! ### The loop -/

/-- Bit 31 of a response, the card is ready. -/
def ready (r : U32) : Prop := r >>> 31 &&& 1#32 ≠ 0

instance (r : U32) : Decidable (ready r) := inferInstanceAs (Decidable (_ ≠ _))

/-- The last ACMD41 of the call was answered, by a card that is ready, and the caller's
variable holds the response. -/
def FreshReply (log : List Event) (out : Option U32) : Prop :=
  ∃ r, ready r ∧ out = some r ∧ (exchanges log).find? (fun x => x.1 == 41#16) = some (41#16, some r)

/-- The first command of the call was a CMD55 that the card has answered without
APP_CMD. -/
def FirstDeclined (log : List Event) : Prop :=
  ∃ r : U32, r >>> 5 &&& 1#32 = 0 ∧ (exchanges log).getLast? = some (55#16, some r)

theorem freshReply_of_answered {log : List Event} {r : U32} {before : List (U16 × Option U32)}
    (hr : ready r) (hlog : exchanges log = (41#16, some r) :: before) : FreshReply log (some r) :=
  ⟨r, hr, rfl, by rw [hlog]; rfl⟩

/-- From a variable that does not say "ready" the loop ends with a fresh response. -/
theorem ends_pollLoop (start : U64) (arg : U32) (polls : ℕ) {out : U32} (hout : ¬ ready out) :
    ∀ n (s : Sd (List Event)), Ends (acmd41PollLoop start arg polls n (some out)) s fun r log =>
      (r.1 = true → FreshReply log r.2) ∧ ∃ later, exchanges log = later ++ exchanges s.dev := by
  intro n
  induction n generalizing out with
  | zero => exact fun s => Ends.step fun e => nomatch e
  | succ n ih =>
    intro s
    refine Ends.other (fun _ => ⟨rfl, rfl⟩) rfl fun late s₁ h₁ => ?_
    split
    · exact Ends.ret ⟨fun h => absurd h Bool.false_ne_true, [], h₁⟩
    · refine (ends_sendAppCommand polls h₁).bind fun result s₂ h₂ => ?_
      obtain ⟨status, response⟩ := result
      dsimp only
      cases h₂ with
      | failed herror hlog =>
        rw [if_pos herror]
        refine Ends.ret ⟨fun h => absurd h Bool.false_ne_true, ?_⟩
        rcases hlog with hlog | ⟨r, -, hlog⟩
        · exact ⟨[_], hlog⟩
        · exact ⟨[_, _], hlog⟩
      | declined hr hlog =>
        -- the variable is as it was, and the loop goes on
        rw [if_neg (by simp), Option.getD_some, if_pos (not_not.mp hout)]
        refine (ih hout s₂).mono (fun _ h => h) fun r s' h => ⟨h.1, ?_⟩
        obtain ⟨later, hlater⟩ := h.2
        exact ⟨later ++ [_], by rw [hlater, hlog, List.append_assoc]; rfl⟩
      | answered hr hlog =>
        rename_i r ocr
        rw [if_neg (by simp), Option.getD_some]
        by_cases hready : ready ocr
        · rw [if_neg hready]
          exact Ends.ret ⟨fun _ => freshReply_of_answered hready hlog, [_, _], hlog⟩
        · rw [if_pos (not_not.mp hready)]
          refine (ih hready s₂).mono (fun _ h => h) fun r s' h => ⟨h.1, ?_⟩
          obtain ⟨later, hlater⟩ := h.2
          exact ⟨later ++ [_, _], by rw [hlater, hlog, List.append_assoc]; rfl⟩

/-- The oldest command stays the oldest. -/
theorem getLast?_of_append {l later : List (U16 × Option U32)} {x y : U16 × Option U32}
    (h : l = later ++ [y, x]) : l.getLast? = some x := by
  rw [h, List.append_cons, List.getLast?_concat]

theorem not_firstDeclined {log : List Event} {i : U16} {x : Option U32}
    (hlast : (exchanges log).getLast? = some (i, x)) (hx : ∀ r ∈ x, r >>> 5 &&& 1#32 ≠ 0) :
    ¬ FirstDeclined log := by
  rintro ⟨r, hr, heq⟩
  rw [hlast, Option.some_inj, Prod.mk.injEq] at heq
  exact hx r heq.2 hr

/-- The first attempt decides: after it a variable that says "ready" is a response. -/
theorem ends_sdioAcmd41Poll (arg out : U32) (polls : ℕ) (hs : exchanges s.dev = []) :
    Ends (sdioAcmd41Poll arg (some out) polls) s fun r log =>
      (r.1 = true → FreshReply log r.2) ↔ ¬ (ready out ∧ FirstDeclined log) := by
  refine Ends.other (fun _ => ⟨rfl, rfl⟩) hs fun start s hs => ?_
  cases polls with
  | zero => exact Ends.step fun e => nomatch e
  | succ n =>
    refine Ends.other (fun _ => ⟨rfl, rfl⟩) hs fun late s hs => ?_
    split
    · -- no command has been sent
      refine Ends.ret (iff_of_true (fun h => absurd h Bool.false_ne_true) ?_)
      rintro ⟨-, r, -, heq⟩
      rw [hs] at heq
      cases heq
    · refine (ends_sendAppCommand (n + 1) hs).bind fun result s₂ h₂ => ?_
      obtain ⟨status, response⟩ := result
      dsimp only
      cases h₂ with
      | failed herror hlog =>
        rw [if_pos herror]
        refine Ends.ret (iff_of_true (fun h => absurd h Bool.false_ne_true) fun h => ?_)
        rcases hlog with hlog | ⟨r, hr, hlog⟩
        · exact not_firstDeclined (by rw [hlog]; rfl) (fun _ h => by cases h) h.2
        · exact not_firstDeclined (by rw [hlog]; rfl) (fun _ h => by cases h; exact hr) h.2
      | declined hr hlog =>
        rename_i r
        rw [if_neg (by simp), Option.getD_some]
        by_cases hout : ready out
        · -- the variable says what it said before the call
          rw [if_neg hout]
          have hfirst : FirstDeclined s₂.dev := ⟨r, hr, by rw [hlog]; rfl⟩
          refine Ends.ret (iff_of_false (fun h => ?_) (not_not.mpr ⟨hout, hfirst⟩))
          obtain ⟨_, _, _, hfind⟩ := h rfl
          rw [hlog] at hfind
          cases hfind
        · rw [if_pos (not_not.mp hout)]
          exact (ends_pollLoop start arg (n + 1) hout n s₂).mono (fun _ h => h) fun r s' h =>
            iff_of_true h.1 fun hbad => hout hbad.1
      | answered hr hlog =>
        rename_i r ocr
        rw [if_neg (by simp), Option.getD_some]
        by_cases hready : ready ocr
        · rw [if_neg hready]
          refine Ends.ret (iff_of_true (fun _ => freshReply_of_answered hready hlog) fun h => ?_)
          exact not_firstDeclined (by rw [hlog]; rfl) (fun _ h => by cases h; exact hr) h.2
        · rw [if_pos (not_not.mp hready)]
          refine (ends_pollLoop start arg (n + 1) hready n s₂).mono (fun _ h => h) fun r' s' h =>
            iff_of_true h.1 fun hbad => ?_
          obtain ⟨later, hlater⟩ := h.2
          rw [hlog] at hlater
          exact not_firstDeclined (getLast?_of_append hlater)
            (fun _ h => by cases h; exact hr) hbad.2

/-- **A poll that returns true has seen a ready card**, unless the caller's variable has
bit 31 set and the first CMD55 is answered without APP_CMD. -/
theorem acmd41_fresh_iff {s s' : Sd (List Event)} {arg out : U32} {polls : ℕ} {ok : Bool}
    {out' : Option U32} (hs : s.dev = [])
    (hret : Returns (sdAct bus) (sdioAcmd41Poll arg (some out) polls) s (ok, out') s') :
    (ok = true → FreshReply s'.dev out') ↔ ¬ (ready out ∧ FirstDeclined s'.dev) :=
  (ends_sdioAcmd41Poll arg out polls (by rw [hs]; rfl)).of_returns hret

/-- A card that answers every command with `response`. -/
def serveResponse (response : U32) : (e : SdAction) → List Event → Option e.Answer
  | .read .normalInterruptStatus, _ => some 1#16
  | .read .response0, _ => some response
  | e, _ => e.zero

/-- The variable holds the response of an earlier poll, and the card leaves APP_CMD clear:
the poll returns true and has sent no ACMD41. -/
theorem acmd41_stale : ∃ s', Returns (sdAct bus) (sdioAcmd41Poll 0x40FF8000#32
    (some 0xC1FF8000#32) 1) blockCard (true, some 0xC1FF8000#32) s' ∧
      ¬ FreshReply s'.dev (some 0xC1FF8000#32) := by
  have hplay : ((run (Sd.playLog (serveResponse 0#32)) (sdioAcmd41Poll 0x40FF8000#32
      (some 0xC1FF8000#32) 1) blockCard).any fun w =>
        decide (w.1 = (true, some 0xC1FF8000#32)) &&
          ((exchanges w.2.dev).find? fun x => x.1 == 41#16).isNone) = true := by
    decide +kernel
  obtain ⟨⟨r, s'⟩, hrun, hnone⟩ := (Option.any_eq_true _ _).mp hplay
  rw [Bool.and_eq_true, decide_eq_true_eq] at hnone
  obtain ⟨rfl, hnone⟩ := hnone
  refine ⟨s', Returns.of_run Sd.sdAct_of_playLog hrun, ?_⟩
  rintro ⟨r, -, -, hfind⟩
  rw [hfind] at hnone
  cases hnone

/-- From a clear variable a card that is ready is seen. -/
theorem acmd41_fresh_clear : ∃ s' out', Returns (sdAct bus) (sdioAcmd41Poll 0x40FF8000#32
    (some 0#32) 1) blockCard (true, out') s' ∧ FreshReply s'.dev out' := by
  have hplay : ((run (Sd.playLog (serveResponse 0x80000020#32)) (sdioAcmd41Poll 0x40FF8000#32
      (some 0#32) 1) blockCard).any fun w => w.1.1) = true := by
    decide +kernel
  obtain ⟨⟨⟨ok, out'⟩, s'⟩, hrun, hok⟩ := (Option.any_eq_true _ _).mp hplay
  obtain rfl : ok = true := hok
  have hret := Returns.of_run Sd.sdAct_of_playLog hrun
  exact ⟨s', out', hret, (acmd41_fresh_iff rfl hret).mpr (fun h => h.1 (by decide)) rfl⟩

end GamingConsole
