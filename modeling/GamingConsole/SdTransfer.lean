/-
What `sdio_read` and `sdio_write` put on the bus.

`commands` reads from the log the commands sent with the set-up they were sent
with, `moved` the words moved since.  Whatever the controller answers, a transfer
that reports success has sent one command (`ends_sdioTransfer`); what that
command stands for is the request exactly where neither the count nor the byte
address is narrowed (`transfer_covers_iff`).
-/
import GamingConsole.SdMachine

namespace GamingConsole

open Prog

/-! ### Reading the log -/

/-- The value last written to a register. -/
def written (r : Reg) : List Event → ℕ
  | [] => 0
  | ⟨.write r' v, _⟩ :: log => if r' = r then v.toNat else written r log
  | _ :: log => written r log

/-- A command with the set-up it was sent with. -/
structure Sent where
  command : U16
  argument : ℕ
  blockCount : ℕ
  transferMode : ℕ

/-- The commands sent, the last one first. -/
def commands : List Event → List Sent
  | [] => []
  | ⟨.write .command v, _⟩ :: log =>
    { command := v
      argument := written .argumentHigh log * 2 ^ 16 + written .argumentLow log
      blockCount := written .blockCount log
      transferMode := written .transferMode log } :: commands log
  | _ :: log => commands log

/-- The words moved through the data port since the last command. -/
def moved : List Event → ℕ
  | [] => 0
  | ⟨.write .command _, _⟩ :: _ => 0
  | ⟨.write .bufferData0 _, _⟩ :: log => moved log + 1
  | ⟨.read .bufferData0, _⟩ :: log => moved log + 1
  | _ :: log => moved log

namespace Sent

/-- The command's index. -/
def index (x : Sent) : ℕ := (x.command >>> 8 &&& 0x3F#16).toNat

/-- Multi-Block Select. -/
def MultiBlock (x : Sent) : Prop := x.transferMode.testBit 5 = true

/-- Auto CMD12 Enable: 01b in bits 3:2. -/
def AutoCmd12 (x : Sent) : Prop :=
  x.transferMode.testBit 3 = false ∧ x.transferMode.testBit 2 = true

end Sent

/-- CMD18 or CMD25. -/
def IsMultiple (index : ℕ) : Prop := index = 18 ∨ index = 25

instance (index : ℕ) : Decidable (IsMultiple index) :=
  inferInstanceAs (Decidable (index = 18 ∨ index = 25))

/-! ### Polling leaves no trace -/

variable {s s' : Sd (List Event)} {log log' : List Event}

/-- The commands and the words moved are the same. -/
def SameBus (log log' : List Event) : Prop := commands log' = commands log ∧ moved log' = moved log

theorem SameBus.polling {e : SdAction} {r : e.Answer} (h : Polling e) :
    SameBus log (⟨e, r⟩ :: log) := by
  cases e with
  | read reg => cases reg <;> first | exact ⟨rfl, rfl⟩ | exact (h rfl).elim
  | write reg v => rcases h with rfl | rfl <;> exact ⟨rfl, rfl⟩
  | get x => exact ⟨rfl, rfl⟩
  | set x v => exact h.elim
  | loadByte i => exact h.elim
  | storeByte i b => exact h.elim
  | getTicks => exact ⟨rfl, rfl⟩
  | ticksElapsedMs start ms => exact ⟨rfl, rfl⟩
  | delayMs n => exact h.elim
  | uartPuts msg => exact ⟨rfl, rfl⟩
  | uartPutHex v => exact ⟨rfl, rfl⟩
  | note m => exact h.elim
  | stuck => exact ⟨rfl, rfl⟩

theorem SameBus.acking {e : SdAction} (h : Acking e) (r : e.Answer) (log : List Event) :
    SameBus log (⟨e, r⟩ :: log) := by
  rcases h with h | ⟨v, rfl⟩
  · exact .polling h
  · exact ⟨rfl, rfl⟩

theorem Ends.of_acking {α : Type} {p : SdProg α} (hp : Only Acking p) :
    Ends p s fun _ log' => SameBus s.dev log' := by
  refine Holds.mono (only_log (I := SameBus s.dev) hp ⟨rfl, rfl⟩ fun e r log he hI => ?_)
    (fun _ _ => trivial) fun _ _ h => h
  obtain ⟨h1, h2⟩ := SameBus.acking he r log
  exact ⟨h1.trans hI.1, h2.trans hI.2⟩

theorem Ends.of_polling {α : Type} {p : SdProg α} (hp : Only Polling p) :
    Ends p s fun _ log' => SameBus s.dev log' := .of_acking (acking_of_polling hp)

/-! ### Setting up -/

/-- Either half of the argument. -/
theorem toNat_halves (argument : U32) :
    ((argument >>> 16 &&& 0xFFFF#32).setWidth 16).toNat * 2 ^ 16 +
      ((argument &&& 0xFFFF#32).setWidth 16).toNat = argument.toNat := by
  have hlt := argument.isLt
  have h1 : (argument >>> 16 &&& 0xFFFF#32).toNat = argument.toNat / 2 ^ 16 % 2 ^ 16 := by
    rw [BitVec.toNat_and, BitVec.toNat_ushiftRight, Nat.shiftRight_eq_div_pow]
    exact Nat.and_two_pow_sub_one_eq_mod _ 16
  have h2 : (argument &&& 0xFFFF#32).toNat = argument.toNat % 2 ^ 16 := by
    rw [BitVec.toNat_and]
    exact Nat.and_two_pow_sub_one_eq_mod _ 16
  rw [BitVec.toNat_setWidth, BitVec.toNat_setWidth, h1, h2]
  omega

/-- What a data command finds in the registers when it is sent. -/
structure SetUp (arg : U32) (count : U16) (isRead : Bool) (log log' : List Event) : Prop where
  commands : commands log' = commands log
  argument : written .argumentHigh log' * 2 ^ 16 + written .argumentLow log' = arg.toNat
  blockCount : written .blockCount log' = count.toNat
  transferMode : ∃ mode, written .transferMode log' = (transferModeVal mode count isRead).toNat

theorem ends_writeArgument (arg : U32) :
    Ends (writeArgument arg) s fun _ log' => log' =
      ⟨.write .argumentHigh ((arg >>> 16 &&& 0xFFFF#32).setWidth 16), ()⟩ ::
        ⟨.write .argumentLow ((arg &&& 0xFFFF#32).setWidth 16), ()⟩ :: s.dev :=
  Ends.step fun _ => Ends.perform fun _ => rfl

theorem ends_setUpTransfer (arg : U32) (count : U16) (isRead : Bool) :
    Ends (setUpTransfer arg count isRead) s fun _ log' => SetUp arg count isRead s.dev log' := by
  refine Ends.step fun blockSize => Ends.step fun _ => Ends.step fun _ => ?_
  refine Ends.bind (ends_writeArgument arg) fun _ s' h => Ends.step fun mode => ?_
  refine Ends.perform fun _ => ?_
  rw [Sd.after_dev, h]
  exact ⟨rfl, toNat_halves arg, rfl, mode, rfl⟩

/-! ### The data phase -/

/-- `n` more words have been moved. -/
def Moved (n : ℕ) (log log' : List Event) : Prop :=
  commands log' = commands log ∧ moved log' = moved log + n

theorem ends_moveWord (isRead : Bool) (offset : ℕ) :
    Ends (moveWord isRead offset) s fun _ log' => Moved 1 s.dev log' := by
  cases isRead with
  | true =>
    refine Ends.step fun data => Ends.step fun _ => Ends.step fun _ => Ends.step fun _ => ?_
    exact Ends.perform fun _ => ⟨rfl, rfl⟩
  | false =>
    refine Ends.step fun b0 => Ends.step fun b1 => Ends.step fun b2 => Ends.step fun b3 => ?_
    exact Ends.perform fun _ => ⟨rfl, rfl⟩

theorem ends_failData (errorStatus : U16) (polls : ℕ) :
    Ends (failData errorStatus polls) s fun status log' =>
      SameBus s.dev log' ∧ status ≠ .success := by
  have hne : Ends (failData errorStatus polls) s fun status _ => status ≠ .success :=
    Ends.step fun _ => Ends.bind (Ends.of_polling (polling_resetLine _ _ polls)) fun _ _ _ =>
      Ends.ret (dataError_ne_success errorStatus)
  exact ((Ends.of_polling (polling_failData errorStatus polls)).and hne).mono
    (fun _ _ => trivial) fun _ _ h => h

theorem ends_startBlock (isRead : Bool) (i polls : ℕ) :
    Ends (startBlock isRead i polls) s fun failed log' =>
      SameBus s.dev log' ∧ failed ≠ some .success := by
  have hne : Ends (startBlock isRead i polls) s fun failed _ => failed ≠ some .success := by
    rw [startBlock]
    split
    · refine Ends.bind (Ends.of_polling (polling_waitStatus _ polls)) fun status s₁ _ => ?_
      rcases status with ⟨normalStatus, errorStatus⟩
      dsimp only
      split
      · refine Ends.bind (ends_failData errorStatus polls) fun status s₂ h => ?_
        exact Ends.ret fun hsome => h.2 (Option.some_inj.mp hsome)
      · exact Ends.step fun _ => Ends.ret (by simp)
    · exact Ends.ret (by simp)
  exact ((Ends.of_acking (acking_startBlock isRead i polls)).and hne).mono
    (fun _ _ => trivial) fun _ _ h => h

/-- All the words are moved, unless the loop is left on an error. -/
theorem ends_moveWords (isRead : Bool) (polls : ℕ) : ∀ (n i : ℕ) (s : Sd (List Event)),
    Ends (moveWords isRead polls n i) s fun failed log' =>
      commands log' = commands s.dev ∧ failed ≠ some .success ∧
        (failed = none → moved log' = moved s.dev + n) := by
  intro n
  induction n with
  | zero => exact fun i s => Ends.ret ⟨rfl, by simp, fun _ => rfl⟩
  | succ n ih =>
    intro i s
    refine Ends.bind (ends_startBlock isRead i polls) fun failed s₁ h => ?_
    obtain ⟨h, hne⟩ := h
    cases failed with
    | some status => exact Ends.ret ⟨h.1, hne, fun hf => absurd hf (by simp)⟩
    | none =>
      refine Ends.bind (ends_moveWord isRead (i * 4)) fun _ s₂ h₂ => ?_
      refine Holds.mono (ih (i + 1) s₂) (fun _ _ => trivial) fun failed s₃ h₃ => ?_
      refine ⟨h₃.1.trans (h₂.1.trans h.1), h₃.2.1, fun hf => ?_⟩
      rw [h₃.2.2 hf, h₂.2, h.2]
      omega

/-- A data phase that succeeds has moved all its words. -/
theorem ends_dataPhase (isRead : Bool) (count : U16) (polls : ℕ) :
    Ends (dataPhase isRead count polls) s fun status log' =>
      commands log' = commands s.dev ∧
        (status = .success → moved log' = moved s.dev + count.toNat * 128) := by
  refine Ends.bind (ends_moveWords isRead polls _ 0 s) fun failed s₁ h => ?_
  cases failed with
  | some status => exact Ends.ret ⟨h.1, fun hs => absurd (congrArg some hs) h.2.1⟩
  | none =>
    refine Holds.mono (Ends.of_acking (acking_finishTransfer polls)) (fun _ _ => trivial)
      fun status s₂ h₂ => ?_
    exact ⟨h₂.1.trans h.1, fun _ => by rw [h₂.2, h.2.2 rfl]⟩

/-! ### A whole command -/

/-- The command stands for the transfer of `count` blocks from `address` on. -/
structure IsTransfer (x : Sent) (cmd : SDCommand) (address : U32) (count : U16) : Prop where
  index : x.index = cmd.index.toNat
  argument : x.argument = address.toNat
  blockCount : x.blockCount = count.toNat
  multiBlock : x.MultiBlock ↔ count > 1#16
  autoCmd12 : x.AutoCmd12 ↔ count > 1#16

theorem transferModeVal_multiBlock (mode count : U16) (isRead : Bool) :
    (transferModeVal mode count isRead).toNat.testBit 5 = true ↔ count > 1#16 := by
  rw [← BitVec.getLsbD]
  by_cases hc : count > 1#16 <;> cases isRead <;> simp [transferModeVal, hc]

theorem transferModeVal_autoCmd12 (mode count : U16) (isRead : Bool) :
    (transferModeVal mode count isRead).toNat.testBit 3 = false ∧
      (transferModeVal mode count isRead).toNat.testBit 2 = true ↔ count > 1#16 := by
  rw [← BitVec.getLsbD, ← BitVec.getLsbD]
  by_cases hc : count > 1#16 <;> cases isRead <;> simp [transferModeVal, hc]

/-- One command has been sent, for the transfer of `count` blocks from `address` on,
and all of them have been moved. -/
def Transferred (cmd : SDCommand) (address : U32) (count : U16) (log log' : List Event) : Prop :=
  ∃ x, commands log' = x :: commands log ∧ IsTransfer x cmd address count ∧
    moved log' = count.toNat * 128

theorem commandVal_index (cmd : SDCommand) :
    (commandVal cmd.index .r1 ||| 1#16 <<< 5) >>> 8 &&& 0x3F#16 = cmd.index.setWidth 16 := by
  cases cmd <;> decide

/-- The set-up holds what the command stands for. -/
theorem isTransfer_of_setUp {arg : U32} {count : U16} {isRead : Bool} (cmd : SDCommand)
    (h : SetUp arg count isRead log log') :
    ∃ x, commands (⟨.write .command (commandVal cmd.index .r1 ||| 1#16 <<< 5), ()⟩ :: log') =
      x :: commands log ∧ IsTransfer x cmd arg count := by
  obtain ⟨mode, hmode⟩ := h.transferMode
  refine ⟨⟨_, _, _, _⟩, congrArg (_ :: ·) h.commands, ⟨?_, h.argument, h.blockCount, ?_, ?_⟩⟩
  · rw [Sent.index, commandVal_index, BitVec.toNat_setWidth]
    cases cmd <;> rfl
  · rw [Sent.MultiBlock, hmode]
    exact transferModeVal_multiBlock mode count isRead
  · rw [Sent.AutoCmd12, hmode]
    exact transferModeVal_autoCmd12 mode count isRead

theorem ends_dataCommand (cmd : SDCommand) (arg : U32) (count : U16) (isRead : Bool)
    (out : Option U32) (polls : ℕ) :
    Ends (dataCommand cmd.index arg .r1 count isRead out polls) s fun result log' =>
      result.1 = .success → Transferred cmd arg count s.dev log' := by
  refine Ends.bind (Ends.of_polling (polling_waitLinesFree polls)) fun _ s₁ h₁ => ?_
  refine Ends.bind (ends_setUpTransfer arg count isRead) fun _ s₂ h₂ => Ends.step fun _ => ?_
  obtain ⟨x, hx, hfor⟩ := isTransfer_of_setUp cmd h₂
  refine Ends.bind (Ends.of_polling (polling_waitStatus _ polls)) fun status s₃ h₃ => ?_
  rcases status with ⟨normalStatus, errorStatus⟩
  dsimp only
  split
  · refine Ends.step fun _ => ?_
    refine Ends.bind (Ends.of_polling (polling_resetLine _ _ polls)) fun _ s₄ _ => ?_
    exact Ends.ret fun hs => absurd hs (commandError_ne_success errorStatus)
  · refine Ends.step fun _ => ?_
    refine Ends.bind (Ends.of_polling (polling_readResponse _ _)) fun out s₄ h₄ => ?_
    refine Ends.bind (ends_dataPhase isRead count polls) fun status s₅ h₅ => ?_
    refine Ends.ret fun hs => ⟨x, ?_, hfor, ?_⟩
    · rw [h₅.1, h₄.1]
      exact h₃.1.trans (hx.trans (congrArg (x :: ·) h₁.1))
    · rw [h₅.2 hs, h₄.2]
      exact (congrArg (· + _) h₃.2).trans (Nat.zero_add _)

theorem ends_transferWith (who : String) (cmd : SDCommand) (isRead : Bool) (arg : U32)
    (count : U16) (polls : ℕ) :
    Ends (transferWith who cmd isRead arg count polls) s fun ok log' =>
      ok = true → Transferred cmd arg count s.dev log' := by
  refine Ends.bind (Q := fun result log' => result.1 = .success →
    Transferred cmd arg count s.dev log') ?_ fun result s₁ h => ?_
  · refine Ends.bind (ends_dataCommand cmd arg count isRead _ polls) fun result s₁ h => ?_
    exact Ends.step fun _ => Ends.ret h
  · rcases result with ⟨status, response⟩
    dsimp only
    split
    · refine Ends.bind (Ends.of_polling (polling_reportDataError who status)) fun _ s₂ _ => ?_
      exact Ends.ret fun hs => absurd hs (by simp)
    · rename_i hs
      refine Holds.mono (Ends.of_polling (polling_checkCardStatus who _)) (fun _ _ => trivial)
        fun ok s₂ h₂ _ => ?_
      obtain ⟨x, hx, hfor, hm⟩ := h (not_not.mp hs)
      exact ⟨x, h₂.1.trans hx, hfor, h₂.2.trans hm⟩

/-! ### A controller that is always ready -/

/-- What happens between the sending of a command and the end of its data. -/
def Midway : SdAction → Prop
  | .write .command _ => False
  | .write .normalInterruptStatus v => v &&& 1#16 <<< 1 = 0
  | .note _ => False
  | .stuck => False
  | _ => True

/-- Every status bit is set, the lines are free, and there is no error. -/
def Ready : (e : SdAction) → e.Answer → Prop
  | .read .normalInterruptStatus, v => v = 0xFFFF#16
  | .read .errorInterruptStatus, v => v = 0#16
  | .read .presentState, v => v = 0#32
  | .read .response0, v => v = 0#32
  | _, _ => True

/-- The device can answer so at any time, and keeps `I`. -/
def AlwaysReady {δ : Type} (D : Device δ) (I : Sd δ → Prop) : Prop :=
  ∀ e, Midway e → ∀ s, I s → ∃ r s', Ready e r ∧ sdAct D e s r s' ∧ I s'

/-- The driver's own state answers, or the controller as it is asked to. -/
theorem exists_ready {δ : Type} {e : SdAction} (he : Midway e) (s : Sd δ) :
    ∃ r, Ready e r ∧ s.Answers e r := by
  cases e with
  | read reg => cases reg <;> first | exact ⟨_, rfl, trivial⟩ | exact ⟨0, trivial, trivial⟩
  | get x => exact ⟨s.var x, trivial, rfl⟩
  | loadByte i => exact ⟨s.buf i, trivial, rfl⟩
  | ticksElapsedMs start ms => exact ⟨false, trivial, trivial⟩
  | getTicks => exact ⟨0, trivial, trivial⟩
  | note m => exact he.elim
  | stuck => exact he.elim
  | write reg v => cases reg <;> first | exact he.elim | exact ⟨(), trivial, trivial⟩
  | _ => exact ⟨(), trivial, trivial⟩

theorem alwaysReady_bus : AlwaysReady bus fun _ => True := by
  intro e he s _
  obtain ⟨r, hr, hown⟩ := exists_ready he s
  exact ⟨r, _, hr, sdAct_bus_of_answers hown, trivial⟩

namespace Brings

variable {δ α : Type} {D : Device δ} {I : Sd δ → Prop} (hD : AlwaysReady D I)

include hD

theorem midway {e : SdAction} {f : e.Answer → SdProg α} {a : α} (he : Midway e)
    (hf : ∀ r, Ready e r → Brings D I (f r) a) : Brings D I (sd e >>= f) a := step (hD e he) hf

theorem waitLinesFree (n : ℕ) : Brings D I (waitLinesFree (n + 1)) () := by
  refine midway hD trivial fun r hr => ?_
  obtain rfl : r = 0#32 := hr
  refine midway hD trivial fun r hr => ?_
  obtain rfl : r = 0#32 := hr
  exact ret ()

theorem waitStatus {mask : U16} (h : mask ≠ 0) (n : ℕ) :
    Brings D I (waitStatus mask (n + 1)) (0xFFFF#16, 0#16) := by
  refine midway hD trivial fun r hr => ?_
  obtain rfl : r = 0xFFFF#16 := hr
  refine midway hD trivial fun r hr => ?_
  obtain rfl : r = 0#16 := hr
  have hmask : 0xFFFF#16 &&& mask = mask := by
    rw [show 0xFFFF#16 = BitVec.allOnes 16 from rfl, BitVec.allOnes_and]
  rw [if_neg (by rw [hmask]; exact fun hc => h hc.1)]
  exact ret _

theorem setUpTransfer (arg : U32) (count : U16) (isRead : Bool) :
    Brings D I (setUpTransfer arg count isRead) () := by
  refine midway hD trivial fun _ _ => midway hD trivial fun _ _ => midway hD trivial fun _ _ => ?_
  refine bind (a := ()) ?_ (midway hD trivial fun _ _ => midway hD trivial fun _ _ => ret ())
  exact midway hD trivial fun _ _ => midway hD trivial fun _ _ => ret ()

theorem moveWord (isRead : Bool) (offset : ℕ) : Brings D I (moveWord isRead offset) () := by
  cases isRead with
  | true =>
    refine midway hD trivial fun _ _ => midway hD trivial fun _ _ => midway hD trivial fun _ _ => ?_
    exact midway hD trivial fun _ _ => midway hD trivial fun _ _ => ret ()
  | false =>
    refine midway hD trivial fun _ _ => midway hD trivial fun _ _ => midway hD trivial fun _ _ => ?_
    exact midway hD trivial fun _ _ => midway hD trivial fun _ _ => ret ()

theorem startBlock (isRead : Bool) (i n : ℕ) : Brings D I (startBlock isRead i (n + 1)) none := by
  rw [GamingConsole.startBlock]
  split
  · refine bind (waitStatus hD (by cases isRead <;> decide) n) ?_
    exact midway hD (by cases isRead <;> exact rfl) fun _ _ => ret none
  · exact ret none

theorem moveWords (isRead : Bool) (n : ℕ) :
    ∀ m i, Brings D I (moveWords isRead (n + 1) m i) none := by
  intro m
  induction m with
  | zero => exact fun i => ret none
  | succ m ih =>
    exact fun i => bind (startBlock hD isRead i n) (bind (moveWord hD isRead _) (ih (i + 1)))

theorem readResponse : Brings D I (readResponse .r1 (some 0#32)) (some 0#32) := by
  refine midway hD trivial fun r hr => ?_
  obtain rfl : r = 0#32 := hr
  exact ret _

end Brings

namespace Can

theorem dataCommand (cmd : U8) (arg : U32) (count : U16) (isRead : Bool) :
    Can (dataCommand cmd arg .r1 count isRead (some 0#32) 1) (.success, some 0#32) := by
  have hbus := alwaysReady_bus
  refine bind (of_brings (.waitLinesFree hbus 0)) (bind (of_brings (.setUpTransfer hbus _ _ _)) ?_)
  refine step () (fun _ => trivial) ?_
  refine bind (of_brings (.waitStatus hbus (by decide) 0)) (step () (fun _ => trivial) ?_)
  refine bind (of_brings (.readResponse hbus)) (bind (a := .success) ?_ (ret _))
  refine bind (of_brings (.moveWords hbus isRead 0 _ 0)) ?_
  exact bind (of_brings (.waitStatus hbus (by decide) 0)) (step () (fun _ => trivial) (ret _))

theorem transferWith (who : String) (cmd : SDCommand) (isRead : Bool) (arg : U32) (count : U16) :
    Can (transferWith who cmd isRead arg count 1) true :=
  bind (bind (dataCommand cmd.index arg count isRead) (step () (fun _ => trivial) (ret _)))
    (ret true)

end Can

/-! ### Exactly the requested blocks -/

/-- One command was sent, it is for exactly the requested blocks, and they were moved. -/
def Covers (ccs lba count : U32) (log log' : List Event) : Prop :=
  ∃ x, commands log' = x :: commands log ∧
    x.argument = (if ccs = 0 then 512 * lba.toNat else lba.toNat) ∧
    moved log' = 128 * count.toNat ∧
    (x.MultiBlock ↔ IsMultiple x.index) ∧ (x.AutoCmd12 ↔ IsMultiple x.index)

variable {who unexpected : String} {single multiple : SDCommand} {isRead : Bool} {lba count : U32}

/-- The command that is sent for a count. -/
def commandFor (single multiple : SDCommand) (count : U32) : SDCommand :=
  if count = 1 then single else multiple

/-- Success is reported only of a transfer of the narrowed count from the narrowed
address. -/
theorem ends_sdioTransfer (polls : ℕ) :
    Ends (sdioTransfer who single multiple isRead unexpected lba count polls) s fun ok log' =>
      ok = true → Transferred (commandFor single multiple count) (adjLba (s.var .ccs) lba)
        (count.setWidth 16) s.dev log' := by
  refine Holds.step trivial fun ccs s' hact => ?_
  obtain rfl : ccs = s.var .ccs := hact.1
  rw [sdAct_bus hact, commandFor]
  set s₁ := s.after (⟨.get .ccs, s.var .ccs⟩ :: s.dev) (.get .ccs)
  by_cases h1 : count = 1
  · rw [if_pos h1, if_pos h1]
    exact ends_transferWith (s := s₁) who single isRead _ _ polls
  · rw [if_neg h1, if_neg h1]
    split
    · exact ends_transferWith (s := s₁) who multiple isRead _ _ polls
    · exact Ends.step fun _ => Ends.ret (Q := fun ok log' => ok = true → _) fun hf =>
        absurd hf (by simp)

theorem Can.sdioTransfer (who unexpected : String) (single multiple : SDCommand) (isRead : Bool)
    (lba : U32) (hcount : 1 ≤ count.toNat) :
    Can (sdioTransfer who single multiple isRead unexpected lba count 1) true := by
  refine own (fun s => ⟨_, rfl⟩) fun ccs => ?_
  split
  · exact transferWith who single isRead _ _
  · rename_i h1
    have hgt : count > 1 := by
      have hne : count.toNat ≠ 1 := fun h => h1 (BitVec.eq_of_toNat_eq h)
      have hone : (1 : U32).toNat = 1 := rfl
      rw [GT.gt, BitVec.lt_def]
      omega
    rw [if_pos hgt]
    exact transferWith who multiple isRead _ _

theorem toNat_adjLba (ccs lba : U32) :
    (adjLba ccs lba).toNat = if ccs = 0 then lba.toNat * 512 % 2 ^ 32 else lba.toNat := by
  rw [adjLba]
  split
  · rw [BitVec.toNat_mul]
    rfl
  · rfl

/-- The narrowed address is the requested one where the byte address fits. -/
theorem adjLba_exact_iff (ccs lba : U32) :
    (adjLba ccs lba).toNat = (if ccs = 0 then 512 * lba.toNat else lba.toNat) ↔
      (ccs = 0 → lba.toNat < 2 ^ 23) := by
  rw [toNat_adjLba]
  by_cases h : ccs = 0
  · rw [if_pos h, if_pos h]
    have := lba.isLt
    constructor
    · intro he _
      omega
    · intro hlt
      have := hlt h
      omega
  · rw [if_neg h, if_neg h]
    exact iff_of_true rfl fun hc => absurd hc h

/-- The command is for several blocks exactly if the count is not one. -/
theorem isMultiple_commandFor (hsingle : ¬ IsMultiple single.index.toNat)
    (hmultiple : IsMultiple multiple.index.toNat) (count : U32) :
    IsMultiple (commandFor single multiple count).index.toNat ↔ count.toNat ≠ 1 := by
  rw [commandFor]
  split
  · rename_i h
    exact iff_of_false hsingle (not_not.mpr (congrArg BitVec.toNat h))
  · rename_i h
    exact iff_of_true hmultiple fun hc => h (BitVec.eq_of_toNat_eq hc)

/-- What was sent covers the request where neither value was narrowed. -/
theorem covers_iff_of_transferred (hsingle : ¬ IsMultiple single.index.toNat)
    (hmultiple : IsMultiple multiple.index.toNat) (hcount : 1 ≤ count.toNat) {ccs : U32}
    (h : Transferred (commandFor single multiple count) (adjLba ccs lba) (count.setWidth 16)
      log log') :
    Covers ccs lba count log log' ↔ count.toNat < 2 ^ 16 ∧ (ccs = 0 → lba.toNat < 2 ^ 23) := by
  obtain ⟨x, hx, hfor, hmoved⟩ := h
  have hmode : count.setWidth 16 > 1#16 ↔ 1 < count.toNat % 2 ^ 16 := by
    rw [GT.gt, BitVec.lt_def, BitVec.toNat_setWidth]
    rfl
  have hindex := isMultiple_commandFor hsingle hmultiple count
  rw [← hfor.index] at hindex
  rw [BitVec.toNat_setWidth] at hmoved
  have hlt := count.isLt
  rw [← adjLba_exact_iff, ← hfor.argument]
  constructor
  · rintro ⟨y, hy, harg, hall, -, -⟩
    obtain rfl : x = y := (List.cons.inj (hx.symm.trans hy)).1
    exact ⟨by omega, harg⟩
  · rintro ⟨hfits, harg⟩
    refine ⟨x, hx, harg, by omega, ?_, ?_⟩
    · rw [hfor.multiBlock, hmode, hindex]
      omega
    · rw [hfor.autoCmd12, hmode, hindex]
      omega

/-- One of the two functions covers what it is asked for. -/
theorem sdioTransfer_covers_iff (hsingle : ¬ IsMultiple single.index.toNat)
    (hmultiple : IsMultiple multiple.index.toNat) (hcount : 1 ≤ count.toNat) :
    (∀ polls s', Returns (sdAct bus)
        (sdioTransfer who single multiple isRead unexpected lba count polls) s true s' →
        Covers (s.var .ccs) lba count s.dev s'.dev) ↔
      count.toNat < 2 ^ 16 ∧ (s.var .ccs = 0 → lba.toNat < 2 ^ 23) := by
  have hall : ∀ polls s', Returns (sdAct bus)
      (sdioTransfer who single multiple isRead unexpected lba count polls) s true s' →
      (Covers (s.var .ccs) lba count s.dev s'.dev ↔
        count.toNat < 2 ^ 16 ∧ (s.var .ccs = 0 → lba.toNat < 2 ^ 23)) := fun polls s' h =>
    covers_iff_of_transferred hsingle hmultiple hcount ((ends_sdioTransfer polls).of_returns h rfl)
  constructor
  · intro h
    obtain ⟨s', hret⟩ := Can.sdioTransfer who unexpected single multiple isRead lba hcount s
    exact (hall 1 s' hret).mp (h 1 s' hret)
  · exact fun h polls s' hret => (hall polls s' hret).mpr h

/-- **A transfer that succeeds covers exactly the requested blocks where the count
fits in 16 bits and, on a card addressed by bytes, the address in 32.** -/
theorem transfer_covers_iff (s : Sd (List Event)) (lba : U32) (hcount : 1 ≤ count.toNat) :
    (∀ polls s', Returns (sdAct bus) (sdioRead lba count polls) s true s' ∨
        Returns (sdAct bus) (sdioWrite lba count polls) s true s' →
        Covers (s.var .ccs) lba count s.dev s'.dev) ↔
      count.toNat < 2 ^ 16 ∧ (s.var .ccs = 0 → lba.toNat < 2 ^ 23) := by
  have hread : (∀ polls s', Returns (sdAct bus) (sdioRead lba count polls) s true s' →
      Covers (s.var .ccs) lba count s.dev s'.dev) ↔ _ :=
    sdioTransfer_covers_iff (by decide) (by decide) hcount
  have hwrite : (∀ polls s', Returns (sdAct bus) (sdioWrite lba count polls) s true s' →
      Covers (s.var .ccs) lba count s.dev s'.dev) ↔ _ :=
    sdioTransfer_covers_iff (by decide) (by decide) hcount
  constructor
  · exact fun h => hread.mp fun polls s' hret => h polls s' (Or.inl hret)
  · rintro h polls s' (hret | hret)
    · exact hread.mpr h polls s' hret
    · exact hwrite.mpr h polls s' hret

/-- A read of 65537 blocks: the count is narrowed to one, CMD18 is sent without the
multi-block mode and without Auto CMD12, one block is moved, and success reported. -/
theorem not_transfer_covers : ¬ ∀ (s : Sd (List Event)) (lba count : U32) (polls : ℕ)
    (s' : Sd (List Event)), s.var .ccs = 0 ∨ s.var .ccs = 1 → 1 ≤ count.toNat →
    lba.toNat + count.toNat ≤ 2 ^ 32 → Returns (sdAct bus) (sdioRead lba count polls) s true s' →
    Covers (s.var .ccs) lba count s.dev s'.dev := by
  intro h
  obtain ⟨s', hret⟩ : ∃ s', Returns (sdAct bus) (sdioRead 0#32 65537#32 1) blockCard true s' :=
    Can.sdioTransfer _ _ _ _ _ _ (by decide) blockCard
  have hcovers := h blockCard 0#32 65537#32 1 s' (Or.inr rfl) (by decide) (by decide) hret
  have hsent := (ends_sdioTransfer 1).of_returns hret rfl
  rw [covers_iff_of_transferred (by decide) (by decide) (by decide) hsent] at hcovers
  exact absurd hcovers.1 (by decide)

/-- Three blocks written from block 7 on. -/
theorem transfer_covers_three : ∃ s',
    Returns (sdAct bus) (sdioWrite 7#32 3#32 1) blockCard true s' ∧
    Covers 1#32 7#32 3#32 blockCard.dev s'.dev := by
  obtain ⟨s', hret⟩ : ∃ s', Returns (sdAct bus) (sdioWrite 7#32 3#32 1) blockCard true s' :=
    Can.sdioTransfer _ _ _ _ _ _ (by decide) blockCard
  exact ⟨s', hret, (transfer_covers_iff blockCard 7#32 (by decide)).mpr
    ⟨by decide, fun hf => absurd hf (by decide)⟩ 1 s' (Or.inr hret)⟩

end GamingConsole
