/-
What is written is what is read back.

`Port` is a controller whose data port passes words on in order: the words of a
write command become the card's, the words of a read command are the card's, and
Buffer Ready is raised once for each block.  The driver's loop is followed word by
word (`sure_moveWords`), with what the words are as a parameter; `read_back` puts
a write and a read together.
-/
import GamingConsole.SdEvents

namespace GamingConsole

open Prog Relation

/-- The controller's side of a transfer.  `store` holds the words of the blocks that
the commands are for, `words` counts those moved for the current command; `due` Buffer
Ready events are still to come for the current command, `raised` have been; `acked` holds
the words moved when each of them was acknowledged, `touched` the offsets that the driver
has used for it. -/
structure Port where
  store : List U32
  words : ℕ
  due : ℕ
  raised : ℕ
  acked : List ℕ
  touched : List ℕ
  blocks : ℕ
  readMode : Bool
  isRead : Bool
  normal : U16
  error : U16

/-- Buffer Read Ready and Buffer Write Ready. -/
def readyBits : U16 := 0x30#16

/-- What the controller does on its own: it raises Buffer Ready, for each block once,
and any other event and error. -/
inductive PortEvent : Port → Port → Prop where
  | ready {p : Port} (h : 0 < p.due) : PortEvent p
      { p with
        due := p.due - 1
        raised := p.raised + 1
        normal := p.normal ||| readyBit p.isRead }
  | other {p : Port} (bits : U16) (h : bits &&& readyBits = 0) :
      PortEvent p { p with normal := p.normal ||| bits }
  | error {p : Port} (bits : U16) : PortEvent p { p with error := bits }

/-- How the controller answers.  Status bits latch until they are written with 1. -/
def Port.answer : Device Port
  | .read .normalInterruptStatus, p, v, p' => v = p.normal ∧ p' = p
  | .read .errorInterruptStatus, p, v, p' => v = p.error ∧ p' = p
  | .read .bufferData0, p, v, p' =>
    (∀ w, p.store[p.words]? = some w → v = w) ∧ p' = { p with words := p.words + 1 }
  | .write .bufferData0 v, p, _, p' =>
    p' = { p with store := p.store ++ [v], words := p.words + 1 }
  | .write .normalInterruptStatus v, p, _, p' =>
    p' = { p with
      normal := p.normal &&& ~~~v
      acked := if v &&& readyBits = 0 then p.acked else p.words :: p.acked }
  | .write .errorInterruptStatus v, p, _, p' => p' = { p with error := p.error &&& ~~~v }
  | .write .blockCount v, p, _, p' => p' = { p with blocks := v.toNat }
  | .write .transferMode v, p, _, p' => p' = { p with readMode := v.getLsbD 4 }
  | .write .command _, p, _, p' =>
    p' = { p with
      store := if p.readMode then p.store else []
      words := 0
      due := p.blocks
      raised := 0
      acked := []
      touched := []
      isRead := p.readMode }
  | .loadByte i, p, _, p' => p' = { p with touched := i :: p.touched }
  | .storeByte i _, p, _, p' => p' = { p with touched := i :: p.touched }
  | _, p, _, p' => p' = p

/-- The controller as a device. -/
def port : Device Port := eventful PortEvent Port.answer

variable {s s' : Sd Port} {p p' : Port} {isRead : Bool} {n k i : ℕ} {α : Type}

/-! ### Bits of the status -/

theorem and_readyBit {v : U16} (h : v &&& readyBits = 0) (r : Bool) : v &&& readyBit r = 0 := by
  have hsub : readyBits &&& readyBit r = readyBit r := by cases r <;> decide
  rw [← hsub, ← BitVec.and_assoc, h]
  exact BitVec.zero_and

theorem readyBit_and_not (r : Bool) : readyBit r &&& readyBit (!r) = 0 := by
  cases r <;> decide

theorem or_and_eq_zero {a b m : U16} (ha : a &&& m = 0) (hb : b &&& m = 0) :
    (a ||| b) &&& m = 0 := by
  rw [BitVec.and_or_distrib_right, ha, hb]
  rfl

theorem and_not_and {a v m : U16} (h : a &&& m = 0) : a &&& ~~~v &&& m = 0 := by
  rw [BitVec.and_assoc, BitVec.and_comm (~~~v) m, ← BitVec.and_assoc, h]
  exact BitVec.zero_and

theorem and_not_self (a m : U16) : a &&& ~~~m &&& m = 0 := by
  rw [BitVec.and_assoc, BitVec.and_comm (~~~m) m, BitVec.and_not_self]
  exact BitVec.and_zero

/-! ### During a command -/

/-- `i` words have been moved and `k` Buffer Ready events acknowledged, of a transfer
of `n` blocks. -/
structure Moving (isRead : Bool) (n k i : ℕ) (p : Port) : Prop where
  direction : p.isRead = isRead
  words : p.words = i
  acked : p.acked = ((List.range k).map (128 * ·)).reverse
  balance : p.due + p.raised = n
  seen : k ≤ p.raised
  latched : p.normal &&& readyBit isRead ≠ 0 → k < p.raised
  other : p.normal &&& readyBit (!isRead) = 0

theorem Moving.event (h : Moving isRead n k i p) (he : PortEvent p p') :
    Moving isRead n k i p' := by
  cases he with
  | ready hdue =>
    have hbal := h.balance
    have hseen := h.seen
    exact
      { direction := h.direction
        words := h.words
        acked := h.acked
        balance := by
          show p.due - 1 + (p.raised + 1) = n
          omega
        seen := Nat.le_succ_of_le hseen
        latched := fun _ => Nat.lt_succ_of_le hseen
        other := or_and_eq_zero h.other (by rw [h.direction]; exact readyBit_and_not isRead) }
  | other bits hbits =>
    refine { h with latched := fun hne => h.latched fun h0 => hne ?_, other := ?_ }
    · exact or_and_eq_zero h0 (and_readyBit hbits _)
    · exact or_and_eq_zero h.other (and_readyBit hbits _)
  | error bits => exact { h with }

/-- The assertion of the loop: how far the transfer is, what the words moved so far
have done to the buffer and to the store, and that the offsets used are below
`bound`. -/
structure Carrying (Data : (ℕ → U8) → List U32 → Prop) (bound : ℕ) (isRead : Bool) (n k i : ℕ)
    (s : Sd Port) : Prop where
  moving : Moving isRead n k i s.dev
  data : Data s.buf s.dev.store
  touched : ∀ j ∈ s.dev.touched, j < bound

variable {Data : (ℕ → U8) → List U32 → Prop} {D : ℕ → (ℕ → U8) → List U32 → Prop} {bound : ℕ}

theorem carrying_event : EventStable PortEvent (Carrying Data bound isRead n k i) := by
  intro s p' h he
  have hm := h.moving.event he
  cases he <;> exact ⟨hm, h.data, h.touched⟩

/-- Reads and the handling of errors leave all but the error status alone. -/
theorem readStable_of_event {I : Sd Port → Prop} (hI : EventStable PortEvent I) :
    ReadStable Port.answer I := by
  intro e s r p' he hs hans
  cases e with
  | read reg =>
    cases reg <;> first
      | exact (he rfl).elim
      | (obtain rfl : p' = s.dev := hans
         exact hs)
      | (obtain rfl : p' = s.dev := hans.2
         exact hs)
  | write reg v =>
    rcases he with rfl | rfl
    · obtain rfl : p' = s.dev := hans
      exact hs
    · obtain rfl : p' = _ := hans
      exact hI s _ hs (.error _)
  | get x | getTicks | ticksElapsedMs start ms | uartPuts msg | uartPutHex v =>
    obtain rfl : p' = s.dev := hans
    exact hs
  | stuck => exact nomatch r
  | _ => exact he.elim

/-- Errors are not seen as success, and otherwise the assertion is kept. -/
theorem sure_failData {I : Sd Port → Prop} (hI : EventStable PortEvent I) (errorStatus : U16)
    (polls : ℕ) (hs : I s) :
    Sure PortEvent Port.answer (failData errorStatus polls) s
      fun status _ => status ≠ .success := by
  refine Sure.step hs hI fun s hs _ d _ hans => ?_
  have hs' := readStable_of_event hI (.write .errorInterruptStatus errorStatus) s () d (Or.inr rfl)
    hs hans
  exact Sure.bind (Sure.polling (polling_resetLine _ _ polls) hs' hI (readStable_of_event hI))
    fun _ _ _ => dataError_ne_success errorStatus

/-- Buffer Ready has been raised once more than it was acknowledged. -/
def Raised (k : ℕ) (s : Sd Port) : Prop := k < s.dev.raised

theorem raised_event : EventStable PortEvent (Raised k) := by
  intro s p' h he
  cases he with
  | ready => exact Nat.lt_succ_of_lt h
  | other => exact h
  | error => exact h

/-- Acknowledging Buffer Ready at the start of a block. -/
theorem Moving.ack (h : Moving isRead n k (128 * k) p) (hraised : k < p.raised) :
    Moving isRead n (k + 1) (128 * k)
      { p with
        normal := p.normal &&& ~~~readyBit isRead
        acked := if readyBit isRead &&& readyBits = 0 then p.acked else p.words :: p.acked } where
  direction := h.direction
  words := h.words
  acked := by
    have hne : readyBit isRead &&& readyBits ≠ 0 := by cases isRead <;> decide
    rw [if_neg hne, h.words, h.acked, List.range_succ, List.map_append, List.reverse_append]
    rfl
  balance := h.balance
  seen := hraised
  latched := fun hne => absurd (and_not_self _ _) hne
  other := and_not_and h.other

theorem sure_startBlock {polls : ℕ} (hk : k = (i + 127) / 128)
    (hs : Carrying Data bound isRead n k i s) :
    Sure PortEvent Port.answer (startBlock isRead i polls) s fun failed s' =>
      failed ≠ some .success ∧
        (failed = none → Carrying Data bound isRead n ((i + 128) / 128) i s') := by
  rw [startBlock]
  split
  · rename_i hi
    have hki : i = 128 * k := by omega
    refine Sure.bind (Sure.waitStatus
      (F := fun s => Carrying Data bound isRead n k i s ∧ Raised k s)
      carrying_event (readStable_of_event carrying_event) (carrying_event.and raised_event)
      (readStable_of_event (carrying_event.and raised_event)) ?_ polls s hs)
      fun status s₁ h₁ => ?_
    · -- the bit that is read is a latched event of this block
      rintro s r p' hs ⟨hr, rfl⟩ hbit
      rw [hr] at hbit
      exact ⟨hs, hs.moving.latched hbit⟩
    · obtain ⟨normalStatus, errorStatus⟩ := status
      dsimp only
      split
      · refine Sure.bind (sure_failData carrying_event errorStatus polls h₁.1)
          fun status s₂ hne => ?_
        exact Sure.ret ⟨fun h => hne (Option.some_inj.mp h), fun h => absurd h (by simp)⟩
      · rename_i herr
        refine Sure.step (h₁.2 (not_not.mp herr)) (carrying_event.and raised_event)
          fun s h _ d _ hans => Sure.ret ⟨by simp, fun _ => ?_⟩
        obtain rfl : d = _ := hans
        obtain ⟨hc, hraised⟩ := h
        subst hki
        rw [show (128 * k + 128) / 128 = k + 1 by omega]
        exact ⟨hc.moving.ack hraised, hc.data, hc.touched⟩
  · rename_i hi
    refine Sure.ret ⟨by simp, fun _ => ?_⟩
    rwa [show (i + 128) / 128 = k by omega]

/-- One word has been moved. -/
theorem Moving.word (h : Moving isRead n k i p) (hwords : p'.words = p.words + 1)
    (hsame : p'.isRead = p.isRead ∧ p'.acked = p.acked ∧ p'.due = p.due ∧ p'.raised = p.raised ∧
      p'.normal = p.normal) : Moving isRead n k (i + 1) p' := by
  obtain ⟨h1, h2, h3, h4, h5⟩ := hsame
  refine ⟨h1.trans h.direction, by rw [hwords, h.words], h2.trans h.acked, ?_, ?_, ?_, ?_⟩
  · rw [h3, h4]
    exact h.balance
  · rw [h4]
    exact h.seen
  · rw [h5, h4]
    exact h.latched
  · rw [h5]
    exact h.other

/-- The loop, for any account of the data that one word more keeps. -/
theorem sure_moveWords {polls : ℕ}
    (hword : ∀ k i s, i < 128 * n → Carrying (D i) (4 * i) isRead n k i s →
      Sure PortEvent Port.answer (moveWord isRead (i * 4)) s fun _ s' =>
        Carrying (D (i + 1)) (4 * (i + 1)) isRead n k (i + 1) s') :
    ∀ (m i : ℕ) (s : Sd Port), i + m ≤ 128 * n →
    Carrying (D i) (4 * i) isRead n ((i + 127) / 128) i s →
    Sure PortEvent Port.answer (moveWords isRead polls m i) s fun failed s' =>
      failed ≠ some .success ∧ (failed = none →
        Carrying (D (i + m)) (4 * (i + m)) isRead n ((i + m + 127) / 128) (i + m) s') := by
  intro m
  induction m with
  | zero => exact fun i s _ hs => Sure.ret ⟨by simp, fun _ => hs⟩
  | succ m ih =>
    intro i s hi hs
    refine Sure.bind (sure_startBlock rfl hs) fun failed s₁ h₁ => ?_
    cases failed with
    | some status => exact Sure.ret ⟨h₁.1, fun h => absurd h (by simp)⟩
    | none =>
      refine Sure.bind (hword _ i s₁ (by omega) (h₁.2 rfl)) fun _ s₂ h₂ => ?_
      rw [show i + 128 = i + 1 + 127 by omega] at h₂
      refine Sure.mono (ih (i + 1) s₂ (by omega) h₂) fun failed s₃ h₃ => ?_
      rw [show i + (m + 1) = i + 1 + m by omega]
      exact h₃

/-! ### The words of a buffer -/

/-- Word `i` of a buffer. -/
def wordAt (buf : ℕ → U8) (i : ℕ) : U32 :=
  (buf (i * 4 + 0)).setWidth 32 ||| (buf (i * 4 + 1)).setWidth 32 <<< 8 |||
    (buf (i * 4 + 2)).setWidth 32 <<< 16 ||| (buf (i * 4 + 3)).setWidth 32 <<< 24

/-- **Disassembling a word gives the bytes it was assembled from.** -/
theorem bytes_wordAt (buf : ℕ → U8) (i : ℕ) :
    (wordAt buf i &&& 0xFF#32).setWidth 8 = buf (i * 4 + 0) ∧
      (wordAt buf i >>> 8 &&& 0xFF#32).setWidth 8 = buf (i * 4 + 1) ∧
      (wordAt buf i >>> 16 &&& 0xFF#32).setWidth 8 = buf (i * 4 + 2) ∧
      (wordAt buf i >>> 24 &&& 0xFF#32).setWidth 8 = buf (i * 4 + 3) := by
  rw [wordAt]
  refine ⟨?_, ?_, ?_, ?_⟩ <;>
  · ext j hj
    have hcases : j = 0 ∨ j = 1 ∨ j = 2 ∨ j = 3 ∨ j = 4 ∨ j = 5 ∨ j = 6 ∨ j = 7 := by omega
    rcases hcases with rfl | rfl | rfl | rfl | rfl | rfl | rfl | rfl <;> simp

/-- A write: the buffer stays, its words go to the card in order. -/
def Written (b : ℕ → U8) (i : ℕ) (buf : ℕ → U8) (store : List U32) : Prop :=
  buf = b ∧ store = (List.range i).map (wordAt b)

/-- A read: the card's words stay, and the buffer holds the first `m` bytes. -/
def Filled (b : ℕ → U8) (n m : ℕ) (buf : ℕ → U8) (store : List U32) : Prop :=
  store = (List.range (128 * n)).map (wordAt b) ∧ ∀ j < m, buf j = b j

/-- One more offset has been used. -/
theorem forall_mem_touched {j bound : ℕ} {touched : List ℕ} (hj : j < bound)
    (h : ∀ j ∈ touched, j < bound) : ∀ j' ∈ j :: touched, j' < bound := by
  rw [List.forall_mem_cons]
  exact ⟨hj, h⟩

/-- Loading a byte of word `i`. -/
theorem sure_loadByte {b : ℕ → U8} {f : U8 → SdProg α} {Q : α → Sd Port → Prop} (c : ℕ)
    (hc : c < 4) (hs : Carrying (Written b i) (4 * (i + 1)) isRead n k i s)
    (h : ∀ s, Carrying (Written b i) (4 * (i + 1)) isRead n k i s →
      Sure PortEvent Port.answer (f (b (i * 4 + c))) s Q) :
    Sure PortEvent Port.answer (sd (.loadByte (i * 4 + c)) >>= f) s Q := by
  refine Sure.step hs carrying_event fun s hs r d hown hans => ?_
  obtain rfl : r = s.buf (i * 4 + c) := hown
  obtain rfl : d = _ := hans
  rw [hs.data.1]
  exact h _ ⟨{ hs.moving with }, hs.data, forall_mem_touched (by omega) hs.touched⟩

/-- Writing word `i`. -/
theorem sure_writeWord {b : ℕ → U8} (k i : ℕ) (s : Sd Port)
    (hs : Carrying (Written b i) (4 * i) false n k i s) :
    Sure PortEvent Port.answer (moveWord false (i * 4)) s fun _ s' =>
      Carrying (Written b (i + 1)) (4 * (i + 1)) false n k (i + 1) s' := by
  have hs₀ : Carrying (Written b i) (4 * (i + 1)) false n k i s :=
    { hs with touched := fun j hj => (hs.touched j hj).trans (by omega) }
  refine sure_loadByte 0 (by omega) hs₀ fun s₁ h₁ => ?_
  refine sure_loadByte 1 (by omega) h₁ fun s₂ h₂ => ?_
  refine sure_loadByte 2 (by omega) h₂ fun s₃ h₃ => ?_
  refine sure_loadByte 3 (by omega) h₃ fun s₄ h₄ => ?_
  refine Sure.perform h₄ carrying_event fun s h r d _ hans => ?_
  obtain rfl : d = _ := hans
  refine ⟨h.moving.word rfl ⟨rfl, rfl, rfl, rfl, rfl⟩, ⟨h.data.1, ?_⟩, h.touched⟩
  show s.dev.store ++ [wordAt b i] = _
  rw [h.data.2, List.range_succ, List.map_append]
  rfl

/-- Storing the next byte. -/
theorem sure_storeByte {b : ℕ → U8} {m : ℕ} {f : Unit → SdProg α} {Q : α → Sd Port → Prop} {v : U8}
    (hv : v = b m) (hm : m < bound) (hs : Carrying (Filled b n m) bound isRead n k i s)
    (h : ∀ s, Carrying (Filled b n (m + 1)) bound isRead n k i s →
      Sure PortEvent Port.answer (f ()) s Q) :
    Sure PortEvent Port.answer (sd (.storeByte m v) >>= f) s Q := by
  refine Sure.step hs carrying_event fun s hs r d _ hans => ?_
  obtain rfl : d = _ := hans
  refine h _ ⟨{ hs.moving with }, ⟨hs.data.1, fun j hj => ?_⟩, forall_mem_touched hm hs.touched⟩
  show Function.update s.buf m v j = b j
  by_cases hjm : j = m
  · rw [hjm, Function.update_self, hv]
  · rw [Function.update_of_ne hjm]
    exact hs.data.2 j (by omega)

/-- Reading word `i`. -/
theorem sure_readWord {b : ℕ → U8} (k i : ℕ) (s : Sd Port) (hi : i < 128 * n)
    (hs : Carrying (Filled b n (4 * i)) (4 * i) true n k i s) :
    Sure PortEvent Port.answer (moveWord true (i * 4)) s fun _ s' =>
      Carrying (Filled b n (4 * (i + 1))) (4 * (i + 1)) true n k (i + 1) s' := by
  refine Sure.step hs carrying_event fun s hs data d _ hans => ?_
  obtain ⟨hdata, rfl⟩ := hans
  have hword : data = wordAt b i := by
    refine hdata _ ?_
    rw [hs.moving.words, hs.data.1]
    simp [hi]
  subst hword
  obtain ⟨hb0, hb1, hb2, hb3⟩ := bytes_wordAt b i
  have h₀ : Carrying (Filled b n (i * 4 + 0)) (4 * (i + 1)) true n k (i + 1)
      (s.after { s.dev with words := s.dev.words + 1 } (.read .bufferData0)) := by
    refine ⟨hs.moving.word rfl ⟨rfl, rfl, rfl, rfl, rfl⟩, ⟨hs.data.1, fun j hj => ?_⟩,
      fun j hj => ?_⟩
    · exact hs.data.2 j (by omega)
    · exact (hs.touched j hj).trans (by omega)
  refine sure_storeByte hb0 (by omega) h₀ fun s₁ h₁ => ?_
  refine sure_storeByte hb1 (by omega) h₁ fun s₂ h₂ => ?_
  refine sure_storeByte hb2 (by omega) h₂ fun s₃ h₃ => ?_
  refine Sure.mono (sure_storeByte (f := pure) hb3 (by omega) h₃ fun s₄ h₄ =>
    Sure.ret (Q := fun _ s' =>
    Carrying (Filled b n (i * 4 + 3 + 1)) (4 * (i + 1)) true n k (i + 1) s') h₄) fun _ s' h => ?_
  have heq : 4 * (i + 1) = i * 4 + 3 + 1 := by omega
  exact ⟨h.moving, by rw [heq]; exact h.data, h.touched⟩

/-! ### A whole command -/

/-- Between commands: no Buffer Ready is latched or still to come.  `C` speaks of the
block count and the direction that are set up. -/
structure Resting (Data : (ℕ → U8) → List U32 → Prop) (C : ℕ → Bool → Prop)
    (s : Sd Port) : Prop where
  due : s.dev.due = 0
  normal : s.dev.normal &&& readyBits = 0
  data : Data s.buf s.dev.store
  setUp : C s.dev.blocks s.dev.readMode

variable {C : ℕ → Bool → Prop}

theorem resting_event : EventStable PortEvent (Resting Data C) := by
  intro s p' h he
  cases he with
  | ready hdue => exact absurd h.due (by omega)
  | other bits hbits => exact ⟨h.due, or_and_eq_zero h.normal hbits, h.data, h.setUp⟩
  | error bits => exact ⟨h.due, h.normal, h.data, h.setUp⟩

theorem transferModeVal_direction (mode count : U16) (isRead : Bool) :
    (transferModeVal mode count isRead).getLsbD 4 = isRead := by
  by_cases hc : count > 1#16 <;> cases isRead <;> simp [transferModeVal, hc]

theorem sure_setUpTransfer {arg : U32} {count : U16}
    (hs : Resting Data (fun _ _ => True) s) :
    Sure PortEvent Port.answer (setUpTransfer arg count isRead) s fun _ s' =>
      Resting Data (fun blocks readMode => blocks = count.toNat ∧ readMode = isRead) s' := by
  have hread : ∀ {C}, ReadStable Port.answer (Resting Data C) :=
    readStable_of_event resting_event
  refine Sure.step hs resting_event fun s hs v d _ hans => ?_
  refine Sure.step (hread (.read .blockSize) s v d (polling_read (by decide)) hs hans) resting_event
    fun s hs _ d _ hans => ?_
  obtain rfl : d = s.dev := hans
  refine Sure.step hs resting_event fun s hs _ d _ hans => ?_
  obtain rfl : d = _ := hans
  have hs : Resting Data (fun blocks _ => blocks = count.toNat)
      (s.after { s.dev with blocks := count.toNat } (.write .blockCount count)) :=
    ⟨hs.due, hs.normal, hs.data, rfl⟩
  refine Sure.bind (Q := fun _ s => Resting Data (fun blocks _ => blocks = count.toNat) s)
    (Sure.step hs resting_event fun s hs _ d _ hans => ?_) fun _ s hs => ?_
  · obtain rfl : d = s.dev := hans
    refine Sure.perform hs resting_event fun s hs _ d _ hans => ?_
    obtain rfl : d = s.dev := hans
    exact hs
  · refine Sure.step hs resting_event fun s hs v d _ hans => ?_
    refine Sure.perform (hread (.read .transferMode) s v d (polling_read (by decide)) hs hans)
      resting_event fun s hs _ d _ hans => ?_
    obtain rfl : d = _ := hans
    exact ⟨hs.due, hs.normal, hs.data, hs.setUp, transferModeVal_direction v count isRead⟩

/-- An account of the data for one direction: how it starts, and that a word keeps it. -/
structure Account (Data : (ℕ → U8) → List U32 → Prop) (D : ℕ → (ℕ → U8) → List U32 → Prop)
    (isRead : Bool) (n : ℕ) : Prop where
  start : ∀ buf store, Data buf store → D 0 buf (if isRead then store else [])
  word : ∀ k i s, i < 128 * n → Carrying (D i) (4 * i) isRead n k i s →
    Sure PortEvent Port.answer (moveWord isRead (i * 4)) s fun _ s' =>
      Carrying (D (i + 1)) (4 * (i + 1)) isRead n k (i + 1) s'

/-- Acknowledging another event. -/
theorem Carrying.ack {v : U16} (hv : v &&& readyBits = 0)
    (h : Carrying Data bound isRead n k i s) :
    Carrying Data bound isRead n k i (s.after
      { s.dev with
        normal := s.dev.normal &&& ~~~v
        acked := if v &&& readyBits = 0 then s.dev.acked else s.dev.words :: s.dev.acked }
      (.write .normalInterruptStatus v)) := by
  have hm := h.moving
  refine ⟨⟨hm.direction, hm.words, ?_, hm.balance, hm.seen, fun hne => hm.latched fun h0 => ?_,
    and_not_and hm.other⟩, h.data, h.touched⟩
  · show (if v &&& readyBits = 0 then s.dev.acked else _) = _
    rw [if_pos hv]
    exact hm.acked
  · exact hne (and_not_and h0)

theorem sure_finishTransfer {polls : ℕ} (hs : Carrying Data bound isRead n k i s) :
    Sure PortEvent Port.answer (finishTransfer polls) s fun status s' =>
      status = .success → Carrying Data bound isRead n k i s' := by
  refine Sure.bind (Sure.polling (polling_waitStatus _ polls) hs carrying_event
    (readStable_of_event carrying_event)) fun ⟨normalStatus, errorStatus⟩ s₁ h₁ => ?_
  dsimp only
  split
  · exact Sure.mono (sure_failData carrying_event errorStatus polls h₁) fun _ _ hne hs =>
      absurd hs hne
  · refine Sure.step h₁ carrying_event fun s h _ d _ hans => Sure.ret fun _ => ?_
    obtain rfl : d = _ := hans
    exact h.ack (by decide)

theorem sure_dataPhase {count : U16} {polls : ℕ} (hacc : Account Data D isRead count.toNat)
    (hs : Carrying (D 0) 0 isRead count.toNat 0 0 s) :
    Sure PortEvent Port.answer (dataPhase isRead count polls) s fun status s' =>
      status = .success → Carrying (D (128 * count.toNat)) (512 * count.toNat) isRead count.toNat
        count.toNat (128 * count.toNat) s' := by
  refine Sure.bind (sure_moveWords hacc.word (count.toNat * 128) 0 s (by omega) hs)
    fun failed s₁ h₁ => ?_
  cases failed with
  | some status => exact Sure.ret fun hsuc => absurd (congrArg some hsuc) h₁.1
  | none =>
    have hend := h₁.2 rfl
    rw [show 0 + count.toNat * 128 = 128 * count.toNat by omega,
      show (128 * count.toNat + 127) / 128 = count.toNat by omega,
      show 4 * (128 * count.toNat) = 512 * count.toNat by omega] at hend
    exact sure_finishTransfer hend

/-- Sending the command starts the transfer. -/
theorem Resting.sent {count : U16} (hacc : Account Data D isRead count.toNat)
    (h : Resting Data (fun blocks readMode => blocks = count.toNat ∧ readMode = isRead) s)
    (v : U16) {d : Port} (hans : Port.answer (.write .command v) s.dev () d) :
    Carrying (D 0) 0 isRead count.toNat 0 0 (s.after d (.write .command v)) := by
  obtain rfl : d = _ := hans
  obtain ⟨hblocks, hmode⟩ := h.setUp
  refine ⟨⟨hmode, rfl, rfl, hblocks, Nat.zero_le _, fun hne => ?_, and_readyBit h.normal _⟩, ?_,
    fun j hj => absurd hj (by simp [Sd.after])⟩
  · exact absurd (and_readyBit h.normal _) hne
  · show D 0 s.buf (if s.dev.readMode then s.dev.store else [])
    rw [hmode]
    exact hacc.start _ _ h.data

theorem sure_dataCommand {cmd : U8} {arg : U32} {rt : SDResponseType} {count : U16}
    {out : Option U32} {polls : ℕ} (hacc : Account Data D isRead count.toNat)
    (hs : Resting Data (fun _ _ => True) s) :
    Sure PortEvent Port.answer (dataCommand cmd arg rt count isRead out polls) s
      fun result s' => result.1 = .success →
        Carrying (D (128 * count.toNat)) (512 * count.toNat) isRead count.toNat count.toNat
          (128 * count.toNat) s' := by
  have hread : ∀ {Data bound k i}, ReadStable Port.answer
      (Carrying Data bound isRead count.toNat k i) := readStable_of_event carrying_event
  refine Sure.bind (Sure.polling (polling_waitLinesFree polls) hs resting_event
    (readStable_of_event resting_event)) fun _ s hs => ?_
  refine Sure.bind (sure_setUpTransfer hs) fun _ s hs => ?_
  refine Sure.step hs resting_event fun s hs _ d _ hans => ?_
  refine Sure.bind (Sure.polling (polling_waitStatus _ polls) (hs.sent hacc _ hans) carrying_event
    hread) fun ⟨normalStatus, errorStatus⟩ s hs => ?_
  dsimp only
  split
  · refine Sure.step hs carrying_event fun s hs _ d _ hans => ?_
    have hs' := hread (.write .errorInterruptStatus errorStatus) s () d (Or.inr rfl) hs hans
    refine Sure.bind (Sure.polling (polling_resetLine _ _ polls) hs' carrying_event hread)
      fun _ s _ => ?_
    exact Sure.ret fun hsuc => absurd hsuc (commandError_ne_success errorStatus)
  · refine Sure.step hs carrying_event fun s hs _ d _ hans => ?_
    obtain rfl : d = _ := hans
    refine Sure.bind (Sure.polling (polling_readResponse rt out) (hs.ack (by decide))
      carrying_event hread) fun out s hs => ?_
    exact Sure.bind (sure_dataPhase hacc hs) fun status s hs => Sure.ret hs

theorem sure_sendDataCommand {cmd : U8} {arg : U32} {rt : SDResponseType} {count : U16}
    {out : Option U32} {polls : ℕ} (hacc : Account Data D isRead count.toNat)
    (hs : Resting Data (fun _ _ => True) s) :
    Sure PortEvent Port.answer (sendDataCommand cmd arg rt count isRead out polls) s
      fun result s' => result.1 = .success →
        Carrying (D (128 * count.toNat)) (512 * count.toNat) isRead count.toNat count.toNat
          (128 * count.toNat) s' := by
  refine Sure.bind (sure_dataCommand hacc hs) fun ⟨status, out⟩ s hs => ?_
  refine Sure.step hs (carrying_event.imp _) fun s h _ d _ hans => ?_
  obtain rfl : d = s.dev := hans
  exact Sure.ret h

/-! ### Writing and reading back -/

theorem account_write (b : ℕ → U8) (n : ℕ) :
    Account (fun buf _ => buf = b) (Written b) false n where
  start := fun _ _ h => ⟨h, rfl⟩
  word := fun k i s _ hs => sure_writeWord k i s hs

theorem account_read (b : ℕ → U8) (n : ℕ) :
    Account (fun _ store => store = (List.range (128 * n)).map (wordAt b))
      (fun i => Filled b n (4 * i)) true n where
  start := fun _ _ h => ⟨h, fun _ hj => absurd hj (by omega)⟩
  word := fun k i s hi hs => sure_readWord k i s hi hs

/-- No Buffer Ready is latched, and none is to come. -/
def Port.Idle (p : Port) : Prop := p.due = 0 ∧ p.normal &&& readyBits = 0

/-- `n` blocks have been moved: 128 words after each of `n` Buffer Ready events, and
no byte used past them. -/
structure Port.Moved (p : Port) (n : ℕ) : Prop where
  words : p.words = 128 * n
  raised : p.raised = n
  acked : p.acked = ((List.range n).map (128 * ·)).reverse
  touched : ∀ j ∈ p.touched, j < 512 * n

/-- At the end every event has been raised and acknowledged. -/
theorem Carrying.moved (h : Carrying Data (512 * n) isRead n n (128 * n) s) :
    s.dev.Moved n ∧ s.dev.Idle := by
  have hm := h.moving
  have hbal := hm.balance
  have hseen := hm.seen
  have hclear : s.dev.normal &&& readyBit isRead = 0 := by
    by_contra hne
    have := hm.latched hne
    omega
  refine ⟨⟨hm.words, by omega, hm.acked, h.touched⟩, by omega, ?_⟩
  have hsplit : readyBits = readyBit isRead ||| readyBit (!isRead) := by
    cases isRead <;> decide
  rw [hsplit, BitVec.and_or_distrib_left, hclear, hm.other]
  rfl

/-- **What is written is what is read back.** -/
theorem read_back {count : U16} {cmd cmd' : U8} {arg arg' : U32} {rt rt' : SDResponseType}
    {out out' : Option U32} {polls polls' : ℕ} {s s₁ s₂ : Sd Port} {r r' : Option U32}
    (dest : ℕ → U8) (hidle : s.dev.Idle)
    (hwrite : Returns (sdAct port) (sendDataCommand cmd arg rt count false out polls) s
      (.success, r) s₁)
    (hread : Returns (sdAct port) (sendDataCommand cmd' arg' rt' count true out' polls')
      { s₁ with buf := dest } (.success, r') s₂) :
    (∀ j < 512 * count.toNat, s₂.buf j = s.buf j) ∧
      s₁.dev.Moved count.toNat ∧ s₂.dev.Moved count.toNat := by
  have h₁ := (sure_sendDataCommand (account_write s.buf count.toNat)
    ⟨hidle.1, hidle.2, rfl, trivial⟩).of_returns hwrite rfl
  obtain ⟨hmoved₁, hidle₁⟩ := h₁.moved
  have h₂ := (sure_sendDataCommand (s := { s₁ with buf := dest })
    (account_read s.buf count.toNat) ⟨hidle₁.1, hidle₁.2, h₁.data.2, trivial⟩).of_returns hread rfl
  exact ⟨fun j hj => h₂.data.2 j (by omega), hmoved₁, h₂.moved.1⟩

/-! ### Three blocks, there and back -/

/-- Buffer Ready is raised as soon as none is latched; every other event has happened. -/
def Port.proceed (p : Port) : Port :=
  let p := { p with normal := p.normal ||| 3#16 }
  if 0 < p.due ∧ p.normal &&& readyBits = 0 then
    { p with due := p.due - 1, raised := p.raised + 1, normal := p.normal ||| readyBit p.isRead }
  else p

/-- A controller that gets on with the transfer whenever its status is read. -/
def Port.serve : (e : SdAction) → Port → Option (e.Answer × Port)
  | .read .normalInterruptStatus, p => some (p.proceed.normal, p.proceed)
  | .read .errorInterruptStatus, p => some (p.error, p)
  | .read .bufferData0, p => some (p.store.getD p.words 0, { p with words := p.words + 1 })
  | .write .bufferData0 v, p => some ((), { p with store := p.store ++ [v], words := p.words + 1 })
  | .write .normalInterruptStatus v, p => some ((),
    { p with
      normal := p.normal &&& ~~~v
      acked := if v &&& readyBits = 0 then p.acked else p.words :: p.acked })
  | .write .errorInterruptStatus v, p => some ((), { p with error := p.error &&& ~~~v })
  | .write .blockCount v, p => some ((), { p with blocks := v.toNat })
  | .write .transferMode v, p => some ((), { p with readMode := v.getLsbD 4 })
  | .write .command _, p => some ((),
    { p with
      store := if p.readMode then p.store else []
      words := 0
      due := p.blocks
      raised := 0
      acked := []
      touched := []
      isRead := p.readMode })
  | .loadByte i, p => some (0, { p with touched := i :: p.touched })
  | .storeByte i _, p => some ((), { p with touched := i :: p.touched })
  | e, p => e.zero.map fun r => (r, p)

theorem Port.proceed_events (p : Port) : ReflTransGen PortEvent p p.proceed := by
  have hother : PortEvent p { p with normal := p.normal ||| 3#16 } := .other 3#16 (by decide)
  rw [proceed]
  dsimp only
  split
  · rename_i h
    exact (ReflTransGen.single hother).tail (.ready h.1)
  · exact .single hother

theorem Port.serve_port (e : SdAction) (s : Sd Port) (r : e.Answer) (d : Port)
    (h : Port.serve e s.dev = some (r, d)) : port e s.dev (s.own e r) d := by
  have hnow : ∀ {e : SdAction} {r : e.Answer} {d : Port}, Port.answer e s.dev r d →
      port e s.dev r d := fun h => ⟨s.dev, .refl, h⟩
  cases e with
  | read reg =>
    cases reg with
    | normalInterruptStatus =>
      obtain ⟨rfl, rfl⟩ := Prod.mk.inj (Option.some_inj.mp h)
      exact ⟨s.dev.proceed, s.dev.proceed_events, rfl, rfl⟩
    | errorInterruptStatus =>
      obtain ⟨rfl, rfl⟩ := Prod.mk.inj (Option.some_inj.mp h)
      exact hnow ⟨rfl, rfl⟩
    | bufferData0 =>
      obtain ⟨rfl, rfl⟩ := Prod.mk.inj (Option.some_inj.mp h)
      refine hnow ⟨fun w hw => ?_, rfl⟩
      show s.dev.store.getD s.dev.words 0 = w
      rw [List.getD_eq_getElem?_getD, hw]
      rfl
    | _ =>
      obtain ⟨rfl, rfl⟩ := Prod.mk.inj (Option.some_inj.mp h)
      exact hnow rfl
  | write reg v =>
    cases reg <;>
    · obtain ⟨rfl, rfl⟩ := Prod.mk.inj (Option.some_inj.mp h)
      exact hnow rfl
  | stuck => exact nomatch r
  | _ =>
    obtain ⟨rfl, rfl⟩ := Prod.mk.inj (Option.some_inj.mp h)
    exact hnow rfl

/-- A driver with a buffer of counting bytes, before an idle controller. -/
def countingDriver : Sd Port :=
  { var := fun _ => 0
    buf := fun i => BitVec.ofNat 8 i
    dev :=
      { store := []
        words := 0
        due := 0
        raised := 0
        acked := []
        touched := []
        blocks := 0
        readMode := false
        isRead := false
        normal := 0
        error := 0 } }

/-- Blocks 7, 8 and 9 are written, and then read into an empty buffer. -/
theorem read_back_blocks : ∃ r r' s₁ s₂,
    Returns (sdAct port) (sendDataCommand SDCommand.cmd25.index 7#32 .r1 3#16 false none 2)
      countingDriver (.success, r) s₁ ∧
    Returns (sdAct port) (sendDataCommand SDCommand.cmd18.index 7#32 .r1 3#16 true none 2)
      { s₁ with buf := fun _ => 0 } (.success, r') s₂ ∧
    (∀ j < 512 * 3, s₂.buf j = BitVec.ofNat 8 j) ∧ s₁.dev.Moved 3 ∧ s₂.dev.Moved 3 := by
  have hplay : ((run (Sd.play Port.serve)
      (sendDataCommand SDCommand.cmd25.index 7#32 .r1 3#16 false none 2)
      countingDriver).any fun w =>
        decide (w.1.1 = .success) && (run (Sd.play Port.serve)
          (sendDataCommand SDCommand.cmd18.index 7#32 .r1 3#16 true none 2)
          { w.2 with buf := fun _ => 0 }).any fun w => decide (w.1.1 = .success)) = true := by
    decide +kernel
  obtain ⟨⟨⟨status, r⟩, s₁⟩, hrun, hrest⟩ := (Option.any_eq_true _ _).mp hplay
  rw [Bool.and_eq_true] at hrest
  obtain ⟨hstatus, hrest⟩ := hrest
  obtain ⟨⟨⟨status', r'⟩, s₂⟩, hrun', hstatus'⟩ := (Option.any_eq_true _ _).mp hrest
  obtain rfl : status = .success := of_decide_eq_true hstatus
  obtain rfl : status' = .success := of_decide_eq_true hstatus'
  have hsound := Sd.sdAct_of_play Port.serve_port
  have hwrite := Returns.of_run hsound hrun
  have hread := Returns.of_run hsound hrun'
  exact ⟨r, r', s₁, s₂, hwrite, hread, read_back _ ⟨rfl, rfl⟩ hwrite hread⟩

end GamingConsole
