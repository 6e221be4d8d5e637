/-
The rings of the xHCI driver (`xhciring.cpp`).

The driver and the controller pass TRBs through rings in shared memory.  On a transfer or a
command ring the driver writes (`EnqueueTRB`) and the controller reads, on the event ring the
controller writes and the driver reads (`HandleEvents`); a TRB is new to a reader by its cycle
bit.  A last TRB links back to the first, where the driver writes.

* `CXHCIRing` — the class;
* `Controller` — the other side, as the cycle bits and the link ask for it;
* `RingReach`, `EventReach` — any order of steps of the two sides;
* `ring_fifo_iff`, `events_fifo` — TRBs are taken in order, and none twice.

Here an assertion that fails ends the call with `none`.  The TRBs are at `m_pFirstTRB`, which is
not 0, since `IsValid` is asked before a ring is used; the stores to a TRB are one step.
-/
import GamingConsole.Xhci
import GamingConsole.Sd
import GamingConsole.Library.CycleRing

namespace GamingConsole

open CycleRing

/-! ### The class -/

/-- `TXHCIRingType`. -/
inductive TXHCIRingType where
  | transfer | event | command | unknown
  deriving DecidableEq

/-- `TXHCITRB`. -/
structure TXHCITRB where
  parameter1 : U32
  parameter2 : U32
  status : U32
  control : U32
  deriving DecidableEq

/-- `XHCI_TRB_CONTROL_C`. -/
def xhciTrbControlC : U32 := 1#32

/-- `XHCI_LINK_TRB_CONTROL_TC`. -/
def xhciLinkTrbControlTC : U32 := 2#32

/-- `XHCI_TRB_TYPE_LINK`. -/
def xhciTrbTypeLink : U32 := 6#32

/-- The TRB type in `Control`. -/
def TXHCITRB.type (trb : TXHCITRB) : U32 := (trb.control &&& (0x3F#32 <<< 10)) >>> 10

/-! ### Events -/

/-- `XHCI_TRB_TYPE_EVENT_TRANSFER`. -/
def xhciTrbTypeEventTransfer : U32 := 32#32

/-- `XHCI_TRB_TYPE_EVENT_CMD_COMPLETION`. -/
def xhciTrbTypeEventCmdCompletion : U32 := 33#32

/-- `XHCI_TRB_TYPE_EVENT_PORT_STATUS_CHANGE`. -/
def xhciTrbTypeEventPortStatusChange : U32 := 34#32

/-- `XHCI_TRB_TYPE_EVENT_HOST_CONTROLLER`. -/
def xhciTrbTypeEventHostController : U32 := 37#32

/-- `XHCI_TRB_COMPLETION_CODE_SUCCESS`. -/
def xhciTrbCompletionCodeSuccess : U8 := 1#8

/-- `XHCI_TRB_COMPLETION_CODE_EVENT_RING_FULL_ERROR`. -/
def xhciTrbCompletionCodeEventRingFullError : U8 := 21#8

/-- `pEventTRB->Status >> XHCI_EVENT_TRB_STATUS_COMPLETION_CODE__SHIFT`. -/
def TXHCITRB.completionCode (trb : TXHCITRB) : U8 := (trb.status >>> 24).setWidth 8

/-- A call of the other managers, or of the logger (`LogPanic`, which only prints). -/
inductive EventCall where
  | transferEvent (uchCompletionCode : U8) (nTransferLength : U32) (uchSlotID uchEndpointID : U8)
  | commandCompleted (pCommandTRB : U64) (uchCompletionCode uchSlotID : U8)
  | statusChanged (uchPortID : U8)
  | write (pMessage : String) (nArg : Option U32)

/-- The switch over the type of an event, with the calls it makes. -/
def TXHCITRB.eventCalls (trb : TXHCITRB) : Option (List EventCall) :=
  if trb.type = xhciTrbTypeEventTransfer then
    some [.transferEvent trb.completionCode (trb.status &&& 0xFFFFFF#32)
      ((trb.control >>> 24).setWidth 8)
      (((trb.control &&& (0x1F#32 <<< 16)) >>> 16).setWidth 8)]
  else if trb.type = xhciTrbTypeEventCmdCompletion then
    some [.commandCompleted (xhciFromDma (trb.parameter2 ++ trb.parameter1)) trb.completionCode
      ((trb.control >>> 24).setWidth 8)]
  else if trb.type = xhciTrbTypeEventPortStatusChange then
    if trb.completionCode = xhciTrbCompletionCodeSuccess then
      some [.statusChanged ((trb.parameter1 >>> 24).setWidth 8)]
    else none
  else if trb.type = xhciTrbTypeEventHostController then
    let full := if trb.completionCode = xhciTrbCompletionCodeEventRingFullError then
        [EventCall.write "Event ring full" none]
      else []
    some (full ++ [.write "HC event (completion %u)" (some (trb.completionCode.setWidth 32))])
  else some [.write "Unhandled TRB (type %u)" (some trb.type)]

/-- A port status change event with another completion code than success. -/
def TXHCITRB.PortFault (trb : TXHCITRB) : Prop :=
  trb.type = xhciTrbTypeEventPortStatusChange ∧ trb.completionCode ≠ xhciTrbCompletionCodeSuccess

/-- **The assertion of the switch fails for those events only.** -/
theorem TXHCITRB.eventCalls_eq_none_iff (trb : TXHCITRB) :
    trb.eventCalls = none ↔ trb.PortFault := by
  unfold TXHCITRB.eventCalls TXHCITRB.PortFault
  by_cases hport : trb.type = xhciTrbTypeEventPortStatusChange
  · rw [hport, if_neg (by decide), if_neg (by decide), if_pos rfl]
    by_cases hcode : trb.completionCode = xhciTrbCompletionCodeSuccess
    · rw [if_pos hcode]
      exact iff_of_false nofun fun h => h.2 hcode
    · rw [if_neg hcode]
      exact iff_of_true rfl ⟨rfl, hcode⟩
  · rw [if_neg hport]
    split_ifs <;> exact iff_of_false nofun fun h => hport h.1

/-! ### Rings -/

structure CXHCIRing where
  type : TXHCIRingType
  nTRBCount : ℕ
  /-- The TRBs at `m_pFirstTRB`. -/
  trbs : ℕ → TXHCITRB
  enqueueIndex : ℕ
  dequeueIndex : ℕ
  cycleState : U32

namespace CXHCIRing

def linkControl : U32 := xhciTrbTypeLink <<< 10 ||| xhciLinkTrbControlTC

/-- The Link TRB to `m_pFirstTRB`. -/
def linkTRB (first : U64) : TXHCITRB where
  parameter1 := (xhciToDma first).setWidth 32
  parameter2 := (xhciToDma first >>> 32).setWidth 32
  status := 0#32
  control := linkControl

/-- The constructor, with the TRBs at `first`; `AllocateSharedMem` clears them. -/
def new (type : TXHCIRingType) (nTRBCount : ℕ) (first : U64) : Option CXHCIRing :=
  if 16 ≤ nTRBCount ∧ nTRBCount % 4 = 0 then
    let trbs : ℕ → TXHCITRB := fun _ => ⟨0#32, 0#32, 0#32, 0#32⟩
    some {
      type, nTRBCount
      trbs := if type ≠ .event then Function.update trbs (nTRBCount - 1) (linkTRB first) else trbs
      enqueueIndex := 0
      dequeueIndex := 0
      cycleState := xhciTrbControlC }
  else none

/-- `GetDequeueTRB`: the index of the TRB, or `none` if the ring is empty. -/
def getDequeueTRB (r : CXHCIRing) : Option (Option ℕ) :=
  if r.dequeueIndex < r.nTRBCount then
    if (r.trbs r.dequeueIndex).control &&& xhciTrbControlC ≠ r.cycleState then some none
    else some (some r.dequeueIndex)
  else none

/-- `GetEnqueueTRB`: the index of the TRB, or `none` if the ring is full. -/
def getEnqueueTRB (r : CXHCIRing) : Option (Option ℕ) :=
  if r.enqueueIndex < r.nTRBCount then
    if (r.trbs r.enqueueIndex).control &&& xhciTrbControlC = r.cycleState then some none
    else some (some r.enqueueIndex)
  else none

/-- `IncrementDequeue`, with the index of the TRB that it returns. -/
def incrementDequeue (r : CXHCIRing) : Option (ℕ × CXHCIRing) :=
  if r.type = .event ∧ r.dequeueIndex < r.nTRBCount ∧
      (r.trbs r.dequeueIndex).control &&& xhciTrbControlC = r.cycleState then
    if r.dequeueIndex + 1 = r.nTRBCount then
      some (0, { r with dequeueIndex := 0, cycleState := r.cycleState ^^^ xhciTrbControlC })
    else some (r.dequeueIndex + 1, { r with dequeueIndex := r.dequeueIndex + 1 })
  else none

/-- `IncrementEnqueue`. -/
def incrementEnqueue (r : CXHCIRing) : Option CXHCIRing :=
  if r.type ≠ .event ∧ r.enqueueIndex < r.nTRBCount ∧
      (r.trbs r.enqueueIndex).control &&& xhciTrbControlC = r.cycleState then
    if r.enqueueIndex + 1 = r.nTRBCount - 1 then
      let link := r.trbs (r.enqueueIndex + 1)
      let link := { link with control := link.control ^^^ xhciTrbControlC }
      some {
        r with
        trbs := Function.update r.trbs (r.enqueueIndex + 1) link
        cycleState :=
          if link.control &&& xhciLinkTrbControlTC ≠ 0#32 then r.cycleState ^^^ xhciTrbControlC
          else r.cycleState
        enqueueIndex := 0 }
    else some { r with enqueueIndex := r.enqueueIndex + 1 }
  else none

/-- `CXHCIEndpoint::EnqueueTRB`. -/
def enqueueTRB (r : CXHCIRing) (nControl nStatus nParameter1 nParameter2 : U32) :
    Option (Bool × CXHCIRing) :=
  match r.getEnqueueTRB with
  | none => none
  | some none => some (false, r)
  | some (some i) =>
    let trb : TXHCITRB := {
      parameter1 := nParameter1
      parameter2 := nParameter2
      -- XHCI_INTERRUPTER_TARGET_DEFAULT
      status := nStatus ||| 0#32 <<< 22
      control := nControl ||| r.cycleState }
    match incrementEnqueue { r with trbs := Function.update r.trbs i trb } with
    | none => none
    | some r => some (true, r)

/-- `CXHCIEventManager::HandleEvents`: the event, what it calls for it, and the index of the next
TRB. -/
def handleEvents (r : CXHCIRing) : Option (Option (TXHCITRB × List EventCall × ℕ) × CXHCIRing) :=
  match r.getDequeueTRB with
  | none => none
  | some none => some (none, r)
  | some (some i) =>
    match (r.trbs i).eventCalls with
    | none => none
    | some calls =>
      match r.incrementDequeue with
      | none => none
      | some (next, r') => some (some (r.trbs i, calls, next), r')

end CXHCIRing

/-! ### The other side -/

/-- Where the controller reads next, and with which cycle bit. -/
structure Controller where
  index : ℕ
  cycle : U32

/-- What the controller finds. -/
inductive Fetched where
  | idle
  | linked
  | took (trb : TXHCITRB)

def Fetched.toList : Fetched → List TXHCITRB
  | .took trb => [trb]
  | _ => []

/-- A TRB whose cycle bit is not the controller's is not there yet; a Link TRB is followed. -/
def Controller.fetch (k : Controller) (trbs : ℕ → TXHCITRB) : Fetched × Controller :=
  let trb := trbs k.index
  if trb.control &&& xhciTrbControlC ≠ k.cycle then (.idle, k)
  else if trb.type = xhciTrbTypeLink then
    (.linked, ⟨0, if trb.control &&& xhciLinkTrbControlTC ≠ 0#32 then k.cycle ^^^ xhciTrbControlC
      else k.cycle⟩)
  else (.took trb, { k with index := k.index + 1 })

/-! ### Cycle bits -/

/-- The TRB without its cycle bit. -/
def TXHCITRB.plain (trb : TXHCITRB) : TXHCITRB :=
  { trb with control := trb.control &&& ~~~xhciTrbControlC }

def TXHCITRB.cycle (trb : TXHCITRB) : Bool := trb.control.getLsbD 0

/-- The cycle state for a bit. -/
def cycleBit (b : Bool) : U32 := if b then xhciTrbControlC else 0#32

/-- The TRBs, and their cycle bits. -/
def ringCells (trbs : ℕ → TXHCITRB) : ℕ → TXHCITRB × Bool :=
  fun i => ((trbs i).plain, (trbs i).cycle)

theorem and_controlC (x : U32) : x &&& xhciTrbControlC = cycleBit (x.getLsbD 0) := by
  refine BitVec.eq_of_getLsbD_eq fun i hi => ?_
  rw [BitVec.getLsbD_and]
  by_cases h0 : i = 0
  · subst h0
    cases h : x.getLsbD 0 <;> simp [cycleBit, xhciTrbControlC]
  · have hone : (1#32).getLsbD i = false := by simp [BitVec.getLsbD_one, h0]
    cases x.getLsbD 0 <;> simp [cycleBit, xhciTrbControlC, hone]

theorem cycleBit_inj {a b : Bool} : cycleBit a = cycleBit b ↔ a = b := by
  cases a <;> cases b <;> decide

theorem cycleBit_xor (b : Bool) : cycleBit b ^^^ xhciTrbControlC = cycleBit !b := by
  cases b <;> decide

/-- A TRB is new if its bit is the one of the lap. -/
theorem TXHCITRB.and_eq_iff (trb : TXHCITRB) (b : Bool) :
    trb.control &&& xhciTrbControlC = cycleBit b ↔ trb.cycle = b := by
  rw [and_controlC, cycleBit_inj, TXHCITRB.cycle]

/-- What is written over a TRB. -/
theorem ringCells_update (trbs : ℕ → TXHCITRB) (i : ℕ) (trb : TXHCITRB) :
    ringCells (Function.update trbs i trb) =
      Function.update (ringCells trbs) i (trb.plain, trb.cycle) := by
  funext j
  by_cases hj : j = i
  · subst hj
    rw [Function.update_self, ringCells, Function.update_self]
  · rw [Function.update_of_ne hj, ringCells, Function.update_of_ne hj, ringCells]

def TXHCITRB.isLink (trb : TXHCITRB) : Bool := decide (trb.type = xhciTrbTypeLink)

theorem TXHCITRB.plain_type (trb : TXHCITRB) : trb.plain.type = trb.type := by
  show ((trb.control &&& ~~~xhciTrbControlC) &&& 0x3F#32 <<< 10) >>> 10 = _
  rw [BitVec.and_assoc]
  rfl

theorem TXHCITRB.plain_portFault {trb : TXHCITRB} : trb.plain.PortFault ↔ trb.PortFault := by
  unfold TXHCITRB.PortFault
  rw [TXHCITRB.plain_type]
  rfl

theorem linkTRB_plain (first : U64) : (CXHCIRing.linkTRB first).plain = CXHCIRing.linkTRB first :=
  congrArg (TXHCITRB.mk _ _ _)
    (by decide : CXHCIRing.linkControl &&& ~~~xhciTrbControlC = CXHCIRing.linkControl)

theorem linkTRB_cycle (first : U64) : (CXHCIRing.linkTRB first).cycle = false :=
  (by decide : CXHCIRing.linkControl.getLsbD 0 = false)

theorem linkTRB_isLink (first : U64) : (CXHCIRing.linkTRB first).isLink = true :=
  decide_eq_true (by decide : (CXHCIRing.linkControl &&& 0x3F#32 <<< 10) >>> 10 = xhciTrbTypeLink)

/-- A link to the first TRB changes the cycle state. -/
theorem TXHCITRB.toggles {trb : TXHCITRB} {first : U64}
    (h : trb.plain = CXHCIRing.linkTRB first) : trb.control &&& xhciLinkTrbControlTC ≠ 0#32 := by
  have hc : trb.control &&& ~~~xhciTrbControlC = CXHCIRing.linkControl :=
    congrArg TXHCITRB.control h
  have hand : trb.control &&& xhciLinkTrbControlTC =
      trb.control &&& ~~~xhciTrbControlC &&& xhciLinkTrbControlTC := by
    rw [BitVec.and_assoc]
    rfl
  rw [hand, hc]
  decide

theorem getLsbD_controlC (i : ℕ) : xhciTrbControlC.getLsbD i = decide (i = 0) := by
  simp [xhciTrbControlC, BitVec.getLsbD_one]

/-- The cycle bit is toggled. -/
theorem TXHCITRB.toggle (trb : TXHCITRB) :
    ({ trb with control := trb.control ^^^ xhciTrbControlC } : TXHCITRB).plain = trb.plain ∧
      ({ trb with control := trb.control ^^^ xhciTrbControlC } : TXHCITRB).cycle = !trb.cycle := by
  refine ⟨congrArg (TXHCITRB.mk _ _ _) (BitVec.eq_of_getLsbD_eq fun i hi => ?_), ?_⟩
  · rw [BitVec.getLsbD_and, BitVec.getLsbD_and, BitVec.getLsbD_xor, BitVec.getLsbD_not,
      getLsbD_controlC]
    by_cases h0 : i = 0 <;> simp [h0]
  · show (trb.control ^^^ xhciTrbControlC).getLsbD 0 = !trb.control.getLsbD 0
    rw [BitVec.getLsbD_xor, getLsbD_controlC]
    exact Bool.xor_true _

/-- A cycle bit is put into a control word that has none. -/
theorem or_cycleBit {x : U32} (hx : x &&& xhciTrbControlC = 0#32) (b : Bool) :
    (x ||| cycleBit b) &&& ~~~xhciTrbControlC = x ∧ (x ||| cycleBit b).getLsbD 0 = b := by
  have h0 : x.getLsbD 0 = false := by
    rw [and_controlC] at hx
    cases h : x.getLsbD 0
    · rfl
    · rw [h] at hx
      exact absurd hx (by decide)
  have hbit : ∀ i < 32, (cycleBit b).getLsbD i = (b && decide (i = 0)) := by
    intro i hi
    cases b
    · exact BitVec.getLsbD_zero
    · exact getLsbD_controlC i
  refine ⟨BitVec.eq_of_getLsbD_eq fun i hi => ?_, ?_⟩
  · rw [BitVec.getLsbD_and, BitVec.getLsbD_or, BitVec.getLsbD_not, getLsbD_controlC, hbit i hi]
    by_cases hi0 : i = 0
    · rw [hi0, h0]
      cases b <;> rfl
    · simp [hi0, hi]
  · rw [BitVec.getLsbD_or, hbit 0 (by decide), h0]
    cases b <;> rfl

/-! ### A ring that the driver writes -/

/-- The entries `entries` were written, with a link at the end of each lap. -/
structure CXHCIRing.Written (r : CXHCIRing) (first : U64) (entries : List TXHCITRB) : Prop where
  type : r.type ≠ .event
  count : 16 ≤ r.nTRBCount
  holds : Holds r.nTRBCount (ringCells r.trbs) entries
  link : (r.trbs (r.nTRBCount - 1)).plain = CXHCIRing.linkTRB first
  links : ∀ p e, entries[p]? = some e → (e.isLink = true ↔ p % r.nTRBCount = r.nTRBCount - 1)
  linked : ∀ e ∈ entries, e.isLink = true → e = CXHCIRing.linkTRB first
  inside : r.enqueueIndex + 1 < r.nTRBCount
  state : r.cycleState = cycleBit (cycleAt r.nTRBCount entries.length)

/-- The driver is at the next cell. -/
structure CXHCIRing.Laid (r : CXHCIRing) (first : U64) (entries : List TXHCITRB) : Prop
    extends CXHCIRing.Written r first entries where
  index : r.enqueueIndex = entries.length % r.nTRBCount

/-- The driver is still at the cell it has written. -/
structure CXHCIRing.Put (r : CXHCIRing) (first : U64) (entries : List TXHCITRB) : Prop
    extends CXHCIRing.Written r first entries where
  next : entries.length % r.nTRBCount = r.enqueueIndex + 1
  mine : (r.trbs r.enqueueIndex).cycle = cycleAt r.nTRBCount entries.length

/-- The entries but the links. -/
def dataOf (entries : List TXHCITRB) : List TXHCITRB := entries.filter fun e => !e.isLink

variable {r r' : CXHCIRing} {first : U64} {entries : List TXHCITRB} {e : TXHCITRB}

theorem dataOf_append (l m : List TXHCITRB) : dataOf (l ++ m) = dataOf l ++ dataOf m :=
  List.filter_append ..

theorem dataOf_cons (he : e.isLink = false) : dataOf (e :: entries) = e :: dataOf entries :=
  List.filter_cons_of_pos (by rw [he]; rfl)

theorem dataOf_cons_link (he : e.isLink = true) : dataOf (e :: entries) = dataOf entries :=
  List.filter_cons_of_neg (by rw [he]; decide)

theorem CXHCIRing.laid_new {type : TXHCIRingType} {n : ℕ} (htype : type ≠ .event)
    (hnew : CXHCIRing.new type n first = some r) : r.Laid first [] ∧ r.nTRBCount = n := by
  unfold CXHCIRing.new at hnew
  split_ifs at hnew with hn
  obtain rfl := Option.some.inj hnew
  refine ⟨⟨⟨htype, hn.1, Holds.nil (by show 0 < n; omega) fun i hi => ?_, ?_, by simp, by simp,
    show 0 + 1 < n by omega, ?_⟩, (Nat.zero_mod n).symm⟩, rfl⟩
  · change i < n at hi
    show (Function.update (_ : ℕ → TXHCITRB) (n - 1) _ i).cycle = false
    by_cases hlast : i = n - 1
    · rw [hlast, Function.update_self, linkTRB_cycle]
    · rw [Function.update_of_ne hlast]
      rfl
  · show (Function.update (_ : ℕ → TXHCITRB) (n - 1) _ (n - 1)).plain = _
    rw [Function.update_self, linkTRB_plain]
  · show xhciTrbControlC = cycleBit (cycleAt n 0)
    rw [cycleAt_of_lt (by omega)]
    rfl

/-- **The driver never finds a ring full.** -/
theorem CXHCIRing.Laid.getEnqueueTRB (h : r.Laid first entries) :
    r.getEnqueueTRB = some (some r.enqueueIndex) := by
  have hroom := h.holds.room
  rw [← h.index] at hroom
  have hin := h.inside
  unfold CXHCIRing.getEnqueueTRB
  rw [if_pos (by omega), if_neg]
  rw [h.state, TXHCITRB.and_eq_iff]
  exact hroom

/-- What `EnqueueTRB` has written. -/
def requested (nControl nStatus nParameter1 nParameter2 : U32) : TXHCITRB :=
  ⟨nParameter1, nParameter2, nStatus, nControl⟩

/-- A further entry, where links were put at the ends of the laps before. -/
theorem CXHCIRing.Written.extend (h : r.Written first entries)
    (he : e.isLink = true ↔ entries.length % r.nTRBCount = r.nTRBCount - 1)
    (heq : e.isLink = true → e = CXHCIRing.linkTRB first) :
    (∀ p e', (entries ++ [e])[p]? = some e' →
      (e'.isLink = true ↔ p % r.nTRBCount = r.nTRBCount - 1)) ∧
    ∀ e' ∈ entries ++ [e], e'.isLink = true → e' = CXHCIRing.linkTRB first := by
  refine ⟨fun p e' hget => ?_, fun e' hmem hlink => ?_⟩
  · rcases getElem?_concat_cases hget with hget | ⟨rfl, rfl⟩
    · exact h.links p e' hget
    · exact he
  · rcases List.mem_append.mp hmem with hmem | hmem
    · exact h.linked e' hmem hlink
    · rw [List.mem_singleton.mp hmem] at hlink ⊢
      exact heq hlink

/-- A TRB is written to the next cell. -/
theorem CXHCIRing.Laid.put (h : r.Laid first entries) {trb : TXHCITRB} (htrb : trb.plain = e)
    (hcycle : trb.cycle = cycleAt r.nTRBCount entries.length) (he : e.isLink = false) :
    CXHCIRing.Put { r with trbs := Function.update r.trbs r.enqueueIndex trb } first
      (entries ++ [e]) := by
  have hpos := h.holds.pos
  have hin := h.inside
  have hplace : entries.length % r.nTRBCount ≠ r.nTRBCount - 1 := by
    rw [← h.index]
    omega
  have hlen : (entries ++ [e]).length = entries.length + 1 := List.length_append
  have hstate : cycleAt r.nTRBCount (entries ++ [e]).length =
      cycleAt r.nTRBCount entries.length := by
    rw [hlen, cycleAt_succ hpos, if_neg hplace]
  have hcells := ringCells_update r.trbs r.enqueueIndex trb
  rw [htrb, hcycle] at hcells
  have hholds := h.holds.write e
  rw [← h.index, ← hcells] at hholds
  obtain ⟨hlinks, hlinked⟩ := h.extend (e := e)
    (iff_of_false (by rw [he]; exact Bool.false_ne_true) hplace)
    fun hlink => absurd (he.symm.trans hlink) Bool.false_ne_true
  refine ⟨⟨h.type, h.count, hholds, ?_, hlinks, hlinked, hin, ?_⟩, ?_, ?_⟩
  · show TXHCITRB.plain (Function.update r.trbs r.enqueueIndex trb (r.nTRBCount - 1)) = _
    rw [Function.update_of_ne (by omega)]
    exact h.link
  · show r.cycleState = cycleBit (cycleAt r.nTRBCount _)
    rw [hstate, h.state]
  · show (entries ++ [e]).length % r.nTRBCount = r.enqueueIndex + 1
    rw [hlen, succ_mod hpos, if_neg hplace, h.index]
  · show TXHCITRB.cycle (Function.update r.trbs r.enqueueIndex trb r.enqueueIndex) = cycleAt _ _
    rw [Function.update_self, hcycle, hstate]

/-- In the middle of a lap, the driver goes on to the next cell. -/
theorem CXHCIRing.Put.advance (h : r.Put first entries)
    (hwrap : r.enqueueIndex + 1 ≠ r.nTRBCount - 1) :
    CXHCIRing.Laid { r with enqueueIndex := r.enqueueIndex + 1 } first entries := by
  have hin := h.inside
  refine ⟨⟨h.type, h.count, h.holds, h.link, h.links, h.linked, ?_, h.state⟩, h.next.symm⟩
  show r.enqueueIndex + 1 + 1 < r.nTRBCount
  omega

/-- In front of the link, the link gets its bit, and the next lap begins. -/
theorem CXHCIRing.Put.wrap (h : r.Put first entries)
    (hwrap : r.enqueueIndex + 1 = r.nTRBCount - 1) {link : TXHCITRB}
    (hplain : link.plain = CXHCIRing.linkTRB first)
    (hcycle : link.cycle = !(r.trbs (r.enqueueIndex + 1)).cycle) :
    CXHCIRing.Laid { r with
      trbs := Function.update r.trbs (r.enqueueIndex + 1) link
      cycleState := r.cycleState ^^^ xhciTrbControlC
      enqueueIndex := 0 } first (entries ++ [CXHCIRing.linkTRB first]) := by
  have hpos := h.holds.pos
  have hcount := h.count
  have hbit := h.holds.bit _ le_rfl (Nat.lt_add_of_pos_right hpos)
  rw [h.next] at hbit
  change TXHCITRB.cycle _ = _ at hbit
  rw [hbit, Bool.not_not] at hcycle
  have hcells := ringCells_update r.trbs (r.enqueueIndex + 1) link
  rw [hplain, hcycle] at hcells
  have hholds := h.holds.write (CXHCIRing.linkTRB first)
  rw [h.next, ← hcells] at hholds
  have hlast : entries.length % r.nTRBCount = r.nTRBCount - 1 := h.next.trans hwrap
  have hlen : (entries ++ [CXHCIRing.linkTRB first]).length = entries.length + 1 :=
    List.length_append
  obtain ⟨hlinks, hlinked⟩ := h.extend (e := CXHCIRing.linkTRB first)
    (iff_of_true (linkTRB_isLink first) hlast) fun _ => rfl
  refine ⟨⟨h.type, h.count, hholds, ?_, hlinks, hlinked, ?_, ?_⟩, ?_⟩
  · show (Function.update r.trbs (r.enqueueIndex + 1) _ (r.nTRBCount - 1)).plain = _
    rw [← hwrap, Function.update_self]
    exact hplain
  · show 0 + 1 < r.nTRBCount
    omega
  · show r.cycleState ^^^ _ = cycleBit (cycleAt r.nTRBCount _)
    rw [hlen, cycleAt_succ hpos, if_pos hlast, h.state, cycleBit_xor]
  · show 0 = (entries ++ [_]).length % r.nTRBCount
    rw [hlen, succ_mod hpos, if_pos hlast]

/-- `IncrementEnqueue` after a TRB was written. -/
theorem CXHCIRing.Put.incrementEnqueue (h : r.Put first entries) :
    ∃ r' rest, r.incrementEnqueue = some r' ∧ r'.Laid first (entries ++ rest) ∧
      dataOf rest = [] ∧ r'.nTRBCount = r.nTRBCount := by
  have hin := h.inside
  have hmine : (r.trbs r.enqueueIndex).control &&& xhciTrbControlC = r.cycleState := by
    rw [h.state, TXHCITRB.and_eq_iff, h.mine]
  unfold CXHCIRing.incrementEnqueue
  rw [if_pos ⟨h.type, by omega, hmine⟩]
  simp only
  by_cases hwrap : r.enqueueIndex + 1 = r.nTRBCount - 1
  · obtain ⟨hplain, hcycle⟩ := (r.trbs (r.enqueueIndex + 1)).toggle
    rw [hwrap, h.link, ← hwrap] at hplain
    rw [if_pos hwrap, if_pos (show ((r.trbs (r.enqueueIndex + 1)).control ^^^ xhciTrbControlC) &&&
      _ ≠ 0#32 from TXHCITRB.toggles hplain)]
    exact ⟨_, _, rfl, h.wrap hwrap hplain hcycle, dataOf_cons_link (linkTRB_isLink first), rfl⟩
  · rw [if_neg hwrap]
    refine ⟨_, [], rfl, ?_, rfl, rfl⟩
    rw [List.append_nil]
    exact h.advance hwrap

/-- **`EnqueueTRB` adds a TRB**, and the link behind the last of a lap. -/
theorem CXHCIRing.Laid.enqueue (h : r.Laid first entries) {nControl : U32}
    (hplain : nControl &&& xhciTrbControlC = 0#32) (nStatus nParameter1 nParameter2 : U32)
    (htype : (requested nControl nStatus nParameter1 nParameter2).isLink = false) :
    ∃ r' rest, r.enqueueTRB nControl nStatus nParameter1 nParameter2 = some (true, r') ∧
      r'.Laid first (entries ++ requested nControl nStatus nParameter1 nParameter2 :: rest) ∧
      dataOf rest = [] ∧ r'.nTRBCount = r.nTRBCount := by
  obtain ⟨hand, hlsb⟩ := or_cycleBit hplain (cycleAt r.nTRBCount entries.length)
  rw [← h.state] at hand hlsb
  have hstatus : nStatus ||| 0#32 <<< 22 = nStatus := by simp
  have hreq : (⟨nParameter1, nParameter2, nStatus, nControl ||| r.cycleState⟩ : TXHCITRB).plain =
      requested nControl nStatus nParameter1 nParameter2 := congrArg (TXHCITRB.mk _ _ _) hand
  obtain ⟨r', rest, hrun, hlaid, hrest, hcount⟩ := (h.put hreq hlsb htype).incrementEnqueue
  refine ⟨r', rest, ?_, ?_, hrest, hcount⟩
  · unfold CXHCIRing.enqueueTRB
    rw [h.getEnqueueTRB]
    simp only
    rw [hstatus, hrun]
  · rw [List.append_cons]
    exact hlaid

/-! ### What the controller finds -/

variable {k : Controller} {c : ℕ}

/-- The controller is at entry `c` of a ring of `n`. -/
structure Controller.At (k : Controller) (n c : ℕ) : Prop where
  index : k.index = c % n
  cycle : k.cycle = cycleBit (cycleAt n c)

/-- The controller finds the next entry, if there is one. -/
theorem CXHCIRing.Laid.fetch (h : r.Laid first entries) (hk : k.At r.nTRBCount c)
    (hc : c ≤ entries.length) (hlap : entries.length ≤ c + r.nTRBCount) :
    c = entries.length ∧ k.fetch r.trbs = (.idle, k) ∨
      ∃ e found k', entries[c]? = some e ∧ k.fetch r.trbs = (found, k') ∧
        k'.At r.nTRBCount (c + 1) ∧ found.toList.map TXHCITRB.plain = dataOf [e] ∧
        ∀ k, (found, k') ≠ (.idle, k) := by
  obtain ⟨hbit, hentry⟩ := h.holds.read hc hlap
  change TXHCITRB.cycle _ = _ ↔ _ at hbit
  change _ → _ = some (TXHCITRB.plain _) at hentry
  rw [← hk.index] at hbit hentry
  have hpos := h.holds.pos
  unfold Controller.fetch
  simp only
  rw [hk.cycle]
  by_cases hlt : c < entries.length
  · right
    rw [if_neg (not_not.mpr ((TXHCITRB.and_eq_iff _ _).mpr (hbit.mpr hlt)))]
    have hget := hentry hlt
    have hlink := h.links c _ hget
    have htype : (r.trbs k.index).plain.isLink =
        decide ((r.trbs k.index).type = xhciTrbTypeLink) := by
      rw [TXHCITRB.isLink, TXHCITRB.plain_type]
    -- at the link the controller goes back to the first TRB, and its cycle bit turns
    by_cases hl : (r.trbs k.index).type = xhciTrbTypeLink
    · have hmark : (r.trbs k.index).plain.isLink = true := by rw [htype, decide_eq_true hl]
      have hlast := hlink.mp hmark
      have hplain := h.linked _ (List.mem_of_getElem? hget) hmark
      rw [if_pos hl, if_pos (TXHCITRB.toggles hplain), cycleBit_xor]
      refine ⟨_, _, _, hget, rfl, ⟨?_, ?_⟩, ?_, nofun⟩
      · rw [succ_mod hpos, if_pos hlast]
      · rw [cycleAt_succ hpos, if_pos hlast]
      · rw [dataOf_cons_link hmark]
        rfl
    · have hmark : (r.trbs k.index).plain.isLink = false := by rw [htype, decide_eq_false hl]
      have hlast : ¬ c % r.nTRBCount = r.nTRBCount - 1 := by
        rw [← hlink, hmark]
        exact Bool.false_ne_true
      rw [if_neg hl]
      refine ⟨_, _, _, hget, rfl, ⟨?_, ?_⟩, ?_, nofun⟩
      · rw [succ_mod hpos, if_neg hlast, hk.index]
      · rw [cycleAt_succ hpos, if_neg hlast]
      · rw [dataOf_cons hmark]
        rfl
  · left
    rw [if_pos (fun heq => hlt (hbit.mp ((TXHCITRB.and_eq_iff _ _).mp heq)))]
    exact ⟨by omega, rfl⟩

/-- More than a lap behind, the controller finds nothing. -/
theorem CXHCIRing.Laid.stall (h : r.Laid first entries) (hk : k.At r.nTRBCount c)
    (hover : c + r.nTRBCount < entries.length)
    (hlap : entries.length ≤ c + r.nTRBCount + r.nTRBCount) : k.fetch r.trbs = (.idle, k) := by
  have hne := h.holds.overrun hover hlap
  rw [← hk.index] at hne
  unfold Controller.fetch
  simp only
  rw [hk.cycle, if_pos fun heq => hne ((TXHCITRB.and_eq_iff _ _).mp heq)]

/-! ### Any order of steps -/

/-- A ring, its controller, what was put on the ring and what was taken from it. -/
structure RingSys where
  ring : CXHCIRing
  controller : Controller
  sent : List TXHCITRB
  taken : List TXHCITRB

/-- The driver puts TRBs on a ring of `n`, up to `lag` more than were taken. -/
inductive RingReach (n : ℕ) (first : U64) (lag : ℕ) : RingSys → Prop
  | start {type : TXHCIRingType} (htype : type ≠ .event) {r : CXHCIRing}
      (hnew : CXHCIRing.new type n first = some r) :
      RingReach n first lag ⟨r, ⟨0, xhciTrbControlC⟩, [], []⟩
  | enqueue {s : RingSys} (h : RingReach n first lag s) {nControl : U32}
      (hplain : nControl &&& xhciTrbControlC = 0#32) (nStatus nParameter1 nParameter2 : U32)
      (htype : (requested nControl nStatus nParameter1 nParameter2).isLink = false)
      (hlag : s.sent.length < s.taken.length + lag) {ok : Bool} {r : CXHCIRing}
      (hrun : s.ring.enqueueTRB nControl nStatus nParameter1 nParameter2 = some (ok, r)) :
      RingReach n first lag { s with
        ring := r
        sent := if ok then s.sent ++ [requested nControl nStatus nParameter1 nParameter2]
          else s.sent }
  | fetch {s : RingSys} (h : RingReach n first lag s) :
      RingReach n first lag { s with
        controller := (s.controller.fetch s.ring.trbs).2
        taken := s.taken ++ (s.controller.fetch s.ring.trbs).1.toList.map TXHCITRB.plain }

/-- The entries `entries` are what was sent. -/
structure RingSys.Sent (s : RingSys) (n : ℕ) (first : U64) (entries : List TXHCITRB) : Prop where
  laid : s.ring.Laid first entries
  count : s.ring.nTRBCount = n
  sent : dataOf entries = s.sent

variable {s : RingSys} {n lag : ℕ}

theorem RingSys.Sent.enqueue (h : s.Sent n first entries) {nControl : U32}
    (hplain : nControl &&& xhciTrbControlC = 0#32) (nStatus nParameter1 nParameter2 : U32)
    (htype : (requested nControl nStatus nParameter1 nParameter2).isLink = false) :
    ∃ r entries', s.ring.enqueueTRB nControl nStatus nParameter1 nParameter2 = some (true, r) ∧
      entries <+: entries' ∧ RingSys.Sent { s with
        ring := r
        sent := s.sent ++ [requested nControl nStatus nParameter1 nParameter2] }
        n first entries' := by
  obtain ⟨r, rest, hrun, hlaid, hrest, hcount⟩ :=
    h.laid.enqueue hplain nStatus nParameter1 nParameter2 htype
  refine ⟨r, _, hrun, List.prefix_append .., hlaid, hcount.trans h.count, ?_⟩
  rw [dataOf_append, dataOf_cons htype, h.sent, hrest]

theorem RingReach.sent (h : RingReach n first lag s) : ∃ entries, s.Sent n first entries := by
  induction h with
  | start htype hnew =>
    obtain ⟨hlaid, hcount⟩ := CXHCIRing.laid_new htype hnew
    exact ⟨[], hlaid, hcount, rfl⟩
  | enqueue _ hplain nStatus nParameter1 nParameter2 htype _ hrun ih =>
    obtain ⟨entries, hs⟩ := ih
    obtain ⟨r, entries', hrun', -, hs'⟩ := hs.enqueue hplain nStatus nParameter1 nParameter2 htype
    obtain ⟨rfl, rfl⟩ := Prod.mk.inj (Option.some.inj (hrun'.symm.trans hrun))
    exact ⟨entries', hs'⟩
  | fetch _ ih =>
    obtain ⟨entries, hs⟩ := ih
    exact ⟨entries, hs.laid, hs.count, hs.sent⟩

theorem CXHCIRing.exists_new (hn : 16 ≤ n) (h4 : n % 4 = 0) (type : TXHCIRingType) (first : U64) :
    ∃ r, CXHCIRing.new type n first = some r := ⟨_, if_pos ⟨hn, h4⟩⟩

/-- TRBs are sent, and none is taken. -/
theorem RingReach.ahead (h : RingReach n first lag s) {m : ℕ}
    (hm : s.sent.length + m ≤ s.taken.length + lag) : ∃ s', RingReach n first lag s' ∧
      s'.sent.length = s.sent.length + m ∧ s'.taken = s.taken ∧ s'.controller = s.controller := by
  induction m with
  | zero => exact ⟨s, h, rfl, rfl, rfl⟩
  | succ m ih =>
    obtain ⟨s', h', hsent, htaken, hcontroller⟩ := ih (by omega)
    obtain ⟨entries, hs'⟩ := h'.sent
    -- of type `XHCI_TRB_TYPE_NORMAL`
    obtain ⟨r, -, hrun, -, -⟩ := hs'.enqueue (show 1#32 <<< 10 &&& xhciTrbControlC = 0#32 by decide)
      0#32 0#32 0#32 (by decide)
    refine ⟨_, h'.enqueue (by decide) 0#32 0#32 0#32 (by decide) ?_ hrun, ?_, htaken, hcontroller⟩
    · rw [hsent, htaken]
      omega
    · rw [if_pos rfl, List.length_append, hsent]
      rfl

/-- **`EnqueueTRB` never refuses**, however far the controller is behind. -/
theorem enqueueTRB_never_full (h : RingReach n first lag s) {nControl : U32}
    (hplain : nControl &&& xhciTrbControlC = 0#32) (nStatus nParameter1 nParameter2 : U32)
    (htype : (requested nControl nStatus nParameter1 nParameter2).isLink = false) :
    ∃ r, s.ring.enqueueTRB nControl nStatus nParameter1 nParameter2 = some (true, r) := by
  obtain ⟨entries, hs⟩ := h.sent
  obtain ⟨r, -, hrun, -⟩ := hs.enqueue hplain nStatus nParameter1 nParameter2 htype
  exact ⟨r, hrun⟩

/-- The driver is in the second lap. -/
theorem enqueueTRB_never_full_second_lap : ∃ s r, RingReach 64 0x40000000#64 100 s ∧
    s.sent.length = 70 ∧ s.ring.enqueueTRB (23#32 <<< 10) 0#32 0#32 0#32 = some (true, r) := by
  obtain ⟨r, hnew⟩ := CXHCIRing.exists_new (n := 64) (by decide) (by decide) .command 0x40000000#64
  have hstart : RingReach 64 0x40000000#64 100 _ := .start (by decide) hnew
  obtain ⟨s, hs, hsent, -⟩ := hstart.ahead (m := 70) (by show 0 + 70 ≤ 0 + 100; omega)
  obtain ⟨r', hrun⟩ := enqueueTRB_never_full hs
    (show 23#32 <<< 10 &&& xhciTrbControlC = 0#32 by decide) 0#32 0#32 0#32 (by decide)
  exact ⟨s, r', hs, hsent, hrun⟩

/-! ### TRBs are taken in order -/

/-- The controller has been through `c` entries, and has taken the TRBs among them. -/
structure RingSys.Inv (s : RingSys) (n : ℕ) (first : U64) (entries : List TXHCITRB) (c : ℕ) : Prop
    extends RingSys.Sent s n first entries where
  inside : c ≤ entries.length
  controller : s.controller.At n c
  taken : dataOf (entries.take c) = s.taken

theorem RingSys.Sent.length_sent (h : s.Sent n first entries) :
    s.sent.length + entries.length / n = entries.length := by
  rw [← h.sent, ← h.count]
  exact length_unmarked h.laid.holds.pos h.laid.links

theorem RingSys.Inv.length_taken (h : s.Inv n first entries c) : s.taken.length + c / n = c := by
  have hlen : (entries.take c).length = c := List.length_take_of_le h.inside
  have hlinks : ∀ p e, (entries.take c)[p]? = some e →
      (e.isLink = true ↔ p % s.ring.nTRBCount = s.ring.nTRBCount - 1) := by
    intro p e he
    have hp := (List.getElem?_eq_some_iff.mp he).1
    rw [hlen] at hp
    rw [List.getElem?_take_of_lt hp] at he
    exact h.laid.links p e he
  have hcount := length_unmarked h.laid.holds.pos hlinks
  rw [hlen, h.count] at hcount
  rw [← h.taken]
  exact hcount

theorem RingSys.Inv.start {type : TXHCIRingType} (htype : type ≠ .event)
    (hnew : CXHCIRing.new type n first = some r) :
    RingSys.Inv ⟨r, ⟨0, xhciTrbControlC⟩, [], []⟩ n first [] 0 := by
  obtain ⟨hlaid, hcount⟩ := CXHCIRing.laid_new htype hnew
  have hcount' := hlaid.count
  refine ⟨⟨hlaid, hcount, rfl⟩, le_rfl, ⟨(Nat.zero_mod n).symm, ?_⟩, rfl⟩
  rw [cycleAt_of_lt (by omega)]
  rfl

theorem RingSys.Inv.enqueue (h : s.Inv n first entries c) {nControl : U32}
    (hplain : nControl &&& xhciTrbControlC = 0#32) (nStatus nParameter1 nParameter2 : U32)
    (htype : (requested nControl nStatus nParameter1 nParameter2).isLink = false) :
    ∃ r entries', s.ring.enqueueTRB nControl nStatus nParameter1 nParameter2 = some (true, r) ∧
      entries.length < entries'.length ∧ RingSys.Inv { s with
        ring := r
        sent := s.sent ++ [requested nControl nStatus nParameter1 nParameter2] }
        n first entries' c := by
  obtain ⟨r, entries', hrun, ⟨t, rfl⟩, hs⟩ :=
    h.toSent.enqueue hplain nStatus nParameter1 nParameter2 htype
  have hlen := h.length_sent
  have hlen' := hs.length_sent
  rw [List.length_append, List.length_singleton] at hlen'
  have hinside := h.inside
  refine ⟨r, _, hrun, ?_, hs, ?_, h.controller, ?_⟩
  · -- otherwise nothing was put behind the entries
    rw [List.length_append] at hlen' ⊢
    by_contra hle
    rw [show t.length = 0 by omega] at hlen'
    simp only [Nat.add_zero] at hlen'
    omega
  · rw [List.length_append]
    omega
  · rw [List.take_append_of_le_length h.inside]
    exact h.taken

/-- The next entry is found, or there is none. -/
theorem RingSys.Inv.fetch (h : s.Inv n first entries c) (hlap : entries.length ≤ c + n) :
    c = entries.length ∧ s.controller.fetch s.ring.trbs = (.idle, s.controller) ∨
      c < entries.length ∧ (∀ k, s.controller.fetch s.ring.trbs ≠ (.idle, k)) ∧
      RingSys.Inv { s with
        controller := (s.controller.fetch s.ring.trbs).2
        taken := s.taken ++ (s.controller.fetch s.ring.trbs).1.toList.map TXHCITRB.plain }
        n first entries (c + 1) := by
  have hcontroller := h.controller
  rw [← h.count] at hcontroller hlap
  rcases h.laid.fetch hcontroller h.inside hlap with
    hidle | ⟨e, found, k', hget, hrun, hat, hfound, hne⟩
  · exact Or.inl hidle
  · have hlt := (List.getElem?_eq_some_iff.mp hget).1
    rw [h.count] at hat
    rw [hrun]
    refine Or.inr ⟨hlt, hne, ⟨h.laid, h.count, h.sent⟩, hlt, hat, ?_⟩
    rw [List.take_add_one, hget, dataOf_append, h.taken]
    exact congrArg (s.taken ++ ·) hfound.symm

theorem RingReach.inv (hlag : lag + 2 ≤ n) (h : RingReach n first lag s) :
    ∃ entries c, s.Inv n first entries c ∧ entries.length ≤ c + n ∧
      s.sent.length ≤ s.taken.length + lag := by
  induction h with
  | start htype hnew => exact ⟨[], 0, .start htype hnew, Nat.zero_le _, Nat.zero_le _⟩
  | enqueue _ hplain nStatus nParameter1 nParameter2 htype hroom hrun ih =>
    obtain ⟨entries, c, hs, -, -⟩ := ih
    obtain ⟨r, entries', hrun', -, hs'⟩ := hs.enqueue hplain nStatus nParameter1 nParameter2 htype
    obtain ⟨rfl, rfl⟩ := Prod.mk.inj (Option.some.inj (hrun'.symm.trans hrun))
    refine ⟨entries', c, hs', ?_, ?_⟩
    · refine lap_of_count (by omega) hs'.length_sent hs'.length_taken ?_
      rw [List.length_append, List.length_singleton]
      exact (show _ + 1 ≤ _ from hroom).trans (Nat.add_le_add_left (by omega) _)
    · rw [if_pos rfl, List.length_append, List.length_singleton]
      exact hroom
  | fetch _ ih =>
    obtain ⟨entries, c, hs, hlap, hlen⟩ := ih
    rcases hs.fetch hlap with ⟨-, hidle⟩ | ⟨-, -, hs'⟩
    · refine ⟨entries, c, ?_, hlap, ?_⟩
      · rw [hidle]
        exact ⟨⟨hs.laid, hs.count, hs.sent⟩, hs.inside, hs.controller,
          hs.taken.trans (List.append_nil _).symm⟩
      · rw [hidle]
        exact hlen.trans (Nat.add_le_add_right (List.length_append ▸ Nat.le_add_right ..) _)
    · refine ⟨entries, c + 1, hs', by omega, ?_⟩
      exact hlen.trans (Nat.add_le_add_right (List.length_append ▸ Nat.le_add_right ..) _)

/-- The controller takes what was sent in its order, and where it finds nothing it has taken all. -/
def RingSys.Fifo (s : RingSys) : Prop :=
  s.taken <+: s.sent ∧
    ∀ k, s.controller.fetch s.ring.trbs = (.idle, k) → s.taken = s.sent

theorem RingReach.fifo (hlag : lag + 2 ≤ n) (h : RingReach n first lag s) : s.Fifo := by
  obtain ⟨entries, c, hs, hlap, -⟩ := h.inv hlag
  refine ⟨?_, fun k hidle => ?_⟩
  · rw [← hs.taken, ← hs.sent]
    exact (List.take_prefix c entries).filter _
  · rcases hs.fetch hlap with ⟨hc, -⟩ | ⟨-, hne, -⟩
    · rw [← hs.taken, ← hs.sent, hc, List.take_length]
    · exact absurd hidle (hne k)

/-! ### A controller that is left behind -/

/-- A TRB of type `XHCI_TRB_TYPE_NORMAL`. -/
theorem RingSys.Inv.normal (h : s.Inv n first entries c) :
    ∃ r entries', s.ring.enqueueTRB (1#32 <<< 10) 0#32 0#32 0#32 = some (true, r) ∧
      entries.length < entries'.length ∧ RingSys.Inv { s with
        ring := r
        sent := s.sent ++ [requested (1#32 <<< 10) 0#32 0#32 0#32] } n first entries' c :=
  h.enqueue (by decide) 0#32 0#32 0#32 (by decide)

theorem RingReach.normal (h : RingReach n first lag s) (hlag : s.sent.length < s.taken.length + lag)
    (hrun : s.ring.enqueueTRB (1#32 <<< 10) 0#32 0#32 0#32 = some (true, r)) :
    RingReach n first lag { s with
      ring := r
      sent := s.sent ++ [requested (1#32 <<< 10) 0#32 0#32 0#32] } :=
  h.enqueue (by decide) 0#32 0#32 0#32 (by decide) hlag hrun

/-- Each TRB is taken before the next is sent, as far as the link. -/
theorem RingReach.lockstep (hn : 16 ≤ n) (h4 : n % 4 = 0) (first : U64) (hlag : 0 < lag) {j : ℕ}
    (hj : j < n) : ∃ s entries, RingReach n first lag s ∧ s.Inv n first entries j ∧
      s.sent.length = j := by
  induction j with
  | zero =>
    obtain ⟨r, hnew⟩ := CXHCIRing.exists_new hn h4 .transfer first
    exact ⟨_, [], .start (by decide) hnew, .start (by decide) hnew, rfl⟩
  | succ j ih =>
    obtain ⟨s, entries, hreach, hs, hsent⟩ := ih (by omega)
    have htaken := hs.length_taken
    rw [Nat.div_eq_of_lt (by omega : j < n), Nat.add_zero] at htaken
    obtain ⟨r, entries', hrun, -, hs'⟩ := hs.normal
    have hcount := hs'.length_sent
    rw [List.length_append, List.length_singleton, hsent] at hcount
    have hreach' := hreach.normal (by omega) hrun
    have hlap : entries'.length ≤ j + n :=
      lap_of_count (by omega) hcount hs'.length_taken (by
        show j + 1 ≤ s.taken.length + (n - 2)
        omega)
    rcases hs'.fetch hlap with ⟨hc, -⟩ | ⟨-, -, hs''⟩
    · have := Nat.zero_le (entries'.length / n)
      omega
    · refine ⟨_, entries', hreach'.fetch, hs'', ?_⟩
      rw [List.length_append, List.length_singleton, hsent]

/-- **A ring of `n` holds `n - 2` TRBs that were not taken**: with one more, the driver overtakes a
controller that waits at the link, and what was sent is not found any more. -/
theorem ring_fifo_iff (hn : 16 ≤ n) (h4 : n % 4 = 0) (first : U64) (lag : ℕ) :
    (∀ s, RingReach n first lag s → s.Fifo) ↔ lag + 2 ≤ n := by
  refine ⟨fun hfifo => ?_, fun hlag s h => h.fifo hlag⟩
  by_contra hlag
  obtain ⟨s, entries, h, hs, hsent⟩ :=
    RingReach.lockstep hn h4 first (show 0 < lag by omega) (show n - 1 < n by omega)
  have htaken := hs.length_taken
  rw [Nat.div_eq_of_lt (by omega : n - 1 < n), Nat.add_zero] at htaken
  obtain ⟨s', h', hsent', htaken', hcontroller'⟩ := h.ahead (m := n - 1) (by omega)
  obtain ⟨entries', hs'⟩ := h'.sent
  have hcount := hs'.length_sent
  rw [hsent', hsent] at hcount
  -- the driver is in the third lap
  have hplace : entries'.length % n ≠ n - 1 := by
    have hin := hs'.laid.inside
    rw [hs'.laid.index, hs'.count] at hin
    omega
  have hlow : n - 1 + n < entries'.length := by
    by_contra hle
    have := Nat.zero_le (entries'.length / n)
    have hdiv : entries'.length / n = 1 := Nat.div_eq_of_lt_le (by omega) (by omega)
    have hmod := Nat.mod_add_div entries'.length n
    rw [hdiv] at hmod hcount
    omega
  have hhigh : entries'.length ≤ n - 1 + n + n := by
    by_contra hgt
    have h1 := add_div_le (show 0 < n by omega) (3 * n) (entries'.length - 3 * n)
    rw [Nat.add_sub_cancel' (by omega), Nat.mul_div_cancel _ (by omega)] at h1
    omega
  have hat : s'.controller.At n (n - 1) := hcontroller' ▸ hs.controller
  have hidle := hs'.laid.stall (by rw [hs'.count]; exact hat)
    (by rw [hs'.count]; exact hlow) (by rw [hs'.count]; exact hhigh)
  have hall := congrArg List.length ((hfifo s' h').2 _ hidle)
  rw [htaken', hsent'] at hall
  omega

/-- The ring of an endpoint. -/
theorem ring_fifo_iff_endpoint :
    (∀ s, RingReach 64 0x40000000#64 62 s → s.Fifo) ↔ 62 + 2 ≤ 64 :=
  ring_fifo_iff (by decide) (by decide) 0x40000000#64 62

/-! ### The event ring -/

/-- The event ring, what the controller has put on it and what the driver has handled. -/
structure EventSys where
  ring : CXHCIRing
  posted : List TXHCITRB
  handled : List TXHCITRB

/-- The controller does not overtake the driver, whose place it knows from `ERDP`. -/
inductive EventReach (n : ℕ) : EventSys → Prop
  | start {first : U64} {r : CXHCIRing} (hnew : CXHCIRing.new .event n first = some r) :
      EventReach n ⟨r, [], []⟩
  | post {s : EventSys} (h : EventReach n s) {trb : TXHCITRB}
      (hcycle : trb.cycle = cycleAt n s.posted.length)
      (hroom : s.posted.length < s.handled.length + n) :
      EventReach n { s with
        ring := { s.ring with trbs := Function.update s.ring.trbs (s.posted.length % n) trb }
        posted := s.posted ++ [trb.plain] }
  | handle {s : EventSys} (h : EventReach n s) {event : Option (TXHCITRB × List EventCall × ℕ)}
      {r : CXHCIRing} (hrun : s.ring.handleEvents = some (event, r)) :
      EventReach n { s with
        ring := r
        handled := s.handled ++ event.toList.map fun e => e.1.plain }

/-- The events that were handled are the first of those that were posted. -/
structure EventSys.Inv (s : EventSys) (n : ℕ) : Prop where
  type : s.ring.type = .event
  count : s.ring.nTRBCount = n
  holds : Holds n (ringCells s.ring.trbs) s.posted
  inside : s.handled.length ≤ s.posted.length
  lap : s.posted.length ≤ s.handled.length + n
  index : s.ring.dequeueIndex = s.handled.length % n
  state : s.ring.cycleState = cycleBit (cycleAt n s.handled.length)
  handled : s.posted.take s.handled.length = s.handled

variable {t : EventSys}

/-- `GetDequeueTRB` finds the next event, if there is one. -/
theorem EventSys.Inv.getDequeueTRB (h : t.Inv n) :
    t.handled.length = t.posted.length ∧ t.ring.getDequeueTRB = some none ∨
      t.ring.getDequeueTRB = some (some t.ring.dequeueIndex) ∧
        (t.ring.trbs t.ring.dequeueIndex).control &&& xhciTrbControlC = t.ring.cycleState ∧
        t.posted[t.handled.length]? = some (t.ring.trbs t.ring.dequeueIndex).plain := by
  obtain ⟨hbit, hentry⟩ := h.holds.read h.inside h.lap
  change TXHCITRB.cycle _ = _ ↔ _ at hbit
  change _ → _ = some (TXHCITRB.plain _) at hentry
  rw [← h.index] at hbit hentry
  have hin : t.ring.dequeueIndex < t.ring.nTRBCount := by
    rw [h.index, h.count]
    exact Nat.mod_lt _ h.holds.pos
  have hinside := h.inside
  unfold CXHCIRing.getDequeueTRB
  rw [if_pos hin]
  by_cases hlt : t.handled.length < t.posted.length
  · have hnew : (t.ring.trbs t.ring.dequeueIndex).control &&& xhciTrbControlC =
        t.ring.cycleState := by
      rw [h.state, TXHCITRB.and_eq_iff]
      exact hbit.mpr hlt
    rw [if_neg (not_not.mpr hnew)]
    exact Or.inr ⟨rfl, hnew, hentry hlt⟩
  · have hold : (t.ring.trbs t.ring.dequeueIndex).control &&& xhciTrbControlC ≠
        t.ring.cycleState := by
      rw [h.state]
      exact fun heq => hlt (hbit.mp ((TXHCITRB.and_eq_iff _ _).mp heq))
    rw [if_pos hold]
    exact Or.inl ⟨by omega, rfl⟩

/-- One more event was handled, and the ring stands behind it. -/
theorem EventSys.Inv.next (h : t.Inv n) {event : TXHCITRB}
    (hget : t.posted[t.handled.length]? = some event) {r : CXHCIRing} (htype : r.type = .event)
    (hcount : r.nTRBCount = n) (htrbs : r.trbs = t.ring.trbs)
    (hindex : r.dequeueIndex = (t.handled.length + 1) % n)
    (hstate : r.cycleState = cycleBit (cycleAt n (t.handled.length + 1))) :
    EventSys.Inv { t with ring := r, handled := t.handled ++ [event] } n := by
  have hlt := (List.getElem?_eq_some_iff.mp hget).1
  have hlap := h.lap
  have hlen : (t.handled ++ [event]).length = t.handled.length + 1 := List.length_append
  refine ⟨htype, hcount, htrbs ▸ h.holds, hlen ▸ hlt, ?_, hlen ▸ hindex, hlen ▸ hstate, ?_⟩
  · show t.posted.length ≤ (t.handled ++ [_]).length + n
    rw [hlen]
    omega
  · show t.posted.take (t.handled ++ [_]).length = t.handled ++ [_]
    rw [hlen, List.take_add_one, h.handled, hget]
    rfl

/-- `IncrementDequeue` goes on behind an event that was there. -/
theorem EventSys.Inv.incrementDequeue (h : t.Inv n)
    (hnew : (t.ring.trbs t.ring.dequeueIndex).control &&& xhciTrbControlC = t.ring.cycleState)
    {event : TXHCITRB} (hget : t.posted[t.handled.length]? = some event) :
    ∃ r, t.ring.incrementDequeue = some ((t.handled.length + 1) % n, r) ∧
      EventSys.Inv { t with ring := r, handled := t.handled ++ [event] } n := by
  have hpos := h.holds.pos
  have hin : t.ring.dequeueIndex < t.ring.nTRBCount := by
    rw [h.index, h.count]
    exact Nat.mod_lt _ hpos
  have hplace : t.ring.dequeueIndex + 1 = n ↔ t.handled.length % n = n - 1 := by
    rw [h.index]
    omega
  unfold CXHCIRing.incrementDequeue
  rw [if_pos ⟨h.type, hin, hnew⟩, h.count]
  by_cases hwrap : t.ring.dequeueIndex + 1 = n
  · have hlast := hplace.mp hwrap
    have hnext : (t.handled.length + 1) % n = 0 := by rw [succ_mod hpos, if_pos hlast]
    rw [if_pos hwrap, hnext]
    refine ⟨_, rfl, h.next hget h.type rfl rfl hnext.symm ?_⟩
    rw [cycleAt_succ hpos, if_pos hlast, h.state, cycleBit_xor]
  · have hlast := mt hplace.mpr hwrap
    have hnext : (t.handled.length + 1) % n = t.ring.dequeueIndex + 1 := by
      rw [succ_mod hpos, if_neg hlast, h.index]
    rw [if_neg hwrap, hnext]
    refine ⟨_, rfl, h.next hget h.type rfl rfl hnext.symm ?_⟩
    rw [cycleAt_succ hpos, if_neg hlast, h.state]

/-- `HandleEvents` makes the calls for the next event, if there is one, and goes on behind it. -/
theorem EventSys.Inv.handle (h : t.Inv n) :
    t.handled.length = t.posted.length ∧ t.ring.handleEvents = some (none, t.ring) ∨
      ∃ event : TXHCITRB, t.posted[t.handled.length]? = some event.plain ∧
        (event.eventCalls = none ∧ t.ring.handleEvents = none ∨
          ∃ calls r, event.eventCalls = some calls ∧
            t.ring.handleEvents = some (some (event, calls, (t.handled.length + 1) % n), r) ∧
            EventSys.Inv { t with ring := r, handled := t.handled ++ [event.plain] } n) := by
  unfold CXHCIRing.handleEvents
  rcases h.getDequeueTRB with ⟨hlen, hempty⟩ | ⟨hfound, hnew, hget⟩
  · rw [hempty]
    exact Or.inl ⟨hlen, rfl⟩
  · rw [hfound]
    obtain ⟨r, hrun, hinv⟩ := h.incrementDequeue hnew hget
    refine Or.inr ⟨t.ring.trbs t.ring.dequeueIndex, hget, ?_⟩
    cases hcalls : (t.ring.trbs t.ring.dequeueIndex).eventCalls with
    | none => exact Or.inl ⟨rfl, by simp only [hcalls]⟩
    | some calls => exact Or.inr ⟨calls, r, rfl, by simp only [hcalls, hrun], hinv⟩

theorem EventReach.inv (h : EventReach n t) : t.Inv n := by
  induction h with
  | start hnew =>
    unfold CXHCIRing.new at hnew
    split_ifs at hnew with hn
    · exact absurd rfl ‹_›
    · obtain rfl := Option.some.inj hnew
      refine ⟨rfl, rfl, Holds.nil (by omega) fun i _ => ?_, le_rfl, Nat.zero_le _,
        (Nat.zero_mod n).symm, ?_, rfl⟩
      · simp only [ringCells]
        rfl
      · show xhciTrbControlC = cycleBit (cycleAt n 0)
        rw [cycleAt_of_lt (by omega)]
        rfl
  | @post s _ trb hcycle hroom ih =>
    have hlen : (s.posted ++ [trb.plain]).length = s.posted.length + 1 := List.length_append
    have hinside := ih.inside
    refine ⟨ih.type, ih.count, ?_, ?_, ?_, ih.index, ih.state, ?_⟩
    · show Holds n (ringCells (Function.update _ _ trb)) _
      rw [ringCells_update, hcycle]
      exact ih.holds.write trb.plain
    · show s.handled.length ≤ (s.posted ++ [_]).length
      omega
    · show (s.posted ++ [_]).length ≤ s.handled.length + n
      omega
    · show (s.posted ++ [_]).take s.handled.length = _
      rw [List.take_append_of_le_length ih.inside]
      exact ih.handled
  | @handle s _ event r hrun ih =>
    rcases ih.handle with ⟨-, hnone⟩ | ⟨e, -, ⟨-, hfault⟩ | ⟨calls, r', -, hsome, hinv⟩⟩
    · obtain ⟨rfl, rfl⟩ := Prod.mk.inj (Option.some.inj (hnone.symm.trans hrun))
      show EventSys.Inv ⟨s.ring, s.posted, s.handled ++ []⟩ n
      rw [List.append_nil]
      exact ih
    · rw [hfault] at hrun
      exact absurd hrun nofun
    · obtain ⟨rfl, rfl⟩ := Prod.mk.inj (Option.some.inj (hsome.symm.trans hrun))
      exact hinv

/-- An event of port 1. -/
def portChange (cycle : Bool) : TXHCITRB where
  parameter1 := 1#32 <<< 24
  parameter2 := 0#32
  status := 1#32 <<< 24
  control := xhciTrbTypeEventPortStatusChange <<< 10 ||| cycleBit cycle

/-- The ring may be used for any number of laps. -/
theorem EventReach.served (hn : 16 ≤ n) (h4 : n % 4 = 0) (m : ℕ) :
    ∃ t, EventReach n t ∧ t.posted.length = m ∧ t.handled = t.posted := by
  induction m with
  | zero =>
    obtain ⟨r, hnew⟩ := CXHCIRing.exists_new hn h4 .event 0x40000000#64
    exact ⟨⟨r, [], []⟩, .start hnew, rfl, rfl⟩
  | succ m ih =>
    obtain ⟨t, ht, hlen, hall⟩ := ih
    have hplain : ∀ b, (portChange b).plain = portChange false ∧ (portChange b).cycle = b ∧
        (portChange b).eventCalls ≠ none := by
      intro b
      rw [Ne, TXHCITRB.eventCalls_eq_none_iff]
      refine ⟨?_, ?_, fun h => h.2 ?_⟩ <;> cases b <;> decide
    have hpost := ht.post (hplain (cycleAt n t.posted.length)).2.1 (by rw [hall]; omega)
    rw [(hplain _).1] at hpost
    rcases hpost.inv.handle with ⟨hdone, -⟩ | ⟨e, hget, hcase⟩
    · rw [hall, List.length_append, List.length_singleton] at hdone
      omega
    · have he : e.plain = portChange false := by
        rw [hall, List.getElem?_concat_length] at hget
        exact (Option.some.inj hget).symm
      rcases hcase with ⟨hfault, -⟩ | ⟨calls, r, -, hrun, -⟩
      · rw [TXHCITRB.eventCalls_eq_none_iff, ← TXHCITRB.plain_portFault, he,
          ← TXHCITRB.eventCalls_eq_none_iff] at hfault
        exact absurd hfault (hplain false).2.2
      · refine ⟨_, hpost.handle hrun, by rw [List.length_append, hlen]; rfl, ?_⟩
        show t.handled ++ [e.plain] = _
        rw [hall, he]

/-- **Every event is handled once, in the order of the controller**, with the calls for its type,
and `HandleEvents` finds none only where all were handled; its assertions fail only where the next
event is of a port status change without success. -/
theorem events_fifo (h : EventReach n t) : t.handled <+: t.posted ∧
    (t.ring.handleEvents = none ↔ ∃ e, t.posted[t.handled.length]? = some e ∧ e.PortFault) ∧
    ∀ event r, t.ring.handleEvents = some (event, r) →
      (event = none ↔ t.handled = t.posted) ∧
      ∀ e calls next, event = some (e, calls, next) →
        t.posted[t.handled.length]? = some e.plain ∧ e.eventCalls = some calls ∧
        next = (t.handled.length + 1) % n := by
  have hinv := h.inv
  have hpre : t.handled <+: t.posted := by
    rw [← hinv.handled]
    exact List.take_prefix ..
  refine ⟨hpre, ?_⟩
  rcases hinv.handle with ⟨hlen, hrun⟩ | ⟨e, hget, ⟨hcalls, hrun⟩ | ⟨calls, r, hcalls, hrun, -⟩⟩
  · rw [hrun]
    refine ⟨iff_of_false nofun ?_, ?_⟩
    · rintro ⟨e, hget, -⟩
      rw [hlen, List.getElem?_eq_none le_rfl] at hget
      exact absurd hget nofun
    · rintro event r heq
      obtain ⟨rfl, rfl⟩ := Prod.mk.inj (Option.some.inj heq)
      exact ⟨iff_of_true rfl (hpre.eq_of_length hlen), nofun⟩
  · rw [hrun]
    refine ⟨iff_of_true rfl ⟨e.plain, hget, ?_⟩, nofun⟩
    rw [TXHCITRB.plain_portFault]
    exact e.eventCalls_eq_none_iff.mp hcalls
  · rw [hrun]
    refine ⟨iff_of_false nofun ?_, ?_⟩
    · rintro ⟨e', hget', hfault⟩
      obtain rfl := Option.some.inj (hget.symm.trans hget')
      rw [TXHCITRB.plain_portFault, ← TXHCITRB.eventCalls_eq_none_iff, hcalls] at hfault
      exact absurd hfault nofun
    · rintro event r' heq
      obtain ⟨rfl, rfl⟩ := Prod.mk.inj (Option.some.inj heq)
      refine ⟨iff_of_false nofun fun hall => ?_, ?_⟩
      · rw [hall, List.getElem?_eq_none le_rfl] at hget
        exact absurd hget nofun
      · rintro e' calls' next heq
        obtain ⟨rfl, rfl, rfl⟩ := Option.some.inj heq
        exact ⟨hget, hcalls, rfl⟩

theorem events_fifo_second_lap : ∃ t, EventReach 256 t ∧ t.posted.length = 258 ∧
    t.handled.length = 257 ∧ t.handled <+: t.posted ∧
    (t.ring.handleEvents = none ↔ ∃ e, t.posted[t.handled.length]? = some e ∧ e.PortFault) ∧
    ∀ event r, t.ring.handleEvents = some (event, r) →
      (event = none ↔ t.handled = t.posted) ∧
      ∀ e calls next, event = some (e, calls, next) →
        t.posted[t.handled.length]? = some e.plain ∧ e.eventCalls = some calls ∧
        next = (t.handled.length + 1) % 256 := by
  obtain ⟨t, ht, hlen, hall⟩ := EventReach.served (n := 256) (by decide) (by decide) 257
  have hcycle : (portChange false).cycle = cycleAt 256 t.posted.length := by
    rw [hlen]
    decide
  have hpost := ht.post hcycle (by rw [hall]; omega)
  refine ⟨_, hpost, ?_, by rw [hall, hlen], events_fifo hpost⟩
  rw [List.length_append, hlen, List.length_singleton]

end GamingConsole
