/-
The USB keyboard: `CUSBKeyboardDevice::ReportHandler` and what it calls.

A report says which modifier keys are down in its first byte, one bit each, and which
other keys in its last six.  The handler sends what has changed since the last report to
`CKeyboardBehaviour`, modifiers and keys through the same two functions: modifier `i` is
key code `0x80 + i` there.  No boot report has such a code in a key slot from a keyboard
that keeps to the standard, and nothing checks that it does not.

* `modifiers_modifierLoop` — the first loop makes the modifiers those of the report;
* `modifiers_keyLoops` — what the codes in the key slots make of them;
* `shift_follows_iff` — the modifiers follow the reports where these codes agree with the
  first byte, and nowhere else.
-/
import GamingConsole.Sd
import Mathlib.Data.List.Induction

namespace GamingConsole

/-! ### `keymap.h` -/

/-- `TSpecialKey`. -/
def KeyNone : U16 := 0x00
def KeySpace : U16 := 0x100
def KeyEscape : U16 := 0x101
def KeyBackspace : U16 := 0x102
def KeyTabulator : U16 := 0x103
def KeyReturn : U16 := 0x104
def KeyInsert : U16 := 0x105
def KeyHome : U16 := 0x106
def KeyPageUp : U16 := 0x107
def KeyDelete : U16 := 0x108
def KeyEnd : U16 := 0x109
def KeyPageDown : U16 := 0x10A
def KeyUp : U16 := 0x10B
def KeyDown : U16 := 0x10C
def KeyLeft : U16 := 0x10D
def KeyRight : U16 := 0x10E

/-- `CKeyMap`: what a key means, without and with Shift. -/
structure CKeyMap where
  normTab : ℕ → U16
  shiftTab : ℕ → U16

namespace CKeyMap

/-- `Set`. -/
def set (nPhyCode : ℕ) (chNorm chShift : U16) (m : CKeyMap) : CKeyMap where
  normTab := Function.update m.normTab nPhyCode chNorm
  shiftTab := Function.update m.shiftTab nPhyCode chShift

/-- Entries of the tables: a key and its two meanings, which are the same for `SetBoth`. -/
def setAll (entries : List (ℕ × U16 × U16)) (m : CKeyMap) : CKeyMap :=
  entries.foldl (fun m x => m.set x.1 x.2.1 x.2.2) m

/-- The letters, `a` to `z`. -/
def letters : List (ℕ × U16 × U16) :=
  (List.range 26).map fun i => (0x04 + i, 0x61 + BitVec.ofNat 16 i, 0x41 + BitVec.ofNat 16 i)

/-- The digits, with `!@#$%^&*(` and `)`. -/
def digits : List (ℕ × U16 × U16) :=
  [(0x1E, 0x31, 0x21), (0x1F, 0x32, 0x40), (0x20, 0x33, 0x23), (0x21, 0x34, 0x24),
    (0x22, 0x35, 0x25), (0x23, 0x36, 0x5E), (0x24, 0x37, 0x26), (0x25, 0x38, 0x2A),
    (0x26, 0x39, 0x28), (0x27, 0x30, 0x29)]

/-- The other keys. -/
def others : List (ℕ × U16 × U16) :=
  [(0x28, KeyReturn, KeyReturn), (0x29, KeyEscape, KeyEscape), (0x2A, KeyBackspace, KeyBackspace),
    (0x2B, KeyTabulator, KeyTabulator), (0x2C, 0x20, 0x20),
    (0x2D, 0x2D, 0x5F), (0x2E, 0x3D, 0x2B), (0x2F, 0x5B, 0x7B), (0x30, 0x5D, 0x7D),
    (0x31, 0x5C, 0x7C), (0x33, 0x3B, 0x3A), (0x34, 0x27, 0x22), (0x35, 0x60, 0x7E),
    (0x36, 0x2C, 0x3C), (0x37, 0x2E, 0x3E), (0x38, 0x2F, 0x3F),
    (0x49, KeyInsert, KeyInsert), (0x4A, KeyHome, KeyHome), (0x4B, KeyPageUp, KeyPageUp),
    (0x4C, KeyDelete, KeyDelete), (0x4D, KeyEnd, KeyEnd), (0x4E, KeyPageDown, KeyPageDown),
    (0x4F, KeyRight, KeyRight), (0x50, KeyLeft, KeyLeft), (0x51, KeyDown, KeyDown),
    (0x52, KeyUp, KeyUp)]

/-- The constructor. -/
def new : CKeyMap := setAll (letters ++ digits ++ others) ⟨fun _ => KeyNone, fun _ => KeyNone⟩

/-- `KEY_LSHIFT_MASK | KEY_RSHIFT_MASK`. -/
def shiftMask : U8 := 1#8 <<< 1 ||| 1#8 <<< 5

/-- One of the Shift keys is down. -/
def shifted (nModifiers : U8) : Bool := decide (nModifiers &&& shiftMask ≠ 0)

/-- `Translate`. -/
def translate (m : CKeyMap) (nPhyCode nModifiers : U8) : U16 :=
  if nPhyCode > 127 then KeyNone
  else if shifted nModifiers then m.shiftTab nPhyCode.toNat else m.normTab nPhyCode.toNat

/-- An escape sequence of a terminal. -/
def escape (bytes : List U8) : List U8 := 0x1B :: bytes

/-- `GetString`; `none` for a null pointer. -/
def getString (nKeyCode : U16) : Option (List U8) :=
  if nKeyCode = KeyNone then none
  else if nKeyCode < KeySpace then some [nKeyCode.setWidth 8]
  else if nKeyCode = KeyReturn then some [0x0D]
  else if nKeyCode = KeyBackspace then some [0x08]
  else if nKeyCode = KeyTabulator then some [0x09]
  else if nKeyCode = KeyEscape then some (escape [])
  else if nKeyCode = KeyUp then some (escape [0x5B, 0x41])
  else if nKeyCode = KeyDown then some (escape [0x5B, 0x42])
  else if nKeyCode = KeyRight then some (escape [0x5B, 0x43])
  else if nKeyCode = KeyLeft then some (escape [0x5B, 0x44])
  else if nKeyCode = KeyHome then some (escape [0x5B, 0x48])
  else if nKeyCode = KeyEnd then some (escape [0x5B, 0x46])
  else if nKeyCode = KeyInsert then some (escape [0x5B, 0x32, 0x7E])
  else if nKeyCode = KeyDelete then some (escape [0x5B, 0x33, 0x7E])
  else if nKeyCode = KeyPageUp then some (escape [0x5B, 0x35, 0x7E])
  else if nKeyCode = KeyPageDown then some (escape [0x5B, 0x36, 0x7E])
  else none

end CKeyMap

/-! ### `keyboardbehaviour.h` -/

/-- `CKeyboardBehaviour`, with what the key-pressed handler has been given; `handler` says
whether there is one. -/
structure CKeyboardBehaviour where
  handler : Bool
  modifiers : U8
  lockStatus : U8
  delivered : List (List U8)

/-- From `ModifierKeyLeftCtrl` to `ModifierKeyRightWin`. -/
def isModifierKey (ucKeyCode : U8) : Bool := decide (0x80 ≤ ucKeyCode ∧ ucKeyCode ≤ 0x87)

namespace CKeyboardBehaviour

/-- `GenerateKeyEvent`. -/
def generateKeyEvent (ucKeyCode : U8) (b : CKeyboardBehaviour) : CKeyboardBehaviour :=
  if !b.handler then b
  else
    let nKeyCode := CKeyMap.new.translate ucKeyCode b.modifiers
    if nKeyCode = KeyNone then b
    else
      match CKeyMap.getString nKeyCode with
      | some pString => { b with delivered := b.delivered ++ [pString] }
      | none => b

/-- `KeyPressed`. -/
def keyPressed (ucKeyCode : U8) (b : CKeyboardBehaviour) : CKeyboardBehaviour :=
  if isModifierKey ucKeyCode then
    { b with modifiers := b.modifiers ||| 1#8 <<< (ucKeyCode - 0x80).toNat }
  else if ucKeyCode = 0x39 then { b with lockStatus := b.lockStatus ^^^ 1#8 <<< 1 }
  else if ucKeyCode = 0x53 then { b with lockStatus := b.lockStatus ^^^ 1#8 <<< 0 }
  else if ucKeyCode = 0x47 then { b with lockStatus := b.lockStatus ^^^ 1#8 <<< 2 }
  else b.generateKeyEvent ucKeyCode

/-- `KeyReleased`. -/
def keyReleased (ucKeyCode : U8) (b : CKeyboardBehaviour) : CKeyboardBehaviour :=
  if isModifierKey ucKeyCode then
    { b with modifiers := b.modifiers &&& ~~~(1#8 <<< (ucKeyCode - 0x80).toNat) }
  else b

end CKeyboardBehaviour

/-! ### `usbkeyboard.cpp` -/

/-- `USBKEYB_REPORT_SIZE`. -/
def usbkeybReportSize : ℕ := 8

/-- `CUSBKeyboardDevice`, as far as `ReportHandler` uses it; `raw` is what a raw handler has
been given, if one is registered. -/
structure CUSBKeyboardDevice where
  nReportSize : ℕ
  raw : Option (List (U8 × List U8))
  mixedMode : Bool
  lastReport : List U8
  behaviour : CKeyboardBehaviour

/-- `FindByte`. -/
def findByte (pBuffer : List U8) (ucByte : U8) (nLength : ℕ) : Bool :=
  (pBuffer.take nLength).any (· == ucByte)

/-- The loop "report modifier keys"; `now` and `last` are the first bytes. -/
def modifierLoop (now last : U8) (b : CKeyboardBehaviour) : CKeyboardBehaviour :=
  (List.range 8).foldl (fun b i =>
    let nMask := 1#8 <<< i
    if now &&& nMask ≠ 0 ∧ ¬ last &&& nMask ≠ 0 then b.keyPressed (0x80 + BitVec.ofNat 8 i)
    else if ¬ now &&& nMask ≠ 0 ∧ last &&& nMask ≠ 0 then b.keyReleased (0x80 + BitVec.ofNat 8 i)
    else b) b

/-- The loops "report released keys" and "report pressed keys": `f`, on the codes in the key
slots of one report that the other does not have. -/
def keyLoop (f : U8 → CKeyboardBehaviour → CKeyboardBehaviour) (report other : List U8)
    (b : CKeyboardBehaviour) : CKeyboardBehaviour :=
  ((report.take usbkeybReportSize).drop 2).foldl (fun b ucKeyCode =>
    if ucKeyCode ≠ 0 ∧ !findByte (other.drop 2) ucKeyCode (usbkeybReportSize - 2) then
      f ucKeyCode b
    else b) b

namespace CUSBKeyboardDevice

/-- The part of `ReportHandler` that calls the behaviour. -/
def processReport (pReport : List U8) (d : CUSBKeyboardDevice) : CUSBKeyboardDevice :=
  let b := modifierLoop (pReport.headD 0) (d.lastReport.headD 0) d.behaviour
  let b := keyLoop .keyReleased d.lastReport pReport b
  let b := keyLoop .keyPressed pReport d.lastReport b
  { d with behaviour := b, lastReport := pReport.take usbkeybReportSize }

/-- The call of a raw handler, if there is one. -/
def callRaw (pReport : List U8) (d : CUSBKeyboardDevice) : CUSBKeyboardDevice :=
  { d with raw := d.raw.map (· ++ [(pReport.headD 0, (pReport.drop 2).take 6)]) }

/-- `ReportHandler`; `none` is a null pointer. -/
def reportHandler (pReport : Option (List U8)) (d : CUSBKeyboardDevice) : CUSBKeyboardDevice :=
  let pReport := if d.nReportSize > usbkeybReportSize then pReport.map List.tail else pReport
  match pReport with
  | none => d
  | some pReport =>
    if pReport.length ≠ usbkeybReportSize then d
    else if d.raw.isSome ∧ !d.mixedMode then d.callRaw pReport
    else (d.callRaw pReport).processReport pReport

/-- A new device, with a handler for the keys if `handler`. -/
def new (handler : Bool) : CUSBKeyboardDevice where
  nReportSize := usbkeybReportSize
  raw := none
  mixedMode := false
  lastReport := List.replicate 8 0
  behaviour := { handler := handler, modifiers := 0, lockStatus := 0, delivered := [] }

end CUSBKeyboardDevice

/-! ### Modifiers -/

/-- The key code of modifier `i`. -/
def modifierCode (i : ℕ) : U8 := 0x80 + BitVec.ofNat 8 i

variable {b : CKeyboardBehaviour} {c : U8} {i : ℕ}

theorem toNat_modifierCode (hi : i < 8) : (modifierCode i).toNat = 0x80 + i := by
  rw [modifierCode, BitVec.toNat_add, BitVec.toNat_ofNat]
  show (0x80 + i % 256) % 256 = _
  omega

theorem eq_modifierCode (hi : i < 8) : c = modifierCode i ↔ c.toNat = 0x80 + i := by
  rw [← BitVec.toNat_inj, toNat_modifierCode hi]

theorem isModifierKey_iff : isModifierKey c = true ↔ 0x80 ≤ c.toNat ∧ c.toNat ≤ 0x87 :=
  decide_eq_true_iff

/-- The bit of a modifier key. -/
theorem getLsbD_modifierBit (hc : isModifierKey c = true) (hi : i < 8) :
    (1#8 <<< (c - 0x80).toNat).getLsbD i = decide (c = modifierCode i) := by
  obtain ⟨hlow, hhigh⟩ := isModifierKey_iff.mp hc
  have hsub : (c - 0x80).toNat = c.toNat - 0x80 := BitVec.toNat_sub_of_le hlow
  rw [hsub, ← BitVec.twoPow_eq, BitVec.getLsbD_twoPow]
  have hiff : (c.toNat - 0x80 = i) ↔ c = modifierCode i := by
    rw [eq_modifierCode hi]
    omega
  rw [decide_eq_decide.mpr hiff, decide_eq_true (by omega), Bool.true_and]

/-- No modifier key has this code. -/
theorem ne_modifierCode (hc : ¬ isModifierKey c = true) (hi : i < 8) : c ≠ modifierCode i := by
  intro heq
  refine hc (isModifierKey_iff.mpr ?_)
  rw [heq, toNat_modifierCode hi]
  omega

@[simp] theorem modifiers_generateKeyEvent : (b.generateKeyEvent c).modifiers = b.modifiers := by
  rw [CKeyboardBehaviour.generateKeyEvent]
  dsimp only
  split
  · rfl
  split
  · rfl
  split <;> rfl

/-- **A key code sets its modifier** when it is pressed, wherever it comes from, -/
theorem modifiers_keyPressed (hi : i < 8) : (b.keyPressed c).modifiers.getLsbD i =
    (b.modifiers.getLsbD i || decide (c = modifierCode i)) := by
  rw [CKeyboardBehaviour.keyPressed]
  by_cases hc : isModifierKey c = true
  · rw [if_pos hc, ← getLsbD_modifierBit hc hi]
    exact BitVec.getLsbD_or
  · rw [if_neg hc, decide_eq_false (ne_modifierCode hc hi), Bool.or_false]
    split_ifs
    · rfl
    · rfl
    · rfl
    · rw [modifiers_generateKeyEvent]

/-- and clears it when it is released. -/
theorem modifiers_keyReleased (hi : i < 8) : (b.keyReleased c).modifiers.getLsbD i =
    (b.modifiers.getLsbD i && !decide (c = modifierCode i)) := by
  rw [CKeyboardBehaviour.keyReleased]
  by_cases hc : isModifierKey c = true
  · rw [if_pos hc, ← getLsbD_modifierBit hc hi]
    show (b.modifiers &&& ~~~(1#8 <<< (c - 0x80).toNat)).getLsbD i = _
    rw [BitVec.getLsbD_and, BitVec.getLsbD_not, decide_eq_true hi, Bool.true_and]
  · rw [if_neg hc, decide_eq_false (ne_modifierCode hc hi), Bool.not_false, Bool.and_true]

/-! ### The first loop -/

theorem and_mask_ne_zero {x : U8} (hi : i < 8) : x &&& 1#8 <<< i ≠ 0 ↔ x.getLsbD i = true := by
  rw [← BitVec.twoPow_eq, BitVec.and_twoPow]
  cases x.getLsbD i
  · exact iff_of_false (fun h => h rfl) Bool.false_ne_true
  · refine iff_of_true (fun h => ?_) rfl
    have hbit := congrArg (fun y : U8 => y.getLsbD i) h
    simp [hi] at hbit

/-- One round of the loop. -/
def modifierStep (now last : U8) (b : CKeyboardBehaviour) (i : ℕ) : CKeyboardBehaviour :=
  let nMask := 1#8 <<< i
  if now &&& nMask ≠ 0 ∧ ¬ last &&& nMask ≠ 0 then b.keyPressed (modifierCode i)
  else if ¬ now &&& nMask ≠ 0 ∧ last &&& nMask ≠ 0 then b.keyReleased (modifierCode i)
  else b

variable {now last : U8}

/-- A round settles one modifier. -/
theorem modifiers_modifierStep {j : ℕ} (hi : i < 8) (hj : j < 8)
    (hb : b.modifiers.getLsbD i = last.getLsbD i) :
    (modifierStep now last b i).modifiers.getLsbD j =
      if j = i then now.getLsbD j else b.modifiers.getLsbD j := by
  have hcode : modifierCode i = modifierCode j ↔ j = i := by
    rw [eq_modifierCode hj, toNat_modifierCode hi]
    omega
  rw [modifierStep]
  simp only [and_mask_ne_zero hi]
  by_cases hji : j = i
  · subst hji
    rw [if_pos rfl]
    cases hnow : now.getLsbD j <;> cases hlast : last.getLsbD j <;> rw [hlast] at hb
    · simpa using hb
    · rw [if_neg (by simp), if_pos ⟨Bool.false_ne_true, rfl⟩, modifiers_keyReleased hj]
      simp
    · rw [if_pos ⟨rfl, Bool.false_ne_true⟩, modifiers_keyPressed hj]
      simp
    · simpa using hb
  · rw [if_neg hji]
    have hne : modifierCode i ≠ modifierCode j := fun h => hji (hcode.mp h)
    split_ifs
    · rw [modifiers_keyPressed hj, decide_eq_false hne, Bool.or_false]
    · rw [modifiers_keyReleased hj, decide_eq_false hne, Bool.not_false, Bool.and_true]
    · rfl

/-- **The first loop makes the modifiers those of the report.** -/
theorem modifiers_modifierLoop (hb : b.modifiers = last) :
    (modifierLoop now last b).modifiers = now := by
  have hrounds : ∀ n ≤ 8, ∀ j < 8,
      ((List.range n).foldl (modifierStep now last) b).modifiers.getLsbD j =
        if j < n then now.getLsbD j else last.getLsbD j := by
    intro n
    induction n with
    | zero =>
      intro _ j _
      rw [List.range_zero, List.foldl_nil, hb, if_neg (Nat.not_lt_zero j)]
    | succ n ih =>
      intro hn j hj
      have hstep := ih (by omega)
      rw [List.range_succ, List.foldl_append, List.foldl_cons, List.foldl_nil,
        modifiers_modifierStep (by omega) hj (by rw [hstep n (by omega), if_neg (lt_irrefl n)]),
        hstep j hj]
      split_ifs <;> first | rfl | omega
  refine BitVec.eq_of_getLsbD_eq fun j hj => ?_
  rw [show modifierLoop now last b = (List.range 8).foldl (modifierStep now last) b from rfl,
    hrounds 8 le_rfl j hj, if_pos hj]

/-! ### The key slots -/

/-- The codes in the key slots of a report that another one does not have. -/
def newCodes (report other : List U8) : List U8 :=
  ((report.take usbkeybReportSize).drop 2).filter fun ucKeyCode =>
    decide (ucKeyCode ≠ 0 ∧ !findByte (other.drop 2) ucKeyCode (usbkeybReportSize - 2))

theorem keyLoop_eq (f : U8 → CKeyboardBehaviour → CKeyboardBehaviour) (report other : List U8) :
    keyLoop f report other b = (newCodes report other).foldl (fun b c => f c b) b := by
  rw [newCodes, List.foldl_filter, keyLoop]
  simp only [decide_eq_true_eq]

/-- A code is not new both ways. -/
theorem not_mem_newCodes {report other : List U8} (h : c ∈ newCodes report other) :
    c ∉ newCodes other report := by
  intro h'
  have hmem := (List.mem_filter.mp h').1
  have hnot := (of_decide_eq_true (List.mem_filter.mp h).2).2
  rw [List.drop_take] at hmem
  rw [Bool.not_eq_true', findByte] at hnot
  have hfound : ((other.drop 2).take (usbkeybReportSize - 2)).any (· == c) = true :=
    List.any_eq_true.mpr ⟨c, hmem, beq_self_eq_true c⟩
  rw [hfound] at hnot
  cases hnot

theorem modifiers_foldl_keyPressed (codes : List U8) (hi : i < 8) :
    (codes.foldl (fun b c => b.keyPressed c) b).modifiers.getLsbD i =
      (b.modifiers.getLsbD i || decide (modifierCode i ∈ codes)) := by
  induction codes generalizing b with
  | nil => simp
  | cons c codes ih =>
    rw [List.foldl_cons, ih, modifiers_keyPressed hi, Bool.or_assoc, ← Bool.decide_or]
    simp only [List.mem_cons, eq_comm]

theorem modifiers_foldl_keyReleased (codes : List U8) (hi : i < 8) :
    (codes.foldl (fun b c => b.keyReleased c) b).modifiers.getLsbD i =
      (b.modifiers.getLsbD i && !decide (modifierCode i ∈ codes)) := by
  induction codes generalizing b with
  | nil => simp
  | cons c codes ih =>
    rw [List.foldl_cons, ih, modifiers_keyReleased hi, Bool.and_assoc, ← Bool.not_or,
      ← Bool.decide_or]
    simp only [List.mem_cons, eq_comm]

/-! ### Characters -/

/-- What a key is delivered as, of the table for Shift or the other one. -/
def characterOf (shift : Bool) (c : U8) : Option (List U8) :=
  if isModifierKey c ∨ c = 0x39 ∨ c = 0x53 ∨ c = 0x47 ∨ c > 127 then none
  else CKeyMap.getString
    (if shift then CKeyMap.new.shiftTab c.toNat else CKeyMap.new.normTab c.toNat)

theorem getString_keyNone : CKeyMap.getString KeyNone = none := if_pos rfl

/-- An ordinary key is delivered as its character, if it has one. -/
theorem delivered_generateKeyEvent (hmod : ¬ isModifierKey c = true)
    (hlock : ¬ (c = 0x39 ∨ c = 0x53 ∨ c = 0x47)) : (b.generateKeyEvent c).delivered =
      b.delivered ++ if b.handler then (characterOf (CKeyMap.shifted b.modifiers) c).toList
        else [] := by
  have hchar : characterOf (CKeyMap.shifted b.modifiers) c =
      CKeyMap.getString (CKeyMap.new.translate c b.modifiers) := by
    rw [characterOf, CKeyMap.translate]
    by_cases hhigh : c > 127
    · rw [if_pos (Or.inr (Or.inr (Or.inr (Or.inr hhigh)))), if_pos hhigh, getString_keyNone]
    · rw [if_neg hhigh, if_neg (by
        rintro (h | h | h | h | h)
        · exact hmod h
        · exact hlock (Or.inl h)
        · exact hlock (Or.inr (Or.inl h))
        · exact hlock (Or.inr (Or.inr h))
        · exact hhigh h)]
  rw [hchar, CKeyboardBehaviour.generateKeyEvent]
  cases b.handler
  · exact (List.append_nil _).symm
  · rw [if_neg (by simp), if_pos rfl]
    dsimp only
    by_cases hnone : CKeyMap.new.translate c b.modifiers = KeyNone
    · rw [if_pos hnone, hnone, getString_keyNone]
      exact (List.append_nil _).symm
    · rw [if_neg hnone]
      cases CKeyMap.getString (CKeyMap.new.translate c b.modifiers)
      · exact (List.append_nil _).symm
      · rfl

/-- **The table is the one that the modifiers say.** -/
theorem delivered_keyPressed : (b.keyPressed c).delivered =
    b.delivered ++ if b.handler then (characterOf (CKeyMap.shifted b.modifiers) c).toList
      else [] := by
  have hnone : ∀ h : isModifierKey c ∨ c = 0x39 ∨ c = 0x53 ∨ c = 0x47 ∨ c > 127,
      b.delivered = b.delivered ++
        if b.handler then (characterOf (CKeyMap.shifted b.modifiers) c).toList else [] := by
    intro h
    rw [characterOf, if_pos h, Option.toList_none, ite_self, List.append_nil]
  rw [CKeyboardBehaviour.keyPressed]
  by_cases hmod : isModifierKey c = true
  · rw [if_pos hmod]
    exact hnone (Or.inl hmod)
  rw [if_neg hmod]
  by_cases hcaps : c = 0x39
  · rw [if_pos hcaps]
    exact hnone (Or.inr (Or.inl hcaps))
  rw [if_neg hcaps]
  by_cases hnum : c = 0x53
  · rw [if_pos hnum]
    exact hnone (Or.inr (Or.inr (Or.inl hnum)))
  rw [if_neg hnum]
  by_cases hscroll : c = 0x47
  · rw [if_pos hscroll]
    exact hnone (Or.inr (Or.inr (Or.inr (Or.inl hscroll))))
  rw [if_neg hscroll]
  exact delivered_generateKeyEvent hmod (by
    rintro (h | h | h)
    · exact hcaps h
    · exact hnum h
    · exact hscroll h)

@[simp] theorem handler_generateKeyEvent : (b.generateKeyEvent c).handler = b.handler := by
  rw [CKeyboardBehaviour.generateKeyEvent]
  split
  · rfl
  dsimp only
  split
  · rfl
  split <;> rfl

@[simp] theorem handler_keyPressed : (b.keyPressed c).handler = b.handler := by
  rw [CKeyboardBehaviour.keyPressed]
  split_ifs <;> first | rfl | exact handler_generateKeyEvent

@[simp] theorem handler_keyReleased : (b.keyReleased c).handler = b.handler := by
  rw [CKeyboardBehaviour.keyReleased]
  split <;> rfl

@[simp] theorem delivered_keyReleased : (b.keyReleased c).delivered = b.delivered := by
  rw [CKeyboardBehaviour.keyReleased]
  split <;> rfl

/-- Codes that change no modifier are delivered under the same ones. -/
theorem foldl_keyPressed_of_agree (codes : List U8)
    (hagree : ∀ i < 8, modifierCode i ∈ codes → b.modifiers.getLsbD i = true) :
    (codes.foldl (fun b c => b.keyPressed c) b).modifiers = b.modifiers ∧
      (codes.foldl (fun b c => b.keyPressed c) b).delivered = b.delivered ++
        if b.handler then codes.filterMap (characterOf (CKeyMap.shifted b.modifiers)) else [] := by
  induction codes generalizing b with
  | nil =>
    refine ⟨rfl, ?_⟩
    rw [List.filterMap_nil, ite_self, List.append_nil]
    rfl
  | cons c codes ih =>
    have hmod : (b.keyPressed c).modifiers = b.modifiers := by
      refine BitVec.eq_of_getLsbD_eq fun i hi => ?_
      rw [modifiers_keyPressed hi]
      by_cases hc : c = modifierCode i
      · rw [hagree i hi (hc ▸ List.mem_cons_self), Bool.true_or]
      · rw [decide_eq_false hc, Bool.or_false]
    obtain ⟨hmodifiers, hdelivered⟩ := ih (b := b.keyPressed c) fun i hi hmem => by
      rw [hmod]
      exact hagree i hi (List.mem_cons_of_mem c hmem)
    rw [List.foldl_cons]
    refine ⟨hmodifiers.trans hmod, hdelivered.trans ?_⟩
    rw [hmod, handler_keyPressed, delivered_keyPressed, List.append_assoc]
    cases b.handler
    · rfl
    · show _ ++ (_ ++ _) = _ ++ List.filterMap _ (c :: codes)
      rw [List.filterMap_cons]
      cases characterOf (CKeyMap.shifted b.modifiers) c <;> rfl

/-! ### One report -/

/-- A boot report: modifiers, a reserved byte, six keys. -/
structure Report where
  bytes : List U8
  length : bytes.length = usbkeybReportSize

namespace Report

/-- The modifier byte. -/
def modifiers (r : Report) : U8 := r.bytes.headD 0

/-- The report before the first one. -/
def zero : Report := ⟨List.replicate 8 0, rfl⟩

end Report

/-- Where a modifier's key code comes or goes in the key slots, the modifier's bit comes
with it or has gone. -/
def KeysAgree (last now : Report) : Prop :=
  ∀ i < 8, (modifierCode i ∈ newCodes now.bytes last.bytes → now.modifiers.getLsbD i = true) ∧
    (modifierCode i ∈ newCodes last.bytes now.bytes → now.modifiers.getLsbD i = false)

/-- The modifiers are the report's first byte, and the keys that are new in it have been
delivered by the table that its Shift bits say. -/
structure FollowsReport (last now : Report) (d d' : CUSBKeyboardDevice) : Prop where
  modifiers : d'.behaviour.modifiers = now.modifiers
  delivered : d'.behaviour.delivered = d.behaviour.delivered ++
    if d.behaviour.handler then
      (newCodes now.bytes last.bytes).filterMap (characterOf (CKeyMap.shifted now.modifiers))
    else []

/-- Between two reports of a keyboard without a raw handler. -/
structure BetweenReports (last : Report) (d : CUSBKeyboardDevice) : Prop where
  nReportSize : d.nReportSize = usbkeybReportSize
  raw : d.raw = none
  lastReport : d.lastReport = last.bytes

variable {d : CUSBKeyboardDevice} {last' now' : Report}

theorem BetweenReports.reportHandler (h : BetweenReports last' d) :
    d.reportHandler (some now'.bytes) = d.processReport now'.bytes := by
  have hraw : d.callRaw now'.bytes = d := by
    rw [CUSBKeyboardDevice.callRaw, h.raw, Option.map_none, ← h.raw]
  rw [CUSBKeyboardDevice.reportHandler, h.nReportSize, if_neg (lt_irrefl _)]
  dsimp only
  rw [if_neg (not_not.mpr now'.length), if_neg (by rw [h.raw]; simp), hraw]

theorem BetweenReports.next (h : BetweenReports last' d) :
    BetweenReports now' (d.reportHandler (some now'.bytes)) := by
  rw [h.reportHandler]
  exact ⟨h.nReportSize, h.raw, List.take_of_length_le now'.length.le⟩

/-- A modifier key is not delivered. -/
theorem delivered_modifierCode (hi : i < 8) :
    (b.keyPressed (modifierCode i)).delivered = b.delivered := by
  have hmod : isModifierKey (modifierCode i) = true := by
    rw [isModifierKey_iff, toNat_modifierCode hi]
    omega
  rw [delivered_keyPressed, characterOf, if_pos (Or.inl hmod), Option.toList_none, ite_self,
    List.append_nil]

theorem delivered_modifierLoop {now last : U8} :
    (modifierLoop now last b).delivered = b.delivered ∧
      (modifierLoop now last b).handler = b.handler := by
  have hrounds : ∀ codes : List ℕ, (∀ i ∈ codes, i < 8) → ∀ b : CKeyboardBehaviour,
      (codes.foldl (modifierStep now last) b).delivered = b.delivered ∧
        (codes.foldl (modifierStep now last) b).handler = b.handler := by
    intro codes
    induction codes with
    | nil => exact fun _ b => ⟨rfl, rfl⟩
    | cons i codes ih =>
      intro hcodes b
      have hi := hcodes i List.mem_cons_self
      obtain ⟨hdelivered, hhandler⟩ := ih (fun j hj => hcodes j (List.mem_cons_of_mem i hj))
        (modifierStep now last b i)
      have hstep : (modifierStep now last b i).delivered = b.delivered ∧
          (modifierStep now last b i).handler = b.handler := by
        rw [modifierStep]
        split_ifs
        · exact ⟨delivered_modifierCode hi, handler_keyPressed⟩
        · exact ⟨delivered_keyReleased, handler_keyReleased⟩
        · exact ⟨rfl, rfl⟩
      exact ⟨hdelivered.trans hstep.1, hhandler.trans hstep.2⟩
  exact hrounds (List.range 8) (fun i hi => List.mem_range.mp hi) b

theorem foldl_keyReleased (codes : List U8) :
    (codes.foldl (fun b c => b.keyReleased c) b).delivered = b.delivered ∧
      (codes.foldl (fun b c => b.keyReleased c) b).handler = b.handler := by
  induction codes generalizing b with
  | nil => exact ⟨rfl, rfl⟩
  | cons c codes ih =>
    obtain ⟨hdelivered, hhandler⟩ := ih (b := b.keyReleased c)
    exact ⟨hdelivered.trans delivered_keyReleased, hhandler.trans handler_keyReleased⟩

/-- **One report.** -/
theorem followsReport_iff (h : BetweenReports last' d)
    (hb : d.behaviour.modifiers = last'.modifiers) :
    FollowsReport last' now' d (d.reportHandler (some now'.bytes)) ↔ KeysAgree last' now' := by
  -- the behaviour after each of the three loops
  obtain ⟨b₁, hb₁⟩ : ∃ b₁, b₁ = modifierLoop now'.modifiers last'.modifiers d.behaviour := ⟨_, rfl⟩
  have hmod₁ : b₁.modifiers = now'.modifiers := by rw [hb₁, modifiers_modifierLoop hb]
  obtain ⟨hdel₁, hhandler₁⟩ : b₁.delivered = d.behaviour.delivered ∧
      b₁.handler = d.behaviour.handler := by rw [hb₁]; exact delivered_modifierLoop
  obtain ⟨b₂, hb₂⟩ : ∃ b₂, b₂ = (newCodes last'.bytes now'.bytes).foldl
      (fun b c => b.keyReleased c) b₁ := ⟨_, rfl⟩
  have hmod₂ : ∀ i < 8, b₂.modifiers.getLsbD i = (now'.modifiers.getLsbD i &&
      !decide (modifierCode i ∈ newCodes last'.bytes now'.bytes)) := by
    intro i hi
    rw [hb₂, modifiers_foldl_keyReleased _ hi, hmod₁]
  obtain ⟨hdel₂, hhandler₂⟩ : b₂.delivered = b₁.delivered ∧ b₂.handler = b₁.handler := by
    rw [hb₂]
    exact foldl_keyReleased _
  have hafter : (d.reportHandler (some now'.bytes)).behaviour =
      (newCodes now'.bytes last'.bytes).foldl (fun b c => b.keyPressed c) b₂ := by
    rw [h.reportHandler, hb₂, hb₁, ← keyLoop_eq, ← keyLoop_eq, ← h.lastReport]
    show keyLoop _ _ _ (keyLoop _ _ _ (modifierLoop _ (d.lastReport.headD 0) _)) = _
    rw [h.lastReport]
    rfl
  constructor
  · intro hfollows i hi
    have hbit := congrArg (fun m : U8 => m.getLsbD i) hfollows.modifiers
    rw [hafter, modifiers_foldl_keyPressed _ hi, hmod₂ i hi] at hbit
    constructor
    · intro hpressed
      rw [decide_eq_true hpressed, Bool.or_true] at hbit
      exact hbit.symm
    · intro hreleased
      rw [decide_eq_true hreleased, decide_eq_false (not_mem_newCodes hreleased), Bool.not_true,
        Bool.and_false, Bool.or_false] at hbit
      exact hbit.symm
  · intro hagree
    -- the releases clear no bit that is set, and the presses set none that is clear
    have hsame : b₂.modifiers = now'.modifiers := by
      refine BitVec.eq_of_getLsbD_eq fun i hi => ?_
      rw [hmod₂ i hi]
      by_cases hreleased : modifierCode i ∈ newCodes last'.bytes now'.bytes
      · rw [(hagree i hi).2 hreleased, Bool.false_and]
      · rw [decide_eq_false hreleased, Bool.not_false, Bool.and_true]
    obtain ⟨hmod₃, hdel₃⟩ := foldl_keyPressed_of_agree (b := b₂) (newCodes now'.bytes last'.bytes)
      fun i hi hmem => by
        rw [hsame]
        exact (hagree i hi).1 hmem
    refine ⟨?_, ?_⟩ <;> rw [hafter]
    · exact hmod₃.trans hsame
    · rw [hdel₃, hdel₂, hdel₁, hhandler₂, hhandler₁, hsame]

/-! ### Runs -/

/-- A new keyboard, after some reports. -/
def afterReports (handler : Bool) (reports : List Report) : CUSBKeyboardDevice :=
  reports.foldl (fun d r => d.reportHandler (some r.bytes)) (.new handler)

/-- The last of some reports. -/
def lastOf (reports : List Report) : Report := reports.getLastD .zero

theorem afterReports_snoc (handler : Bool) (reports : List Report) (r : Report) :
    afterReports handler (reports ++ [r]) =
      (afterReports handler reports).reportHandler (some r.bytes) := by
  rw [afterReports, List.foldl_append]
  rfl

theorem betweenReports_afterReports (handler : Bool) (reports : List Report) :
    BetweenReports (lastOf reports) (afterReports handler reports) := by
  induction reports using List.reverseRecOn with
  | nil => exact ⟨rfl, rfl, rfl⟩
  | append_singleton reports r ih =>
    rw [afterReports_snoc, lastOf, List.getLastD_concat]
    exact ih.next

/-- **Shift follows the reports**, in every run in which the key slots agree with the
modifier byte, and in no other. -/
theorem shift_follows_iff (handler : Bool) (reports : List Report) :
    (∀ n r, reports[n]? = some r → FollowsReport (lastOf (reports.take n)) r
        (afterReports handler (reports.take n)) (afterReports handler (reports.take (n + 1)))) ↔
      ∀ n r, reports[n]? = some r → KeysAgree (lastOf (reports.take n)) r := by
  have hnext : ∀ n r, reports[n]? = some r → reports.take (n + 1) = reports.take n ++ [r] := by
    intro n r hr
    rw [List.take_add_one, hr]
    rfl
  constructor
  · intro hfollows n r hr
    have hmod : (afterReports handler (reports.take n)).behaviour.modifiers =
        (lastOf (reports.take n)).modifiers := by
      cases n with
      | zero => rfl
      | succ n =>
        obtain ⟨r', hr'⟩ : ∃ r', reports[n]? = some r' := by
          have hlt := (List.getElem?_eq_some_iff.mp hr).1
          exact ⟨_, List.getElem?_eq_getElem (by omega)⟩
        rw [(hfollows n r' hr').modifiers, hnext n r' hr', lastOf, List.getLastD_concat]
    have hstep := hfollows n r hr
    rw [hnext n r hr, afterReports_snoc] at hstep
    exact (followsReport_iff (betweenReports_afterReports handler _) hmod).mp hstep
  · intro hagree
    -- the modifiers are those of the last report, by induction on the reports
    have hmod : ∀ n ≤ reports.length, (afterReports handler (reports.take n)).behaviour.modifiers =
        (lastOf (reports.take n)).modifiers := by
      intro n
      induction n with
      | zero => exact fun _ => rfl
      | succ n ih =>
        intro hn
        have hr : reports[n]? = some reports[n] := List.getElem?_eq_getElem (by omega)
        have hstep := (followsReport_iff (betweenReports_afterReports handler _)
          (ih (by omega))).mpr (hagree n _ hr)
        rw [hnext n _ hr, afterReports_snoc, hstep.modifiers, lastOf, List.getLastD_concat]
    intro n r hr
    have hlt := (List.getElem?_eq_some_iff.mp hr).1
    rw [hnext n r hr, afterReports_snoc]
    exact (followsReport_iff (betweenReports_afterReports handler _) (hmod n (by omega))).mpr
      (hagree n r hr)

/-- The key code of left Shift in a key slot: Shift is down, and the report says it is not. -/
theorem shift_stuck : ¬ FollowsReport .zero ⟨[0, 0, 0x81, 0, 0, 0, 0, 0], rfl⟩
    (afterReports true []) (afterReports true [⟨[0, 0, 0x81, 0, 0, 0, 0, 0], rfl⟩]) := by
  intro hfollows
  exact absurd hfollows.modifiers (by decide)

end GamingConsole
