/-
What FatFs is told about the drive (`diskio.c`).

A card may be pushed in or pulled out at any time, also while `sdio_init` runs; Card
Inserted in PRESENT_STATE follows the slot.  What `disk_status` looks at instead is
`card_inserted`, which `_sdio_clock_init` stores.  `init_status`, a static variable of
the source, comes back from each call next to its result.

* `Seen` — a card that `card_inserted` reports was there at some time;
* `DiskInv` — what holds between the calls;
* `disk_status_truthful_iff` — when the answer of `disk_status` is true.
-/
import GamingConsole.SdClock
import GamingConsole.SdEvents

namespace GamingConsole

open Prog Relation

variable {α : Type}

/-! ### The calls -/

def devSd : U8 := 0#8

def staNoinit : U8 := 0x01#8

def staNodisk : U8 := 0x02#8

/-- `disk_status`. -/
def diskStatus (pdrv : U8) (initStatus : U8) : SdProg (U8 × U8) :=
  if pdrv ≠ devSd then pure (staNoinit, initStatus)
  else do
    let cardInserted ← sd (.get .cardInserted)
    let initStatus := if cardInserted = 0 then staNoinit ||| staNodisk else initStatus
    pure (initStatus, initStatus)

/-- `disk_initialize`. -/
def diskInitialize (pdrv : U8) (polls : ℕ) (initStatus : U8) : SdProg (U8 × U8) :=
  if pdrv ≠ devSd then pure (staNoinit, initStatus)
  else do
    let initOk ← sdioInit polls
    if initOk then pure (0#8, 0#8)
    else do
      let cardInserted ← sd (.get .cardInserted)
      let initStatus := if cardInserted = 0 then staNoinit ||| staNodisk else staNoinit
      pure (initStatus, initStatus)

/-! ### The slot -/

/-- The slot and its history. -/
structure Slot where
  present : Bool
  /-- A card has been removed since the last `disk_initialize` returned. -/
  removed : Bool
  /-- A card has been removed at some time. -/
  lost : Bool

inductive SlotEvent : Slot → Slot → Prop
  | insert (d : Slot) (h : d.present = false) : SlotEvent d { d with present := true }
  | remove (d : Slot) (h : d.present = true) :
      SlotEvent d { present := false, removed := true, lost := true }

/-- Only Card Inserted is known of what the controller answers. -/
def slotAnswer : Device Slot
  | .read .presentState, d, v, d' =>
    (v >>> 16 &&& 1#32 = if d.present then 1#32 else 0#32) ∧ d' = d
  | _, d, _, d' => d' = d

/-- The controller, with its slot. -/
def slotDevice : Device Slot := eventful SlotEvent slotAnswer

/-- The driver, and what has been returned. -/
structure Disk where
  drv : Sd Slot
  initStatus : U8
  /-- What the most recent `disk_initialize` has returned. -/
  lastInit : Option U8

/-- One step: something happens to the slot, or a call runs from its start to its end. -/
inductive DiskStep : Disk → Disk → Prop
  | card {s : Disk} {d : Slot} (h : SlotEvent s.drv.dev d) :
      DiskStep s { s with drv := s.drv.withDev d }
  | init {s : Disk} (polls : ℕ) {r initStatus : U8} {drv : Sd Slot}
      (h : Returns (sdAct slotDevice) (diskInitialize devSd polls s.initStatus) s.drv
        (r, initStatus) drv) :
      DiskStep s ⟨drv.withDev { drv.dev with removed := false }, initStatus, some r⟩
  | status {s : Disk} {r initStatus : U8} {drv : Sd Slot}
      (h : Returns (sdAct slotDevice) (diskStatus devSd s.initStatus) s.drv (r, initStatus) drv) :
      DiskStep s ⟨drv, initStatus, s.lastInit⟩

/-- Power-on, with or without a card. -/
def diskStart (present : Bool) (buf : ℕ → U8) : Disk :=
  { drv := { var := fun _ => 0, buf := buf, dev := ⟨present, false, false⟩ }
    initStatus := staNoinit
    lastInit := none }

/-- The answer `r` is true: the drive is ready only if the last `disk_initialize` has
returned 0 and the card has not been removed since, and a card that has been removed is
reported as missing. -/
def Disk.Truthful (s : Disk) (r : U8) : Prop :=
  (r &&& staNoinit = 0 → s.lastInit = some 0 ∧ s.drv.dev.removed = false) ∧
    (s.drv.dev.present = false → s.drv.dev.lost = true → r &&& staNodisk ≠ 0)

/-- `card_inserted` reports no card, or there is one, and since an initialization that has
succeeded it is the same one. -/
def Disk.Current (s : Disk) : Prop :=
  s.drv.var .cardInserted = 0 ∨
    (s.drv.dev.present = true ∧ (s.lastInit = some 0 → s.drv.dev.removed = false))

/-! ### What `card_inserted` says -/

/-- A card that was seen has been removed if it is no longer there. -/
def Seen (s : Sd Slot) : Prop :=
  s.var .cardInserted ≠ 0 → s.dev.present = true ∨ s.dev.lost = true

theorem seen_event : EventStable SlotEvent Seen := by
  intro s d hs hev hcard
  cases hev with
  | insert h => exact Or.inl rfl
  | remove h => exact Or.inr rfl

/-- Every access leaves the slot as it is. -/
theorem slotAnswer_same {e : SdAction} {d d' : Slot} {r : e.Answer} (h : slotAnswer e d r d') :
    d' = d := by
  unfold slotAnswer at h
  split at h
  · exact h.2
  · exact h

theorem Unlatched.var_after {e : SdAction} (h : Unlatched e) (s : Sd Slot) (d : Slot) :
    (s.after d e).var .cardInserted = s.var .cardInserted := by
  cases e with
  | set x v =>
    cases x with
    | cardInserted => exact False.elim h
    | _ =>
      show Function.update s.var _ v .cardInserted = _
      rw [Function.update_of_ne (by simp)]
  | _ => rfl

theorem seen_unlatched (e : SdAction) (s : Sd Slot) (r : e.Answer) (d : Slot) (he : Unlatched e)
    (hs : Seen s) (hans : slotAnswer e s.dev r d) : Seen (s.after d e) := by
  rw [Seen, he.var_after, Sd.after_dev, slotAnswer_same hans]
  exact hs

/-- The run keeps `Seen`. -/
abbrev KeepsSeen (p : SdProg α) : Prop :=
  ∀ s, Seen s → Sure SlotEvent slotAnswer p s fun _ s' => Seen s'

theorem keepsSeen_unlatched {p : SdProg α} (hp : Only Unlatched p) : KeepsSeen p := fun _ hs =>
  Sure.only hp hs seen_event seen_unlatched

theorem KeepsSeen.bind {β : Type} {p : SdProg α} {f : α → SdProg β} (hp : KeepsSeen p)
    (hf : ∀ a, KeepsSeen (f a)) : KeepsSeen (p >>= f) := fun s hs =>
  Sure.bind (hp s hs) fun a s' hs' => hf a s' hs'

theorem KeepsSeen.ret (a : α) : KeepsSeen (pure a) := fun _ hs => Sure.ret hs

/-- PRESENT_STATE is read, and its Card Inserted stored. -/
theorem keepsSeen_setUpClock (polls : ℕ) : KeepsSeen (setUpClock polls) := by
  have hpin : Only Unlatched sdioPinctrlInit := Only.step trivial fun _ => Only.perform trivial
  have hcfg : Only Unlatched sdioCfgSelectSdPinTiming :=
    Only.step trivial fun _ => Only.perform trivial
  refine (keepsSeen_unlatched hpin).bind fun _ => (keepsSeen_unlatched hcfg).bind fun _ => ?_
  intro s hs
  refine Sure.step hs seen_event fun s hs present d _ hans => ?_
  -- what has been read stays true of the slot, whatever happens before it is stored
  have hread : EventStable SlotEvent fun s : Sd Slot => present >>> 16 &&& 1#32 ≠ 0 →
      s.dev.present = true ∨ s.dev.lost = true := by
    intro s d hs hev hcard
    cases hev with
    | insert h => exact Or.inl rfl
    | remove h => exact Or.inr rfl
  refine Sure.step (I := fun s : Sd Slot => present >>> 16 &&& 1#32 ≠ 0 →
    s.dev.present = true ∨ s.dev.lost = true) ?_ hread fun s hs _ d _ hans => ?_
  · intro hcard
    obtain ⟨hbit, rfl⟩ := hans
    rw [hbit] at hcard
    rw [Sd.after_dev]
    split at hcard
    · rename_i hpresent
      exact Or.inl hpresent
    · exact absurd rfl hcard
  · have hseen : Seen (s.after d (.set .cardInserted (present >>> 16 &&& 1#32))) := by
      have hvar : (s.after d (.set .cardInserted (present >>> 16 &&& 1#32))).var .cardInserted =
          present >>> 16 &&& 1#32 := by
        show Function.update s.var .cardInserted (present >>> 16 &&& 1#32) .cardInserted = _
        rw [Function.update_self]
      rw [Seen, hvar, Sd.after_dev, slotAnswer_same hans]
      exact hs
    split
    · refine keepsSeen_unlatched ?_ _ hseen
      exact Only.step trivial fun _ => Only.ret _
    · exact keepsSeen_unlatched ((plain_powerUp polls).mono fun _ h => h.2) _ hseen

theorem keepsSeen_clockInit (polls : ℕ) : KeepsSeen (sdioClockInit polls) := by
  have hreset : ∀ start, Only Unlatched (waitResetAll start polls) := fun start =>
    (plain_waitResetAll start polls).mono fun _ h => h.2
  refine KeepsSeen.bind (p := clockInit polls) ?_ fun ok s hs => ?_
  · refine KeepsSeen.bind (keepsSeen_unlatched (Only.perform trivial)) fun _ =>
      KeepsSeen.bind (keepsSeen_unlatched (Only.perform trivial)) fun start =>
      (keepsSeen_unlatched (hreset start)).bind fun reset => ?_
    split
    · exact KeepsSeen.ret _
    · exact keepsSeen_setUpClock polls
  · refine Sure.step hs seen_event fun s hs _ d _ hans => Sure.ret ?_
    show Seen { s with dev := d }
    rw [slotAnswer_same hans]
    exact hs

theorem keepsSeen_identifyStage1Loop (f8 polls : ℕ) :
    ∀ n, KeepsSeen (identifyStage1Loop f8 polls n) := by
  intro n
  induction n with
  | zero => exact KeepsSeen.ret _
  | succ n ih =>
    refine (keepsSeen_unlatched (unlatched_sendCommand _ _ _ _ polls)).bind fun _ => ?_
    refine (keepsSeen_unlatched (unlatched_sendCommand _ _ _ _ polls)).bind fun result => ?_
    obtain ⟨status, response⟩ := result
    dsimp only
    split_ifs
    · exact KeepsSeen.ret _
    · refine (keepsSeen_clockInit polls).bind fun ok => ?_
      split
      · exact KeepsSeen.ret _
      · exact ih
    · exact KeepsSeen.ret _

theorem keepsSeen_sdioInit (polls : ℕ) : KeepsSeen (sdioInit polls) := by
  refine (keepsSeen_clockInit polls).bind fun _ => ?_
  refine (keepsSeen_identifyStage1Loop 1 polls 2).bind fun result => ?_
  obtain ⟨usable, f8⟩ := result
  dsimp only
  split
  · exact KeepsSeen.ret _
  refine (keepsSeen_unlatched (unlatched_sendAppCommand _ _ _ _ polls)).bind fun result => ?_
  obtain ⟨status, response⟩ := result
  dsimp only
  split_ifs
  · exact KeepsSeen.ret _
  · exact KeepsSeen.ret _
  · exact keepsSeen_unlatched (unlatched_initLegacy _ polls)
  · exact keepsSeen_unlatched (unlatched_initVersion2 _ polls)

/-! ### Between the calls -/

/-- What holds between the calls. -/
structure DiskInv (s : Disk) : Prop where
  status : s.initStatus = 0 ∨ s.initStatus = staNoinit ∨ s.initStatus = staNoinit ||| staNodisk
  nodisk : s.initStatus = staNoinit ||| staNodisk → s.drv.var .cardInserted = 0
  ready : s.drv.var .cardInserted ≠ 0 → (s.initStatus = 0 ↔ s.lastInit = some 0)
  seen : Seen s.drv

/-- The value of `card_inserted` that a call goes by. -/
theorem sure_getCardInserted {f : U32 → SdProg α} {Q : α → Sd Slot → Prop} {s : Sd Slot}
    (hs : Seen s) (h : ∀ s', Seen s' → s'.var .cardInserted = s.var .cardInserted →
      Sure SlotEvent slotAnswer (f (s.var .cardInserted)) s' Q) :
    Sure SlotEvent slotAnswer (sd (.get .cardInserted) >>= f) s Q := by
  have hevent : EventStable SlotEvent fun s' : Sd Slot =>
      Seen s' ∧ s'.var .cardInserted = s.var .cardInserted :=
    seen_event.and fun s' d hs' _ => hs'
  refine Sure.step ⟨hs, rfl⟩ hevent fun s' hs' r d hown hans => ?_
  rw [show r = s.var .cardInserted from hown.trans hs'.2]
  have hafter : s'.after d (.get .cardInserted) = s' := by
    rw [slotAnswer_same hans]
    rfl
  rw [hafter]
  exact h s' hs'.1 hs'.2

/-- `disk_status` answers from `card_inserted` and `init_status` alone. -/
theorem sure_diskStatus (initStatus : U8) {s : Sd Slot} (hs : Seen s) :
    Sure SlotEvent slotAnswer (diskStatus devSd initStatus) s fun r s' =>
      Seen s' ∧ s'.var .cardInserted = s.var .cardInserted ∧ r.1 = r.2 ∧
      r.1 = if s.var .cardInserted = 0 then staNoinit ||| staNodisk else initStatus := by
  rw [diskStatus, if_neg (by simp)]
  exact sure_getCardInserted hs fun s' hs' hvar => Sure.ret ⟨hs', hvar, rfl, rfl⟩

theorem sure_diskInitialize (polls : ℕ) (initStatus : U8) {s : Sd Slot} (hs : Seen s) :
    Sure SlotEvent slotAnswer (diskInitialize devSd polls initStatus) s fun r s' =>
      Seen s' ∧ r.1 = r.2 ∧ (r.1 = 0 ∨ r.1 = staNoinit ∨
        r.1 = staNoinit ||| staNodisk ∧ s'.var .cardInserted = 0) := by
  rw [diskInitialize, if_neg (by simp)]
  refine Sure.bind (keepsSeen_sdioInit polls s hs) fun ok s₁ hs₁ => ?_
  split
  · exact Sure.ret ⟨hs₁, rfl, Or.inl rfl⟩
  · refine sure_getCardInserted hs₁ fun s₂ hs₂ hvar => Sure.ret ⟨hs₂, rfl, Or.inr ?_⟩
    dsimp only
    split
    · rename_i hcard
      exact Or.inr ⟨rfl, hvar.trans hcard⟩
    · exact Or.inl rfl

theorem diskInv_start (present : Bool) (buf : ℕ → U8) : DiskInv (diskStart present buf) :=
  ⟨Or.inr (Or.inl rfl), fun _ => rfl, fun h => absurd rfl h, fun h => absurd rfl h⟩

/-- One step keeps the invariant. -/
theorem diskInv_step {s s' : Disk} (hs : DiskInv s) (hstep : DiskStep s s') : DiskInv s' := by
  cases hstep with
  | card h => exact ⟨hs.status, hs.nodisk, hs.ready, seen_event _ _ hs.seen h⟩
  | init polls h =>
    obtain ⟨hseen, hr, hstatus⟩ := (sure_diskInitialize polls s.initStatus hs.seen).of_returns h
    dsimp only at hr hstatus
    subst hr
    refine ⟨?_, fun hnodisk => ?_, fun _ => ?_, hseen⟩
    · rcases hstatus with h | h | h
      · exact Or.inl h
      · exact Or.inr (Or.inl h)
      · exact Or.inr (Or.inr h.1)
    · rcases hstatus with h | h | h
      · exact absurd (h.symm.trans hnodisk) (by simp [staNoinit, staNodisk])
      · exact absurd (h.symm.trans hnodisk) (by simp [staNoinit, staNodisk])
      · exact h.2
    · simp
  | status h =>
    obtain ⟨hseen, hvar, hr, hstatus⟩ := (sure_diskStatus s.initStatus hs.seen).of_returns h
    dsimp only at hr hstatus
    subst hr
    by_cases hcard : s.drv.var .cardInserted = 0
    · rw [if_pos hcard] at hstatus
      exact ⟨Or.inr (Or.inr hstatus), fun _ => hvar.trans hcard,
        fun hne => absurd (hvar.trans hcard) hne, hseen⟩
    · rw [if_neg hcard] at hstatus
      subst hstatus
      refine ⟨hs.status, fun hnodisk => hvar.trans (hs.nodisk hnodisk), fun _ => ?_, hseen⟩
      exact hs.ready hcard

theorem diskInv_of_reach {present : Bool} {buf : ℕ → U8} {s : Disk}
    (h : ReflTransGen DiskStep (diskStart present buf) s) : DiskInv s := by
  induction h with
  | refl => exact diskInv_start present buf
  | tail _ hstep ih => exact diskInv_step ih hstep

/-- **The answer of `disk_status` is true exactly if `card_inserted` is still current**,
in every state that calls and card events can lead to. -/
theorem disk_status_truthful_iff {present : Bool} {buf : ℕ → U8} {s : Disk}
    (hreach : ReflTransGen DiskStep (diskStart present buf) s) {r initStatus : U8} {drv : Sd Slot}
    (hret : Returns (sdAct slotDevice) (diskStatus devSd s.initStatus) s.drv (r, initStatus) drv) :
    s.Truthful r ↔ s.Current := by
  have hs := diskInv_of_reach hreach
  have hr := ((sure_diskStatus s.initStatus hs.seen).of_returns hret).2.2.2
  dsimp only at hr
  by_cases hcard : s.drv.var .cardInserted = 0
  · -- no card is reported: the answer has both bits set
    rw [if_pos hcard] at hr
    subst hr
    refine iff_of_true ⟨fun h => ?_, fun _ _ => ?_⟩ (Or.inl hcard)
    · exact absurd h (by simp [staNoinit, staNodisk])
    · simp [staNoinit, staNodisk]
  rw [if_neg hcard] at hr
  subst hr
  have hnodisk : s.initStatus &&& staNodisk = 0 := by
    rcases hs.status with h | h | h
    · simp [h]
    · simp [h, staNoinit, staNodisk]
    · exact absurd (hs.nodisk h) hcard
  have hclear : s.initStatus &&& staNoinit = 0 ↔ s.lastInit = some 0 := by
    rw [← hs.ready hcard]
    rcases hs.status with h | h | h
    · simp [h]
    · simp [h, staNoinit]
    · exact absurd (hs.nodisk h) hcard
  rw [Disk.Truthful, Disk.Current, hclear]
  constructor
  · rintro ⟨hready, hmissing⟩
    refine Or.inr ⟨?_, fun hlast => (hready hlast).2⟩
    rcases hs.seen hcard with h | hlost
    · exact h
    · rcases hpresent : s.drv.dev.present with _ | _
      · exact absurd hnodisk (hmissing hpresent hlost)
      · rfl
  · rintro (h | ⟨hpresent, hsame⟩)
    · exact absurd h hcard
    · refine ⟨fun hlast => ⟨hlast, hsame hlast⟩, fun habsent => ?_⟩
      exact absurd (hpresent.symm.trans habsent) (by simp)

/-! ### A card that is pulled out -/

/-- A controller whose card answers every command. -/
def Slot.serve : (e : SdAction) → Slot → Option (e.Answer × Slot)
  | .read .clockControl, d => some (0xFFFF#16, d)
  | .read .presentState, d => some (if d.present then 0x10000#32 else 0#32, d)
  | .read .normalInterruptStatus, d => some (1#16, d)
  | .read .response0, d => some (0x800001AA#32, d)
  | e, d => e.zero.map fun r => (r, d)

theorem Slot.serve_answer (e : SdAction) (s : Sd Slot) (r : e.Answer) (d : Slot)
    (h : Slot.serve e s.dev = some (r, d)) : slotDevice e s.dev (s.own e r) d := by
  refine ⟨s.dev, .refl, ?_⟩
  cases e with
  | read reg =>
    cases reg <;> obtain ⟨rfl, rfl⟩ := Prod.mk.inj (Option.some_inj.mp h)
    case presentState =>
      refine ⟨?_, rfl⟩
      show (if s.dev.present then 0x10000#32 else 0#32) >>> 16 &&& 1#32 = _
      cases s.dev.present <;> rfl
    all_goals rfl
  | stuck => exact absurd h (by simp [Slot.serve, SdAction.zero])
  | _ =>
    obtain ⟨rfl, rfl⟩ := Prod.mk.inj (Option.some_inj.mp h)
    rfl

/-- `disk_initialize` succeeds on a card that answers every command. -/
theorem returns_diskInitialize : ∃ drv, Returns (sdAct slotDevice)
    (diskInitialize devSd 1 staNoinit) (diskStart true fun _ => 0).drv (0#8, 0#8) drv ∧
      drv.dev.present = true ∧ drv.var .cardInserted = 1#32 := by
  have hplay : ((run (Sd.play Slot.serve) (diskInitialize devSd 1 staNoinit)
      (diskStart true fun _ => 0).drv).any fun w => decide (w.1 = (0#8, 0#8)) &&
        (w.2.dev.present && decide (w.2.var .cardInserted = 1#32))) = true := by
    decide +kernel
  obtain ⟨⟨r, drv⟩, hrun, hend⟩ := (Option.any_eq_true _ _).mp hplay
  rw [Bool.and_eq_true, Bool.and_eq_true, decide_eq_true_eq, decide_eq_true_eq] at hend
  obtain ⟨rfl, hpresent, hcard⟩ := hend
  exact ⟨drv, Returns.of_run (Sd.sdAct_of_play Slot.serve_answer) hrun, hpresent, hcard⟩

/-- The drive is still called ready when `card_inserted` says so. -/
theorem returns_diskStatus {s : Sd Slot} (hcard : s.var .cardInserted = 1#32) :
    Returns (sdAct slotDevice) (diskStatus devSd 0#8) s (0#8, 0#8) s := by
  rw [diskStatus, if_neg (by simp)]
  have hget : sdAct slotDevice (.get .cardInserted) s (s.var .cardInserted) s :=
    ⟨rfl, s.dev, ⟨s.dev, .refl, rfl⟩, rfl⟩
  refine Returns.step hget ?_
  rw [if_neg (by rw [hcard]; simp)]
  exact .ret _ _

/-- The card is pulled out after `disk_initialize`, and `disk_status` returns 0. -/
theorem not_disk_status_truthful : ¬ ∀ (present : Bool) (buf : ℕ → U8) (s : Disk)
    (r initStatus : U8) (drv : Sd Slot), ReflTransGen DiskStep (diskStart present buf) s →
    Returns (sdAct slotDevice) (diskStatus devSd s.initStatus) s.drv (r, initStatus) drv →
    s.Truthful r := by
  intro hall
  obtain ⟨drv, hinit, hpresent, hcard⟩ := returns_diskInitialize
  have hstep := DiskStep.init (s := diskStart true fun _ => 0) 1 hinit
  have hpull := DiskStep.card (s := ⟨drv.withDev { drv.dev with removed := false }, 0#8, some 0#8⟩)
    (SlotEvent.remove _ hpresent)
  have htruthful := hall true _ _ _ _ _ ((ReflTransGen.single hstep).tail hpull)
    (returns_diskStatus hcard)
  exact absurd (htruthful.1 rfl).2 (by simp)

/-- The card is left where it is. -/
theorem disk_status_truthful_kept : ∃ (s : Disk) (drv : Sd Slot),
    Returns (sdAct slotDevice) (diskStatus devSd s.initStatus) s.drv (0#8, 0#8) drv ∧
      s.Truthful 0#8 := by
  obtain ⟨drv, hinit, hpresent, hcard⟩ := returns_diskInitialize
  have hstep := DiskStep.init (s := diskStart true fun _ => 0) 1 hinit
  have hstatus := returns_diskStatus
    (s := drv.withDev { drv.dev with removed := false }) hcard
  refine ⟨⟨_, 0#8, some 0#8⟩, _, hstatus, ?_⟩
  exact (disk_status_truthful_iff (ReflTransGen.single hstep) hstatus).mpr
    (Or.inr ⟨hpresent, fun _ => rfl⟩)

end GamingConsole
