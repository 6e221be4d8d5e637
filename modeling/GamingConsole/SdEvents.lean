/-
Devices that move on their own.

Such a device has events of its own, any number of which may happen before it
answers an action; so an assertion about it is worth keeping only if its events
keep it.  The error status is one the driver knows nothing of: the events may set
it to anything at any time.
-/
import GamingConsole.SdMachine
import Mathlib.Logic.Relation

namespace GamingConsole

open Prog Relation

variable {δ : Type} {event : δ → δ → Prop} {answer : Device δ} {s s' : Sd δ} {α β : Type}

/-- The device that answers as `answer` says, after events of its own. -/
def eventful (event : δ → δ → Prop) (answer : Device δ) : Device δ :=
  fun e d r d' => ∃ d₁, ReflTransGen event d d₁ ∧ answer e d₁ r d'

/-- The state with the device in `d`. -/
def Sd.withDev (s : Sd δ) (d : δ) : Sd δ := { s with dev := d }

@[simp] theorem Sd.withDev_dev (s : Sd δ) (d : δ) : (s.withDev d).dev = d := rfl

/-- The device's own events keep the assertion. -/
def EventStable (event : δ → δ → Prop) (I : Sd δ → Prop) : Prop :=
  ∀ s d, I s → event s.dev d → I (s.withDev d)

theorem EventStable.many {I : Sd δ → Prop} (h : EventStable event I) (hs : I s) {d : δ}
    (hd : ReflTransGen event s.dev d) : I (s.withDev d) := by
  induction hd with
  | refl => exact hs
  | @tail d₁ d₂ _ hlast ih => exact h (s.withDev d₁) d₂ ih hlast

theorem EventStable.and {I J : Sd δ → Prop} (hI : EventStable event I) (hJ : EventStable event J) :
    EventStable event fun s => I s ∧ J s :=
  fun s d h he => ⟨hI s d h.1 he, hJ s d h.2 he⟩

theorem EventStable.imp {I : Sd δ → Prop} (P : Prop) (hI : EventStable event I) :
    EventStable event fun s => P → I s :=
  fun s d h he hP => hI s d (h hP) he

/-- No assertion about the states in between. -/
abbrev Sure (event : δ → δ → Prop) (answer : Device δ) (p : SdProg α) (s : Sd δ)
    (Q : α → Sd δ → Prop) : Prop :=
  Holds (sdAct (eventful event answer)) (fun _ => True) Q p s

/-- Reading the status registers keeps an assertion. -/
def ReadStable (answer : Device δ) (I : Sd δ → Prop) : Prop :=
  ∀ e s (r : e.Answer) d, Polling e → I s → answer e s.dev r d → I (s.after d e)

namespace Sure

theorem ret {a : α} {Q : α → Sd δ → Prop} (h : Q a s) : Sure event answer (pure a) s Q := h

/-- One action, from an assertion that the device's events keep. -/
theorem step {I : Sd δ → Prop} {e : SdAction} {f : e.Answer → SdProg β} {Q : β → Sd δ → Prop}
    (hs : I s) (hI : EventStable event I)
    (h : ∀ s, I s → ∀ r d, s.Answers e r → answer e s.dev r d →
      Sure event answer (f r) (s.after d e) Q) : Sure event answer (sd e >>= f) s Q := by
  refine Holds.step trivial fun r s' hact => ?_
  obtain ⟨hr, d, ⟨d₁, hev, hans⟩, rfl⟩ := hact
  have hafter : s.after d e = (s.withDev d₁).after d e := by cases e <;> rfl
  have hown : (s.withDev d₁).Answers e r := by cases e <;> exact hr
  rw [hafter]
  exact h _ (hI.many hs hev) r d hown hans

theorem perform {I : Sd δ → Prop} {e : SdAction} {Q : e.Answer → Sd δ → Prop}
    (hs : I s) (hI : EventStable event I)
    (h : ∀ s, I s → ∀ r d, s.Answers e r → answer e s.dev r d → Q r (s.after d e)) :
    Sure event answer (sd e) s Q :=
  step (f := pure) hs hI h

theorem bind {p : SdProg α} {f : α → SdProg β} {Q : α → Sd δ → Prop} {Q' : β → Sd δ → Prop}
    (hp : Sure event answer p s Q) (hf : ∀ a s', Q a s' → Sure event answer (f a) s' Q') :
    Sure event answer (p >>= f) s Q' := Holds.bind hp hf

theorem mono {p : SdProg α} {Q Q' : α → Sd δ → Prop} (hp : Sure event answer p s Q)
    (h : ∀ a s, Q a s → Q' a s) : Sure event answer p s Q' :=
  Holds.mono hp (fun _ h => h) h

/-- A device that answers in fewer ways. -/
theorem restrict {answer' : Device δ} {p : SdProg α} {Q : α → Sd δ → Prop}
    (hp : Sure event answer p s Q) (h : ∀ e d r d', answer' e d r d' → answer e d r d') :
    Sure event answer' p s Q := by
  refine Holds.restrict hp ?_
  rintro e s r s' ⟨hr, d, ⟨d₁, hev, hans⟩, rfl⟩
  exact ⟨hr, d, ⟨d₁, hev, h e d₁ r d hans⟩, rfl⟩

/-- What the device's events and the actions in `P` keep, a program of such actions
keeps. -/
theorem only {P : SdAction → Prop} {p : SdProg α} {I : Sd δ → Prop} (hp : Only P p) (hs : I s)
    (hI : EventStable event I)
    (hkeep : ∀ e s (r : e.Answer) d, P e → I s → answer e s.dev r d → I (s.after d e)) :
    Sure event answer p s fun _ s' => I s' := by
  induction p generalizing s with
  | ret a => exact hs
  | vis e k ih =>
    exact step hs hI fun s hs r d _ hans => ih r (hp.2 r) (hkeep e s r d hp.1 hs hans)

theorem polling {p : SdProg α} {I : Sd δ → Prop} (hp : Only Polling p) (hs : I s)
    (hI : EventStable event I) (hread : ReadStable answer I) :
    Sure event answer p s fun _ s' => I s' := only hp hs hI hread

/-- A wait that ends without an error has seen one of its bits, and knows what the
bit says. -/
theorem waitStatus {I F : Sd δ → Prop} {mask : U16} (hI : EventStable event I)
    (hread : ReadStable answer I) (hF : EventStable event F) (hreadF : ReadStable answer F)
    (hsee : ∀ s r d, I s → answer (.read .normalInterruptStatus) s.dev r d → r &&& mask ≠ 0 →
      F (s.withDev d)) : ∀ (n : ℕ) (s : Sd δ), I s →
    Sure event answer (waitStatus mask n) s fun r s' => I s' ∧ (r.2 = 0 → F s') := by
  intro n
  induction n with
  | zero => exact fun s hs => step hs hI fun _ _ e => nomatch e
  | succ n ih =>
    intro s hs
    refine step hs hI fun s hs normalStatus d _ hans => ?_
    have hpoll : Polling (.read .normalInterruptStatus) := polling_read (by decide)
    have hI' := hread _ s normalStatus d hpoll hs hans
    refine step (I := fun s => I s ∧ (normalStatus &&& mask ≠ 0 → F s))
      ⟨hI', fun hbit => hsee s normalStatus d hs hans hbit⟩ (hI.and (hF.imp _))
      fun s h errorStatus d _ hans => ?_
    have hpoll : Polling (.read .errorInterruptStatus) := polling_read (by decide)
    split
    · exact ih _ (hread _ s errorStatus d hpoll h.1 hans)
    · rename_i hnot
      refine ret ⟨hread _ s errorStatus d hpoll h.1 hans, fun herr => ?_⟩
      exact hreadF _ s errorStatus d hpoll (h.2 fun hbit => hnot ⟨hbit, herr⟩) hans

/-- A wait that ends with an error knows what the error status says. -/
theorem waitStatus_error {I : Sd δ → Prop} {G : U16 → Sd δ → Prop} (mask : U16)
    (hI : EventStable event I) (hread : ReadStable answer I)
    (hsee : ∀ s r d, I s → answer (.read .errorInterruptStatus) s.dev r d → r ≠ 0 →
      G r (s.withDev d)) : ∀ (n : ℕ) (s : Sd δ), I s →
    Sure event answer (GamingConsole.waitStatus mask n) s fun r s' => r.2 ≠ 0 → G r.2 s' := by
  intro n
  induction n with
  | zero => exact fun s hs => step hs hI fun _ _ e => nomatch e
  | succ n ih =>
    intro s hs
    refine step hs hI fun s hs normalStatus d _ hans => ?_
    refine step (hread _ s normalStatus d (polling_read (by decide)) hs hans) hI
      fun s hs errorStatus d _ hans => ?_
    split
    · exact ih _ (hread _ s errorStatus d (polling_read (by decide)) hs hans)
    · exact ret fun hne => hsee s errorStatus d hs hans hne

end Sure

end GamingConsole
