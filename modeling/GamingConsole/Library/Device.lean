/-
Programs that talk to a device.

A device is a relation: `act e s r s'` says that in state `s` the action `e` can
be answered `r`, leaving `s'`.  Nothing is said about which of several answers is
given, so one relation stands for every behaviour and every timing.

* `Runs` — some of the program's actions, in order; `Returns` when they are all;
* `Holds` — what is true of every run: `I` for as long as the program runs and `Q`
  when it returns, with a rule for each way of building a program;
* `Holds.of_runs`, `Holds.of_returns` — from the second to the first;
* `Might` — what the device can bring about: a run that returns, with `Q`;
* `Only` — every action a program can perform is of a kind, so that what such
  actions keep is an invariant of its runs (`Only.holds`).
-/
import GamingConsole.Library.Prog

namespace Prog

variable {E : Type} {R : E → Type} {α β σ : Type}

/-- `p`, started in `s`, can get as far as `q` in `s'`. -/
inductive Runs (act : (e : E) → σ → R e → σ → Prop) :
    Prog E R α → σ → Prog E R α → σ → Prop where
  | refl (p : Prog E R α) (s : σ) : Runs act p s p s
  | step {e : E} {k : R e → Prog E R α} {r : R e} {s s₁ s' : σ} {q : Prog E R α}
      (hact : act e s r s₁) (hrest : Runs act (k r) s₁ q s') : Runs act (.vis e k) s q s'

/-- `p`, started in `s`, can return `a` in `s'`. -/
def Returns (act : (e : E) → σ → R e → σ → Prop) (p : Prog E R α) (s : σ) (a : α) (s' : σ) :
    Prop := Runs act p s (.ret a) s'

/-- In every run of `p`, `I` holds until the program returns, and then `Q`. -/
def Holds (act : (e : E) → σ → R e → σ → Prop) (I : σ → Prop) (Q : α → σ → Prop) :
    Prog E R α → σ → Prop
  | .ret a, s => Q a s
  | .vis e k, s => I s ∧ ∀ r s', act e s r s' → Holds act I Q (k r) s'

variable {act : (e : E) → σ → R e → σ → Prop} {I J : σ → Prop} {Q Q' : α → σ → Prop}
  {p q : Prog E R α} {s s' : σ} {a : α}

/-! ### Runs -/

theorem Runs.trans {s'' : σ} {q' : Prog E R α} (h : Runs act p s q s')
    (h' : Runs act q s' q' s'') : Runs act p s q' s'' := by
  induction h with
  | refl => exact h'
  | step hact _ ih => exact .step hact (ih h')

theorem Runs.bind (f : α → Prog E R β) (h : Runs act p s q s') :
    Runs act (p >>= f) s (q >>= f) s' := by
  induction h with
  | refl => exact .refl _ _
  | step hact _ ih => exact .step hact ih

theorem Returns.ret (a : α) (s : σ) : Returns act (pure a : Prog E R α) s a s := .refl _ _

theorem Returns.perform {e : E} {r : R e} (h : act e s r s') :
    Returns act (Prog.perform e) s r s' := .step h (.refl _ _)

/-- A sequence returns what its second part does. -/
theorem Returns.bind {f : α → Prog E R β} {b : β} {s'' : σ} (h : Returns act p s a s')
    (h' : Returns act (f a) s' b s'') : Returns act (p >>= f) s b s'' :=
  (Runs.bind f h).trans h'

theorem Returns.step {e : E} {f : R e → Prog E R β} {r : R e} {b : β} {s'' : σ}
    (h : act e s r s') (h' : Returns act (f r) s' b s'') :
    Returns act (Prog.perform e >>= f) s b s'' :=
  Returns.bind (.perform h) h'

/-- A run that has been evaluated, on a handler that answers as the device may. -/
theorem Returns.of_run {H : (e : E) → σ → Option (R e × σ)}
    (hH : ∀ e s r s', H e s = some (r, s') → act e s r s') (h : run H p s = some (a, s')) :
    Returns act p s a s' := by
  induction p generalizing s with
  | ret b =>
    rw [run_ret, Option.some_inj, Prod.mk.injEq] at h
    obtain ⟨rfl, rfl⟩ := h
    exact .refl _ _
  | vis e k ih =>
    rw [run] at h
    rcases he : H e s with _ | ⟨r, s₁⟩
    · rw [he] at h
      exact absurd h (by simp)
    · rw [he] at h
      exact .step (hH e s r s₁ he) (ih r h)

/-! ### All runs -/

theorem Holds.ret (h : Q a s) : Holds act I Q (pure a) s := h

theorem Holds.perform {e : E} {Q : R e → σ → Prop} (hI : I s) (h : ∀ r s', act e s r s' → Q r s') :
    Holds act I Q (Prog.perform e) s := ⟨hI, h⟩

theorem Holds.bind {f : α → Prog E R β} {Q' : β → σ → Prop} (hp : Holds act I Q p s)
    (hf : ∀ a s', Q a s' → Holds act I Q' (f a) s') : Holds act I Q' (p >>= f) s := by
  induction p generalizing s with
  | ret a => exact hf a s hp
  | vis e k ih => exact ⟨hp.1, fun r s' hact => ih r (hp.2 r s' hact)⟩

/-- The first part of a sequence is one action. -/
theorem Holds.step {e : E} {f : R e → Prog E R β} {Q' : β → σ → Prop} (hI : I s)
    (h : ∀ r s', act e s r s' → Holds act I Q' (f r) s') :
    Holds act I Q' (Prog.perform e >>= f) s := ⟨hI, h⟩

theorem Holds.mono (hp : Holds act I Q p s) (hI : ∀ s, I s → J s)
    (hQ : ∀ a s, Q a s → Q' a s) : Holds act J Q' p s := by
  induction p generalizing s with
  | ret a => exact hQ a s hp
  | vis e k ih => exact ⟨hI s hp.1, fun r s' hact => ih r (hp.2 r s' hact)⟩

/-- A device that can do less. -/
theorem Holds.restrict {act' : (e : E) → σ → R e → σ → Prop} (hp : Holds act I Q p s)
    (h : ∀ e s r s', act' e s r s' → act e s r s') : Holds act' I Q p s := by
  induction p generalizing s with
  | ret a => exact hp
  | vis e k ih => exact ⟨hp.1, fun r s' hact => ih r (hp.2 r s' (h e s r s' hact))⟩

theorem Holds.and (hp : Holds act I Q p s) (hp' : Holds act J Q' p s) :
    Holds act (fun s => I s ∧ J s) (fun a s => Q a s ∧ Q' a s) p s := by
  induction p generalizing s with
  | ret a => exact ⟨hp, hp'⟩
  | vis e k ih =>
    exact ⟨⟨hp.1, hp'.1⟩, fun r s' hact => ih r (hp.2 r s' hact) (hp'.2 r s' hact)⟩

theorem Holds.of_runs (hp : Holds act I Q p s) (h : Runs act p s q s') : Holds act I Q q s' := by
  induction h with
  | refl => exact hp
  | step hact _ ih => exact ih (hp.2 _ _ hact)

theorem Holds.of_returns (hp : Holds act I Q p s) (h : Returns act p s a s') : Q a s' :=
  hp.of_runs h

/-! ### Some run -/

/-- The device can make `p` return, in a result and a state that satisfy `Q`. -/
def Might (act : (e : E) → σ → R e → σ → Prop) (p : Prog E R α) (s : σ) (Q : α → σ → Prop) :
    Prop := ∃ a s', Returns act p s a s' ∧ Q a s'

theorem Might.ret (h : Q a s) : Might act (pure a) s Q := ⟨a, s, .ret a s, h⟩

theorem Might.bind {f : α → Prog E R β} {Q' : β → σ → Prop} (hp : Might act p s Q)
    (hf : ∀ a s', Q a s' → Might act (f a) s' Q') : Might act (p >>= f) s Q' := by
  obtain ⟨a, s', hret, ha⟩ := hp
  obtain ⟨b, s'', hret', hb⟩ := hf a s' ha
  exact ⟨b, s'', hret.bind hret', hb⟩

/-- The device chooses the answer to the first action. -/
theorem Might.step {e : E} {f : R e → Prog E R β} {Q' : β → σ → Prop} {r : R e}
    (hact : act e s r s') (hf : Might act (f r) s' Q') : Might act (Prog.perform e >>= f) s Q' := by
  obtain ⟨b, s'', hret, hb⟩ := hf
  exact ⟨b, s'', .step hact hret, hb⟩

/-! ### Programs that only do some things -/

/-- Every action that `p` can perform is in `P`. -/
def Only (P : E → Prop) : Prog E R α → Prop
  | .ret _ => True
  | .vis e k => P e ∧ ∀ r, Only P (k r)

variable {P P' : E → Prop}

theorem Only.ret (a : α) : Only P (pure a : Prog E R α) := trivial

theorem Only.perform {e : E} (h : P e) : Only P (Prog.perform e : Prog E R (R e)) :=
  ⟨h, fun _ => trivial⟩

theorem Only.bind {f : α → Prog E R β} (hp : Only P p) (hf : ∀ a, Only P (f a)) :
    Only P (p >>= f) := by
  induction p with
  | ret a => exact hf a
  | vis e k ih => exact ⟨hp.1, fun r => ih r (hp.2 r)⟩

theorem Only.step {e : E} {f : R e → Prog E R β} (he : P e) (hf : ∀ r, Only P (f r)) :
    Only P (Prog.perform e >>= f) := ⟨he, hf⟩

theorem Only.ite {c : Prop} [Decidable c] (hp : Only P p) (hq : Only P q) :
    Only P (if c then p else q) := by
  split
  · exact hp
  · exact hq

theorem Only.mono (hp : Only P p) (h : ∀ e, P e → P' e) : Only P' p := by
  induction p with
  | ret a => trivial
  | vis e k ih => exact ⟨h e hp.1, fun r => ih r (hp.2 r)⟩

theorem Only.holds (hp : Only P p) (hs : I s)
    (hkeep : ∀ e s r s', P e → I s → act e s r s' → I s') :
    Holds act I (fun _ s => I s) p s := by
  induction p generalizing s with
  | ret a => exact hs
  | vis e k ih => exact ⟨hs, fun r s' hact => ih r (hp.2 r) (hkeep e s r s' hp.1 hs hact)⟩

end Prog
