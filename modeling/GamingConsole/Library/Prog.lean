/-
Programs over atomic actions.

`Prog E R α` is a finite tree: a program either returns a value of type `α` or
asks for an action `e : E` and goes on with the answer, of type `R e`.  The same
tree is read in two ways: run alone (`run`, here), and one action at a time
among other programs (`Interleaving.lean`).

* `interp` — every action of a program replaced by a program of smaller ones;
* `run_bind` — running a sequence is running its parts in order;
* `Yields` — total correctness of a run, with a rule for each way of building a
  program; `Yields.of_run` turns it into a statement about a given run.
-/
import Mathlib.Data.Option.Basic

/-- A program that performs actions in `E`, answered in `R`, and returns an `α`. -/
inductive Prog (E : Type) (R : E → Type) (α : Type) : Type where
  | ret (a : α)
  | vis (e : E) (k : R e → Prog E R α)

namespace Prog

variable {E : Type} {R : E → Type} {α β σ : Type}

/-- Sequencing: the leaves of the first program are replaced by the second. -/
protected def bind : Prog E R α → (α → Prog E R β) → Prog E R β
  | .ret a, f => f a
  | .vis e k, f => .vis e fun r => (k r).bind f

instance : Monad (Prog E R) where
  pure := .ret
  bind := Prog.bind

/-- The program that performs one action. -/
def perform (e : E) : Prog E R (R e) := .vis e .ret

theorem pure_bind' (a : α) (f : α → Prog E R β) : (pure a : Prog E R α) >>= f = f a := rfl

theorem vis_bind (e : E) (k : R e → Prog E R α) (f : α → Prog E R β) :
    (Prog.vis e k) >>= f = .vis e fun r => k r >>= f := rfl

theorem perform_bind (e : E) (f : R e → Prog E R β) :
    (perform e : Prog E R (R e)) >>= f = .vis e f := rfl

theorem bind_assoc' {γ : Type} (p : Prog E R α) (f : α → Prog E R β) (g : β → Prog E R γ) :
    (p >>= f) >>= g = p >>= fun a => f a >>= g := by
  induction p with
  | ret a => rfl
  | vis e k ih => exact congrArg (Prog.vis e) (funext ih)

/-- Each action is replaced by a program that answers it. -/
def interp {E' : Type} {R' : E' → Type} (f : (e : E) → Prog E' R' (R e)) :
    Prog E R α → Prog E' R' α
  | .ret a => .ret a
  | .vis e k => f e >>= fun r => (k r).interp f

theorem interp_bind {E' : Type} {R' : E' → Type} (g : (e : E) → Prog E' R' (R e)) (p : Prog E R α)
    (f : α → Prog E R β) : (p >>= f).interp g = p.interp g >>= fun a => (f a).interp g := by
  induction p with
  | ret a => rfl
  | vis e k ih =>
    show (g e >>= fun r => (k r >>= f).interp g) = (g e >>= fun r => (k r).interp g) >>= _
    rw [bind_assoc']
    exact congrArg (g e >>= ·) (funext ih)

/-! ### Running alone -/

/-- Run a program, `H` answering its actions; `none` when an action has no
answer. -/
def run (H : (e : E) → σ → Option (R e × σ)) : Prog E R α → σ → Option (α × σ)
  | .ret a, s => some (a, s)
  | .vis e k, s =>
    match H e s with
    | none => none
    | some (r, s') => run H (k r) s'

variable {H : (e : E) → σ → Option (R e × σ)}

@[simp] theorem run_ret (a : α) (s : σ) : run H (.ret a) s = some (a, s) := rfl

@[simp] theorem run_pure (a : α) (s : σ) : run H (pure a) s = some (a, s) := rfl

theorem run_bind (p : Prog E R α) (f : α → Prog E R β) (s : σ) :
    run H (p >>= f) s = (run H p s).bind fun x => run H (f x.1) x.2 := by
  induction p generalizing s with
  | ret a => rfl
  | vis e k ih =>
    rw [vis_bind, run, run]
    rcases H e s with _ | ⟨r, s'⟩
    · rfl
    · exact ih r s'

theorem run_bind_of_run {p : Prog E R α} {f : α → Prog E R β} {s s' : σ} {a : α}
    (h : run H p s = some (a, s')) : run H (p >>= f) s = run H (f a) s' := by
  rw [run_bind, h]
  rfl

theorem run_bind_eq_some {p : Prog E R α} {f : α → Prog E R β} {s s' : σ} {b : β}
    (h : run H (p >>= f) s = some (b, s')) :
    ∃ a s₁, run H p s = some (a, s₁) ∧ run H (f a) s₁ = some (b, s') := by
  rw [run_bind] at h
  obtain ⟨⟨a, s₁⟩, h1, h2⟩ := Option.bind_eq_some_iff.mp h
  exact ⟨a, s₁, h1, h2⟩

@[simp] theorem run_perform (e : E) (s : σ) :
    run H (perform e : Prog E R (R e)) s = H e s := by
  rw [perform, run]
  rcases H e s with _ | ⟨r, s'⟩ <;> rfl

/-! ### Total correctness of a run -/

/-- The run of `p` from `s` ends, in a result and a state that satisfy `Q`. -/
def Yields (H : (e : E) → σ → Option (R e × σ)) (p : Prog E R α) (s : σ)
    (Q : α → σ → Prop) : Prop :=
  ∃ a s', run H p s = some (a, s') ∧ Q a s'

variable {p : Prog E R α} {s : σ} {Q Q' : α → σ → Prop}

theorem Yields.ret {a : α} (h : Q a s) : Yields H (pure a) s Q := ⟨a, s, rfl, h⟩

theorem Yields.perform {e : E} {Q : R e → σ → Prop} {r : R e} {s' : σ} (hH : H e s = some (r, s'))
    (h : Q r s') : Yields H (perform e) s Q := ⟨r, s', by rw [run_perform, hH], h⟩

theorem Yields.bind {f : α → Prog E R β} {Q' : β → σ → Prop} (hp : Yields H p s Q)
    (hf : ∀ a s', Q a s' → Yields H (f a) s' Q') : Yields H (p >>= f) s Q' := by
  obtain ⟨a, s', hrun, ha⟩ := hp
  obtain ⟨b, s'', hrun', hb⟩ := hf a s' ha
  exact ⟨b, s'', by rw [run_bind_of_run hrun, hrun'], hb⟩

theorem Yields.mono (hp : Yields H p s Q) (h : ∀ a s', Q a s' → Q' a s') : Yields H p s Q' := by
  obtain ⟨a, s', hrun, ha⟩ := hp
  exact ⟨a, s', hrun, h a s' ha⟩

/-- The first part of a sequence is one action. -/
theorem Yields.step {e : E} {f : R e → Prog E R β} {Q' : β → σ → Prop} {r : R e} {s' : σ}
    (hH : H e s = some (r, s')) (hf : Yields H (f r) s' Q') :
    Yields H (Prog.perform e >>= f) s Q' := by
  obtain ⟨b, s'', hrun, hb⟩ := hf
  exact ⟨b, s'', by rw [run_bind_of_run (by rw [run_perform, hH]), hrun], hb⟩

theorem Yields.of_run {a : α} {s' : σ} (hp : Yields H p s Q) (hrun : run H p s = some (a, s')) :
    Q a s' := by
  obtain ⟨b, s'', hrun', hb⟩ := hp
  rw [hrun, Option.some_inj, Prod.mk.injEq] at hrun'
  obtain ⟨rfl, rfl⟩ := hrun'
  exact hb

end Prog
