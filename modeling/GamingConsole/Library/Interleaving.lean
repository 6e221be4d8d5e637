/-
Programs run one action at a time among other programs.

A `System` gives each thread a way to answer actions, a choice of programs to
start, and an environment (hardware) that may change the shared state on its
own.  `Step` interleaves all of it at the granularity of single actions.

Reasoning is by rely and guarantee.  `Safe rely guar act Q p s` says of one
program, from state `s`: whatever steps in `rely` the others take between two of
its actions, each of its own actions is in `guar`, and if it returns then `Q`
holds.  It has a rule for each way of building a program, a frame rule
(`Safe.frame`), and `Reach.safe` puts the threads together: if every program a
thread may start is safe, the invariant holds in every reachable state.
-/
import GamingConsole.Library.Prog
import Mathlib.Logic.Relation
import Mathlib.Logic.Function.Basic
import Mathlib.Data.Nat.Notation

open Relation

namespace Prog

variable {E : Type} {R : E → Type} {α β σ : Type}

/-- `p` keeps the guarantee and ends in `Q`, under interference in `rely`. -/
def Safe (rely guar : σ → σ → Prop) (act : (e : E) → σ → R e → σ → Prop)
    (Q : α → σ → Prop) : Prog E R α → σ → Prop
  | .ret a, s => ∀ s', ReflTransGen rely s s' → Q a s'
  | .vis e k, s => ∀ s', ReflTransGen rely s s' → ∀ r s'', act e s' r s'' →
      guar s' s'' ∧ Safe rely guar act Q (k r) s''

variable {rely guar guar' : σ → σ → Prop} {act : (e : E) → σ → R e → σ → Prop}
  {Q Q' : α → σ → Prop} {p : Prog E R α} {s s' : σ}

/-- `P` survives the steps of the others. -/
def Stable (rely : σ → σ → Prop) (P : σ → Prop) : Prop := ∀ s s', P s → rely s s' → P s'

theorem Stable.many {P : σ → Prop} (hstable : Stable rely P) (hs : P s)
    (hrely : ReflTransGen rely s s') : P s' := by
  induction hrely with
  | refl => exact hs
  | tail _ hlast ih => exact hstable _ _ ih hlast

theorem Safe.of_rely_many (hp : Safe rely guar act Q p s) (hrely : ReflTransGen rely s s') :
    Safe rely guar act Q p s' := by
  cases p with
  | ret a => exact fun s'' h => hp s'' (hrely.trans h)
  | vis e k => exact fun s'' h => hp s'' (hrely.trans h)

theorem Safe.of_rely (hp : Safe rely guar act Q p s) (hrely : rely s s') :
    Safe rely guar act Q p s' :=
  hp.of_rely_many (ReflTransGen.single hrely)

theorem Safe.ret {P : σ → Prop} {a : α} (hs : P s) (hstable : Stable rely P)
    (h : ∀ s, P s → Q a s) : Safe rely guar act Q (pure a) s :=
  fun s' hrely => h s' (hstable.many hs hrely)

/-- One action, from the stable assertion `P`. -/
theorem Safe.step {P : σ → Prop} {e : E} {f : R e → Prog E R α} (hs : P s)
    (hstable : Stable rely P)
    (h : ∀ s, P s → ∀ r s', act e s r s' → guar s s' ∧ Safe rely guar act Q (f r) s') :
    Safe rely guar act Q (Prog.perform e >>= f) s :=
  fun s' hrely r s'' hact => h s' (hstable.many hs hrely) r s'' hact

theorem Safe.perform {P : σ → Prop} {e : E} {Q : R e → σ → Prop} (hs : P s)
    (hstable : Stable rely P) (hQ : ∀ r, Stable rely (Q r))
    (h : ∀ s, P s → ∀ r s', act e s r s' → guar s s' ∧ Q r s') :
    Safe rely guar act Q (Prog.perform e) s := by
  intro s' hrely r s'' hact
  obtain ⟨h1, h2⟩ := h s' (hstable.many hs hrely) r s'' hact
  exact ⟨h1, fun s₃ hr => (hQ r).many h2 hr⟩

theorem Safe.bind {f : α → Prog E R β} {Q' : β → σ → Prop} (hp : Safe rely guar act Q p s)
    (hf : ∀ a s', Q a s' → Safe rely guar act Q' (f a) s') :
    Safe rely guar act Q' (p >>= f) s := by
  induction p generalizing s with
  | ret a => exact hf a s (hp s ReflTransGen.refl)
  | vis e k ih =>
    intro s' hrely r s'' hact
    obtain ⟨h1, h2⟩ := hp s' hrely r s'' hact
    exact ⟨h1, ih r h2⟩

theorem Safe.mono (hp : Safe rely guar act Q p s) (hguar : ∀ s s', guar s s' → guar' s s')
    (hQ : ∀ a s, Q a s → Q' a s) : Safe rely guar' act Q' p s := by
  induction p generalizing s with
  | ret a => exact fun s' hrely => hQ a s' (hp s' hrely)
  | vis e k ih =>
    intro s' hrely r s'' hact
    obtain ⟨h1, h2⟩ := hp s' hrely r s'' hact
    exact ⟨hguar _ _ h1, ih r h2⟩

/-- **Frame rule**: what neither the others nor the program's own steps change
holds to the end. -/
theorem Safe.frame {A : σ → Prop} (hp : Safe rely guar act Q p s) (hA : A s)
    (hstable : Stable rely A) (hkeep : Stable guar A) :
    Safe rely guar act (fun a s => Q a s ∧ A s) p s := by
  induction p generalizing s with
  | ret a => exact fun s' hrely => ⟨hp s' hrely, hstable.many hA hrely⟩
  | vis e k ih =>
    intro s' hrely r s'' hact
    obtain ⟨h1, h2⟩ := hp s' hrely r s'' hact
    exact ⟨h1, ih r h2 (hkeep _ _ (hstable.many hA hrely) h1)⟩

/-- A safe program that is left alone runs to its end, if it can always take a step. -/
theorem Safe.yields {H : (e : E) → σ → Option (R e × σ)} {inv : σ → Prop}
    (hp : Safe rely guar act Q p s) (hs : inv s)
    (hact : ∀ e s r s', H e s = some (r, s') → act e s r s')
    (hcan : ∀ e s, inv s → ∃ r s', H e s = some (r, s')) (hguar : ∀ s s', guar s s' → inv s') :
    Yields H p s fun a s' =>
      Q a s' ∧ ReflTransGen (fun s s' => guar s s' ∧ ∃ e r, H e s = some (r, s')) s s' := by
  induction p generalizing s with
  | ret a => exact ⟨a, s, rfl, hp s .refl, .refl⟩
  | vis e k ih =>
    obtain ⟨r, s₁, hH⟩ := hcan e s hs
    obtain ⟨hstep, hrest⟩ := hp s .refl r s₁ (hact e s r s₁ hH)
    refine Yields.step (f := k) hH (Yields.mono (ih r hrest (hguar s s₁ hstep)) ?_)
    rintro a s' ⟨hQ, hpath⟩
    exact ⟨hQ, .head ⟨hstep, e, r, hH⟩ hpath⟩

end Prog

namespace Interleaving

open Prog

variable {T E : Type} {R : E → Type} {σ Op : Type} [DecidableEq T]

/-- Threads, the programs they may start, and the environment. -/
structure System (T E : Type) (R : E → Type) (σ Op : Type) where
  handler : T → (e : E) → σ → Option (R e × σ)
  prog : Op → Prog E R Unit
  allowed : T → Op → σ → Prop
  env : σ → σ → Prop

/-- A state of the whole system: the shared state, and what each thread still
has to run (`none` for an idle thread). -/
structure Config (T E : Type) (R : E → Type) (σ : Type) where
  shared : σ
  threads : T → Option (Prog E R Unit)

variable (S : System T E R σ Op) (ok : T → E → σ → Prop)

/-- One step of the system: an idle thread starts a program, a thread performs
one action that `ok` admits, a thread that has returned becomes idle, or the
environment moves. -/
inductive Step : Config T E R σ → Config T E R σ → Prop where
  | call {c : Config T E R σ} (t : T) (op : Op) (hidle : c.threads t = none)
      (hop : S.allowed t op c.shared) :
      Step c { c with threads := Function.update c.threads t (some (S.prog op)) }
  | act {c : Config T E R σ} (t : T) (e : E) (k : R e → Prog E R Unit) (r : R e) (s' : σ)
      (hprog : c.threads t = some (.vis e k)) (hok : ok t e c.shared)
      (hstep : S.handler t e c.shared = some (r, s')) :
      Step c { shared := s', threads := Function.update c.threads t (some (k r)) }
  | done {c : Config T E R σ} (t : T) (hprog : c.threads t = some (.ret ())) :
      Step c { c with threads := Function.update c.threads t none }
  | env {c : Config T E R σ} (s' : σ) (henv : S.env c.shared s') : Step c { c with shared := s' }

/-- `c'` is reached from `c`. -/
abbrev Reach : Config T E R σ → Config T E R σ → Prop := ReflTransGen (Step S ok)

/-- The actions of thread `t` that `ok` admits. -/
def actOf (t : T) (e : E) (s : σ) (r : R e) (s' : σ) : Prop :=
  ok t e s ∧ S.handler t e s = some (r, s')

variable (inv : σ → Prop) (foot : T → σ → σ → Prop)

/-- What thread `t` promises of each of its steps. -/
def guarOf (t : T) (s s' : σ) : Prop := inv s' ∧ foot t s s'

/-- What thread `t` expects of the others and of the environment. -/
def relyOf (t : T) (s s' : σ) : Prop := inv s' ∧ ((∃ u, u ≠ t ∧ foot u s s') ∨ S.env s s')

/-- What is known of thread `t` between steps: it is idle, or safe to go on. -/
def ThreadSafe (idle : T → σ → Prop) (c : Config T E R σ) (t : T) : Prop :=
  match c.threads t with
  | none => idle t c.shared
  | some p => Safe (relyOf S inv foot t) (guarOf inv foot t) (actOf S ok t)
      (fun _ s => idle t s) p c.shared

variable {S ok inv foot} {idle : T → σ → Prop} {c c' : Config T E R σ}

omit [DecidableEq T] in
/-- A step of another thread or of the environment leaves `t` safe. -/
theorem ThreadSafe.of_rely {t : T} {s' : σ}
    (hidle : ∀ t, Stable (relyOf S inv foot t) (idle t))
    (ht : ThreadSafe S ok inv foot idle c t) (hrely : relyOf S inv foot t c.shared s')
    {threads : T → Option (Prog E R Unit)} (hthreads : threads t = c.threads t) :
    ThreadSafe S ok inv foot idle { shared := s', threads := threads } t := by
  rw [ThreadSafe] at ht ⊢
  simp only [hthreads]
  rcases hp : c.threads t with _ | p
  · rw [hp] at ht
    exact hidle t _ _ ht hrely
  · rw [hp] at ht
    exact ht.of_rely hrely

/-- **Putting the threads together.**  If every program that may be started is
safe, then in every reachable state the invariant holds and every thread is
safe. -/
theorem Reach.safe (hidle : ∀ t, Stable (relyOf S inv foot t) (idle t))
    (henv : ∀ s s', inv s → S.env s s' → inv s')
    (hop : ∀ t op s, inv s → idle t s → S.allowed t op s →
      Safe (relyOf S inv foot t) (guarOf inv foot t) (actOf S ok t) (fun _ s => idle t s)
        (S.prog op) s)
    (hreach : Reach S ok c c') (hinv : inv c.shared)
    (hstart : ∀ t, ThreadSafe S ok inv foot idle c t) :
    inv c'.shared ∧ ∀ t, ThreadSafe S ok inv foot idle c' t := by
  induction hreach with
  | refl => exact ⟨hinv, hstart⟩
  | @tail c c' _ hlast ih =>
    obtain ⟨ihinv, ihsafe⟩ := ih
    cases hlast with
    | call t op hnone hallowed =>
      refine ⟨ihinv, fun u => ?_⟩
      by_cases hu : u = t
      · subst hu
        have hu := ihsafe u
        rw [ThreadSafe, hnone] at hu
        rw [ThreadSafe]
        simp only [Function.update_self]
        -- a program starts in what its thread is idle in
        exact hop u op _ ihinv hu hallowed
      · have hu' := ihsafe u
        rw [ThreadSafe] at hu' ⊢
        simpa only [Function.update_of_ne hu] using hu'
    | act t e k r s' hprog hok hstep =>
      have ht := ihsafe t
      rw [ThreadSafe, hprog] at ht
      -- the guarantee of one thread is part of the rely of the others
      obtain ⟨hguar, hrest⟩ := ht _ ReflTransGen.refl r s' ⟨hok, hstep⟩
      refine ⟨hguar.1, fun u => ?_⟩
      by_cases hu : u = t
      · subst hu
        rw [ThreadSafe]
        simp only [Function.update_self]
        exact hrest
      · exact (ihsafe u).of_rely hidle ⟨hguar.1, Or.inl ⟨t, fun h => hu h.symm, hguar.2⟩⟩
          (Function.update_of_ne hu _ _)
    | done t hprog =>
      refine ⟨ihinv, fun u => ?_⟩
      by_cases hu : u = t
      · subst hu
        have ht := ihsafe u
        rw [ThreadSafe, hprog] at ht
        rw [ThreadSafe]
        simp only [Function.update_self]
        exact ht _ ReflTransGen.refl
      · have hu' := ihsafe u
        rw [ThreadSafe] at hu' ⊢
        simpa only [Function.update_of_ne hu] using hu'
    | env s' he =>
      have hinv' := henv _ _ ihinv he
      exact ⟨hinv', fun u => (ihsafe u).of_rely hidle ⟨hinv', Or.inr he⟩ rfl⟩

/-! ### Uninterrupted execution -/

/-- `H` performs only actions of thread `t` that `ok` admits. -/
def Admits (S : System T E R σ Op) (ok : T → E → σ → Prop) (t : T)
    (H : (e : E) → σ → Option (R e × σ)) : Prop :=
  ∀ e s r s', H e s = some (r, s') → ok t e s ∧ S.handler t e s = some (r, s')

/-- An idle thread runs a whole program without being interrupted. -/
theorem Reach.exec {t : T} {H : (e : E) → σ → Option (R e × σ)} (hH : Admits S ok t H) :
    ∀ {p : Prog E R Unit} {c : Config T E R σ} {s' : σ},
    c.threads t = some p → run H p c.shared = some ((), s') →
    Reach S ok c { shared := s', threads := Function.update c.threads t none } := by
  intro p
  induction p with
  | ret a =>
    intro c s' hp h
    rw [run_ret, Option.some_inj, Prod.mk.injEq] at h
    obtain ⟨-, rfl⟩ := h
    exact ReflTransGen.single (.done t hp)
  | vis e k ih =>
    intro c s' hp h
    rw [run] at h
    rcases he : H e c.shared with _ | ⟨r, s₁⟩
    · rw [he] at h
      exact absurd h (by simp)
    · rw [he] at h
      obtain ⟨hok, hstep⟩ := hH e c.shared r s₁ he
      have hrest := ih r
        (c := { shared := s₁, threads := Function.update c.threads t (some (k r)) })
        (Function.update_self _ _ _) h
      rw [Function.update_idem] at hrest
      exact ReflTransGen.head (.act t e k r s₁ hp hok hstep) hrest

/-- A whole call, from idle to idle. -/
theorem Reach.call {t : T} {op : Op} {c : Config T E R σ} {s' : σ}
    {H : (e : E) → σ → Option (R e × σ)} (hH : Admits S ok t H) (hidle : c.threads t = none)
    (hop : S.allowed t op c.shared) (hrun : run H (S.prog op) c.shared = some ((), s')) :
    Reach S ok c { c with shared := s' } := by
  have hexec := Reach.exec (S := S) hH
    (c := { c with threads := Function.update c.threads t (some (S.prog op)) })
    (Function.update_self _ _ _) hrun
  rw [Function.update_idem, ← hidle, Function.update_eq_self] at hexec
  exact ReflTransGen.head (.call t op hidle hop) hexec

end Interleaving
