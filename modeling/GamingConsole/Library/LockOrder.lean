/-
Programs that take their locks in order.

Taking a lock saves a mask (of interrupts, say), and releasing it puts the mask
back.  `Kind` says what an action means for the locks, and `InOrder` what a program
may do with them, whatever its actions are answered: it takes a lock only above all
those it holds, and gives them back innermost first, each with the mask that was
saved for it.

* `InOrder.bind`, `InOrder.acquire`, `InOrder.release`, `InOrder.other` — a rule for
  each way of building a program;
* `Machine` — a state with owners and masks on which threads run such programs, one
  action at a time (`Step`);
* **`Reach.sound`** — nobody waits for himself, nobody waits in a circle, and
  whoever returns or halts holds nothing and has the mask he came with.
-/
import GamingConsole.Library.Device
import Mathlib.Logic.Relation
import Mathlib.Logic.Function.Basic
import Mathlib.Data.Nat.Notation

namespace LockOrder

open Prog Relation

variable {E : Type} {R : E → Type} {L F T σ α β : Type}

/-- What an action means for the locks: it takes one, with the mask that was saved
among its answer, or releases one, with the mask to put back; it never returns; or
it does not touch them. -/
inductive Kind (L F A : Type) where
  | acquire (l : L) (saved : A → F)
  | release (l : L) (saved : F)
  | halt
  | other

variable (kind : (e : E) → Kind L F (R e)) (rank : L → ℕ)

/-- `p`, holding these locks, the innermost first, keeps to the order and ends with
locks in `Q`. -/
def InOrder (Q : α → List (L × F) → Prop) : Prog E R α → List (L × F) → Prop
  | .ret a, held => Q a held
  | .vis e k, held =>
    match kind e with
    | .acquire l saved => (∀ h ∈ held, rank h.1 < rank l) ∧
      ∀ r, InOrder Q (k r) ((l, saved r) :: held)
    | .release l saved => ∃ rest, held = (l, saved) :: rest ∧ ∀ r, InOrder Q (k r) rest
    | .halt => held = []
    | .other => ∀ r, InOrder Q (k r) held

/-- `p` ends with the locks it started with. -/
abbrev Balanced (held : List (L × F)) (p : Prog E R α) : Prop :=
  InOrder kind rank (fun _ h => h = held) p held

variable {kind rank} {held : List (L × F)} {Q Q' : α → List (L × F) → Prop} {p : Prog E R α}
  {l : L} {t u : T}

/-! ### Programs -/

theorem InOrder.ret {a : α} (h : Q a held) : InOrder kind rank Q (pure a) held := h

theorem InOrder.bind {f : α → Prog E R β} {Q' : β → List (L × F) → Prop}
    (hp : InOrder kind rank Q p held)
    (hf : ∀ a held, Q a held → InOrder kind rank Q' (f a) held) :
    InOrder kind rank Q' (p >>= f) held := by
  induction p generalizing held with
  | ret a => exact hf a held hp
  | vis e k ih =>
    rw [vis_bind]
    rw [InOrder] at hp ⊢
    cases hk : kind e with
    | acquire l saved =>
      rw [hk] at hp
      exact ⟨hp.1, fun r => ih r (hp.2 r)⟩
    | release l saved =>
      rw [hk] at hp
      obtain ⟨rest, rfl, hrest⟩ := hp
      exact ⟨rest, rfl, fun r => ih r (hrest r)⟩
    | halt =>
      rw [hk] at hp
      exact hp
    | other =>
      rw [hk] at hp
      exact fun r => ih r (hp r)

/-- A part that ends with the locks it started with. -/
theorem Balanced.bind {f : α → Prog E R β} {Q' : β → List (L × F) → Prop}
    (hp : Balanced kind rank held p) (hf : ∀ a, InOrder kind rank Q' (f a) held) :
    InOrder kind rank Q' (p >>= f) held :=
  InOrder.bind hp fun a _ h => h ▸ hf a

theorem InOrder.acquire {e : E} {saved : R e → F} (he : kind e = .acquire l saved)
    {f : R e → Prog E R β} {Q' : β → List (L × F) → Prop}
    (hrank : ∀ h ∈ held, rank h.1 < rank l)
    (hf : ∀ r, InOrder kind rank Q' (f r) ((l, saved r) :: held)) :
    InOrder kind rank Q' (Prog.perform e >>= f) held := by
  rw [perform_bind, InOrder, he]
  exact ⟨hrank, hf⟩

theorem InOrder.release {e : E} {saved : F} (he : kind e = .release l saved)
    {f : R e → Prog E R β} {Q' : β → List (L × F) → Prop}
    (hf : ∀ r, InOrder kind rank Q' (f r) held) :
    InOrder kind rank Q' (Prog.perform e >>= f) ((l, saved) :: held) := by
  rw [perform_bind, InOrder, he]
  exact ⟨held, rfl, hf⟩

theorem InOrder.other {e : E} (he : kind e = .other) {f : R e → Prog E R β}
    {Q' : β → List (L × F) → Prop} (hf : ∀ r, InOrder kind rank Q' (f r) held) :
    InOrder kind rank Q' (Prog.perform e >>= f) held := by
  rw [perform_bind, InOrder, he]
  exact hf

theorem InOrder.halt {e : E} (he : kind e = .halt) {f : R e → Prog E R β}
    {Q' : β → List (L × F) → Prop} : InOrder kind rank Q' (Prog.perform e >>= f) [] := by
  rw [perform_bind, InOrder, he]

theorem Balanced.perform {e : E} (he : kind e = .other) :
    Balanced kind rank held (Prog.perform e) := by
  rw [Balanced, Prog.perform, InOrder, he]
  exact fun r => rfl

/-- Actions replaced by balanced programs. -/
theorem Balanced.interp {E₀ : Type} {R₀ : E₀ → Type} {f : (e : E₀) → Prog E R (R₀ e)}
    (hf : ∀ e, Balanced kind rank held (f e)) (p : Prog E₀ R₀ α) :
    Balanced kind rank held (p.interp f) := by
  induction p with
  | ret a => exact InOrder.ret rfl
  | vis e k ih => exact (hf e).bind ih

/-! ### Threads -/

/-- What the locks of a state do.  `inv` is kept by every action. -/
structure Machine (kind : (e : E) → Kind L F (R e)) (T σ : Type) [DecidableEq L]
    [DecidableEq T] where
  act : T → (e : E) → σ → R e → σ → Prop
  inv : σ → Prop
  owner : σ → L → Option T
  mask : σ → T → F
  inv_act : ∀ {t e s r s'}, inv s → act t e s r s' → inv s'
  acquire : ∀ {t e s r s' l saved}, inv s → act t e s r s' → kind e = .acquire l saved →
    owner s l = none ∧ owner s' = Function.update (owner s) l (some t) ∧ saved r = mask s t ∧
      ∀ u, u ≠ t → mask s' u = mask s u
  release : ∀ {t e s r s' l saved}, inv s → act t e s r s' → kind e = .release l saved →
    owner s' = Function.update (owner s) l none ∧ mask s' = Function.update (mask s) t saved
  halt : ∀ {t e s r s'}, act t e s r s' → kind e ≠ .halt
  other : ∀ {t e s r s'}, inv s → act t e s r s' → kind e = .other →
    owner s' = owner s ∧ mask s' = mask s

/-- A state and the threads: what each has still to run, and the mask it had when it
started. -/
structure Config (E : Type) (R : E → Type) (F T σ : Type) where
  shared : σ
  threads : T → Option (F × Prog E R Unit)

variable [DecidableEq L] [DecidableEq T] {Op : Type}

/-- An idle thread starts an operation, a thread performs an action, or returns. -/
inductive Step (M : Machine kind T σ) (prog : Op → Prog E R Unit) :
    Config E R F T σ → Config E R F T σ → Prop where
  | call {c : Config E R F T σ} (t : T) (op : Op) (h : c.threads t = none) : Step M prog c
      { c with threads := Function.update c.threads t (some (M.mask c.shared t, prog op)) }
  | act {c : Config E R F T σ} (t : T) {d : F} {e : E} {k : R e → Prog E R Unit} {r : R e} {s' : σ}
      (h : c.threads t = some (d, .vis e k)) (hact : M.act t e c.shared r s') : Step M prog c
      { shared := s', threads := Function.update c.threads t (some (d, k r)) }
  | done {c : Config E R F T σ} (t : T) {d : F} (h : c.threads t = some (d, .ret ())) :
      Step M prog c { c with threads := Function.update c.threads t none }

variable {M : Machine kind T σ} {prog : Op → Prog E R Unit} {c c' : Config E R F T σ}

/-- Thread `t` comes next to taking `l`. -/
def Wants (kind : (e : E) → Kind L F (R e)) (c : Config E R F T σ) (t : T) (l : L) : Prop :=
  ∃ d e k saved, c.threads t = some (d, .vis e k) ∧ kind e = .acquire l saved

/-- Thread `t` waits for a lock that thread `u` holds. -/
def WaitsFor (M : Machine kind T σ) (c : Config E R F T σ) (t u : T) : Prop :=
  ∃ l, Wants kind c t l ∧ M.owner c.shared l = some u

/-- Whoever holds `l` waits for `l'`, which somebody holds. -/
def LockEdge (M : Machine kind T σ) (c : Config E R F T σ) (l l' : L) : Prop :=
  ∃ t u, M.owner c.shared l = some t ∧ Wants kind c t l' ∧ M.owner c.shared l' = some u

/-- Thread `t` holds nothing, and has the mask `d`. -/
def Clear (M : Machine kind T σ) (c : Config E R F T σ) (t : T) (d : F) : Prop :=
  (∀ l, M.owner c.shared l ≠ some t) ∧ M.mask c.shared t = d

/-- What the order is good for. -/
structure Sound (M : Machine kind T σ) (c : Config E R F T σ) : Prop where
  self : ∀ t l, Wants kind c t l → M.owner c.shared l ≠ some t
  threads : ∀ t, ¬ TransGen (WaitsFor M c) t t
  locks : ∀ l, ¬ TransGen (LockEdge M c) l l
  returned : ∀ t d, c.threads t = some (d, .ret ()) → Clear M c t d
  halted : ∀ t d e k, c.threads t = some (d, .vis e k) → kind e = .halt → Clear M c t d

/-- With these locks held, `m` is the mask now and `d` the one there was before. -/
def Saved (d : F) : List (L × F) → F → Prop
  | [], m => m = d
  | (_, saved) :: held, _ => Saved d held saved

/-- What is known of a thread that holds these locks. -/
structure Keeping (rank : L → ℕ) (M : Machine kind T σ) (c : Config E R F T σ) (t : T)
    (held : List (L × F)) : Prop where
  owner : ∀ l, M.owner c.shared l = some t ↔ ∃ saved, (l, saved) ∈ held
  sorted : held.Pairwise fun a b => rank b.1 < rank a.1
  idle : c.threads t = none → held = []
  running : ∀ d p, c.threads t = some (d, p) →
    InOrder kind rank (fun _ h => h = []) p held ∧ Saved d held (M.mask c.shared t)

/-- Steps of others leave it so. -/
theorem Keeping.of_other {s' : σ} {threads : T → Option (F × Prog E R Unit)}
    (h : Keeping rank M c t held) (hthread : threads t = c.threads t)
    (howner : ∀ l, M.owner s' l = some t ↔ M.owner c.shared l = some t)
    (hmask : M.mask s' t = M.mask c.shared t) :
    Keeping rank M { shared := s', threads := threads } t held where
  owner l := (howner l).trans (h.owner l)
  sorted := h.sorted
  idle hnone := h.idle (hthread ▸ hnone)
  running d p hp := by
    rw [hmask]
    exact h.running d p (hthread ▸ hp)

/-- Each thread keeps some locks. -/
def Ordered (rank : L → ℕ) (M : Machine kind T σ) (c : Config E R F T σ) : Prop :=
  M.inv c.shared ∧ ∀ t, ∃ held, Keeping rank M c t held

section Act

variable {d : F} {e : E} {k : R e → Prog E R Unit} {r : R e} {s' : σ} {l : L}

/-- After an action the thread runs what is left of its program. -/
theorem Keeping.of_act (howner : ∀ l, M.owner s' l = some t ↔ ∃ saved, (l, saved) ∈ held)
    (hsorted : held.Pairwise fun a b => rank b.1 < rank a.1)
    (horder : InOrder kind rank (fun _ h => h = []) (k r) held)
    (hsaved : Saved d held (M.mask s' t)) : Keeping rank M
      { shared := s', threads := Function.update c.threads t (some (d, k r)) } t held where
  owner := howner
  sorted := hsorted
  idle hnone := by
    have hsome := (Function.update_self t _ c.threads).symm.trans hnone
    cases hsome
  running d' p hp := by
    have heq := (Function.update_self t _ c.threads).symm.trans hp
    rw [Option.some_inj, Prod.mk.injEq] at heq
    obtain ⟨rfl, rfl⟩ := heq
    exact ⟨horder, hsaved⟩

/-- The order allows a lock above all that are held. -/
theorem Keeping.acquired (h : Keeping rank M c t held) (hinv : M.inv c.shared)
    (hrun : c.threads t = some (d, .vis e k)) (hact : M.act t e c.shared r s')
    {saved : R e → F} (hk : kind e = .acquire l saved) : Keeping rank M
      { shared := s', threads := Function.update c.threads t (some (d, k r)) } t
      ((l, saved r) :: held) := by
  obtain ⟨horder, hsaved⟩ := h.running d _ hrun
  rw [InOrder, hk] at horder
  obtain ⟨-, howner, hmask, -⟩ := M.acquire hinv hact hk
  refine .of_act (fun l' => ?_) (List.pairwise_cons.mpr ⟨horder.1, h.sorted⟩) (horder.2 r) ?_
  · rw [howner]
    by_cases hl : l' = l
    · subst hl
      rw [Function.update_self]
      exact iff_of_true rfl ⟨_, List.mem_cons_self⟩
    · rw [Function.update_of_ne hl, h.owner]
      refine exists_congr fun x => ?_
      rw [List.mem_cons, Prod.mk.injEq]
      exact ⟨Or.inr, fun hor => hor.resolve_left fun heq => hl heq.1⟩
  · rw [Saved, hmask]
    exact hsaved

/-- What a lock had saved is the mask again, with only the locks below it held. -/
theorem Keeping.released (h : Keeping rank M c t held) (hinv : M.inv c.shared)
    (hrun : c.threads t = some (d, .vis e k)) (hact : M.act t e c.shared r s') {saved : F}
    (hk : kind e = .release l saved) : ∃ rest, held = (l, saved) :: rest ∧ Keeping rank M
      { shared := s', threads := Function.update c.threads t (some (d, k r)) } t rest := by
  obtain ⟨horder, hsaved⟩ := h.running d _ hrun
  rw [InOrder, hk] at horder
  obtain ⟨rest, rfl, hrest⟩ := horder
  obtain ⟨howner, hmask⟩ := M.release hinv hact hk
  obtain ⟨habove, hsorted⟩ := List.pairwise_cons.mp h.sorted
  refine ⟨rest, rfl, .of_act (fun l' => ?_) hsorted (hrest r) ?_⟩
  · rw [howner]
    by_cases hl : l' = l
    · subst hl
      rw [Function.update_self]
      exact iff_of_false nofun fun ⟨x, hx⟩ => Nat.lt_irrefl _ (habove (l', x) hx)
    · rw [Function.update_of_ne hl, h.owner]
      refine exists_congr fun x => ?_
      rw [List.mem_cons, Prod.mk.injEq]
      exact ⟨fun hor => hor.resolve_left fun heq => hl heq.1, Or.inr⟩
  · rw [hmask, Function.update_self]
    cases rest with
    | nil => exact hsaved
    | cons x rest => exact hsaved

/-- One action of thread `t`, and what it does to `t`. -/
theorem Keeping.act (h : Keeping rank M c t held) (hinv : M.inv c.shared)
    (hrun : c.threads t = some (d, .vis e k)) (hact : M.act t e c.shared r s') :
    ∃ held', Keeping rank M
      { shared := s', threads := Function.update c.threads t (some (d, k r)) } t held' := by
  obtain ⟨horder, hsaved⟩ := h.running d _ hrun
  cases hk : kind e with
  | acquire l saved => exact ⟨_, h.acquired hinv hrun hact hk⟩
  | release l saved =>
    obtain ⟨rest, -, hrest⟩ := h.released hinv hrun hact hk
    exact ⟨rest, hrest⟩
  | halt => exact absurd hk (M.halt hact)
  | other =>
    rw [InOrder, hk] at horder
    obtain ⟨howner, hmask⟩ := M.other hinv hact hk
    refine ⟨held, .of_act (fun l' => ?_) h.sorted (horder r) ?_⟩
    · rw [howner]
      exact h.owner l'
    · rw [hmask]
      exact hsaved

/-- The other threads have the locks and the masks that they had. -/
theorem Keeping.act_others (h : Keeping rank M c t held) (hinv : M.inv c.shared)
    (hrun : c.threads t = some (d, .vis e k)) (hact : M.act t e c.shared r s') {u : T}
    (hu : u ≠ t) : (∀ l, M.owner s' l = some u ↔ M.owner c.shared l = some u) ∧
      M.mask s' u = M.mask c.shared u := by
  cases hk : kind e with
  | acquire l saved =>
    obtain ⟨hfree, howner, -, hothers⟩ := M.acquire hinv hact hk
    refine ⟨fun l' => ?_, hothers u hu⟩
    rw [howner]
    by_cases hl : l' = l
    · subst hl
      rw [Function.update_self, hfree, Option.some_inj]
      exact iff_of_false (fun heq => hu heq.symm) nofun
    · rw [Function.update_of_ne hl]
  | release l saved =>
    obtain ⟨rest, rfl, -⟩ := h.released hinv hrun hact hk
    obtain ⟨howner, hmask⟩ := M.release hinv hact hk
    refine ⟨fun l' => ?_, by rw [hmask, Function.update_of_ne hu]⟩
    rw [howner]
    by_cases hl : l' = l
    · subst hl
      have hheld : M.owner c.shared l' = some t := (h.owner l').mpr ⟨_, List.mem_cons_self⟩
      rw [Function.update_self, hheld, Option.some_inj]
      exact iff_of_false nofun fun heq => hu heq.symm
    · rw [Function.update_of_ne hl]
  | halt => exact absurd hk (M.halt hact)
  | other =>
    obtain ⟨howner, hmask⟩ := M.other hinv hact hk
    exact ⟨fun l' => by rw [howner], by rw [hmask]⟩

end Act

/-- **One step keeps the order.** -/
theorem Ordered.step (hprog : ∀ op, Balanced kind rank [] (prog op)) (h : Ordered rank M c)
    (hstep : Step M prog c c') : Ordered rank M c' := by
  obtain ⟨hinv, hkeep⟩ := h
  cases hstep with
  | call t op hnone =>
    refine ⟨hinv, fun u => ?_⟩
    obtain ⟨held, hu⟩ := hkeep u
    by_cases hut : u = t
    · subst hut
      -- a thread that is idle holds no lock
      obtain rfl := hu.idle hnone
      refine ⟨[], hu.owner, hu.sorted, fun _ => rfl, fun d p hp => ?_⟩
      have heq := (Function.update_self u _ c.threads).symm.trans hp
      rw [Option.some_inj, Prod.mk.injEq] at heq
      obtain ⟨rfl, rfl⟩ := heq
      exact ⟨hprog op, rfl⟩
    · exact ⟨held, hu.of_other (Function.update_of_ne hut _ _) (fun _ => Iff.rfl) rfl⟩
  | act t hrun hact =>
    refine ⟨M.inv_act hinv hact, fun u => ?_⟩
    obtain ⟨held, ht⟩ := hkeep t
    by_cases hut : u = t
    · rw [hut]
      exact ht.act hinv hrun hact
    · obtain ⟨held', hu⟩ := hkeep u
      obtain ⟨howner, hmask⟩ := ht.act_others hinv hrun hact hut
      exact ⟨held', hu.of_other (Function.update_of_ne hut _ _) howner hmask⟩
  | done t hrun =>
    refine ⟨hinv, fun u => ?_⟩
    obtain ⟨held, hu⟩ := hkeep u
    by_cases hut : u = t
    · subst hut
      -- a program that has ended is balanced
      obtain rfl : held = [] := (hu.running _ _ hrun).1
      refine ⟨[], hu.owner, hu.sorted, fun _ => rfl, fun d p hp => ?_⟩
      exact absurd ((Function.update_self u _ c.threads).symm.trans hp) nofun
    · exact ⟨held, hu.of_other (Function.update_of_ne hut _ _) (fun _ => Iff.rfl) rfl⟩

/-- A thread wants only locks above all those it holds. -/
theorem Keeping.wants (h : Keeping rank M c t held) {l l' : L} (hwants : Wants kind c t l')
    (howner : M.owner c.shared l = some t) : rank l < rank l' := by
  obtain ⟨d, e, k, saved, hrun, hk⟩ := hwants
  obtain ⟨x, hx⟩ := (h.owner l).mp howner
  have horder := (h.running d _ hrun).1
  rw [InOrder, hk] at horder
  exact horder.1 _ hx

theorem Keeping.clear {d : F} (h : Keeping rank M c t []) {p : Prog E R Unit}
    (hrun : c.threads t = some (d, p)) : Clear M c t d :=
  ⟨fun l howner => by simpa using (h.owner l).mp howner, (h.running d p hrun).2⟩

/-- A lock that is waited for lies above the one its waiter holds. -/
theorem rank_lt_of_edge (hkeep : ∀ t, ∃ held, Keeping rank M c t held) {l l' : L}
    (h : TransGen (LockEdge M c) l l') : rank l < rank l' := by
  have hedge : ∀ {l l'}, LockEdge M c l l' → rank l < rank l' := by
    rintro l l' ⟨t, u, howner, hwants, -⟩
    obtain ⟨held, ht⟩ := hkeep t
    exact ht.wants hwants howner
  induction h with
  | single hfirst => exact hedge hfirst
  | tail _ hlast ih => exact Nat.lt_trans ih (hedge hlast)

omit [DecidableEq L] [DecidableEq T] in
/-- A thread comes next to one lock only. -/
theorem Wants.unique {l l' : L} (h : Wants kind c t l) (h' : Wants kind c t l') : l = l' := by
  obtain ⟨d, e, k, saved, hrun, hk⟩ := h
  obtain ⟨d', e', k', saved', hrun', hk'⟩ := h'
  rw [hrun, Option.some_inj, Prod.mk.injEq] at hrun'
  obtain ⟨-, hp⟩ := hrun'
  cases hp
  rw [hk, Kind.acquire.injEq] at hk'
  exact hk'.1

/-- Whoever a thread waits for, directly or not, holds a lock no lower than the one the
thread wants. -/
theorem exists_owned_of_waits (hkeep : ∀ t, ∃ held, Keeping rank M c t held) {l : L}
    (hwants : Wants kind c t l) (h : TransGen (WaitsFor M c) t u) :
    ∃ l', M.owner c.shared l' = some u ∧ rank l ≤ rank l' := by
  induction h with
  | single hfirst =>
    obtain ⟨l₀, hl₀, howner⟩ := hfirst
    obtain rfl := hwants.unique hl₀
    exact ⟨l, howner, Nat.le_refl _⟩
  | @tail v u _ hlast ih =>
    obtain ⟨l₁, howner₁, hle⟩ := ih
    obtain ⟨l₂, hwants₂, howner₂⟩ := hlast
    obtain ⟨held, hv⟩ := hkeep v
    have hlt : rank l₁ < rank l₂ := hv.wants hwants₂ howner₁
    exact ⟨l₂, howner₂, Nat.le_trans hle (Nat.le_of_lt hlt)⟩

theorem Ordered.sound (h : Ordered rank M c) : Sound M c := by
  obtain ⟨-, hkeep⟩ := h
  refine ⟨?_, ?_, ?_, ?_, ?_⟩
  · intro t l hwants howner
    obtain ⟨held, ht⟩ := hkeep t
    exact Nat.lt_irrefl _ (ht.wants hwants howner)
  · intro t hcycle
    obtain ⟨u, ⟨l, hwants, -⟩, -⟩ := TransGen.head'_iff.mp hcycle
    obtain ⟨l', howner, hle⟩ := exists_owned_of_waits hkeep hwants hcycle
    obtain ⟨held, ht⟩ := hkeep t
    exact Nat.lt_irrefl _ (Nat.lt_of_lt_of_le (ht.wants hwants howner) hle)
  · intro l hcycle
    exact Nat.lt_irrefl _ (rank_lt_of_edge hkeep hcycle)
  · intro t d hrun
    obtain ⟨held, ht⟩ := hkeep t
    obtain rfl : held = [] := (ht.running _ _ hrun).1
    exact ht.clear hrun
  · intro t d e k hrun hhalt
    obtain ⟨held, ht⟩ := hkeep t
    have horder := (ht.running _ _ hrun).1
    rw [InOrder, hhalt] at horder
    obtain rfl : held = [] := horder
    exact ht.clear hrun

/-- All threads idle, and no lock taken. -/
structure Fresh (M : Machine kind T σ) (c : Config E R F T σ) : Prop where
  inv : M.inv c.shared
  idle : ∀ t, c.threads t = none
  free : ∀ l, M.owner c.shared l = none

theorem Fresh.ordered (h : Fresh M c) : Ordered rank M c := by
  refine ⟨h.inv, fun t => ⟨[], fun l => ?_, List.Pairwise.nil, fun _ => rfl, fun d p hp => ?_⟩⟩
  · rw [h.free l]
    exact iff_of_false nofun fun ⟨_, hx⟩ => List.not_mem_nil hx
  · rw [h.idle t] at hp
    cases hp

/-- **Programs that take their locks in order never wait for each other in a circle.** -/
theorem Reach.sound (hprog : ∀ op, Balanced kind rank [] (prog op)) (hfresh : Fresh M c)
    (hreach : ReflTransGen (Step M prog) c c') : Sound M c' := by
  have hordered : Ordered rank M c' := by
    induction hreach with
    | refl => exact hfresh.ordered
    | tail _ hlast ih => exact ih.step hprog hlast
  exact hordered.sound

end LockOrder
