/-
Owning resources, abstractly.

An allocator over a type `F` of resources is, for its clients, a set of held
resources that calls grow and shrink.  `Step` lists what a correct allocator may
answer; it says nothing about which resource is picked, so every allocation
strategy refines it.  A resource granted twice in a run was released in between
(`Extends.granted_once`): no resource has two owners.

`Ledger` is the other side of it: which of several owners has what.  An owner that
trades what it has for something new, or gives it up, leaves the ledger in balance
(`Ledger.update`, `Ledger.forfeit`).
-/
import Mathlib.Data.Set.Basic
import Mathlib.Data.Set.Insert
import Mathlib.Logic.Function.Basic

namespace Ownership

variable {F : Type}

/-- What a client sees of one call. -/
inductive Event (F : Type) where
  | grant (S : Set F)
  | refuse
  | release (a : F)
  | ignore (a : F)

/-- One call of an allocator that manages the resources in `managed`, in the
state where exactly `H` is held. -/
inductive Step (managed : Set F) : Set F → Event F → Set F → Prop where
  | grant {H S : Set F} (hS : S ⊆ managed) (hdisj : ∀ a ∈ S, a ∉ H) :
      Step managed H (.grant S) (H ∪ S)
  | refuse {H : Set F} : Step managed H .refuse H
  | release {H : Set F} {a : F} (ha : a ∈ H) : Step managed H (.release a) (H \ {a})
  | ignore {H : Set F} {a : F} (ha : a ∉ H) : Step managed H (.ignore a) H

variable {managed H H' : Set F} {e : Event F} {es : List (Event F)}

/-- What is held stays held until it is released. -/
theorem Step.mem_of_not_release {a : F} (hstep : Step managed H e H') (ha : a ∈ H)
    (he : e ≠ .release a) : a ∈ H' := by
  cases hstep with
  | grant _ _ => exact Or.inl ha
  | refuse => exact ha
  | release hb => exact ⟨ha, fun hab => he (by rw [hab])⟩
  | ignore _ => exact ha

/-- A sequence of calls from the state where `H` is held, latest call first. -/
inductive Extends (managed : Set F) (H : Set F) : List (Event F) → Set F → Prop where
  | nil : Extends managed H [] H
  | cons {es : List (Event F)} {e : Event F} {K K' : Set F} (hrun : Extends managed H es K)
      (hstep : Step managed K e K') : Extends managed H (e :: es) K'

theorem Extends.mem_of_no_release {a : F} (hext : Extends managed H es H') (ha : a ∈ H)
    (hes : ∀ e ∈ es, e ≠ .release a) : a ∈ H' := by
  induction hext with
  | nil => exact ha
  | cons _ hstep ih =>
    exact hstep.mem_of_not_release (ih fun e he => hes e (List.mem_cons_of_mem _ he))
      (hes _ List.mem_cons_self)

/-- A run from `H` may begin with one more call. -/
theorem Extends.front {K : Set F} (hstep : Step managed H e H')
    (hext : Extends managed H' es K) : Extends managed H (es ++ [e]) K := by
  induction hext with
  | nil => exact .cons .nil hstep
  | cons _ hlast ih => exact .cons ih hlast

/-- **No resource has two owners**: between two grants of `a` there is a release
of `a`. -/
theorem Extends.granted_once {S S' : Set F} {a : F} {K K' K'' : Set F}
    (hgrant : Step managed K (.grant S) K') (ha : a ∈ S)
    (hext : Extends managed K' es K'') (hagain : Step managed K'' (.grant S') H') (ha' : a ∈ S') :
    Event.release a ∈ es := by
  by_contra hno
  have hheld : a ∈ K' := by
    cases hgrant with
    | grant _ _ => exact Or.inr ha
  have hstill := hext.mem_of_no_release hheld fun e he heq => hno (heq ▸ he)
  cases hagain with
  | grant _ hdisj => exact hdisj a ha' hstill

/-! ### Ledgers -/

variable {I : Type} {used used' rest : F → Prop} {own : I → F → Prop} {A : F → Prop} {i : I}

/-- What is used belongs to one owner each, or to the rest. -/
structure Ledger (used rest : F → Prop) (own : I → F → Prop) : Prop where
  used_iff : ∀ a, used a ↔ rest a ∨ ∃ i, own i a
  not_rest : ∀ i a, own i a → ¬ rest a
  unique : ∀ i j a, own i a → own j a → i = j

theorem Ledger.used_of_own (h : Ledger used rest own) {a : F} (ha : own i a) : used a :=
  (h.used_iff a).mpr (Or.inr ⟨i, ha⟩)

variable [DecidableEq I]

/-- Owner `i` has `A` in place of what it had. -/
theorem Ledger.update (h : Ledger used rest own)
    (hused : ∀ a, used' a ↔ (used a ∧ ¬ own i a) ∨ A a) (hA : ∀ a, A a → own i a ∨ ¬ used a) :
    Ledger used' rest (Function.update own i A) := by
  -- what `i` takes is either its own already or free, and so nobody else has it
  have hother : ∀ j, j ≠ i → ∀ a, own j a → ¬ A a := by
    intro j hj a hown ha
    rcases hA a ha with hi | hn
    · exact hj (h.unique j i a hown hi)
    · exact hn (h.used_of_own hown)
  refine ⟨fun a => ?_, fun j a hown => ?_, fun j l a hj hl => ?_⟩
  · rw [hused, h.used_iff]
    constructor
    · rintro (⟨hr | ⟨j, hj⟩, hni⟩ | ha)
      · exact Or.inl hr
      · refine Or.inr ⟨j, ?_⟩
        have hji : j ≠ i := by
          rintro rfl
          exact hni hj
        rw [Function.update_of_ne hji]
        exact hj
      · refine Or.inr ⟨i, ?_⟩
        rw [Function.update_self]
        exact ha
    · rintro (hr | ⟨j, hj⟩)
      · exact Or.inl ⟨Or.inl hr, fun hi => h.not_rest i a hi hr⟩
      · by_cases hji : j = i
        · subst hji
          rw [Function.update_self] at hj
          exact Or.inr hj
        · rw [Function.update_of_ne hji] at hj
          exact Or.inl ⟨Or.inr ⟨j, hj⟩, fun hi => hji (h.unique j i a hj hi)⟩
  · by_cases hji : j = i
    · subst hji
      rw [Function.update_self] at hown
      rcases hA a hown with hi | hn
      · exact h.not_rest j a hi
      · exact fun hr => hn ((h.used_iff a).mpr (Or.inl hr))
    · rw [Function.update_of_ne hji] at hown
      exact h.not_rest j a hown
  · by_cases hji : j = i <;> by_cases hli : l = i
    · exact hji.trans hli.symm
    · subst hji
      rw [Function.update_self] at hj
      rw [Function.update_of_ne hli] at hl
      exact absurd hj (hother l hli a hl)
    · subst hli
      rw [Function.update_of_ne hji] at hj
      rw [Function.update_self] at hl
      exact absurd hl (hother j hji a hj)
    · rw [Function.update_of_ne hji] at hj
      rw [Function.update_of_ne hli] at hl
      exact h.unique j l a hj hl

/-- What owner `i` had goes to the rest. -/
theorem Ledger.forfeit (h : Ledger used rest own) (i : I) :
    Ledger used (fun a => rest a ∨ own i a) (Function.update own i fun _ => False) := by
  refine ⟨fun a => ?_, fun j a hown => ?_, fun j l a hj hl => ?_⟩
  · rw [h.used_iff, or_assoc]
    refine or_congr_right ⟨?_, ?_⟩
    · rintro ⟨j, hj⟩
      by_cases hji : j = i
      · subst hji
        exact Or.inl hj
      · refine Or.inr ⟨j, ?_⟩
        rw [Function.update_of_ne hji]
        exact hj
    · rintro (hi | ⟨j, hj⟩)
      · exact ⟨i, hi⟩
      · by_cases hji : j = i
        · rw [hji, Function.update_self] at hj
          exact hj.elim
        · rw [Function.update_of_ne hji] at hj
          exact ⟨j, hj⟩
  · by_cases hji : j = i
    · rw [hji, Function.update_self] at hown
      exact hown.elim
    · rw [Function.update_of_ne hji] at hown
      rintro (hr | hi)
      · exact h.not_rest j a hown hr
      · exact hji (h.unique j i a hown hi)
  · by_cases hji : j = i
    · rw [hji, Function.update_self] at hj
      exact hj.elim
    · by_cases hli : l = i
      · rw [hli, Function.update_self] at hl
        exact hl.elim
      · rw [Function.update_of_ne hji] at hj
        rw [Function.update_of_ne hli] at hl
        exact h.unique j l a hj hl

end Ownership
