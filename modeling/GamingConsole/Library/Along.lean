/-
Runs of a machine that takes events.

`step s e` is the state after event `e`, if the machine gets there at all, and a run is a list
of events taken one after the other.

* `Permits step G` — every event of the run meets `G` in the state it comes in;
* `Along step P` — every step of the run has `P`, of the state before it, the event and the
  state after it;
* `exists_runEvents` — where an invariant lets every permitted step be taken, so it does
  every permitted run;
* **`along_iff_permits`** — `P` holds of every step if and only if every event meets `Q`,
  where this is so of each step that only such steps have led to.
-/
import Mathlib.Data.List.Basic

namespace Machine

variable {σ ε : Type}

/-- Events one after the other. -/
def runEvents (step : σ → ε → Option σ) (es : List ε) (s : σ) : Option σ := es.foldlM step s

/-- Every event of the run meets `G`. -/
def Permits (step : σ → ε → Option σ) (G : σ → ε → Prop) : List ε → σ → Prop
  | [], _ => True
  | e :: es, s => G s e ∧ ∀ s', step s e = some s' → Permits step G es s'

/-- Every step of the run has `P`. -/
def Along (step : σ → ε → Option σ) (P : σ → ε → σ → Prop) : List ε → σ → Prop
  | [], _ => True
  | e :: es, s => ∀ s', step s e = some s' → P s e s' ∧ Along step P es s'

variable {step : σ → ε → Option σ} {P : σ → ε → σ → Prop} {G Q : σ → ε → Prop} {I J : σ → Prop}
  {s s' : σ} {e : ε} {es : List ε}

theorem runEvents_cons (h : step s e = some s') :
    runEvents step (e :: es) s = runEvents step es s' := by
  rw [runEvents, List.foldlM_cons, h]
  rfl

/-- A step has one outcome, and the rest of the run starts there. -/
theorem along_cons (h : step s e = some s') :
    Along step P (e :: es) s ↔ P s e s' ∧ Along step P es s' := by
  refine ⟨fun hall => hall s' h, fun hall s₁ hs₁ => ?_⟩
  rw [h, Option.some_inj] at hs₁
  rw [← hs₁]
  exact hall

theorem permits_cons (h : step s e = some s') :
    Permits step G (e :: es) s ↔ G s e ∧ Permits step G es s' := by
  refine and_congr_right fun _ => ⟨fun hall => hall s' h, fun hall s₁ hs₁ => ?_⟩
  rw [h, Option.some_inj] at hs₁
  rw [← hs₁]
  exact hall

/-- What is asked of the events alone. -/
theorem permits_of_forall (h : ∀ e ∈ es, ∀ s, G s e) : Permits step G es s := by
  induction es generalizing s with
  | nil => trivial
  | cons e es ih =>
    refine ⟨h e List.mem_cons_self s, fun s' _ => ?_⟩
    exact ih fun e' he' => h e' (List.mem_cons_of_mem _ he')

theorem exists_runEvents (hstep : ∀ s e, I s → G s e → ∃ s', step s e = some s' ∧ I s')
    (hI : I s) (hG : Permits step G es s) : ∃ s', runEvents step es s = some s' := by
  induction es generalizing s with
  | nil => exact ⟨s, rfl⟩
  | cons e es ih =>
    obtain ⟨s₁, hs₁, hI₁⟩ := hstep s e hI hG.1
    rw [runEvents_cons hs₁]
    exact ih hI₁ (hG.2 s₁ hs₁)

theorem along_iff_permits (hstep : ∀ s e, I s → G s e → ∃ s', step s e = some s' ∧ I s')
    (hiff : ∀ s e s', I s → J s → G s e → step s e = some s' → (P s e s' ↔ Q s e))
    (hkeep : ∀ s e s', I s → J s → G s e → step s e = some s' → P s e s' → J s')
    (hI : I s) (hJ : J s) (hG : Permits step G es s) :
    Along step P es s ↔ Permits step Q es s := by
  induction es generalizing s with
  | nil => exact Iff.rfl
  | cons e es ih =>
    obtain ⟨s₁, hs₁, hI₁⟩ := hstep s e hI hG.1
    rw [along_cons hs₁, permits_cons hs₁, ← hiff s e s₁ hI hJ hG.1 hs₁]
    -- `J` is there for the rest of the run only if this step has `P`
    refine and_congr_right fun hP => ?_
    exact ih hI₁ (hkeep s e s₁ hI hJ hG.1 hs₁ hP) (hG.2 s₁ hs₁)

end Machine
