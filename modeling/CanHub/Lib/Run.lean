/-
# Runs under a condition

A run feeds a list of events to a step function. `Along P` says that every
event meets the condition `P` in the state it happens in, and an invariant that
each such event keeps holds in the state the run ends in (`Along.invariant`).
-/
import Mathlib.Tactic.Common

namespace CanHub
namespace Run

variable {σ ε : Type*} (step : σ → ε → σ)

/-- The state after the events. -/
def run (s : σ) (es : List ε) : σ := es.foldl step s

/-- Every event of the run meets the condition in the state it happens in. -/
def Along (P : σ → ε → Prop) : σ → List ε → Prop
  | _, [] => True
  | s, e :: es => P s e ∧ Along P (step s e) es

instance (P : σ → ε → Prop) [∀ s e, Decidable (P s e)] : ∀ s es, Decidable (Along step P s es)
  | _, [] => .isTrue trivial
  | s, e :: es =>
    have := instDecidableAlong P (step s e) es
    inferInstanceAs (Decidable (P s e ∧ _))

variable {step} {es : List ε} {P : σ → ε → Prop} {Q : σ → ε → Prop} {s : σ}

theorem run_append (s : σ) (es es' : List ε) : run step s (es ++ es') = run step (run step s es) es' :=
  List.foldl_append

theorem Along.append {es' : List ε} :
    Along step P s (es ++ es') ↔ Along step P s es ∧ Along step P (run step s es) es' := by
  induction es generalizing s with
  | nil => exact ⟨fun h => ⟨trivial, h⟩, fun h => h.2⟩
  | cons e es ih => exact ⟨fun h => ⟨⟨h.1, (ih.mp h.2).1⟩, (ih.mp h.2).2⟩, fun h => ⟨h.1.1, ih.mpr ⟨h.1.2, h.2⟩⟩⟩

/-- Events that meet the condition in any state. -/
theorem Along.of_forall (h : ∀ e ∈ es, ∀ s, P s e) (s : σ) : Along step P s es := by
  induction es generalizing s with
  | nil => trivial
  | cons e es ih => exact ⟨h e List.mem_cons_self s, ih (fun e' he' => h e' (List.mem_cons_of_mem e he')) _⟩

theorem Along.mono (hPQ : ∀ s e, P s e → Q s e) (h : Along step P s es) :
    Along step Q s es := by
  induction es generalizing s with
  | nil => trivial
  | cons e es ih => exact ⟨hPQ s e h.1, ih h.2⟩

theorem Along.and_forall (h : Along step P s es)
    (hQ : ∀ e ∈ es, ∀ s, Q s e) : Along step (fun s e => P s e ∧ Q s e) s es := by
  induction es generalizing s with
  | nil => trivial
  | cons e es ih =>
    exact ⟨⟨h.1, hQ e List.mem_cons_self s⟩, ih h.2 fun e' he' => hQ e' (List.mem_cons_of_mem e he')⟩

/-- An invariant that every event under the condition keeps holds along the run. -/
theorem Along.invariant {I : σ → Prop} (hstep : ∀ s e, I s → P s e → I (step s e))
    (h : Along step P s es) (hs : I s) : I (run step s es) := by
  induction es generalizing s with
  | nil => exact hs
  | cons e es ih => exact ih h.2 (hstep s e hs h.1)

/-- What every event under the condition gives, if the invariant holds before it. -/
theorem Along.carry {I : σ → Prop} (hstep : ∀ s e, I s → P s e → I (step s e) ∧ Q s e)
    (h : Along step P s es) (hs : I s) : Along step Q s es := by
  induction es generalizing s with
  | nil => trivial
  | cons e es ih =>
    obtain ⟨hnext, hq⟩ := hstep s e hs h.1
    exact ⟨hq, ih h.2 hnext⟩

end Run
end CanHub
