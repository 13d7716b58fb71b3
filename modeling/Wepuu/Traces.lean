import Wepuu.Runs

/-! Abstract transition systems and what it means that the runs of a deterministic system
are explained by one. A label is what an observer sees of a step. -/
namespace Wepuu.Traces
open Runs

section Traces
variable {σ ℓ : Type} {moves : σ → ℓ → σ → Prop}

inductive Trace (moves : σ → ℓ → σ → Prop) : σ → List ℓ → σ → Prop where
  | nil (s : σ) : Trace moves s [] s
  | cons {s t u : σ} {l : ℓ} {ls : List ℓ} (first : moves s l t) (rest : Trace moves t ls u) : Trace moves s (l :: ls) u

end Traces

section Simulations
variable {α σ ε ℓ : Type} {step : α → ε → α} {label : α → ε → ℓ} {abstraction : α → σ}
variable {moves : σ → ℓ → σ → Prop} {inv : α → Prop} {admitted : ε → Prop}

def labels (step : α → ε → α) (label : α → ε → ℓ) : α → List ε → List ℓ
  | _, [] => []
  | a, e :: es => label a e :: labels step label (step a e) es

theorem admittedRun (keeps : ∀ a e, inv a → admitted e → inv (step a e)) {a : α} (start : inv a) {es : List ε}
    (all : ∀ e ∈ es, admitted e) : inv (run step a es) := by
  induction es generalizing a with
  | nil => exact start
  | cons e es ih =>
    exact ih (keeps a e start (all e List.mem_cons_self)) fun o mem => all o (List.mem_cons_of_mem _ mem)

/- A simulation of the steps is one of the runs. -/
theorem simulatedRun (keeps : ∀ a e, inv a → admitted e → inv (step a e))
    (simulates : ∀ a e, inv a → admitted e → moves (abstraction a) (label a e) (abstraction (step a e)))
    {a : α} (start : inv a) {es : List ε} (all : ∀ e ∈ es, admitted e) :
    Trace moves (abstraction a) (labels step label a es) (abstraction (run step a es)) := by
  induction es generalizing a with
  | nil => exact .nil _
  | cons e es ih =>
    have here := all e List.mem_cons_self
    exact .cons (simulates a e start here)
      (ih (keeps a e start here) fun o mem => all o (List.mem_cons_of_mem _ mem))

end Simulations

end Wepuu.Traces
