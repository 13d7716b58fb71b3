import Mathlib.Data.List.Basic

/-! Runs of a deterministic system under a list of events, one transaction an event.
All nondeterminism is in the list: its order is the interleaving, and what the
environment chooses (times, fresh identifiers, answers) is part of an event. -/
namespace Wepuu.Runs

section Transactions
variable {σ ρ φ : Type}

/- A transaction that raises is rolled back. -/
def settle (s : σ) : Except φ (σ × ρ) → σ
  | .ok (next,_) => next
  | .error _ => s

theorem settleCases (s : σ) (out : Except φ (σ × ρ)) :
    settle s out = s ∨ ∃ next reply, out = .ok (next,reply) ∧ settle s out = next := by
  cases out with
  | error _ => exact .inl rfl
  | ok pair => exact .inr ⟨pair.1,pair.2,rfl,rfl⟩

end Transactions

section Histories
variable {σ ε ω : Type} (step : σ → ε → σ)

def run (s : σ) (es : List ε) : σ := es.foldl step s

@[simp] theorem runNil (s : σ) : run step s [] = s := rfl

@[simp] theorem runCons (s : σ) (e : ε) (es : List ε) : run step s (e :: es) = run step (step s e) es := rfl

theorem runAppend (s : σ) (es fs : List ε) : run step s (es ++ fs) = run step (run step s es) fs :=
  List.foldl_append

def collect (out : σ → ε → List ω) : σ → List ε → List ω
  | _, [] => []
  | s, e :: es => out s e ++ collect out (step s e) es

/- Every step of the run meets a condition on the state before it and its event. -/
def Guarded (good : σ → ε → Prop) : σ → List ε → Prop
  | _, [] => True
  | s, e :: es => good s e ∧ Guarded good (step s e) es

instance guardedDecidable (good : σ → ε → Prop) [∀ s e, Decidable (good s e)] :
    ∀ s es, Decidable (Guarded step good s es)
  | _, [] => isTrue trivial
  | s, e :: es =>
    have := guardedDecidable good (step s e) es
    inferInstanceAs (Decidable (good s e ∧ Guarded step good (step s e) es))

theorem guardedAppend (good : σ → ε → Prop) (s : σ) (es fs : List ε) :
    Guarded step good s (es ++ fs) ↔ Guarded step good s es ∧ Guarded step good (run step s es) fs := by
  induction es generalizing s with
  | nil => simp [Guarded]
  | cons e es ih => simp only [List.cons_append,Guarded,ih,runCons,and_assoc]

theorem guardedMono {good better : σ → ε → Prop} {s : σ} {es : List ε}
    (weaker : ∀ s e, good s e → better s e) (ok : Guarded step good s es) : Guarded step better s es := by
  induction es generalizing s with
  | nil => trivial
  | cons e es ih => exact ⟨weaker s e ok.1,ih ok.2⟩

theorem guardedAlways {good : σ → ε → Prop} (always : ∀ s e, good s e) (s : σ) (es : List ε) :
    Guarded step good s es := by
  induction es generalizing s with
  | nil => trivial
  | cons e es ih => exact ⟨always s e,ih _⟩

theorem guardedBoth {good also : σ → ε → Prop} {s : σ} {es : List ε} (left : Guarded step good s es)
    (right : Guarded step also s es) : Guarded step (fun s e => good s e ∧ also s e) s es := by
  induction es generalizing s with
  | nil => trivial
  | cons e es ih => exact ⟨⟨left.1,right.1⟩,ih left.2 right.2⟩

variable {step}

theorem invariantRun {good : σ → ε → Prop} {inv : σ → Prop} {s : σ} {es : List ε}
    (keeps : ∀ s e, inv s → good s e → inv (step s e)) (start : inv s)
    (ok : Guarded step good s es) : inv (run step s es) := by
  induction es generalizing s with
  | nil => exact start
  | cons e es ih => exact ih (keeps s e start ok.1) ok.2

theorem invariantAlways {inv : σ → Prop} {s : σ} (keeps : ∀ s e, inv s → inv (step s e))
    (start : inv s) (es : List ε) : inv (run step s es) :=
  invariantRun (fun s e h _ => keeps s e h) start (guardedAlways step (fun _ _ => trivial) s es)


end Histories
end Wepuu.Runs
