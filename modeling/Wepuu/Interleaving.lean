import Wepuu.Runs

/-! Calls in flight over one shared state. A call takes its turns one at a time, with those of
the others between them. The rule carries what holds of the shared state, of each call by
itself and between any two calls. -/
namespace Wepuu.Interleaving
open Runs

structure World (σ κ : Type) where
  shared : σ
  calls : List κ

inductive Move (ρ τ : Type) where
  | start (request : ρ)
  | turn (call : Nat) (input : τ)

section Moves
variable {σ κ ρ τ : Type} (opening : ρ → κ) (turn : σ → κ → τ → σ × κ)

def step (w : World σ κ) : Move ρ τ → World σ κ
  | .start request => { w with calls := w.calls ++ [opening request] }
  | .turn i input => match w.calls[i]? with
    | none => w
    | some c => ⟨(turn w.shared c input).1,w.calls.set i (turn w.shared c input).2⟩

def Allowed (good : σ → κ → τ → Prop) (w : World σ κ) : Move ρ τ → Prop
  | .start _ => True
  | .turn i input => ∀ c, w.calls[i]? = some c → good w.shared c input

instance allowedDecidable (good : σ → κ → τ → Prop) [∀ s c input, Decidable (good s c input)] (w : World σ κ) :
    ∀ m : Move ρ τ, Decidable (Allowed good w m)
  | .start _ => isTrue trivial
  | .turn i input => match found : w.calls[i]? with
    | none => isTrue fun c here => by
        rw [found] at here
        cases here
    | some c => decidable_of_iff (good w.shared c input)
        ⟨fun ok d here => (Option.some.inj (found.symm.trans here)) ▸ ok,fun ok => ok c found⟩

/- keeps is about the call that moves, frames about any other one. -/
structure Discipline (whole : σ → Prop) (one : σ → κ → Prop) (apart : κ → κ → Prop) (good : σ → κ → τ → Prop) :
    Prop where
  symmetric : ∀ c d, apart c d → apart d c
  opens : ∀ s request, whole s → one s (opening request) ∧ ∀ d, one s d → apart (opening request) d
  keeps : ∀ s c input, whole s → one s c → good s c input →
    whole (turn s c input).1 ∧ one (turn s c input).1 (turn s c input).2
  frames : ∀ s c input d, whole s → one s c → good s c input → one s d → apart c d →
    one (turn s c input).1 d ∧ apart (turn s c input).2 d

structure Safe (whole : σ → Prop) (one : σ → κ → Prop) (apart : κ → κ → Prop) (w : World σ κ) : Prop where
  whole : whole w.shared
  each : ∀ (i : Nat) c, w.calls[i]? = some c → one w.shared c
  apart : ∀ (i j : Nat) c d, i ≠ j → w.calls[i]? = some c → w.calls[j]? = some d → apart c d

variable {opening turn}
variable {whole : σ → Prop} {one : σ → κ → Prop} {apart : κ → κ → Prop} {good : σ → κ → τ → Prop}

theorem setCall {calls : List κ} {i j : Nat} {c d : κ} (at_ : (calls.set i c)[j]? = some d) :
    (i = j ∧ d = c) ∨ (i ≠ j ∧ calls[j]? = some d) := by
  rw [List.getElem?_set] at at_
  split at at_
  · split at at_
    · exact .inl ⟨by assumption,(Option.some.inj at_).symm⟩
    · cases at_
  · exact .inr ⟨by assumption,at_⟩

theorem addCall {calls : List κ} {j : Nat} {c d : κ} (at_ : (calls ++ [c])[j]? = some d) :
    (j = calls.length ∧ d = c) ∨ calls[j]? = some d := by
  rcases Nat.lt_trichotomy j calls.length with before | here | after
  · rw [List.getElem?_append_left before] at at_
    exact .inr at_
  · subst here
    rw [List.getElem?_concat_length] at at_
    exact .inl ⟨rfl,(Option.some.inj at_).symm⟩
  · rw [List.getElem?_eq_none (by simp only [List.length_append,List.length_singleton]; omega)] at at_
    cases at_

theorem turnLast (s : σ) (calls : List κ) (c : κ) (input : τ) :
    step opening turn ⟨s,calls ++ [c]⟩ (.turn calls.length input) = ⟨(turn s c input).1,calls ++ [(turn s c input).2]⟩ := by
  have moved : (calls ++ [c]).set calls.length (turn s c input).2 = calls ++ [(turn s c input).2] := by
    rw [List.set_append_right _ _ (Nat.le_refl _),Nat.sub_self]
    rfl
  simp only [step,List.getElem?_concat_length,moved]

theorem stepSafe (rules : Discipline opening turn whole one apart good) {w : World σ κ} {m : Move ρ τ}
    (safe : Safe whole one apart w) (allowed : Allowed good w m) : Safe whole one apart (step opening turn w m) := by
  cases m with
  | start request =>
    obtain ⟨opens,news⟩ := rules.opens w.shared request safe.whole
    refine ⟨safe.whole,fun i c at_ => ?_,fun i j c d ne left right => ?_⟩
    · rcases addCall at_ with ⟨_,rfl⟩ | old
      · exact opens
      · exact safe.each i c old
    · rcases addCall left with ⟨rfl,rfl⟩ | oldLeft
      · rcases addCall right with ⟨rfl,_⟩ | oldRight
        · exact absurd rfl ne
        · exact news d (safe.each j d oldRight)
      · rcases addCall right with ⟨rfl,rfl⟩ | oldRight
        · exact rules.symmetric _ _ (news c (safe.each i c oldLeft))
        · exact safe.apart i j c d ne oldLeft oldRight
  | turn k input =>
    simp only [step]
    split
    · exact safe
    · rename_i mover at_
      have ok := safe.each k mover at_
      obtain ⟨next,moved⟩ := rules.keeps w.shared mover input safe.whole ok (allowed mover at_)
      have frame : ∀ (i : Nat) c, k ≠ i → w.calls[i]? = some c →
          one (turn w.shared mover input).1 c ∧ apart (turn w.shared mover input).2 c := fun i c ne other =>
        rules.frames w.shared mover input c safe.whole ok (allowed mover at_) (safe.each i c other)
          (safe.apart k i mover c ne at_ other)
      refine ⟨next,fun i c here => ?_,fun i j c d ne left right => ?_⟩
      · rcases setCall here with ⟨rfl,rfl⟩ | ⟨other,old⟩
        · exact moved
        · exact (frame i c other old).1
      · rcases setCall left with ⟨rfl,rfl⟩ | ⟨otherLeft,oldLeft⟩
        · rcases setCall right with ⟨rfl,_⟩ | ⟨otherRight,oldRight⟩
          · exact absurd rfl ne
          · exact (frame j d otherRight oldRight).2
        · rcases setCall right with ⟨rfl,rfl⟩ | ⟨_,oldRight⟩
          · exact rules.symmetric _ _ (frame i c otherLeft oldLeft).2
          · exact safe.apart i j c d ne oldLeft oldRight

theorem runSafe (rules : Discipline opening turn whole one apart good) {w : World σ κ} {ms : List (Move ρ τ)}
    (safe : Safe whole one apart w) (allowed : Guarded (step opening turn) (Allowed good) w ms) :
    Safe whole one apart (run (step opening turn) w ms) :=
  invariantRun (fun _ _ inv ok => stepSafe rules inv ok) safe allowed

end Moves
end Wepuu.Interleaving
