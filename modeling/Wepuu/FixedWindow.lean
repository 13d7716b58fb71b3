import Mathlib.Algebra.Order.Group.Int
import Mathlib.Data.List.Basic
import Mathlib.Order.MinMax

/-! Budgets with fixed windows. Calls are counted under a key, and a call is granted when
the key has fewer grants than the budget. -/
namespace Wepuu.FixedWindow

section Counters
variable {α κ : Type} [DecidableEq κ] (key : α → κ)

def asked (k : κ) (log : List (α × Bool)) : Nat := log.countP fun e => decide (key e.1 = k)
def granted (k : κ) (log : List (α × Bool)) : Nat := log.countP fun e => e.2 && decide (key e.1 = k)

inductive Metered (limit : Nat) : List (α × Bool) → Prop
  | nil : Metered limit []
  | answer {log : List (α × Bool)} (call : α) (earlier : Metered limit log) :
      Metered limit (log ++ [(call,decide (granted key (key call) log < limit))])

variable {key} {limit : Nat} {log : List (α × Bool)}

theorem askedAppend {k : κ} {call : α} {answer : Bool} :
    asked key k (log ++ [(call,answer)]) = asked key k log + if key call = k then 1 else 0 := by
  simp [asked,List.countP_append,List.countP_singleton]

theorem grantedAppend {k : κ} {call : α} {answer : Bool} :
    granted key k (log ++ [(call,answer)]) = granted key k log + if answer && decide (key call = k) then 1 else 0 := by
  simp [granted,List.countP_append,List.countP_singleton]

theorem meteredExactly (metered : Metered key limit log) (k : κ) : granted key k log = min limit (asked key k log) := by
  induction metered with
  | nil => exact (Nat.min_zero limit).symm
  | @answer log call earlier ih =>
    rw [grantedAppend,askedAppend]
    by_cases here : key call = k
    · subst here
      by_cases below : granted key (key call) log < limit
      · simp only [below,decide_true,Bool.and_self,if_true]
        omega
      · simp only [below,decide_false,Bool.false_and,Bool.false_eq_true,if_false,if_true]
        omega
    · simp only [here,decide_false,Bool.and_false,Bool.false_eq_true,if_false]
      exact ih

theorem meteredWithin (metered : Metered key limit log) (k : κ) : granted key k log ≤ limit := by
  rw [meteredExactly metered]
  exact Nat.min_le_left _ _

theorem insideEither {inside : α → Bool} {k l : κ}
    (two : ∀ e ∈ log, inside e.1 = true → key e.1 = k ∨ key e.1 = l) :
    (log.countP fun e => e.2 && inside e.1) ≤ granted key k log + granted key l log := by
  induction log with
  | nil => exact Nat.zero_le _
  | cons e rest ih =>
    have later := ih fun e mem => two e (List.mem_cons_of_mem _ mem)
    simp only [granted,List.countP_cons,Bool.and_eq_true,decide_eq_true_eq] at later ⊢
    by_cases counted : e.2 = true ∧ inside e.1 = true
    · rw [if_pos counted]
      rcases two e List.mem_cons_self counted.2 with here | here
      · have charged : e.2 = true ∧ key e.1 = k := ⟨counted.1,here⟩
        rw [if_pos charged]
        omega
      · have charged : e.2 = true ∧ key e.1 = l := ⟨counted.1,here⟩
        rw [if_pos charged]
        omega
    · rw [if_neg counted]
      omega

theorem twoBudgets (metered : Metered key limit log) {inside : α → Bool} {k l : κ}
    (two : ∀ e ∈ log, inside e.1 = true → key e.1 = k ∨ key e.1 = l) :
    (log.countP fun e => e.2 && inside e.1) ≤ 2 * limit := by
  have either := insideEither two
  have first := meteredWithin metered k
  have second := meteredWithin metered l
  omega

/- Only the calls under its own key decide what a call is answered, so a set of keys can be
taken out of a log by itself. -/
theorem grantedFilter {mine : α → Bool} {k : κ} (whole : ∀ call, key call = k → mine call = true)
    (log : List (α × Bool)) : granted key k (log.filter fun e => mine e.1) = granted key k log := by
  unfold granted
  rw [List.countP_filter]
  refine List.countP_congr fun e _ => ?_
  simp only [Bool.and_eq_true,decide_eq_true_eq,and_iff_left_iff_imp,and_imp]
  exact fun _ here => whole e.1 here

theorem meteredFilter (metered : Metered key limit log) (mine : α → Bool)
    (whole : ∀ a b, key a = key b → mine a = mine b) : Metered key limit (log.filter fun e => mine e.1) := by
  induction metered with
  | nil => exact .nil
  | @answer log call earlier ih =>
    rw [List.filter_append]
    cases chosen : mine call with
    | false =>
      simp only [List.filter_singleton,chosen,cond_false,List.append_nil]
      exact ih
    | true =>
      have same : granted key (key call) (log.filter fun e => mine e.1) = granted key (key call) log :=
        grantedFilter (fun other here => (whole other call here).trans chosen) log
      simp only [List.filter_singleton,chosen,cond_true]
      rw [← same]
      exact .answer call ih

theorem meteredUnique {other : List (α × Bool)} (metered : Metered key limit log) (also : Metered key limit other)
    (same : log.map (·.1) = other.map (·.1)) : log = other := by
  induction metered generalizing other with
  | nil => exact (List.map_eq_nil_iff.mp same.symm).symm
  | @answer log call earlier ih =>
    cases also with
    | nil => simp at same
    | @answer rest last before =>
      rw [List.map_append,List.map_append] at same
      obtain ⟨front,back⟩ := List.append_inj' same rfl
      have logs := ih before front
      simp only [List.map_cons,List.map_nil,List.cons.injEq,and_true] at back
      subst logs
      subst back
      rfl

end Counters

section Windows

theorem twoWindows {width start t : Int} (positive : 0 < width) (after : start ≤ t) (before : t < start + width) :
    t / width = start / width ∨ t / width = start / width + 1 := by
  have low : start / width ≤ t / width := Int.ediv_le_ediv positive after
  have high : t / width < start / width + 2 := by
    rw [Int.ediv_lt_iff_lt_mul positive]
    have last := Int.lt_ediv_add_one_mul_self start positive
    rw [Int.add_mul,Int.one_mul] at last
    rw [Int.add_mul]
    omega
  omega

end Windows
end Wepuu.FixedWindow
