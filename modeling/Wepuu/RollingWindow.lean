import Mathlib.Algebra.Order.Group.Defs
import Mathlib.Algebra.Order.Sub.Basic
import Mathlib.Data.List.Perm.Subperm

/-! Budgets with rolling windows. An entry is admitted when the entries of one window behind
it are fewer than the budget; no window of that width, wherever it starts, then holds more. -/
namespace Wepuu.RollingWindow

section Cuts
variable {α T : Type} [LinearOrder T] (time : α → T)

def since (cut : T) (log : List α) : List α := log.filter fun r => decide (cut < time r)

variable {time}

theorem filterWeaker {p q : α → Bool} {log : List α} (weaker : ∀ r ∈ log, p r = true → q r = true) :
    (log.filter p).length ≤ (log.filter q).length := by
  rw [← List.countP_eq_length_filter,← List.countP_eq_length_filter]
  exact List.countP_mono_left weaker

theorem sinceSince {cut later : T} {log : List α} (le : cut ≤ later) :
    since time later (since time cut log) = since time later log := by
  simp only [since,List.filter_filter]
  refine List.filter_congr fun r _ => ?_
  simp only [Bool.and_eq_left_iff_imp,decide_eq_true_eq]
  exact lt_of_le_of_lt le

/- Of a sorted log, so many entries lie behind the cut as soon as the one does that has so many
from itself to the end. -/
theorem releaseBound (cut : T) {log : List α} {max : Nat} {release : α}
    (sorted : log.Pairwise fun a b => time a ≤ time b) (enough : max ≤ log.length)
    (at_ : log[log.length - max]? = some release) : max ≤ (since time cut log).length ↔ cut < time release := by
  have split := List.take_append_drop (log.length - max) log
  obtain ⟨within,rfl⟩ := List.getElem?_eq_some_iff.mp at_
  rw [List.drop_eq_getElem_cons within] at split
  have size : (log.drop (log.length - max + 1)).length + 1 = max := by
    rw [List.length_drop]
    omega
  rw [← split] at sorted
  obtain ⟨-,rest,below⟩ := List.pairwise_append.mp sorted
  obtain ⟨above,-⟩ := List.pairwise_cons.mp rest
  have counted : (since time cut log).length = (since time cut (log.take (log.length - max))).length +
      (since time cut (log[log.length - max] :: log.drop (log.length - max + 1))).length := by
    rw [← List.length_append,since,since,since,← List.filter_append,split]
  constructor
  · intro many
    refine lt_of_not_ge fun le => ?_
    have before : since time cut (log.take (log.length - max)) = [] :=
      List.filter_eq_nil_iff.mpr fun r mem young => absurd (of_decide_eq_true young)
        (not_lt.mpr (le_trans (below r mem _ List.mem_cons_self) le))
    have here : since time cut (log[log.length - max] :: log.drop (log.length - max + 1)) =
        since time cut (log.drop (log.length - max + 1)) := List.filter_cons_of_neg fun young =>
      absurd (of_decide_eq_true young) (not_lt.mpr le)
    have last : (since time cut (log.drop (log.length - max + 1))).length ≤ _ := List.length_filter_le _ _
    rw [counted,before,here,List.length_nil] at many
    omega
  · intro young
    have all : since time cut (log[log.length - max] :: log.drop (log.length - max + 1)) =
        log[log.length - max] :: log.drop (log.length - max + 1) := List.filter_eq_self.mpr fun r mem => by
      rcases List.mem_cons.mp mem with rfl | later
      · exact decide_eq_true young
      · exact decide_eq_true (lt_of_lt_of_le young (above r later))
    rw [counted,all,List.length_cons]
    omega

end Cuts

section Windows
variable {α T : Type} [AddCommGroup T] [LinearOrder T] (time : α → T)

def fromStart (start width : T) (log : List α) : List α :=
  log.filter fun r => decide (start ≤ time r) && decide (time r < start + width)
def afterStart (start width : T) (log : List α) : List α :=
  log.filter fun r => decide (start < time r) && decide (time r ≤ start + width)

inductive Paced (width : T) (max : Nat) : List α → Prop
  | nil : Paced width max []
  | accept {log : List α} {r : α} (earlier : Paced width max log)
      (below : (since time (time r - width) log).length < max) : Paced width max (log ++ [r])

variable {time}

theorem windowBound {width : T} {max : Nat} {log : List α} (inside : α → Bool)
    (narrow : ∀ r s, inside r = true → inside s = true → time s - width < time r)
    (paced : Paced time width max log) : (log.filter inside).length ≤ max := by
  induction paced with
  | nil => exact Nat.zero_le max
  | @accept log r earlier below ih =>
    rw [List.filter_append,List.length_append]
    cases last : inside r with
    | false =>
      have none_ : [r].filter inside = [] := by simp [last]
      rw [none_,List.length_nil]
      omega
    | true =>
      have behind : (log.filter inside).length ≤ (since time (time r - width) log).length :=
        filterWeaker fun s _ within => decide_eq_true (narrow s r within last)
      have one : ([r].filter inside).length ≤ 1 := List.length_filter_le _ _
      omega

variable [IsOrderedAddMonoid T]

theorem fromStartBound {width : T} {max : Nat} {log : List α} (paced : Paced time width max log) (start : T) :
    (fromStart time start width log).length ≤ max := by
  refine windowBound _ (fun r s first last => ?_) paced
  simp only [Bool.and_eq_true,decide_eq_true_eq] at first last
  exact lt_of_lt_of_le (sub_lt_iff_lt_add.mpr last.2) first.1

theorem afterStartBound {width : T} {max : Nat} {log : List α} (paced : Paced time width max log) (start : T) :
    (afterStart time start width log).length ≤ max := by
  refine windowBound _ (fun r s first last => ?_) paced
  simp only [Bool.and_eq_true,decide_eq_true_eq] at first last
  exact lt_of_le_of_lt (sub_le_iff_le_add.mpr last.2) first.1

/- What follows an entry by less than the slack stays within the budget of a window that is
wider by the slack. -/
theorem laggingBound {β : Type} {slack : T} {log : List α} {followers : List β} (entry : β → α) (at_ : β → T)
    (known : ∀ f ∈ followers, entry f ∈ log ∧ time (entry f) ≤ at_ f ∧ at_ f < time (entry f) + slack)
    (once : (followers.map entry).Nodup) (start span : T) :
    (followers.filter fun f => decide (start ≤ at_ f) && decide (at_ f ≤ start + span)).length ≤
      (afterStart time (start - slack) (span + slack) log).length := by
  have kept : ((followers.filter fun f => decide (start ≤ at_ f) && decide (at_ f ≤ start + span)).map entry).Nodup :=
    List.Nodup.sublist (List.filter_sublist.map entry) once
  rw [← List.length_map entry]
  refine (List.subperm_of_subset kept fun r mem => ?_).length_le
  obtain ⟨f,hf,rfl⟩ := List.mem_map.mp mem
  obtain ⟨chosen,within⟩ := List.mem_filter.mp hf
  obtain ⟨entered,after,before⟩ := known f chosen
  simp only [Bool.and_eq_true,decide_eq_true_eq] at within
  refine List.mem_filter.mpr ⟨entered,?_⟩
  simp only [Bool.and_eq_true,decide_eq_true_eq]
  refine ⟨sub_lt_iff_lt_add.mpr (lt_of_le_of_lt within.1 before),le_trans after (le_trans within.2 ?_)⟩
  rw [sub_add_add_cancel,add_comm]

end Windows
end Wepuu.RollingWindow
