import Mathlib.Data.Finset.Card
import Mathlib.Data.Nat.Nth
import Wepuu.Relational

/-! ORDER BY key LIMIT n without an order of the rows: a row is taken when fewer than n rows
have a smaller key. A sum over the rows bounds what any number of such queries can take. -/
namespace Wepuu.RankedQueues
open Relational

section Ranks

theorem firstRanks (keys : Finset Nat) (key limit : Nat) (late : limit ≤ (keys.filter (· < key)).card) :
    limit ≤ (keys.filter fun k => (keys.filter (· < k)).card < limit ∧ k < key).card := by
  have rank : ∀ k, (keys.filter (· < k)).card = Nat.count (· ∈ keys) k := by
    intro k
    rw [Nat.count_eq_card_filter_range]
    refine congrArg Finset.card (Finset.ext fun i => ?_)
    simp only [Finset.mem_filter,Finset.mem_range,and_comm]
  simp only [rank] at late ⊢
  -- the element of rank i, for each i below the limit
  have before : ∀ i < limit, Nat.nth (· ∈ keys) i < key := fun i below => Nat.nth_lt_of_lt_count (by omega)
  have enough : ∀ i < limit, ∀ finite : (Set.ofPred (· ∈ keys)).Finite, i < finite.toFinset.card := by
    intro i below finite
    have bound : Nat.count (· ∈ keys) key ≤ finite.toFinset.card := by
      rw [Nat.count_eq_card_filter_range]
      refine Finset.card_le_card fun k mem => ?_
      simp only [Finset.mem_filter] at mem
      exact finite.mem_toFinset.mpr mem.2
    omega
  calc limit = (Finset.range limit).card := (Finset.card_range limit).symm
    _ ≤ _ := Finset.card_le_card_of_injOn (Nat.nth (· ∈ keys)) ?_ ?_
  · intro i below
    have small := Finset.mem_range.mp below
    refine Finset.mem_filter.mpr ⟨Nat.nth_mem i (enough i small),?_,before i small⟩
    rw [Nat.count_nth (enough i small)]
    exact small
  · intro i left j right same
    have first := Nat.count_nth (enough i (Finset.mem_range.mp left))
    have second := Nat.count_nth (enough j (Finset.mem_range.mp right))
    rw [same] at first
    exact first.symm.trans second

variable {α : Type} {key : α → Nat} {rows : List α}

theorem countKeys (unique : (rows.map key).Nodup) (p : Nat → Prop) [DecidablePred p] :
    rows.countP (fun r => decide (p (key r))) = ((rows.map key).toFinset.filter p).card := by
  have chosen : (rows.map key).toFinset.filter p = ((rows.map key).filter fun k => decide (p k)).toFinset := by
    ext k
    simp only [Finset.mem_filter,List.mem_toFinset,List.mem_filter,decide_eq_true_eq]
  rw [chosen,List.toFinset_card_of_nodup (unique.filter _),List.filter_map,List.length_map,List.countP_eq_length_filter]
  rfl

theorem takenBefore (unique : (rows.map key).Nodup) {limit : Nat} {r : α}
    (late : limit ≤ rows.countP fun o => decide (key o < key r)) :
    limit ≤ rows.countP fun o => decide ((rows.countP fun b => decide (key b < key o)) < limit ∧ key o < key r) := by
  have ranks : ∀ k, rows.countP (fun b => decide (key b < k)) = ((rows.map key).toFinset.filter (· < k)).card :=
    fun k => countKeys unique (· < k)
  simp only [ranks] at late ⊢
  rw [countKeys unique fun k => ((rows.map key).toFinset.filter (· < k)).card < limit ∧ k < key r]
  exact firstRanks _ _ _ late

end Ranks

section Sums
variable {α : Type} {f : α → α} {weight : α → Nat} {p q : α → Bool}

/- An update that takes one off the weight of every row it changes. -/
theorem updateSpends (keeps : ∀ r, q (f r) = q r) (rows : List α) (spends : ∀ r ∈ rows, p r = true → weight (f r) + 1 = weight r) :
    (((updateWhere p f rows).filter q).map weight).sum + (rows.filter p).countP q = ((rows.filter q).map weight).sum := by
  induction rows with
  | nil => rfl
  | cons r rows ih =>
    have rest := ih fun o mem => spends o (List.mem_cons_of_mem _ mem)
    have first := spends r List.mem_cons_self
    unfold updateWhere at rest ⊢
    cases chosen : p r <;> cases counted : q r <;>
      simp only [List.map_cons,chosen,counted,keeps,List.filter_cons,List.countP_cons,List.map_cons,List.sum_cons,if_true,
        Bool.false_eq_true,if_false] at rest ⊢
    · exact rest
    · omega
    · omega
    · have less := first chosen
      omega

theorem updateSumLe (keeps : ∀ r, q (f r) = q r) (lowers : ∀ r, weight (f r) ≤ weight r) (rows : List α) :
    (((updateWhere p f rows).filter q).map weight).sum ≤ ((rows.filter q).map weight).sum := by
  induction rows with
  | nil => exact Nat.le_refl _
  | cons r rows ih =>
    have less := lowers r
    unfold updateWhere at ih ⊢
    cases chosen : p r <;> cases counted : q r <;>
      simp only [List.map_cons,chosen,counted,keeps,List.filter_cons,List.sum_cons,Bool.false_eq_true,if_true,
        if_false] <;> omega

theorem sublistSumLe {rows others : List α} (sub : rows.Sublist others) : (rows.map weight).sum ≤ (others.map weight).sum := by
  induction sub with
  | slnil => exact Nat.le_refl _
  | cons r _ ih =>
    rw [List.map_cons,List.sum_cons]
    omega
  | cons_cons r _ ih =>
    simp only [List.map_cons,List.sum_cons]
    omega

theorem subsetSumLe {rows others : List α} (unique : rows.Nodup) (within : ∀ r ∈ rows, r ∈ others) :
    (rows.map weight).sum ≤ (others.map weight).sum := by
  obtain ⟨same,perm,sub⟩ := List.subperm_of_subset unique within
  rw [← (perm.map weight).sum_eq]
  exact sublistSumLe sub

end Sums
end Wepuu.RankedQueues
