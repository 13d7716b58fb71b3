import Mathlib.Data.List.Sort
import Mathlib.Data.List.Nodup

/-! LIMIT and OFFSET over a table that grows between the queries. A new row can only move the
others back, so a reader that goes from page to page may see a row twice and misses none. -/
namespace Wepuu.Paging

variable {α : Type}

def ahead (size page : Nat) (rows : List α) : List α := rows.drop (page * size)
def shown (size page : Nat) (rows : List α) : List α := (rows.drop (page * size)).take size

section Orders
variable {le : α → α → Prop} [DecidableRel le] [Std.Total le] [IsTrans α le] {rows others : List α}

theorem orderedSublist (unique : rows.Nodup) (within : ∀ r ∈ rows, r ∈ others)
    (untied : ∀ a ∈ others, ∀ b ∈ others, le a b → le b a → a = b) :
    (rows.insertionSort le).Sublist (others.insertionSort le) := by
  obtain ⟨same,perm,sub⟩ := (List.subperm_of_subset unique within).trans (List.perm_insertionSort le others).symm.subperm
  have equal : rows.insertionSort le = same := by
    refine ((List.perm_insertionSort le rows).trans perm.symm).eq_of_pairwise (fun a b left right ab ba => ?_)
      (List.pairwise_insertionSort le rows) ((List.pairwise_insertionSort le others).sublist sub)
    have first := within a ((List.mem_insertionSort le).mp left)
    exact untied a first b ((List.mem_insertionSort le).mp (sub.subset right)) ab ba
  rw [equal]
  exact sub

end Orders

section Pages
variable {size page : Nat} {rows later : List α} {r : α}

theorem aheadSplit : ahead size page rows = shown size page rows ++ ahead size (page + 1) rows := by
  rw [shown,ahead,ahead,Nat.succ_mul,← List.drop_drop,List.take_append_drop]

/- What is ahead of the reader is on the next page it loads, or still ahead. -/
theorem shownOrAhead (grown : rows.Sublist later) (mem : r ∈ ahead size page rows) :
    r ∈ shown size page later ∨ r ∈ ahead size (page + 1) later := by
  have still : r ∈ ahead size page later := (grown.drop (page * size)).subset mem
  rwa [aheadSplit,List.mem_append] at still

theorem nothingAhead (last : rows.length ≤ (page + 1) * size) : ahead size (page + 1) rows = [] :=
  List.drop_eq_nil_of_le last

end Pages
end Wepuu.Paging
