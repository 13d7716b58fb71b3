import Mathlib.Data.List.Sort
import Mathlib.Data.List.Nodup
import Wepuu.Relational

/-! Queries on one partition of a table. Two tables agree on a partition when they have the
same rows there; a query that only admits rows of the partition answers alike on both,
also where the order of its answer is left to ORDER BY. -/
namespace Wepuu.RowSecurity
open Relational

section Agreement
variable {α β : Type}

def AgreeWhere (p : α → Prop) (rows others : List α) : Prop := ∀ r, p r → (r ∈ rows ↔ r ∈ others)

variable {p : α → Prop} {q : α → Bool} {rows others : List α}

theorem agreeRefl (p : α → Prop) (rows : List α) : AgreeWhere p rows rows := fun _ _ => Iff.rfl

theorem agreeTrans {third : List α} (left : AgreeWhere p rows others) (right : AgreeWhere p others third) :
    AgreeWhere p rows third := fun r own => (left r own).trans (right r own)

theorem memAgrees (agree : AgreeWhere p rows others) (inside : ∀ r, q r = true → p r) {r : α} :
    r ∈ rows.filter q ↔ r ∈ others.filter q := by
  simp only [List.mem_filter]
  exact and_congr_left fun hit => agree r (inside r hit)

theorem anyAgrees (agree : AgreeWhere p rows others) (inside : ∀ r, q r = true → p r) : rows.any q = others.any q := by
  rw [Bool.eq_iff_iff,List.any_eq_true,List.any_eq_true]
  exact exists_congr fun r => and_congr_left fun hit => agree r (inside r hit)

theorem findSomeAgrees {f : α → Option β} (agree : AgreeWhere p rows others) (inside : ∀ r, (f r).isSome = true → p r)
    (once : ∀ a ∈ rows, ∀ b ∈ rows, (f a).isSome = true → (f b).isSome = true → a = b) :
    rows.findSome? f = others.findSome? f := by
  cases found : rows.findSome? f with
  | none =>
    refine (List.findSome?_eq_none_iff.mpr fun r mem => ?_).symm
    by_contra some_
    have answered := Option.isSome_iff_ne_none.mpr some_
    exact some_ (List.findSome?_eq_none_iff.mp found r ((agree r (inside r answered)).mpr mem))
  | some b =>
    obtain ⟨a,ha,answer⟩ := List.exists_of_findSome?_eq_some found
    have answered : (f a).isSome = true := by rw [answer]; rfl
    cases other : others.findSome? f with
    | none =>
      rw [List.findSome?_eq_none_iff.mp other a ((agree a (inside a answered)).mp ha)] at answer
      contradiction
    | some c =>
      obtain ⟨o,ho,told⟩ := List.exists_of_findSome?_eq_some other
      have spoken : (f o).isSome = true := by rw [told]; rfl
      rw [← once a ha o ((agree o (inside o spoken)).mpr ho) answered spoken,answer] at told
      exact told

theorem findAgrees (agree : AgreeWhere p rows others) (inside : ∀ r, q r = true → p r)
    (once : ∀ a ∈ rows, ∀ b ∈ rows, q a = true → q b = true → a = b) : rows.find? q = others.find? q := by
  rw [List.find?_eq_findSome?_guard,List.find?_eq_findSome?_guard]
  refine findSomeAgrees agree (fun r some_ => inside r ?_) fun a ha b hb left right => once a ha b hb ?_ ?_
  · simpa [Option.isSome_guard] using some_
  · simpa [Option.isSome_guard] using left
  · simpa [Option.isSome_guard] using right

end Agreement

section Statements
variable {α : Type} {p : α → Prop} {q : α → Bool} {f : α → α} {rows : List α}

theorem agreeUpdate (outside : ∀ r ∈ rows, q r = true → ¬p r ∧ ¬p (f r)) : AgreeWhere p rows (updateWhere q f rows) := by
  intro r own
  constructor
  · intro mem
    refine untouchedRow mem ?_
    by_contra hit
    exact (outside r mem (by simpa using hit)).1 own
  · intro mem
    obtain ⟨o,ho,same⟩ := memUpdateWhere.mp mem
    by_cases hit : q o = true
    · rw [if_pos hit] at same
      exact absurd own (same ▸ (outside o ho hit).2)
    · rw [if_neg hit] at same
      exact same ▸ ho

theorem agreeDelete (outside : ∀ r ∈ rows, q r = true → ¬p r) : AgreeWhere p rows (deleteWhere q rows) := by
  intro r own
  refine ⟨fun mem => memDeleteWhere.mpr ⟨mem,?_⟩,fun mem => (memDeleteWhere.mp mem).1⟩
  by_contra hit
  exact outside r mem (by simpa using hit) own

theorem agreeAppend {row : α} (outside : ¬p row) : AgreeWhere p rows (rows ++ [row]) := by
  intro r own
  refine ⟨List.mem_append_left _,fun mem => (List.mem_append.mp mem).resolve_right fun new => ?_⟩
  exact outside (List.mem_singleton.mp new ▸ own)

end Statements

section Ordering
variable {α : Type}

def ThenBy (first : α → Int) (second : α → α → Prop) (a b : α) : Prop :=
  first a < first b ∨ (first a = first b ∧ second a b)

variable {first : α → Int} {second : α → α → Prop}

instance [DecidableRel second] : DecidableRel (ThenBy first second) := fun a b =>
  inferInstanceAs (Decidable (first a < first b ∨ (first a = first b ∧ second a b)))

instance [Std.Total second] : Std.Total (ThenBy first second) where
  total a b := by
    rcases Int.lt_trichotomy (first a) (first b) with lower | same | higher
    · exact .inl (.inl lower)
    · exact (Std.Total.total a b).imp (fun le => .inr ⟨same,le⟩) fun le => .inr ⟨same.symm,le⟩
    · exact .inr (.inl higher)

instance [IsTrans α second] : IsTrans α (ThenBy first second) where
  trans a b c ab bc := by
    rcases ab with ab | ⟨ab,le⟩
    · rcases bc with bc | ⟨bc,_⟩
      · exact .inl (Int.lt_trans ab bc)
      · exact .inl (bc ▸ ab)
    · rcases bc with bc | ⟨bc,le'⟩
      · exact .inl (ab ▸ bc)
      · exact .inr ⟨ab.trans bc,IsTrans.trans a b c le le'⟩

theorem thenByBoth {a b : α} (ab : ThenBy first second a b) (ba : ThenBy first second b a) : second a b ∧ second b a := by
  rcases ab with ab | ⟨_,le⟩ <;> rcases ba with ba | ⟨same,le'⟩
  · omega
  · omega
  · omega
  · exact ⟨le,le'⟩

/- An ORDER BY that no two rows of the partition tie in fixes the order of the answer. -/
theorem orderedAgrees {p : α → Prop} {q : α → Bool} {le : α → α → Prop} [DecidableRel le] [Std.Total le] [IsTrans α le]
    {rows others : List α} (agree : AgreeWhere p rows others) (inside : ∀ r, q r = true → p r) (once : rows.Nodup)
    (onceOther : others.Nodup)
    (untied : ∀ a ∈ rows, ∀ b ∈ rows, q a = true → q b = true → le a b → le b a → a = b) :
    (rows.filter q).insertionSort le = (others.filter q).insertionSort le := by
  have perm : (rows.filter q).Perm (others.filter q) :=
    (List.perm_ext_iff_of_nodup (once.filter q) (onceOther.filter q)).mpr fun r => memAgrees agree inside
  have sorted := (List.perm_insertionSort le _).trans (perm.trans (List.perm_insertionSort le _).symm)
  refine sorted.eq_of_pairwise (fun a b left right ab ba => ?_) (List.pairwise_insertionSort le _)
    (List.pairwise_insertionSort le _)
  obtain ⟨ha,hitA⟩ := List.mem_filter.mp ((List.mem_insertionSort le).mp left)
  obtain ⟨hb,hitB⟩ := List.mem_filter.mp ((memAgrees agree inside).mpr ((List.mem_insertionSort le).mp right))
  exact untied a ha b hb hitA hitB ab ba

end Ordering
end Wepuu.RowSecurity
