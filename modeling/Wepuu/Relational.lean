import Mathlib.Data.List.Basic

/-! Tables as lists of rows. The statements are UPDATE … WHERE, DELETE … WHERE and
INSERT under unique indexes; the lemmas are what later proofs use of them: where a
row after a statement came from, which rows survive it, and that indexes stay unique. -/
namespace Wepuu.Relational

section Statements
variable {α : Type}

def updateWhere (p : α → Bool) (f : α → α) (rows : List α) : List α :=
  rows.map fun r => if p r then f r else r

def deleteWhere (p : α → Bool) (rows : List α) : List α := rows.filter fun r => !p r

/- A unique index is given by the relation two rows stand in when they collide in it.
Several indexes of one table are one relation, their disjunction. -/
def insertRow (clash : α → α → Bool) (row : α) (rows : List α) : Option (List α) :=
  if rows.any (clash row) then none else some (rows ++ [row])

/- INSERT … ON CONFLICT DO UPDATE. -/
def upsertRow (clash : α → α → Bool) (row : α) (merge : α → α) (rows : List α) : List α :=
  if rows.any (clash row) then updateWhere (clash row) merge rows else rows ++ [row]

theorem memUpdateWhere {p : α → Bool} {f : α → α} {rows : List α} {r : α} :
    r ∈ updateWhere p f rows ↔ ∃ o ∈ rows, (if p o then f o else o) = r := List.mem_map

theorem memDeleteWhere {p : α → Bool} {rows : List α} {r : α} :
    r ∈ deleteWhere p rows ↔ r ∈ rows ∧ p r = false := by
  simp only [deleteWhere,List.mem_filter,Bool.not_eq_true']

theorem updatedRow {p : α → Bool} {f : α → α} {rows : List α} {o : α}
    (member : o ∈ rows) (chosen : p o = true) : f o ∈ updateWhere p f rows :=
  memUpdateWhere.mpr ⟨o,member,if_pos chosen⟩

theorem untouchedRow {p : α → Bool} {f : α → α} {rows : List α} {o : α}
    (member : o ∈ rows) (skipped : p o = false) : o ∈ updateWhere p f rows :=
  memUpdateWhere.mpr ⟨o,member,by simp [skipped]⟩

theorem updateNone {p : α → Bool} {f : α → α} {rows : List α}
    (none : ∀ r ∈ rows, p r = false) : updateWhere p f rows = rows := by
  have same : ∀ r ∈ rows, (if p r then f r else r) = r := by
    intro r member
    simp [none r member]
  simpa only [updateWhere,List.map_id'] using List.map_congr_left same

section Columns
variable {κ : Type} {column : α → κ} {p : α → Bool} {f : α → α} {rows : List α}

theorem columnKept (keeps : ∀ r, column (f r) = column r) (r : α) : column (if p r then f r else r) = column r := by
  split
  · exact keeps r
  · rfl

theorem columnMap (keeps : ∀ r, column (f r) = column r) : (updateWhere p f rows).map column = rows.map column := by
  unfold updateWhere
  rw [List.map_map]
  exact List.map_congr_left fun r _ => columnKept keeps r

theorem columnAll (column : α → κ) (P : κ → Prop) (keeps : ∀ r, column (f r) = column r) (known : ∀ r ∈ rows, P (column r)) :
    ∀ r ∈ updateWhere p f rows, P (column r) := by
  intro r mem
  obtain ⟨o,ho,rfl⟩ := memUpdateWhere.mp mem
  rw [columnKept keeps]
  exact known o ho

theorem columnAny (column : α → κ) (q : κ → Bool) (keeps : ∀ r, column (f r) = column r) :
    ((updateWhere p f rows).any fun r => q (column r)) = rows.any fun r => q (column r) := by
  have same : ∀ table : List α, (table.any fun r => q (column r)) = (table.map column).any q := by
    intro table
    rw [List.any_map]
    rfl
  rw [same,same,columnMap keeps]

end Columns

theorem filterUpdate {p q : α → Bool} {f : α → α} {rows : List α}
    (skips : ∀ r ∈ rows, q r = true → p r = false) (keeps : ∀ r, q (f r) = q r) :
    (updateWhere p f rows).filter q = rows.filter q := by
  induction rows with
  | nil => rfl
  | cons head tail ih =>
    have rest := ih fun r mem => skips r (List.mem_cons_of_mem _ mem)
    have first := skips head List.mem_cons_self
    simp only [updateWhere,List.map_cons] at rest ⊢
    by_cases chosen : p head = true
    · have skipped : q head = false := by
        by_contra hit
        rw [first (by simpa using hit)] at chosen
        contradiction
      rw [if_pos chosen,List.filter_cons_of_neg (by rw [keeps,skipped]; decide),
        List.filter_cons_of_neg (by rw [skipped]; decide)]
      exact rest
    · rw [if_neg chosen,List.filter_cons,List.filter_cons,rest]

theorem findUpdated {p q : α → Bool} {f : α → α} {rows : List α}
    (skips : ∀ r ∈ rows, q r = true → p r = false) (keeps : ∀ r, q (f r) = q r) :
    (updateWhere p f rows).find? q = rows.find? q := by
  rw [← List.head?_filter,← List.head?_filter,filterUpdate skips keeps]

theorem findChanged {q : α → Bool} {f : α → α} {rows : List α} (keeps : ∀ r, q (f r) = q r) :
    (updateWhere q f rows).find? q = (rows.find? q).map f := by
  induction rows with
  | nil => rfl
  | cons head tail ih =>
    simp only [updateWhere,List.map_cons] at ih ⊢
    by_cases chosen : q head = true
    · rw [if_pos chosen,List.find?_cons_of_pos (by rw [keeps]; exact chosen),List.find?_cons_of_pos chosen]
      rfl
    · rw [if_neg chosen,List.find?_cons_of_neg chosen,List.find?_cons_of_neg chosen,ih]

theorem insertRowExact {clash : α → α → Bool} {row : α} {rows after : List α} :
    insertRow clash row rows = some after ↔
      (∀ r ∈ rows, clash row r = false) ∧ after = rows ++ [row] := by
  unfold insertRow
  by_cases h : rows.any (clash row) = true
  · rw [if_pos h]
    obtain ⟨r,member,hit⟩ := List.any_eq_true.mp h
    refine ⟨fun bad => by simp at bad,fun ⟨free,_⟩ => ?_⟩
    rw [free r member] at hit
    contradiction
  · rw [if_neg h]
    have free : ∀ r ∈ rows, clash row r = false := by
      intro r member
      by_contra hit
      exact h (List.any_eq_true.mpr ⟨r,member,by simpa using hit⟩)
    exact ⟨fun ok => ⟨free,(Option.some.inj ok).symm⟩,fun ok => by rw [ok.2]⟩

theorem insertRowRefused {clash : α → α → Bool} {row : α} {rows : List α} :
    insertRow clash row rows = none ↔ ∃ r ∈ rows, clash row r = true := by
  unfold insertRow
  split
  · rename_i h
    simpa using h
  · rename_i h
    simpa using h

theorem memUpsertRow {clash : α → α → Bool} {row : α} {merge : α → α} {rows : List α} {r : α}
    (mem : r ∈ upsertRow clash row merge rows) :
    r ∈ rows ∨ r = row ∨ ∃ o ∈ rows, clash row o = true ∧ r = merge o := by
  unfold upsertRow at mem
  split at mem
  · obtain ⟨o,ho,rfl⟩ := memUpdateWhere.mp mem
    split
    · exact .inr (.inr ⟨o,ho,‹_›,rfl⟩)
    · exact .inl ho
  · rcases List.mem_append.mp mem with old | new
    · exact .inl old
    · exact .inr (.inl (List.mem_singleton.mp new))

end Statements

section Indexes
variable {α κ : Type}

/- The rows of a table are pairwise free of collisions. -/
def Indexed (clash : α → α → Bool) (rows : List α) : Prop :=
  rows.Pairwise fun a b => clash a b = false

theorem indexedNil (clash : α → α → Bool) : Indexed clash ([] : List α) := List.Pairwise.nil

theorem indexedEq {clash : α → α → Bool} {rows : List α} (indexed : Indexed clash rows)
    (symmetric : ∀ a b, clash a b = clash b a) {a b : α} (left : a ∈ rows) (right : b ∈ rows)
    (hit : clash a b = true) : a = b := by
  induction rows with
  | nil => simp at left
  | cons head tail ih =>
    obtain ⟨first,rest⟩ := List.pairwise_cons.mp indexed
    rcases List.mem_cons.mp left with rfl | ha
    · rcases List.mem_cons.mp right with rfl | hb
      · rfl
      · rw [first b hb] at hit
        contradiction
    · rcases List.mem_cons.mp right with rfl | hb
      · rw [symmetric,first a ha] at hit
        contradiction
      · exact ih rest ha hb

theorem indexedCount {clash : α → α → Bool} {rows : List α} {p : α → Bool} (indexed : Indexed clash rows)
    (meets : ∀ a ∈ rows, ∀ b ∈ rows, p a = true → p b = true → clash a b = true) : rows.countP p ≤ 1 := by
  induction rows with
  | nil => exact Nat.zero_le 1
  | cons head tail ih =>
    obtain ⟨first,rest⟩ := List.pairwise_cons.mp indexed
    by_cases chosen : p head = true
    · have none_ : tail.countP p = 0 := by
        refine List.countP_eq_zero.mpr fun b mem other => ?_
        have hit := meets head List.mem_cons_self b (List.mem_cons_of_mem _ mem) chosen other
        rw [first b mem] at hit
        contradiction
      have counted : (head :: tail).countP p = tail.countP p + 1 := List.countP_cons_of_pos chosen
      omega
    · rw [List.countP_cons_of_neg chosen]
      exact ih rest fun a left b right => meets a (List.mem_cons_of_mem _ left) b (List.mem_cons_of_mem _ right)

theorem indexedAppend {clash : α → α → Bool} {rows : List α} {row : α}
    (indexed : Indexed clash rows) (symmetric : ∀ a b, clash a b = clash b a)
    (free : ∀ r ∈ rows, clash row r = false) : Indexed clash (rows ++ [row]) := by
  refine List.pairwise_append.mpr ⟨indexed,List.pairwise_singleton _ _,?_⟩
  intro a ha b hb
  rw [List.mem_singleton.mp hb,symmetric]
  exact free a ha

theorem indexedDelete {clash : α → α → Bool} {rows : List α} {p : α → Bool}
    (indexed : Indexed clash rows) : Indexed clash (deleteWhere p rows) :=
  List.Pairwise.filter _ indexed

theorem indexedUpdate {clash : α → α → Bool} {rows : List α} {p : α → Bool} {f : α → α}
    (indexed : Indexed clash rows)
    (keeps : ∀ a b, clash (if p a then f a else a) (if p b then f b else b) = true → clash a b = true) :
    Indexed clash (updateWhere p f rows) := by
  refine List.pairwise_map.mpr (List.Pairwise.imp ?_ indexed)
  intro a b free
  by_contra hit
  have back := keeps a b (by simpa using hit)
  rw [free] at back
  contradiction

end Indexes

section Provenance
variable {α : Type}

def Derives (related : α → α → Prop) (before after : List α) : Prop :=
  ∀ r ∈ after, ∃ o ∈ before, related o r

def Persists (related : α → α → Prop) (before after : List α) : Prop :=
  ∀ o ∈ before, ∃ r ∈ after, related o r

theorem persistsRefl {related : α → α → Prop} (refl : ∀ r, related r r) (rows : List α) :
    Persists related rows rows := fun r member => ⟨r,member,refl r⟩

theorem derivesUpdate {related : α → α → Prop} {p : α → Bool} {f : α → α} {rows : List α}
    (refl : ∀ r, related r r) (moves : ∀ r ∈ rows, p r = true → related r (f r)) :
    Derives related rows (updateWhere p f rows) := by
  intro r member
  obtain ⟨o,ho,rfl⟩ := memUpdateWhere.mp member
  refine ⟨o,ho,?_⟩
  split
  · exact moves o ho ‹_›
  · exact refl o

theorem persistsUpdate {related : α → α → Prop} {p : α → Bool} {f : α → α} {rows : List α}
    (refl : ∀ r, related r r) (moves : ∀ r ∈ rows, p r = true → related r (f r)) :
    Persists related rows (updateWhere p f rows) := by
  intro o member
  refine ⟨if p o then f o else o,memUpdateWhere.mpr ⟨o,member,rfl⟩,?_⟩
  split
  · exact moves o member ‹_›
  · exact refl o

theorem persistsAppend {related : α → α → Prop} (refl : ∀ r, related r r) (rows more : List α) :
    Persists related rows (rows ++ more) :=
  fun r member => ⟨r,List.mem_append_left _ member,refl r⟩

end Provenance

section Aggregates
variable {α : Type}

/- COALESCE(MAX(f), 0) over the rows of a WHERE clause. -/
def maxWhere (p : α → Bool) (f : α → Nat) (rows : List α) : Nat :=
  (rows.filter p).foldr (fun r most => max (f r) most) 0

theorem leMaxWhere {p : α → Bool} {f : α → Nat} {rows : List α} {r : α}
    (member : r ∈ rows) (chosen : p r = true) : f r ≤ maxWhere p f rows := by
  induction rows with
  | nil => simp at member
  | cons head tail ih =>
    rcases List.mem_cons.mp member with rfl | later
    · rw [maxWhere,List.filter_cons_of_pos chosen]
      exact Nat.le_max_left _ _
    · have step := ih later
      simp only [maxWhere,List.filter_cons] at step ⊢
      split
      · simp only [List.foldr_cons]
        omega
      · exact step

theorem ltNext {p : α → Bool} {f : α → Nat} {rows : List α} {r : α}
    (member : r ∈ rows) (chosen : p r = true) : f r < maxWhere p f rows + 1 :=
  Nat.lt_succ_of_le (leMaxWhere member chosen)

end Aggregates
end Wepuu.Relational
