import Wepuu.Relational
import Wepuu.Runs

/-! Noninterference by unwinding: a run and the run of one party's events alone look alike to
that party. The party's side of a table is a selection of its rows, in their order; a
computation on two such tables is related statement by statement. -/
namespace Wepuu.Noninterference
open Relational Runs

section Unwinding
variable {σ ε ω : Type} {step : σ → ε → σ}

def answersTo (own : ε → Bool) (out : σ → ε → ω) (s : σ) (e : ε) : List ω := if own e then [out s e] else []

theorem unwinding {own : ε → Bool} {out : σ → ε → ω} {alike : σ → σ → Prop} {admitted : σ → ε → Prop}
    (consistent : ∀ a b e, alike a b → own e = true → admitted a e → admitted b e →
      alike (step a e) (step b e) ∧ out a e = out b e)
    (respects : ∀ a b e, alike a b → own e = false → admitted a e → alike (step a e) b)
    {a b : σ} {es : List ε} (start : alike a b) (full : Guarded step admitted a es)
    (alone : Guarded step admitted b (es.filter own)) :
    alike (run step a es) (run step b (es.filter own)) ∧
    collect step (answersTo own out) a es = collect step (answersTo own out) b (es.filter own) := by
  induction es generalizing a b with
  | nil => exact ⟨start,rfl⟩
  | cons e es ih =>
    cases mine : own e with
    | true =>
      rw [List.filter_cons_of_pos mine] at alone ⊢
      obtain ⟨next,same⟩ := consistent a b e start mine full.1 alone.1
      obtain ⟨ended,answers⟩ := ih next full.2 alone.2
      refine ⟨ended,?_⟩
      simp only [collect,answersTo,mine,if_true] at answers ⊢
      rw [same,answers]
    | false =>
      rw [List.filter_cons_of_neg (by rw [mine]; decide)] at alone ⊢
      obtain ⟨ended,answers⟩ := ih (respects a b e start mine full.1) full.2 alone
      refine ⟨ended,?_⟩
      simp only [collect,answersTo,mine] at answers ⊢
      exact answers

end Unwinding

section Selections
variable {α β : Type} {p q : α → Bool} {rows others : List α}

/- The two tables have the same rows of the selection, in the same order. -/
def SameIn (p : α → Bool) (rows others : List α) : Prop := rows.filter p = others.filter p

theorem memSame (same : SameIn p rows others) {r : α} (own : p r = true) : r ∈ rows ↔ r ∈ others := by
  have member := congrArg (r ∈ ·) same
  simpa only [List.mem_filter,own,and_true,eq_iff_iff] using member

theorem filterInside (inside : ∀ r, q r = true → p r = true) : (rows.filter p).filter q = rows.filter q := by
  rw [List.filter_filter]
  refine List.filter_congr fun r _ => ?_
  cases hit : q r with
  | true => rw [inside r hit]; rfl
  | false => rfl

theorem sameFilter (same : SameIn p rows others) (inside : ∀ r, q r = true → p r = true) : rows.filter q = others.filter q := by
  rw [← @filterInside _ p q rows inside,← @filterInside _ p q others inside,same]

theorem sameFind (same : SameIn p rows others) (inside : ∀ r, q r = true → p r = true) : rows.find? q = others.find? q := by
  rw [← List.head?_filter,← List.head?_filter,sameFilter same inside]

theorem sameAny (same : SameIn p rows others) (inside : ∀ r, q r = true → p r = true) : rows.any q = others.any q := by
  rw [Bool.eq_iff_iff,List.any_eq_true,List.any_eq_true,← List.find?_isSome,← List.find?_isSome,sameFind same inside]

theorem sameCount (same : SameIn p rows others) (inside : ∀ r, q r = true → p r = true) : rows.countP q = others.countP q := by
  rw [List.countP_eq_length_filter,List.countP_eq_length_filter,sameFilter same inside]

theorem sameFindSome {f : α → Option β} (same : SameIn p rows others) (inside : ∀ r, (f r).isSome = true → p r = true) :
    rows.findSome? f = others.findSome? f := by
  have selected : ∀ table : List α, table.findSome? f = (table.filter p).findSome? f := by
    intro table
    induction table with
    | nil => rfl
    | cons r table ih =>
      cases answer : f r with
      | some b =>
        rw [List.filter_cons_of_pos (inside r (by rw [answer]; rfl)),List.findSome?_cons,List.findSome?_cons,answer]
      | none =>
        rw [List.findSome?_cons,answer,ih]
        cases own : p r with
        | true => rw [List.filter_cons_of_pos own,List.findSome?_cons,answer]
        | false => rw [List.filter_cons_of_neg (by rw [own]; decide)]
  rw [selected rows,selected others,same]

theorem filterChanged {f : α → α} (keeps : ∀ r, p (f r) = p r) :
    (updateWhere q f rows).filter p = updateWhere q f (rows.filter p) := by
  have stays : (fun r => p (if q r then f r else r)) = p := by
    funext r
    split
    · exact keeps r
    · rfl
  unfold updateWhere
  rw [List.filter_map]
  exact congrArg (fun s => (rows.filter s).map fun r => if q r then f r else r) stays

theorem sameUpdate {f : α → α} (same : SameIn p rows others) (keeps : ∀ r, p (f r) = p r) :
    SameIn p (updateWhere q f rows) (updateWhere q f others) := by
  unfold SameIn
  rw [filterChanged keeps,filterChanged keeps,same]

theorem sameAppend (same : SameIn p rows others) (more : List α) : SameIn p (rows ++ more) (others ++ more) := by
  unfold SameIn
  rw [List.filter_append,List.filter_append,same]

theorem insertSame {clash : α → α → Bool} {row : α} (same : SameIn p rows others)
    (free : ∀ r ∈ rows, p r = false → clash row r = false) (freeOther : ∀ r ∈ others, p r = false → clash row r = false) :
    (insertRow clash row rows).isSome = (insertRow clash row others).isSome := by
  have selected : ∀ table : List α, (∀ r ∈ table, p r = false → clash row r = false) →
      table.any (clash row) = (table.filter p).any (clash row) := by
    intro table apart
    rw [List.any_filter,Bool.eq_iff_iff,List.any_eq_true,List.any_eq_true]
    refine exists_congr fun r => and_congr_right fun mem => ?_
    cases own : p r with
    | true => rfl
    | false => rw [apart r mem own]; decide
  unfold insertRow
  rw [selected rows free,selected others freeOther,same]
  split <;> rfl

theorem outsideUpdate {f : α → α} (outside : ∀ r ∈ rows, q r = true → p r = false) (keeps : ∀ r, p (f r) = p r) :
    SameIn p (updateWhere q f rows) rows := by
  refine filterUpdate (fun r mem own => ?_) keeps
  by_contra hit
  rw [outside r mem (by simpa using hit)] at own
  contradiction

theorem outsideAppend {row : α} (outside : p row = false) : SameIn p (rows ++ [row]) rows := by
  unfold SameIn
  rw [List.filter_append,List.filter_cons_of_neg (by rw [outside]; decide),List.filter_nil,List.append_nil]

theorem outsideDelete (outside : ∀ r ∈ rows, q r = true → p r = false) : SameIn p (deleteWhere q rows) rows := by
  unfold SameIn deleteWhere
  rw [List.filter_filter]
  refine List.filter_congr fun r mem => ?_
  cases hit : q r with
  | true => rw [outside r mem hit]; rfl
  | false => exact Bool.and_true _

theorem outsideUpsert {clash : α → α → Bool} {row : α} {merge : α → α} (outside : p row = false)
    (clashes : ∀ r ∈ rows, clash row r = true → p r = false) (keeps : ∀ r, p (merge r) = p r) :
    SameIn p (upsertRow clash row merge rows) rows := by
  unfold upsertRow
  split
  · exact outsideUpdate clashes keeps
  · exact outsideAppend outside

end Selections

/- Two computations that raise the same fault, or both end in related results. -/
section Pairs
variable {σ τ υ χ φ : Type}

inductive Paired (alike : σ → τ → Prop) : Except φ σ → Except φ τ → Prop where
  | raised (fault : φ) : Paired alike (.error fault) (.error fault)
  | ended {x : σ} {y : τ} (related : alike x y) : Paired alike (.ok x) (.ok y)

variable {alike : σ → τ → Prop} {then_ : υ → χ → Prop} {x : Except φ σ} {y : Except φ τ}

theorem pairedBind {f : σ → Except φ υ} {g : τ → Except φ χ} (first : Paired alike x y)
    (rest : ∀ a b, alike a b → Paired then_ (f a) (g b)) : Paired then_ (x >>= f) (y >>= g) := by
  cases first with
  | raised fault => exact .raised fault
  | ended related => exact rest _ _ related

theorem pairedMap {f : σ → υ} {g : τ → χ} (first : Paired alike x y) (maps : ∀ a b, alike a b → then_ (f a) (g b)) :
    Paired then_ (x.map f) (y.map g) := by
  cases first with
  | raised fault => exact .raised fault
  | ended related => exact .ended (maps _ _ related)

variable {ρ : Type} {s : σ} {t : τ} {left : Except φ (σ × ρ)} {right : Except φ (τ × ρ)}

theorem pairedSettle (start : alike s t) (both : Paired (fun x y => alike x.1 y.1 ∧ x.2 = y.2) left right) :
    alike (settle s left) (settle t right) := by
  cases both with
  | raised fault => exact start
  | ended related => exact related.1

theorem pairedAnswer (both : Paired (fun x y => alike x.1 y.1 ∧ x.2 = y.2) left right) :
    left.map (·.2) = right.map (·.2) := by
  cases both with
  | raised fault => rfl
  | ended related => exact congrArg Except.ok related.2

end Pairs
end Wepuu.Noninterference
