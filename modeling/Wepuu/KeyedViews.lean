import Wepuu.Relational

/-! A table seen as a map from keys to what its rows say. A key selects rows; while it
selects at most one, the statements act on the map: an update changes an entry, a delete
removes one, an upsert sets one. -/
namespace Wepuu.KeyedViews
open Relational

section Views
variable {κ ρ ε : Type} {selects : κ → ρ → Bool} {entry : κ → ρ → ε} {rows : List ρ} {k : κ}

def view (selects : κ → ρ → Bool) (entry : κ → ρ → ε) (rows : List ρ) (k : κ) : Option ε :=
  (rows.find? (selects k)).map (entry k)

def Single (selects : κ → ρ → Bool) (rows : List ρ) (k : κ) : Prop :=
  ∀ a ∈ rows, ∀ b ∈ rows, selects k a = true → selects k b = true → a = b

theorem viewSome (single : Single selects rows k) {v : ε} :
    view selects entry rows k = some v ↔ ∃ a ∈ rows, selects k a = true ∧ entry k a = v := by
  constructor
  · intro found
    obtain ⟨a,first,same⟩ := Option.map_eq_some_iff.mp found
    exact ⟨a,List.mem_of_find?_eq_some first,List.find?_some first,same⟩
  · rintro ⟨a,mem,hit,same⟩
    refine Option.map_eq_some_iff.mpr ⟨a,?_,same⟩
    cases first : rows.find? (selects k) with
    | none => exact absurd hit (List.find?_eq_none.mp first a mem)
    | some b => rw [single b (List.mem_of_find?_eq_some first) a mem (List.find?_some first) hit]

theorem viewNone : view selects entry rows k = none ↔ ∀ a ∈ rows, selects k a = false := by
  simp only [view,Option.map_eq_none_iff,List.find?_eq_none,Bool.not_eq_true]

theorem viewUpdated {p : ρ → Bool} {f : ρ → ρ} {g : ε → ε}
    (keeps : ∀ a, selects k (f a) = selects k a)
    (moves : ∀ a ∈ rows, selects k a = true → entry k (if p a then f a else a) = g (entry k a)) :
    view selects entry (updateWhere p f rows) k = (view selects entry rows k).map g := by
  induction rows with
  | nil => rfl
  | cons head tail ih =>
    have later := ih fun a mem => moves a (List.mem_cons_of_mem _ mem)
    have kept : selects k (if p head then f head else head) = selects k head := columnKept keeps head
    simp only [view,updateWhere,List.map_cons] at later ⊢
    by_cases hit : selects k head = true
    · rw [List.find?_cons_of_pos (by rw [kept]; exact hit),List.find?_cons_of_pos hit,Option.map_some,Option.map_some,
        Option.map_some,moves head List.mem_cons_self hit]
    · rw [List.find?_cons_of_neg (by rw [kept]; exact hit),List.find?_cons_of_neg hit]
      exact later

theorem viewUpdatedElsewhere {p : ρ → Bool} {f : ρ → ρ} (keeps : ∀ a, selects k (f a) = selects k a)
    (skips : ∀ a ∈ rows, selects k a = true → p a = false) :
    view selects entry (updateWhere p f rows) k = view selects entry rows k := by
  rw [view,findUpdated skips keeps]
  rfl

theorem viewDeleted (single : Single selects rows k) {p : ρ → Bool} {keep : ε → Bool}
    (same : ∀ a ∈ rows, selects k a = true → p a = !keep (entry k a)) :
    view selects entry (deleteWhere p rows) k = (view selects entry rows k).filter keep := by
  have left : Single selects (deleteWhere p rows) k :=
    fun a ha b hb => single a (memDeleteWhere.mp ha).1 b (memDeleteWhere.mp hb).1
  ext v
  rw [viewSome left,Option.filter_eq_some_iff,viewSome single]
  constructor
  · rintro ⟨a,mem,hit,rfl⟩
    obtain ⟨old,kept⟩ := memDeleteWhere.mp mem
    rw [same a old hit] at kept
    exact ⟨⟨a,old,hit,rfl⟩,by simpa using kept⟩
  · rintro ⟨⟨a,mem,hit,rfl⟩,kept⟩
    exact ⟨a,memDeleteWhere.mpr ⟨mem,by rw [same a mem hit,kept]; rfl⟩,hit,rfl⟩

theorem viewDeletedElsewhere {p : ρ → Bool} (skips : ∀ a ∈ rows, selects k a = true → p a = false) :
    view selects entry (deleteWhere p rows) k = view selects entry rows k := by
  have same : ∀ a ∈ rows, (selects k a && !p a) = selects k a := by
    intro a mem
    cases hit : selects k a with
    | true => simp [skips a mem hit]
    | false => rfl
  rw [view,deleteWhere,← List.head?_filter,List.filter_filter,List.filter_congr same,List.head?_filter]
  rfl

theorem viewUpserted {clash : ρ → ρ → Bool} {row : ρ} (hit : selects k row = true)
    (own : ∀ a ∈ rows, clash row a = selects k a) :
    view selects entry (upsertRow clash row (fun _ => row) rows) k = some (entry k row) := by
  have first : (upsertRow clash row (fun _ => row) rows).find? (selects k) = some row := by
    cases found : (upsertRow clash row (fun _ => row) rows).find? (selects k) with
    | some b =>
      rcases memUpsertRow (List.mem_of_find?_eq_some found) with old | rfl | ⟨_,_,_,rfl⟩
      · have chosen : clash row b = true := by rw [own b old]; exact List.find?_some found
        unfold upsertRow at found
        rw [if_pos (List.any_eq_true.mpr ⟨b,old,chosen⟩)] at found
        obtain ⟨o,ho,same⟩ := memUpdateWhere.mp (List.mem_of_find?_eq_some found)
        split at same
        · rw [same]
        · rename_i other
          rw [same,chosen] at other
          contradiction
      · rfl
      · rfl
    | none =>
      have nothing := List.find?_eq_none.mp found
      unfold upsertRow at nothing
      split at nothing
      · rename_i taken
        obtain ⟨a,mem,chosen⟩ := List.any_eq_true.mp taken
        exact absurd hit (nothing row (memUpdateWhere.mpr ⟨a,mem,if_pos chosen⟩))
      · exact absurd hit (nothing row (by simp))
  rw [view,first]
  rfl

theorem viewUpsertedElsewhere {clash : ρ → ρ → Bool} {row : ρ} (missed : selects k row = false)
    (apart : ∀ a ∈ rows, clash row a = true → selects k a = false) :
    view selects entry (upsertRow clash row (fun _ => row) rows) k = view selects entry rows k := by
  unfold upsertRow view
  split
  · congr 1
    clear * - missed apart
    induction rows with
    | nil => rfl
    | cons head tail ih =>
      have later := ih fun a mem => apart a (List.mem_cons_of_mem _ mem)
      simp only [updateWhere,List.map_cons] at later ⊢
      by_cases chosen : clash row head = true
      · rw [if_pos chosen,List.find?_cons_of_neg (by simp [missed]),
          List.find?_cons_of_neg (by simp [apart head List.mem_cons_self chosen]),later]
      · rw [if_neg chosen,List.find?_cons,List.find?_cons,later]
  · rw [List.find?_append]
    cases rows.find? (selects k) with
    | none => simp [missed]
    | some a => rfl

end Views

/- Two rows that collide with the new one would collide with each other. -/
theorem indexedUpsert {ρ : Type} {clash : ρ → ρ → Bool} {row : ρ} {rows : List ρ}
    (symmetric : ∀ a b, clash a b = clash b a) (meets : ∀ a b, clash row a = true → clash row b = true → clash a b = true)
    (indexed : Indexed clash rows) : Indexed clash (upsertRow clash row (fun _ => row) rows) := by
  unfold upsertRow
  split
  · refine List.pairwise_map.mpr (List.Pairwise.imp ?_ indexed)
    intro a b free
    split <;> rename_i hitA <;> split <;> rename_i hitB
    · rw [meets a b hitA hitB] at free
      contradiction
    · simpa using hitB
    · rw [symmetric]
      simpa using hitA
    · exact free
  · rename_i none
    refine indexedAppend indexed symmetric ?_
    intro r mem
    by_contra hit
    exact none (List.any_eq_true.mpr ⟨r,mem,by simpa using hit⟩)

end Wepuu.KeyedViews
