import Mathlib.Data.List.Infix
import Mathlib.Data.List.Count

/-! String.prototype.replace with a text to look for: only the first occurrence goes, and
the replacement is a template in which a dollar sign can begin a pattern. -/
namespace Wepuu.Templates

section Occurrences
variable {α : Type} [DecidableEq α] {search front back : List α}

def firstOccurrence (search : List α) : List α → Option (List α × List α)
  | [] => if search = [] then some ([],[]) else none
  | c :: rest =>
    if search.isPrefixOf (c :: rest) then some ([],(c :: rest).drop search.length)
    else (firstOccurrence search rest).map fun parts => (c :: parts.1,parts.2)

theorem soughtSome (absent : firstOccurrence search front = none) : search ≠ [] := by
  rintro rfl
  cases front with
  | nil => simp [firstOccurrence] at absent
  | cons c rest => simp [firstOccurrence] at absent

theorem occurrenceHere (some_ : search ≠ []) : firstOccurrence search (search ++ back) = some ([],back) := by
  cases search with
  | nil => exact absurd rfl some_
  | cons c rest =>
    have first : (c :: rest).isPrefixOf (c :: (rest ++ back)) = true :=
      List.isPrefixOf_iff_prefix.mpr (List.prefix_append _ _)
    rw [List.cons_append,firstOccurrence,if_pos first]
    simp

theorem lackedAbsent {c : α} (sought : c ∈ search) (lacked : c ∉ front) : firstOccurrence search front = none := by
  induction front with
  | nil => simp [firstOccurrence,List.ne_nil_of_mem sought]
  | cons d rest ih =>
    have other : search.isPrefixOf (d :: rest) = false := by
      rw [Bool.eq_false_iff]
      exact fun first => lacked ((List.isPrefixOf_iff_prefix.mp first).subset sought)
    simp only [firstOccurrence,other,Bool.false_eq_true,if_false]
    rw [ih fun mem => lacked (List.mem_cons_of_mem _ mem)]
    rfl

theorem occurrenceAcross {mark : α} (unsought : mark ∉ search) (absent : firstOccurrence search front = none) :
    firstOccurrence search (front ++ mark :: back) =
      (firstOccurrence search back).map fun parts => (front ++ mark :: parts.1,parts.2) := by
  have some_ := soughtSome absent
  induction front with
  | nil =>
    have other : search.isPrefixOf (mark :: back) = false := by
      rw [Bool.eq_false_iff]
      intro first
      obtain ⟨d,rest,rfl⟩ := List.exists_cons_of_ne_nil some_
      simp only [List.isPrefixOf,Bool.and_eq_true,beq_iff_eq] at first
      exact unsought (first.1 ▸ List.mem_cons_self)
    simp [firstOccurrence,other]
  | cons d rest ih =>
    simp only [firstOccurrence] at absent
    split at absent
    · cases absent
    · rename_i other
      have later : search.isPrefixOf (d :: rest ++ mark :: back) = false := by
        rw [Bool.eq_false_iff]
        intro first
        rcases List.prefix_or_prefix_of_prefix (List.isPrefixOf_iff_prefix.mp first) (List.prefix_append (d :: rest) _) with
          short | ⟨tail,rfl⟩
        · exact other (List.isPrefixOf_iff_prefix.mpr short)
        · have over_ := (List.prefix_append_right_inj _).mp (List.isPrefixOf_iff_prefix.mp first)
          cases tail with
          | nil => exact other (by simp)
          | cons c _ =>
            obtain ⟨same,-⟩ := List.cons_prefix_cons.mp over_
            exact unsought (by simp [same])
      rw [List.cons_append] at later ⊢
      rw [firstOccurrence,if_neg (by simp [later]),ih (Option.map_eq_none_iff.mp absent),Option.map_map]
      rfl

end Occurrences

section Patterns

/- What a character after a dollar sign stands for, without captures. -/
def pattern (before matched after : List Char) (c : Char) : Option (List Char) :=
  if c = '$' then some ['$']
  else if c = '&' then some matched
  else if c = '`' then some before
  else if c = Char.ofNat 39 then some after
  else none

def substitute (before matched after : List Char) : List Char → List Char
  | [] => []
  | [c] => [c]
  | c :: d :: rest =>
    if c = '$' then match pattern before matched after d with
      | some text => text ++ substitute before matched after rest
      | none => c :: substitute before matched after (d :: rest)
    else c :: substitute before matched after (d :: rest)

def replaceFirst (text search template : List Char) : List Char := match firstOccurrence search text with
  | some (before,after) => before ++ substitute before search after template ++ after
  | none => text

def replace (text search template : String) : String :=
  String.ofList (replaceFirst text.toList search.toList template.toList)

def begins (c : Char) : Bool := c == '$' || c == '&' || c == '`' || c == Char.ofNat 39

def inert : List Char → Bool
  | c :: d :: rest => !(c == '$' && begins d) && inert (d :: rest)
  | _ => true

end Patterns

section Inert
variable {front template behind : List Char}

theorem inertAfter (bare : '$' ∉ front) : inert (front ++ template) = inert template := by
  induction front with
  | nil => rfl
  | cons c rest ih =>
    have other : (c == '$') = false := beq_eq_false_iff_ne.mpr fun same => bare (same ▸ List.mem_cons_self)
    have tail := ih fun mem => bare (List.mem_cons_of_mem _ mem)
    rw [List.cons_append,← tail]
    cases rest ++ template with
    | nil => rfl
    | cons d more => simp only [inert,other,Bool.false_and,Bool.not_false,Bool.true_and]

theorem bareInert (bare : '$' ∉ template) : inert template = true := by
  rw [← List.append_nil template,inertAfter bare]
  rfl

theorem inertBefore (bare : '$' ∉ behind) (starts : ∀ c ∈ behind.head?, begins c = false) :
    inert (template ++ behind) = inert template := by
  induction template using inert.induct with
  | case1 c d rest ih =>
    simp only [List.cons_append,inert]
    rw [← List.cons_append,ih]
  | case2 short other =>
    cases short with
    | nil =>
      rw [List.nil_append,bareInert bare]
      rfl
    | cons c rest =>
      cases rest with
      | cons d more => exact absurd rfl (other c d more)
      | nil =>
        cases behind with
        | nil => rfl
        | cons d more =>
          simp only [List.cons_append,List.nil_append,inert,starts d rfl,Bool.and_false,Bool.not_false,Bool.true_and]
          exact bareInert bare

end Inert

section Substitution
variable {before matched after : List Char}

theorem patternNone {c : Char} : pattern before matched after c = none ↔ begins c = false := by
  unfold pattern begins
  repeat' split
  all_goals simp_all

theorem substituteInert {template : List Char} (plain : inert template = true) :
    substitute before matched after template = template := by
  induction template using substitute.induct before matched after with
  | case1 | case2 => rfl
  | case3 d rest text begun ih =>
    simp only [inert,beq_self_eq_true,Bool.true_and,Bool.and_eq_true,Bool.not_eq_true'] at plain
    rw [patternNone.mpr plain.1] at begun
    cases begun
  | case4 d rest bare ih =>
    simp only [inert,Bool.and_eq_true] at plain
    simp only [substitute,if_true,bare,ih plain.2]
  | case5 c d rest other ih =>
    simp only [inert,Bool.and_eq_true] at plain
    simp only [substitute,if_neg other,ih plain.2]

theorem substituteAfter {front template : List Char} (bare : '$' ∉ front) :
    substitute before matched after (front ++ template) = front ++ substitute before matched after template := by
  induction front with
  | nil => rfl
  | cons c rest ih =>
    have other : c ≠ '$' := fun same => bare (same ▸ List.mem_cons_self)
    have tail := ih fun mem => bare (List.mem_cons_of_mem _ mem)
    rw [List.cons_append,List.cons_append,← tail]
    cases behind : rest ++ template with
    | nil => rfl
    | cons d more => rw [substitute,if_neg other]

/- Each pattern costs a dollar sign, where the texts around it have none. -/
theorem dollarsMost (bare : '$' ∉ before ++ matched ++ after) (template : List Char) :
    (substitute before matched after template).count '$' ≤ template.count '$' ∧
      (inert template = false → (substitute before matched after template).count '$' < template.count '$') := by
  simp only [List.mem_append,not_or] at bare
  induction template using substitute.induct before matched after with
  | case1 | case2 => exact ⟨Nat.le_refl _,nofun⟩
  | case3 d rest text begun ih =>
    have fewer : text.count '$' ≤ (d :: rest).count '$' - rest.count '$' := by
      unfold pattern at begun
      split at begun
      · rename_i dollar
        cases begun
        simp [dollar]
      · have none_ : text.count '$' = 0 := by
          rw [List.count_eq_zero]
          split at begun
          · cases begun
            exact bare.1.2
          · split at begun
            · cases begun
              exact bare.1.1
            · split at begun
              · cases begun
                exact bare.2
              · cases begun
        omega
    have most := ih.1
    have step : rest.count '$' ≤ (d :: rest).count '$' := (List.sublist_cons_self d rest).count_le '$'
    simp only [substitute,if_true,begun,List.count_append,List.count_cons_self]
    omega
  | case4 d rest bare_ ih =>
    simp only [substitute,if_true,bare_,List.count_cons_self,inert,patternNone.mp bare_,Bool.and_false,Bool.not_false,
      Bool.true_and]
    exact ⟨Nat.succ_le_succ ih.1,fun spoiled => Nat.succ_lt_succ (ih.2 spoiled)⟩
  | case5 c d rest other ih =>
    have plain : (c == '$') = false := beq_eq_false_iff_ne.mpr other
    simp only [substitute,if_neg other,List.count_cons_of_ne other,inert,plain,Bool.false_and,Bool.not_false,
      Bool.true_and]
    exact ih

end Substitution

end Wepuu.Templates
