import Mathlib.Data.List.Lex
import Mathlib.Data.List.Sort

/-! Texts that list words with single spaces between them, and JavaScript's operations on
them: split, join, a Set of strings, and sort by code units. -/
namespace Wepuu.Words

/- A word that survives being listed: not empty, and without a space. -/
def Plain (word : String) : Prop := word ≠ "" ∧ ' ' ∉ word.toList

def split (text : String) : List String := (text.toList.splitOn ' ').map String.ofList

def words (text : String) : List String := (split text).filter (· ≠ "")

def join (parts : List String) : String := String.ofList ((parts.map String.toList).intersperse [' ']).flatten

def distinct (parts : List String) : List String := parts.eraseDups

theorem memDistinct {word : String} {parts : List String} : word ∈ distinct parts ↔ word ∈ parts :=
  List.mem_eraseDups

theorem joinSplit {parts : List String} (spaceless : ∀ word ∈ parts, ' ' ∉ word.toList) (some_ : parts ≠ []) :
    split (join parts) = parts := by
  have whole : ((parts.map String.toList).intersperse [' ']).flatten = [' '].intercalate (parts.map String.toList) := by
    rfl
  unfold split join
  rw [String.toList_ofList,whole,List.splitOn_intercalate]
  · simp
  · intro chars mem
    obtain ⟨word,hw,rfl⟩ := List.mem_map.mp mem
    exact spaceless word hw
  · simpa using some_

theorem wordsJoin {parts : List String} (plain : ∀ word ∈ parts, Plain word) : words (join parts) = parts := by
  cases parts with
  | nil => decide
  | cons first rest =>
    unfold words
    rw [joinSplit (fun word mem => (plain word mem).2) (List.cons_ne_nil _ _),List.filter_eq_self]
    intro word mem
    simpa using (plain word mem).1

theorem wordsAfterSpace (front back : String) :
    words (String.ofList (front.toList ++ ' ' :: back.toList)) = words front ++ words back := by
  unfold words split
  rw [String.toList_ofList,List.splitOn_append_cons_of_beq _ _ (beq_self_eq_true ' '),List.map_append,List.filter_append]

theorem memWordsJoin {parts : List String} {word : String} :
    word ∈ words (join parts) ↔ ∃ part ∈ parts, word ∈ words part := by
  induction parts with
  | nil => simp [show words (join []) = [] by decide]
  | cons first rest ih =>
    cases rest with
    | nil =>
      have alone : join [first] = first := by simp [join]
      simp [alone]
    | cons second rest =>
      have joined : join (first :: second :: rest) =
          String.ofList (first.toList ++ ' ' :: (join (second :: rest)).toList) := by
        unfold join
        rw [String.toList_ofList]
        rfl
      rw [joined,wordsAfterSpace,List.mem_append,ih]
      simp

theorem joinInjective {a b : List String} (left : ∀ word ∈ a, Plain word) (right : ∀ word ∈ b, Plain word)
    (same : join a = join b) : a = b := by
  rw [← wordsJoin left,same,wordsJoin right]

theorem splitPiece {α : Type} {p : α → Bool} {l piece : List α} (mem : piece ∈ l.splitOnP p) :
    ∀ c ∈ piece, c ∈ l ∧ p c = false := by
  induction l generalizing piece with
  | nil =>
    rw [List.splitOnP_nil] at mem
    rw [List.mem_singleton.mp mem]
    exact nofun
  | cons c rest ih =>
    have later : ∀ {piece}, piece ∈ rest.splitOnP p → ∀ x ∈ piece, x ∈ c :: rest ∧ p x = false := fun mem x hx =>
      ⟨List.mem_cons_of_mem _ (ih mem x hx).1,(ih mem x hx).2⟩
    rw [List.splitOnP_cons_eq_if_modifyHead] at mem
    split at mem
    · rcases List.mem_cons.mp mem with rfl | mem
      · exact nofun
      · exact later mem
    · rename_i other
      obtain ⟨head,tail,pieces⟩ := List.exists_cons_of_ne_nil (List.splitOnP_ne_nil p rest)
      rw [pieces] at mem later
      rcases List.mem_cons.mp mem with rfl | mem
      · intro x hx
        rcases List.mem_cons.mp hx with rfl | hx
        · exact ⟨List.mem_cons_self,Bool.not_eq_true _ ▸ other⟩
        · exact later List.mem_cons_self x hx
      · exact later (List.mem_cons_of_mem _ mem)

theorem splitSpaceless {chars piece : List Char} (mem : piece ∈ chars.splitOn ' ') : ' ' ∉ piece := by
  rw [List.splitOn_eq_splitOnP] at mem
  intro space
  have other := (splitPiece mem ' ' space).2
  rw [beq_self_eq_true] at other
  cases other

theorem wordsPlain {text word : String} (mem : word ∈ words text) : Plain word := by
  obtain ⟨mem,some_⟩ := List.mem_filter.mp mem
  obtain ⟨chars,piece,rfl⟩ := List.mem_map.mp mem
  refine ⟨by simpa using some_,?_⟩
  rw [String.toList_ofList]
  exact splitSpaceless piece

def codeUnits (text : String) : List Nat := text.toList.flatMap fun c =>
  if 0x10000 ≤ c.toNat then [0xd800 + (c.toNat - 0x10000) / 0x400,0xdc00 + (c.toNat - 0x10000) % 0x400] else [c.toNat]

/- [...new Set(parts)].sort().join(' ') -/
def canonical (parts : List String) : String :=
  join ((distinct parts).insertionSort fun a b => codeUnits a ≤ codeUnits b)

theorem canonicalSame {a b : List String} (left : ∀ word ∈ a, Plain word) (right : ∀ word ∈ b, Plain word)
    (same : canonical a = canonical b) (word : String) : word ∈ a ↔ word ∈ b := by
  have sorted := joinInjective (fun w mem => left w (memDistinct.mp ((List.mem_insertionSort _).mp mem)))
    (fun w mem => right w (memDistinct.mp ((List.mem_insertionSort _).mp mem))) same
  rw [← @memDistinct word a,← List.mem_insertionSort fun a b => codeUnits a ≤ codeUnits b,sorted,
    List.mem_insertionSort,memDistinct]

theorem cutAt {mark : Char} {a b c d : List Char} (left : mark ∉ a) (right : mark ∉ b)
    (first : c = [] ∨ c.head? = some mark) (second : d = [] ∨ d.head? = some mark) (same : a ++ c = b ++ d) :
    a = b ∧ c = d := by
  have cut : ∀ {l r : List Char}, mark ∉ l → (r = [] ∨ r.head? = some mark) → (l ++ r).takeWhile (· != mark) = l := by
    intro l r free start
    have pass : ∀ x ∈ l, (x != mark) = true := fun x mem => bne_iff_ne.mpr fun same => free (same ▸ mem)
    rw [List.takeWhile_append_of_pos pass]
    rcases start with rfl | marked
    · exact List.append_nil l
    · obtain ⟨rest,rfl⟩ := List.head?_eq_some_iff.mp marked
      rw [List.takeWhile_cons_of_neg (by simp),List.append_nil]
  have front : a = b := by rw [← cut left first,same,cut right second]
  subst front
  exact ⟨rfl,List.append_cancel_left same⟩

end Wepuu.Words
