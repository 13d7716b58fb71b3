import Mathlib.Data.List.Count
import Wepuu.Words

/-! The text of a content security policy as a browser reads it: directives separated by
semicolons, words separated by white space, and in a header policies separated by commas. A
repeated directive stays in the list here. -/
namespace Wepuu.PolicyText

structure Directive where
  name : List Char
  sources : List (List Char)
  deriving DecidableEq, Repr

def whiteSpace (c : Char) : Bool := [' ','\t','\n','\x0c','\r'].contains c
def ascii (c : Char) : Bool := decide (c.toNat < 128)

def spaced (text : List Char) : List (List Char) := (text.splitOnP whiteSpace).filter fun word => !word.isEmpty

/- A token that is empty or not ASCII is skipped. -/
def directive (token : List Char) : Option Directive :=
  if token.all ascii then match spaced token with
    | name :: sources => some ⟨name.map Char.toLower,sources⟩
    | [] => none
  else none

def directives (policy : List Char) : List Directive := (policy.splitOnP (· == ';')).filterMap directive

/- The policies of a header; one without directives does not count. -/
def served (header : List Char) : List (List Directive) :=
  ((header.splitOnP (· == ',')).map directives).filter fun policy => !policy.isEmpty

def visible (c : Char) : Bool := decide (0x20 < c.toNat) && decide (c.toNat < 0x7F)

section Words
variable {front back word : List Char} {w : Char}

theorem visiblePlain {c : Char} (seen : visible c = true) : whiteSpace c = false ∧ ascii c = true := by
  simp only [visible,Bool.and_eq_true,decide_eq_true_eq] at seen
  have apart : ∀ d : Char, d.toNat ≤ 0x20 → c ≠ d := by
    rintro d small rfl
    omega
  refine ⟨?_,decide_eq_true (by omega)⟩
  simp only [whiteSpace,List.contains_eq_mem,List.mem_cons,List.not_mem_nil,or_false,decide_eq_false_iff_not,not_or]
  exact ⟨apart ' ' (by decide),apart '\t' (by decide),apart '\n' (by decide),apart '\x0c' (by decide),
    apart '\r' (by decide)⟩

theorem spacedAcross (space : whiteSpace w = true) : spaced (front ++ w :: back) = spaced front ++ spaced back := by
  unfold spaced
  rw [List.splitOnP_append_cons _ _ space,List.filter_append]

theorem spacedAfter (space : whiteSpace w = true) : spaced (w :: back) = spaced back := by
  have none_ : spaced [] = [] := by simp [spaced]
  rw [← List.nil_append (w :: back),spacedAcross space,none_,List.nil_append]

theorem spacedAlone (some_ : word ≠ []) (seen : word.all visible = true) : spaced word = [word] := by
  unfold spaced
  rw [List.splitOnP_eq_singleton fun c mem => (visiblePlain (List.all_eq_true.mp seen c mem)).1]
  simp [some_]

theorem spacedWord (some_ : word ≠ []) (seen : word.all visible = true) (space : whiteSpace w = true) :
    spaced (word ++ w :: back) = word :: spaced back := by
  rw [spacedAcross space,spacedAlone some_ seen,List.singleton_append]

theorem asciiWord (seen : word.all visible = true) : word.all ascii = true :=
  List.all_eq_true.mpr fun c mem => (visiblePlain (List.all_eq_true.mp seen c mem)).2

theorem directiveRead {name first second : List Char} (named : name ≠ []) (seenName : name.all visible = true)
    (some_ : first ≠ []) (seenFirst : first.all visible = true) (more : second ≠ [])
    (seenSecond : second.all visible = true) :
    directive (' ' :: (name ++ ' ' :: (first ++ ' ' :: second))) = some ⟨name.map Char.toLower,[first,second]⟩ := by
  have space : whiteSpace ' ' = true := by decide
  have blank : ascii ' ' = true := by decide
  have words : spaced (' ' :: (name ++ ' ' :: (first ++ ' ' :: second))) = [name,first,second] := by
    rw [spacedAfter space,spacedWord named seenName space,spacedWord some_ seenFirst space,spacedAlone more seenSecond]
  unfold directive
  rw [words]
  simp [blank,asciiWord seenName,asciiWord seenFirst,asciiWord seenSecond,-List.all_eq_true]

end Words

section Directives
variable {front back token policy header : List Char}

theorem directivesAcross : directives (front ++ ';' :: back) = directives front ++ directives back := by
  have cut : (front ++ ';' :: back).splitOnP (· == ';') = front.splitOnP (· == ';') ++ back.splitOnP (· == ';') :=
    List.splitOnP_append_cons front back (beq_self_eq_true ';')
  unfold directives
  rw [cut,List.filterMap_append]

theorem unmarked {mark : Char} {text : List Char} (plain : mark ∉ text) : text.splitOnP (· == mark) = [text] :=
  List.splitOnP_eq_singleton fun _ mem => beq_eq_false_iff_ne.mpr fun same => plain (same ▸ mem)

theorem directivesAlone (plain : ';' ∉ token) : directives token = (directive token).toList := by
  unfold directives
  rw [unmarked plain]
  cases read : directive token <;> simp [read]

theorem servedAlone (plain : ',' ∉ header) (some_ : directives header ≠ []) : served header = [directives header] := by
  unfold served
  rw [unmarked plain]
  simp [some_]

end Directives

section Pieces
variable {policy header piece : List Char}

theorem pieceSublist {α : Type} {p : α → Bool} {text piece : List α} (mem : piece ∈ text.splitOnP p) :
    piece.Sublist text := by
  induction text generalizing piece with
  | nil =>
    rw [List.splitOnP_nil] at mem
    rw [List.mem_singleton.mp mem]
  | cons c rest ih =>
    rw [List.splitOnP_cons_eq_if_modifyHead] at mem
    split at mem
    · rcases List.mem_cons.mp mem with rfl | mem
      · exact List.nil_sublist _
      · exact (ih mem).cons c
    · obtain ⟨head,tail,pieces⟩ := List.exists_cons_of_ne_nil (List.splitOnP_ne_nil p rest)
      rw [pieces] at mem ih
      rcases List.mem_cons.mp mem with rfl | mem
      · exact (ih List.mem_cons_self).cons_cons c
      · exact (ih (List.mem_cons_of_mem _ mem)).cons c

theorem sourceWithin {d : Directive} {source : List Char} (listed : d ∈ directives policy) (mem : source ∈ d.sources) :
    source.Sublist policy ∧ ';' ∉ source := by
  obtain ⟨token,piece,read⟩ := List.mem_filterMap.mp listed
  unfold directive at read
  split at read
  · split at read
    · rename_i name sources words
      obtain rfl := Option.some.inj read
      have word : source ∈ spaced token := words ▸ List.mem_cons_of_mem _ mem
      have inside := (List.mem_filter.mp word).1
      refine ⟨(pieceSublist inside).trans (pieceSublist piece),fun mark => ?_⟩
      have other := (Words.splitPiece piece ';' (Words.splitPiece inside ';' mark).1).2
      rw [beq_self_eq_true] at other
      cases other
    · cases read
  · cases read

theorem policyWithin {ds : List Directive} (mem : ds ∈ served header) :
    ∃ policy, ds = directives policy ∧ policy.Sublist header ∧ ',' ∉ policy := by
  obtain ⟨policy,piece,rfl⟩ := List.mem_map.mp (List.mem_filter.mp mem).1
  refine ⟨policy,rfl,pieceSublist piece,fun mark => ?_⟩
  have other := (Words.splitPiece piece ',' mark).2
  rw [beq_self_eq_true] at other
  cases other

end Pieces

end Wepuu.PolicyText
