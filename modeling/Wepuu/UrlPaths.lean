import Mathlib.Data.List.TakeWhile
import Wepuu.Words

/-! References that begin with a slash, as the WHATWG URL parser resolves them against a base
with a special scheme: white space, the path state with its dot segments, the query and the
fragment, with their percent-encode sets. What an authority names stays with a parameter. -/
namespace Wepuu.UrlPaths
open Words

section Encoding

def hexDigit (n : Nat) : Char := if n < 10 then Char.ofNat (48 + n) else Char.ofNat (55 + n)

def percentByte (b : UInt8) : List Char := ['%',hexDigit (b.toNat / 16),hexDigit (b.toNat % 16)]

def encode (set : Char → Bool) (text : List Char) : List Char :=
  text.flatMap fun c => if set c then (String.utf8EncodeChar c).flatMap percentByte else [c]

def controlSet (c : Char) : Bool := decide (c.toNat < 0x20) || decide (0x7E < c.toNat)
def fragmentSet (c : Char) : Bool := controlSet c || [' ','"','<','>','`'].contains c
def querySet (c : Char) : Bool := controlSet c || [' ','"','#','<','>',Char.ofNat 39].contains c
def pathSet (c : Char) : Bool := controlSet c || [' ','"','#','<','>','?','^','`','{','}'].contains c

def escape (c : Char) : Bool := c == '%' || "0123456789ABCDEF".toList.contains c

theorem hexEscape : ∀ n < 16, escape (hexDigit n) = true := by decide

theorem percentEscape {b : UInt8} {c : Char} (mem : c ∈ percentByte b) : escape c = true := by
  have small := b.toNat_lt
  simp only [percentByte,List.mem_cons,List.not_mem_nil,or_false] at mem
  rcases mem with rfl | rfl | rfl
  · decide
  · exact hexEscape _ (by omega)
  · exact hexEscape _ (Nat.mod_lt _ (by decide))

theorem encodeMember {set : Char → Bool} {text : List Char} {c : Char} (mem : c ∈ encode set text) :
    (c ∈ text ∧ set c = false) ∨ escape c = true := by
  obtain ⟨d,source,piece⟩ := List.mem_flatMap.mp mem
  split at piece
  · obtain ⟨b,-,digit⟩ := List.mem_flatMap.mp piece
    exact .inr (percentEscape digit)
  · rename_i plain
    rw [List.mem_singleton.mp piece]
    exact .inl ⟨source,Bool.not_eq_true _ ▸ plain⟩

theorem encodeFixed {set : Char → Bool} {text : List Char} (plain : ∀ c ∈ text, set c = false) :
    encode set text = text := by
  induction text with
  | nil => rfl
  | cons c rest ih =>
    unfold encode at ih ⊢
    rw [List.flatMap_cons,plain c List.mem_cons_self,ih fun d mem => plain d (List.mem_cons_of_mem _ mem)]
    rfl

end Encoding

section Paths

def slash (c : Char) : Bool := c == '/' || c == '\\'

def lowered (segment : List Char) : List Char := segment.map Char.toLower
def singleDot (segment : List Char) : Bool := [".".toList,"%2e".toList].contains (lowered segment)
def doubleDot (segment : List Char) : Bool :=
  ["..".toList,".%2e".toList,"%2e.".toList,"%2e%2e".toList].contains (lowered segment)

/- The end of a segment in the path state; last is the one that no slash follows. -/
def addSegment (path : List (List Char)) (segment : List Char) (last : Bool) : List (List Char) :=
  if doubleDot segment then path.dropLast ++ (if last then [[]] else [])
  else if singleDot segment then path ++ (if last then [[]] else [])
  else path ++ [segment]

def addSegments : List (List Char) → List (List Char) → List (List Char)
  | path, [] => path
  | path, [segment] => addSegment path segment true
  | path, segment :: more :: rest => addSegments (addSegment path segment false) (more :: rest)

def pathOf (text : List Char) : List (List Char) := addSegments [] ((text.splitOnP slash).map (encode pathSet))

def pathname (path : List (List Char)) : List Char := path.flatMap fun segment => '/' :: segment

end Paths

section References

structure Reference where
  path : List (List Char)
  search : List Char
  hash : List Char
  deriving DecidableEq, Repr

def beforeQuery (c : Char) : Bool := c != '?' && c != '#'

def queryOf : List Char → List Char
  | '?' :: rest => rest.takeWhile (· != '#')
  | _ => []

def fragmentOf (text : List Char) : List Char := (text.dropWhile (· != '#')).drop 1

def marked (mark : Char) (text : List Char) : List Char := if text = [] then [] else mark :: text

def reference (text : List Char) : Reference where
  path := pathOf (text.takeWhile beforeQuery)
  search := marked '?' (encode querySet (queryOf (text.dropWhile beforeQuery)))
  hash := marked '#' (encode fragmentSet (fragmentOf text))

/- Control characters and spaces go at the ends, tabs and line breaks everywhere. -/
def blank (c : Char) : Bool := decide (c.toNat ≤ 0x20)
def lineBreak (c : Char) : Bool := c == '\t' || c == '\n' || c == '\r'
def cleaned (text : List Char) : List Char :=
  (((text.dropWhile blank).reverse.dropWhile blank).reverse).filter fun c => !lineBreak c

structure Authority where
  origin : String
  username : String
  password : String
  deriving DecidableEq, Repr

structure Parsed extends Authority, Reference where
  deriving DecidableEq, Repr

def beforePath (c : Char) : Bool := !slash c && beforeQuery c

/- new URL(text, base) for a text that begins with a slash. -/
def parseSlash (authority : List Char → Option Authority) (base : String) (text : List Char) : Option Parsed :=
  match cleaned text with
  | _ :: second :: rest =>
    if slash second then
      let named := rest.dropWhile slash
      let after := named.dropWhile beforePath
      (authority (named.takeWhile beforePath)).map fun own =>
        ⟨own,reference (if after.head?.any slash then after.drop 1 else after)⟩
    else some ⟨⟨base,"",""⟩,reference (second :: rest)⟩
  | text => some ⟨⟨base,"",""⟩,reference (text.drop 1)⟩

end References

section Normal

/- What the parser leaves of a path. -/
structure NormalPath (path : List (List Char)) : Prop where
  some_ : path ≠ []
  dots : ∀ segment ∈ path, doubleDot segment = false ∧ singleDot segment = false
  plain : ∀ segment ∈ path, ∀ c ∈ segment, pathSet c = false ∧ slash c = false

theorem addSome {path : List (List Char)} {segments : List (List Char)} (some_ : segments ≠ []) :
    addSegments path segments ≠ [] := by
  induction segments generalizing path with
  | nil => contradiction
  | cons segment rest ih =>
    cases rest with
    | nil =>
      unfold addSegments addSegment
      split
      · simp
      · split <;> simp
    | cons more rest => exact ih (List.cons_ne_nil _ _)

theorem addMember {path : List (List Char)} {segment : List Char} {last : Bool} {piece : List Char}
    (mem : piece ∈ addSegment path segment last) :
    piece ∈ path ∨ piece = [] ∨ (piece = segment ∧ doubleDot segment = false ∧ singleDot segment = false) := by
  unfold addSegment at mem
  split at mem
  · rcases List.mem_append.mp mem with old | new
    · exact .inl ((List.dropLast_sublist path).subset old)
    · split at new
      · exact .inr (.inl (List.mem_singleton.mp new))
      · cases new
  · rename_i notDouble
    split at mem
    · rcases List.mem_append.mp mem with old | new
      · exact .inl old
      · split at new
        · exact .inr (.inl (List.mem_singleton.mp new))
        · cases new
    · rename_i notSingle
      rcases List.mem_append.mp mem with old | new
      · exact .inl old
      · exact .inr (.inr ⟨List.mem_singleton.mp new,Bool.not_eq_true _ ▸ notDouble,Bool.not_eq_true _ ▸ notSingle⟩)

theorem addsMember {path : List (List Char)} {segments : List (List Char)} {piece : List Char}
    (mem : piece ∈ addSegments path segments) :
    piece ∈ path ∨ piece = [] ∨ (piece ∈ segments ∧ doubleDot piece = false ∧ singleDot piece = false) := by
  induction segments generalizing path with
  | nil => exact .inl mem
  | cons segment rest ih =>
    have first : ∀ {last}, piece ∈ addSegment path segment last → piece ∈ path ∨ piece = [] ∨
        (piece ∈ segment :: rest ∧ doubleDot piece = false ∧ singleDot piece = false) := by
      intro last added
      rcases addMember added with old | empty | ⟨rfl,dots⟩
      · exact .inl old
      · exact .inr (.inl empty)
      · exact .inr (.inr ⟨List.mem_cons_self,dots⟩)
    cases rest with
    | nil => exact first mem
    | cons more rest =>
      rcases ih mem with added | empty | ⟨later,dots⟩
      · exact first added
      · exact .inr (.inl empty)
      · exact .inr (.inr ⟨List.mem_cons_of_mem _ later,dots⟩)

theorem escapePlain {c : Char} (escaped : escape c = true) : pathSet c = false ∧ querySet c = false ∧ slash c = false := by
  have all : ('%' :: "0123456789ABCDEF".toList).all (fun c => !pathSet c && !querySet c && !slash c) = true := by decide
  have plain : c ∈ '%' :: "0123456789ABCDEF".toList → pathSet c = false ∧ querySet c = false ∧ slash c = false := by
    intro mem
    have marks := List.all_eq_true.mp all c mem
    simp only [Bool.and_eq_true,Bool.not_eq_true'] at marks
    exact ⟨marks.1.1,marks.1.2,marks.2⟩
  refine plain (List.mem_cons.mpr ?_)
  unfold escape at escaped
  rcases Bool.or_eq_true_iff.mp escaped with percent | digit
  · exact .inl (beq_iff_eq.mp percent)
  · exact .inr (List.contains_iff_mem.mp digit)

theorem pathNormal (text : List Char) : NormalPath (pathOf text) where
  some_ := addSome fun none_ => List.splitOnP_ne_nil slash text (List.map_eq_nil_iff.mp none_)
  dots segment mem := by
    rcases addsMember mem with old | rfl | ⟨-,dots⟩
    · cases old
    · decide
    · exact dots
  plain segment mem c hc := by
    rcases addsMember mem with old | rfl | ⟨piece,-⟩
    · cases old
    · cases hc
    · obtain ⟨source,split_,rfl⟩ := List.mem_map.mp piece
      rcases encodeMember hc with ⟨member,plain⟩ | escaped
      · exact ⟨plain,(splitPiece split_ c member).2⟩
      · exact ⟨(escapePlain escaped).1,(escapePlain escaped).2.2⟩

theorem addPlain {path segments : List (List Char)}
    (dots : ∀ segment ∈ segments, doubleDot segment = false ∧ singleDot segment = false) :
    addSegments path segments = path ++ segments := by
  induction segments generalizing path with
  | nil => exact (List.append_nil path).symm
  | cons segment rest ih =>
    obtain ⟨double,single⟩ := dots segment List.mem_cons_self
    have added : ∀ last, addSegment path segment last = path ++ [segment] := fun last => by
      rw [addSegment,double,single]
      rfl
    cases rest with
    | nil => exact added true
    | cons more rest =>
      rw [addSegments,added,ih fun s mem => dots s (List.mem_cons_of_mem _ mem),List.append_assoc]
      rfl

theorem splitPathname {segment : List Char} {rest : List (List Char)}
    (plain : ∀ s ∈ segment :: rest, ∀ c ∈ s, slash c = false) :
    (segment ++ pathname rest).splitOnP slash = segment :: rest := by
  induction rest generalizing segment with
  | nil =>
    rw [pathname,List.flatMap_nil,List.append_nil]
    exact List.splitOnP_eq_singleton (plain segment List.mem_cons_self)
  | cons next rest ih =>
    rw [pathname,List.flatMap_cons,List.cons_append,
      List.splitOnP_append_cons_of_forall_mem (plain segment List.mem_cons_self) '/' (by decide)]
    exact congrArg _ (ih fun s mem => plain s (List.mem_cons_of_mem _ mem))

theorem pathAgain {segment : List Char} {rest : List (List Char)} (normal : NormalPath (segment :: rest)) :
    pathOf (segment ++ pathname rest) = segment :: rest := by
  have fixed : (segment :: rest).map (encode pathSet) = segment :: rest := by
    refine (List.map_congr_left fun s mem => ?_).trans (List.map_id _)
    exact encodeFixed fun c hc => (normal.plain s mem c hc).1
  rw [pathOf,splitPathname fun s mem c hc => (normal.plain s mem c hc).2,fixed,addPlain normal.dots]
  rfl

def NormalSearch (search : List Char) : Prop :=
  search = [] ∨ ∃ query, search = '?' :: query ∧ query ≠ [] ∧ ∀ c ∈ query, querySet c = false

theorem searchNormal (text : List Char) : NormalSearch (reference text).search := by
  unfold reference marked
  simp only
  split
  · exact .inl rfl
  · rename_i some_
    refine .inr ⟨_,rfl,some_,fun c mem => ?_⟩
    rcases encodeMember mem with ⟨-,plain⟩ | escaped
    · exact plain
    · exact (escapePlain escaped).2.1

theorem controlPlain {c : Char} (plain : controlSet c = false) (space : c ≠ ' ') : blank c = false ∧ lineBreak c = false := by
  simp only [controlSet,Bool.or_eq_false_iff,decide_eq_false_iff_not,Nat.not_lt] at plain
  have above : c.toNat ≠ 0x20 := fun same => space (Char.ext (UInt32.toNat_inj.mp same))
  refine ⟨decide_eq_false (by omega),?_⟩
  simp only [lineBreak,Bool.or_eq_false_iff,beq_eq_false_iff_ne]
  have breaks : ∀ d : Char, d.toNat < 0x20 → c ≠ d := by
    rintro d low rfl
    omega
  exact ⟨⟨breaks _ (by decide),breaks _ (by decide)⟩,breaks _ (by decide)⟩

theorem pathPlain {c : Char} (plain : pathSet c = false) :
    beforeQuery c = true ∧ blank c = false ∧ lineBreak c = false := by
  unfold pathSet at plain
  rw [Bool.or_eq_false_iff] at plain
  have others : ∀ d ∈ [' ','"','#','<','>','?','^','`','{','}'], c ≠ d := fun d mem same => by
    rw [same,List.contains_iff_mem.mpr mem] at plain
    cases plain.2
  refine ⟨?_,controlPlain plain.1 (others _ (by decide))⟩
  simp only [beforeQuery,Bool.and_eq_true,bne_iff_ne]
  exact ⟨others _ (by decide),others _ (by decide)⟩

theorem queryPlain {c : Char} (plain : querySet c = false) : c ≠ '#' ∧ blank c = false ∧ lineBreak c = false := by
  unfold querySet at plain
  rw [Bool.or_eq_false_iff] at plain
  have others : ∀ d ∈ [' ','"','#','<','>',Char.ofNat 39], c ≠ d := fun d mem same => by
    rw [same,List.contains_iff_mem.mpr mem] at plain
    cases plain.2
  exact ⟨others _ (by decide),controlPlain plain.1 (others _ (by decide))⟩

theorem cleanedFixed {text : List Char} (plain : ∀ c ∈ text, blank c = false ∧ lineBreak c = false) :
    cleaned text = text := by
  have edge : ∀ l : List Char, (∀ c ∈ l, blank c = false) → l.dropWhile blank = l := by
    intro l bare
    cases l with
    | nil => rfl
    | cons c rest => exact List.dropWhile_cons_of_neg (by rw [bare c List.mem_cons_self]; decide)
  unfold cleaned
  rw [edge text fun c mem => (plain c mem).1,edge _ fun c mem => (plain c (List.mem_reverse.mp mem)).1,
    List.reverse_reverse,List.filter_eq_self]
  intro c mem
  rw [(plain c mem).2]
  rfl

theorem pathnameMember {path : List (List Char)} {c : Char} (mem : c ∈ pathname path) :
    c = '/' ∨ ∃ segment ∈ path, c ∈ segment := by
  obtain ⟨segment,hs,piece⟩ := List.mem_flatMap.mp mem
  rcases List.mem_cons.mp piece with rfl | inside
  · exact .inl rfl
  · exact .inr ⟨segment,hs,inside⟩

theorem pathnamePlain {path : List (List Char)} (normal : NormalPath path) :
    ∀ c ∈ pathname path, beforeQuery c = true ∧ blank c = false ∧ lineBreak c = false := by
  intro c mem
  rcases pathnameMember mem with rfl | ⟨segment,hs,inside⟩
  · decide
  · exact pathPlain (normal.plain segment hs c inside).1

theorem searchPlain {search : List Char} (normal : NormalSearch search) :
    ∀ c ∈ search, c ≠ '#' ∧ blank c = false ∧ lineBreak c = false := by
  rcases normal with rfl | ⟨query,rfl,-,plain⟩
  · exact nofun
  · intro c mem
    rcases List.mem_cons.mp mem with rfl | inside
    · decide
    · exact queryPlain (plain c inside)

theorem referenceAgain {segment : List Char} {rest : List (List Char)} {search : List Char}
    (normal : NormalPath (segment :: rest)) (query : NormalSearch search) :
    reference (segment ++ pathname rest ++ search) = ⟨segment :: rest,search,[]⟩ := by
  have path : ∀ c ∈ segment ++ pathname rest, beforeQuery c = true := fun c mem =>
    (pathnamePlain normal c (List.mem_cons_of_mem _ mem)).1
  have cut : search.takeWhile beforeQuery = [] ∧ search.dropWhile beforeQuery = search := by
    rcases query with rfl | ⟨_,rfl,-⟩
    · exact ⟨rfl,rfl⟩
    · exact ⟨rfl,rfl⟩
  have hash : (segment ++ pathname rest ++ search).dropWhile (· != '#') = [] := by
    refine List.dropWhile_eq_nil_iff.mpr fun c mem => ?_
    rcases List.mem_append.mp mem with front | back
    · have before := path c front
      simp only [beforeQuery,Bool.and_eq_true] at before
      exact before.2
    · exact bne_iff_ne.mpr (searchPlain query c back).1
  unfold reference
  rw [List.takeWhile_append_of_pos path,List.dropWhile_append_of_pos path,cut.1,cut.2,List.append_nil,pathAgain normal]
  have fragment : fragmentOf (segment ++ pathname rest ++ search) = [] := by rw [fragmentOf,hash]; rfl
  have same : marked '?' (encode querySet (queryOf search)) = search := by
    rcases query with rfl | ⟨q,rfl,some_,plain⟩
    · rfl
    · have all : q.takeWhile (· != '#') = q := List.takeWhile_eq_self_iff.mpr fun c mem =>
        bne_iff_ne.mpr (queryPlain (plain c mem)).1
      rw [queryOf,all,encodeFixed plain,marked,if_neg some_]
  rw [fragment,same]
  rfl

theorem parseAgain (authority : List Char → Option Authority) (base : String) {path : List (List Char)}
    {search : List Char} (normal : NormalPath path) (query : NormalSearch search)
    (front : ∀ rest, path = [] :: rest → rest = []) :
    parseSlash authority base (pathname path ++ search) = some ⟨⟨base,"",""⟩,⟨path,search,[]⟩⟩ := by
  obtain ⟨segment,rest,rfl⟩ := List.exists_cons_of_ne_nil normal.some_
  have clean : cleaned (pathname (segment :: rest) ++ search) = '/' :: (segment ++ pathname rest ++ search) := by
    rw [cleanedFixed]
    · simp [pathname]
    · intro c mem
      rcases List.mem_append.mp mem with front | back
      · exact (pathnamePlain normal c front).2
      · exact (searchPlain query c back).2
  have again := referenceAgain normal query
  have apart : ∀ second later, segment ++ pathname rest ++ search = second :: later → slash second = false := by
    intro second later whole
    cases segment with
    | nil =>
      rw [front rest rfl] at whole
      rcases query with rfl | ⟨q,rfl,-⟩
      · cases whole
      · cases whole
        decide
    | cons c more =>
      cases whole
      exact (normal.plain _ List.mem_cons_self second List.mem_cons_self).2
  unfold parseSlash
  rw [clean]
  cases whole : segment ++ pathname rest ++ search with
  | nil =>
    rw [whole] at again
    simp only [List.drop_one,List.tail_cons,again]
  | cons second later =>
    rw [whole] at again
    simp only [apart second later whole,again]
    rfl

end Normal
end Wepuu.UrlPaths
