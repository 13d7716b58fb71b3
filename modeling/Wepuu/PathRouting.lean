import Mathlib.Data.List.TakeWhile

/-! Routers that match the decoded path of a request target against patterns of segments,
and prefix tests on the same text. -/
namespace Wepuu.PathRouting

section Segments

def segments (path : String) : List String := (path.toList.splitOn '/').map String.ofList

def joined (words : List String) : List Char := ['/'].intercalate (words.map String.toList)

/- text.startsWith(front) -/
def startsWith (text front : String) : Bool := front.toList.isPrefixOf text.toList

theorem joinedSegments (path : String) : joined (segments path) = path.toList := by
  unfold joined segments
  rw [List.map_map]
  have same : String.toList ∘ String.ofList = id := by
    funext chars
    exact String.toList_ofList
  rw [same,List.map_id,List.intercalate_splitOn]

theorem joinedFront {front : List String} (some_ : front ≠ []) (rest : List String) :
    joined front <+: joined (front ++ rest) := by
  induction front with
  | nil => contradiction
  | cons word front ih =>
    cases front with
    | nil =>
      cases rest with
      | nil => exact List.prefix_rfl
      | cons next rest => exact ⟨'/' :: joined (next :: rest),by simp [joined,List.intercalate]⟩
    | cons next front =>
      obtain ⟨tail,whole⟩ := ih (List.cons_ne_nil _ _)
      refine ⟨tail,?_⟩
      have step : ∀ words, joined (word :: next :: words) = word.toList ++ '/' :: joined (next :: words) := by
        intro words
        simp [joined,List.intercalate]
      rw [step,List.cons_append,List.cons_append,step,List.append_assoc,List.cons_append,whole]
      rfl

theorem startsWithIff {text front : String} : startsWith text front = true ↔ front.toList <+: text.toList :=
  List.isPrefixOf_iff_prefix

theorem segmentsStart {path : String} {front rest : List String} (some_ : front ≠ [])
    (cut : segments path = front ++ rest) : startsWith path (String.ofList (joined front)) = true := by
  rw [startsWithIff,String.toList_ofList,← joinedSegments path,cut]
  exact joinedFront some_ rest

theorem startsApart {text a b : String} (left : startsWith text a = true)
    (apart : startsWith a b = false ∧ startsWith b a = false) : startsWith text b = false := by
  rw [Bool.eq_false_iff]
  intro right
  rcases List.prefix_or_prefix_of_prefix (startsWithIff.mp left) (startsWithIff.mp right) with first | second
  · rw [startsWithIff.mpr first] at apart
    exact absurd apart.2 (by decide)
  · rw [startsWithIff.mpr second] at apart
    exact absurd apart.1 (by decide)

end Segments

section Patterns

/- One segment of a pattern: its text, a named parameter or the wildcard at its end. -/
inductive PatternPart where
  | text (word : String)
  | param (name : String)
  | rest
  deriving DecidableEq, Repr

def PatternPart.written : PatternPart → String
  | .text word => word
  | .param name => ":" ++ name
  | .rest => "*"

def fits : List PatternPart → List String → Bool
  | [],[] => true
  | [.rest],_ :: _ => true
  | .text word :: more,segment :: others => segment == word && fits more others
  | .param _ :: more,_ :: others => fits more others
  | _,_ => false

variable {word : String} {more : List PatternPart} {words : List String}

theorem fitsNil (fit : fits [] words = true) : words = [] := by
  cases words with
  | nil => rfl
  | cons _ _ => cases fit

theorem fitsText (fit : fits (.text word :: more) words = true) :
    ∃ others, words = word :: others ∧ fits more others = true := by
  cases words with
  | nil => cases more <;> cases fit
  | cons segment others =>
    obtain ⟨same,later⟩ := (Bool.and_eq_true _ _).mp fit
    exact ⟨others,by rw [beq_iff_eq.mp same],later⟩

theorem fitsParam {name : String} (fit : fits (.param name :: more) words = true) :
    ∃ segment others, words = segment :: others ∧ fits more others = true := by
  cases words with
  | nil => cases more <;> cases fit
  | cons segment others => exact ⟨segment,others,rfl,fit⟩

theorem fitsLiteral {parts : List PatternPart} (literal : ∀ p ∈ parts, p = .text p.written) (fit : fits parts words = true) :
    words = parts.map PatternPart.written := by
  induction parts generalizing words with
  | nil => exact fitsNil fit
  | cons p parts ih =>
    rw [literal p List.mem_cons_self] at fit
    obtain ⟨others,rfl,tail⟩ := fitsText fit
    rw [ih (fun q mem => literal q (List.mem_cons_of_mem _ mem)) tail,List.map_cons]

end Patterns

section Routers

inductive Method where
  | get
  | head
  | post
  | other (name : String)
  deriving DecidableEq, Repr

structure Route where
  method : Option Method
  pattern : List PatternPart
  deriving DecidableEq, Repr

def Route.takes (r : Route) (path : String) : Bool :=
  match segments path with
  | "" :: words => fits r.pattern words
  | _ => false

/- A GET route answers HEAD as well, and a route without a method answers all of them. -/
def Route.serves (r : Route) (method : Method) : Bool :=
  match r.method with
  | none => true
  | some .get => method = .get ∨ method = .head
  | some own => method = own

inductive Found where
  | route (r : Route)
  | missing
  | undecodable
  deriving DecidableEq, Repr

def Bare (url : String) : Prop := startsWith url "/" = true ∧ '%' ∉ url.toList ∧ '#' ∉ url.toList

def beforeQuery (url : String) : String := String.ofList (url.toList.takeWhile (· ≠ '?'))

structure Router where
  decoded : String → Option String
  find : Method → String → Found

structure Serves (router : Router) (routes : List Route) : Prop where
  listed : ∀ method url r, router.find method url = .route r → r ∈ routes ∧ r.serves method = true
  fitted : ∀ method url r, router.find method url = .route r →
    ∃ path, router.decoded url = some path ∧ r.takes path = true
  bare : ∀ url, Bare url → router.decoded url = some (beforeQuery url)

end Routers

section Decoding

def hexDigit (c : Char) : Option Nat :=
  if c.isDigit then some (c.toNat - 48)
  else if 'a' ≤ c ∧ c ≤ 'f' then some (c.toNat - 87)
  else if 'A' ≤ c ∧ c ≤ 'F' then some (c.toNat - 55)
  else none

/- Escapes that stand for a delimiter, or for the escape mark, stay as they are. -/
def reserved : List Char := "#$&+,/:;=?@%".toList

def unescape : List Char → Option (List Char)
  | [] => some []
  | '%' :: a :: b :: rest => do
      let n ← (fun high low => 16 * high + low) <$> hexDigit a <*> hexDigit b
      let tail ← unescape rest
      if Char.ofNat n ∈ reserved then some ('%' :: a :: b :: tail)
      else if n < 128 then some (Char.ofNat n :: tail) else none
  | '%' :: _ => none
  | c :: rest => (c :: ·) <$> unescape rest

def unescapePath (url : String) : Option String :=
  String.ofList <$> unescape ((url.toList.takeWhile (· ≠ '?')).takeWhile (· ≠ '#'))

def unescaping (routes : List Route) : Router where
  decoded := unescapePath
  find method url :=
    match unescapePath url with
    | none => .undecodable
    | some path =>
      match routes.find? fun r => r.serves method && r.takes path with
      | none => .missing
      | some r => .route r

theorem unescapeBare {chars : List Char} (bare : '%' ∉ chars) : unescape chars = some chars := by
  induction chars with
  | nil => rfl
  | cons c rest ih =>
    have other : c ≠ '%' := fun same => bare (same ▸ List.mem_cons_self)
    have tail := ih (List.not_mem_of_not_mem_cons bare)
    unfold unescape
    split
    · contradiction
    · rename_i eq
      exact absurd (List.cons.inj eq).1 other
    · rename_i eq
      exact absurd (List.cons.inj eq).1 other
    · rename_i eq
      obtain ⟨rfl,rfl⟩ := List.cons.inj eq
      rw [tail]
      rfl

theorem unescapingServes (routes : List Route) : Serves (unescaping routes) routes := by
  have found : ∀ method url r, (unescaping routes).find method url = .route r →
      ∃ path, unescapePath url = some path ∧ r ∈ routes ∧
        r.serves method = true ∧ r.takes path = true := by
    intro method url r eq
    simp only [unescaping] at eq
    split at eq
    · contradiction
    rename_i path decoded
    split at eq
    · contradiction
    rename_i route first
    cases eq
    have both := List.find?_some first
    rw [Bool.and_eq_true] at both
    exact ⟨path,decoded,List.mem_of_find?_eq_some first,both⟩
  constructor
  · intro method url r eq
    obtain ⟨path,_,mem,serves,_⟩ := found method url r eq
    exact ⟨mem,serves⟩
  · intro method url r eq
    obtain ⟨path,decoded,_,_,fit⟩ := found method url r eq
    exact ⟨path,decoded,fit⟩
  · intro url bare
    have whole : (url.toList.takeWhile (· ≠ '?')).takeWhile (· ≠ '#') = url.toList.takeWhile (· ≠ '?') := by
      rw [List.takeWhile_eq_self_iff]
      intro c mem
      have noMark : c ≠ '#' := fun same => bare.2.2 (same ▸ (List.takeWhile_prefix _).subset mem)
      simpa using noMark
    have none_ : '%' ∉ url.toList.takeWhile (· ≠ '?') := fun mem =>
      bare.2.1 ((List.takeWhile_prefix _).subset mem)
    change unescapePath url = _
    unfold unescapePath beforeQuery
    rw [whole,unescapeBare none_]
    rfl

end Decoding

end Wepuu.PathRouting
