import Mathlib.Algebra.Order.BigOperators.Group.List
import Mathlib.Data.Nat.Digits.Defs
import Wepuu.Base64Url
import Wepuu.JsonText
import Wepuu.JsValues

/-! The compact serialization of a signed token: two JSON objects and a signature, each in
base64url, with points between them. Its length follows from the sizes of the members. -/
namespace Wepuu.CompactTokens
open Base64Url JsonText JsValues NodeApi

section Texts

mutual
def stringify : JsValue → List Char
  | .undefined | .null => "null".toList
  | .bool value => (if value then "true" else "false").toList
  | .int value => (toString value).toList
  | .num text => text.toList
  | .str text => quoted text
  | .arr items => '[' :: stringifyItems items
  | .obj members => Char.ofNat 123 :: stringifyMembers members

def stringifyItems : List JsValue → List Char
  | [] => [']']
  | [item] => stringify item ++ [']']
  | item :: next :: rest => stringify item ++ ',' :: stringifyItems (next :: rest)

def stringifyMembers : List (String × JsValue) → List Char
  | [] => [Char.ofNat 125]
  | [(name,value)] => quoted name ++ ':' :: (stringify value ++ [Char.ofNat 125])
  | (name,value) :: next :: rest => quoted name ++ ':' :: (stringify value ++ ',' :: stringifyMembers (next :: rest))
end

def utf8 (text : List Char) : List UInt8 := text.flatMap String.utf8EncodeChar

def segment (members : List (String × JsValue)) : List Char := encode (utf8 (stringify (.obj members)))

def signingInput (header payload : List (String × JsValue)) : List Char := segment header ++ '.' :: segment payload

def compact (header payload : List (String × JsValue)) (signature : List UInt8) : List Char :=
  signingInput header payload ++ '.' :: encode signature

end Texts

section Lengths
variable {header payload : List (String × JsValue)} {signature : List UInt8}

def encodedLength (n : Nat) : Nat := (n * 4 + 2) / 3

def size (value : JsValue) : Nat := (utf8 (stringify value)).length

theorem compactLength : (compact header payload signature).length =
    encodedLength (size (.obj header)) + encodedLength (size (.obj payload)) + encodedLength signature.length + 2 := by
  simp only [compact,signingInput,segment,List.length_append,List.length_cons,encodeLength,encodedLength,size]
  omega

theorem asciiUnits {c : Char} (small : c.toNat < 128) : utf16Units c = 1 := if_neg (by omega)

theorem lengthUnits (text : String) : text.toList.length ≤ utf16Length text := by
  have each : ∀ n ∈ text.toList.map utf16Units, 1 ≤ n := by
    intro n mem
    obtain ⟨c,-,rfl⟩ := List.mem_map.mp mem
    unfold utf16Units
    split <;> decide
  have total := List.card_nsmul_le_sum _ 1 each
  rw [List.length_map,nsmul_eq_mul,Nat.cast_id,Nat.mul_one] at total
  exact total

/- A token is ASCII, so its length in code units is that of its characters. -/
theorem compactUnits : utf16Length (String.ofList (compact header payload signature)) =
    (compact header payload signature).length := by
  have small : ∀ bytes, ∀ c ∈ encode bytes, utf16Units c = 1 := by
    intro bytes c mem
    have known := encodeChars bytes c mem
    simp only [urlChar,Bool.or_eq_true,Bool.and_eq_true,decide_eq_true_eq,beq_iff_eq] at known
    refine asciiUnits ?_
    rcases known with (((⟨-,high⟩ | ⟨-,high⟩) | ⟨-,high⟩) | rfl) | rfl
    · exact Nat.lt_of_le_of_lt high (by decide)
    · exact Nat.lt_of_le_of_lt high (by decide)
    · exact Nat.lt_of_le_of_lt high (by decide)
    · decide
    · decide
  have ones : ∀ c ∈ compact header payload signature, utf16Units c = 1 := by
    intro c mem
    simp only [compact,signingInput,segment,List.mem_append,List.mem_cons] at mem
    rcases mem with (first | rfl | second) | rfl | third
    · exact small _ c first
    · decide
    · exact small _ c second
    · decide
    · exact small _ c third
  rw [utf16Length,String.toList_ofList,List.map_congr_left ones,List.map_const',List.sum_replicate]
  exact nsmul_one _

end Lengths

section Sizes

theorem utf8Append (left right : List Char) : utf8 (left ++ right) = utf8 left ++ utf8 right := List.flatMap_append

theorem asciiSize {c : Char} (small : c.toNat < 128) : (utf8 [c]).length = 1 := by
  have one : c.utf8Size = 1 := Char.utf8Size_eq_one_iff.mpr (by
    have bound : c.val.toNat ≤ 127 := Nat.le_of_lt_succ small
    exact UInt32.le_iff_toNat_le.mpr bound)
  simp [utf8,one]

theorem consSize {c : Char} (small : c.toNat < 128) (rest : List Char) :
    (utf8 (c :: rest)).length = (utf8 rest).length + 1 := by
  rw [← List.singleton_append,utf8Append,List.length_append,asciiSize small,Nat.add_comm]

theorem appendSize (left right : List Char) : (utf8 (left ++ right)).length = (utf8 left).length + (utf8 right).length := by
  rw [utf8Append,List.length_append]

theorem stringifyStr (text : String) : stringify (.str text) = quoted text := rfl

theorem sizeStr (text : String) : size (.str text) = (utf8 (quoted text)).length := rfl
theorem sizeInt (n : Int) : size (.int n) = (utf8 (toString n).toList).length := rfl
theorem sizeArr (items : List JsValue) : size (.arr items) = (utf8 ('[' :: stringifyItems items)).length := rfl
theorem sizeObj (members : List (String × JsValue)) :
    size (.obj members) = (utf8 (Char.ofNat 123 :: stringifyMembers members)).length := rfl

theorem lastItem (item : JsValue) : stringifyItems [item] = stringify item ++ [']'] := rfl
theorem nextItem (item next : JsValue) (rest : List JsValue) :
    stringifyItems (item :: next :: rest) = stringify item ++ ',' :: stringifyItems (next :: rest) := rfl

theorem lastMember (name : String) (value : JsValue) :
    stringifyMembers [(name,value)] = quoted name ++ ':' :: (stringify value ++ [Char.ofNat 125]) := rfl
theorem nextMember (name : String) (value : JsValue) (next : String × JsValue) (rest : List (String × JsValue)) :
    stringifyMembers ((name,value) :: next :: rest) =
      quoted name ++ ':' :: (stringify value ++ ',' :: stringifyMembers (next :: rest)) := rfl

theorem itemsSize (items : List JsValue) (some_ : items ≠ []) :
    (utf8 (stringifyItems items)).length = (items.map fun item => size item + 1).sum := by
  induction items with
  | nil => exact absurd rfl some_
  | cons item rest ih =>
    cases rest with
    | nil => simp [lastItem,appendSize,asciiSize,size]
    | cons next rest =>
      rw [nextItem,appendSize,consSize (by decide),ih (List.cons_ne_nil _ _)]
      simp only [List.map_cons,List.sum_cons,size]
      omega

theorem arrSize {items : List JsValue} (some_ : items ≠ []) :
    size (.arr items) = 1 + (items.map fun item => size item + 1).sum := by
  rw [sizeArr,consSize (by decide),itemsSize items some_,Nat.add_comm]

theorem membersSize (members : List (String × JsValue)) (some_ : members ≠ []) :
    (utf8 (stringifyMembers members)).length =
      (members.map fun m => size (.str m.1) + size m.2 + 2).sum := by
  induction members with
  | nil => exact absurd rfl some_
  | cons member rest ih =>
    obtain ⟨name,value⟩ := member
    cases rest with
    | nil =>
      rw [lastMember,appendSize,consSize (by decide),appendSize,asciiSize (by decide)]
      simp only [List.map_cons,List.map_nil,List.sum_cons,List.sum_nil,size,stringifyStr]
      omega
    | cons next rest =>
      rw [nextMember,appendSize,consSize (by decide),appendSize,consSize (by decide),ih (List.cons_ne_nil _ _)]
      simp only [List.map_cons,List.sum_cons,size,stringifyStr]
      omega

theorem objSize {members : List (String × JsValue)} (some_ : members ≠ []) :
    size (.obj members) = 1 + (members.map fun m => size (.str m.1) + size m.2 + 2).sum := by
  rw [sizeObj,consSize (by decide),membersSize members some_,Nat.add_comm]

theorem memberSize {members : List (String × JsValue)} {name : String} {value : JsValue} (mem : (name,value) ∈ members) :
    size value ≤ size (.obj members) := by
  have one : size (.str name) + size value + 2 ∈ members.map fun m => size (.str m.1) + size m.2 + 2 :=
    List.mem_map.mpr ⟨(name,value),mem,rfl⟩
  have most := List.single_le_sum (fun n _ => Nat.zero_le n) _ one
  rw [objSize (List.ne_nil_of_mem mem)]
  omega

def plainChar (c : Char) : Bool := decide (0x20 ≤ c.toNat) && decide (c.toNat < 0x7F) && c != '"' && c != '\\'

theorem betweenPlain {low high c : Char} (least : low ≤ c) (most : c ≤ high)
    (bounds : 0x22 < low.toNat ∧ high.toNat < 0x7F ∧ (high.toNat < 0x5C ∨ 0x5C < low.toNat)) : plainChar c = true := by
  have from_ : low.toNat ≤ c.toNat := least
  have to_ : c.toNat ≤ high.toNat := most
  obtain ⟨start,stop,slash⟩ := bounds
  simp only [plainChar,Bool.and_eq_true,decide_eq_true_eq,bne_iff_ne]
  refine ⟨⟨⟨by omega,by omega⟩,?_⟩,?_⟩
  · rintro rfl
    exact absurd from_ (Nat.not_le_of_lt start)
  · rintro rfl
    rcases slash with below | above
    · exact absurd to_ (Nat.not_le_of_lt below)
    · exact absurd from_ (Nat.not_le_of_lt above)

theorem plainEscaped {c : Char} (plain : plainChar c = true) : escaped c = [c] := by
  simp only [plainChar,Bool.and_eq_true,decide_eq_true_eq,bne_iff_ne] at plain
  obtain ⟨⟨⟨low,_⟩,quote_⟩,slash⟩ := plain
  have apart : ∀ d : Char, d.toNat < 0x20 → c ≠ d := by
    rintro d small rfl
    omega
  unfold escaped
  rw [if_neg quote_,if_neg slash,if_neg (apart '\x08' (by decide)),if_neg (apart '\x0c' (by decide)),
    if_neg (apart '\n' (by decide)),if_neg (apart '\r' (by decide)),if_neg (apart '\t' (by decide)),if_neg (by omega)]

theorem plainSize {text : String} (plain : text.toList.all plainChar = true) :
    size (.str text) = text.toList.length + 2 := by
  have chars : ∀ l : List Char, l.all plainChar = true → (utf8 (l.flatMap escaped)).length = l.length := by
    intro l
    induction l with
    | nil => exact fun _ => rfl
    | cons c rest ih =>
      intro all
      rw [List.all_cons,Bool.and_eq_true] at all
      have small : c.toNat < 128 := by
        have seen := all.1
        simp only [plainChar,Bool.and_eq_true,decide_eq_true_eq] at seen
        omega
      rw [List.flatMap_cons,plainEscaped all.1,List.singleton_append,consSize small,ih all.2,List.length_cons]
  rw [sizeStr,quoted,consSize (by decide),closed,appendSize,chars _ plain,asciiSize (by decide)]

theorem visibleSize {text : String} (seen : ∀ c ∈ text.toList, 0x20 ≤ c.toNat ∧ c.toNat < 0x7F) :
    size (.str text) ≤ 2 * text.toList.length + 2 := by
  have chars : ∀ l : List Char, (∀ c ∈ l, 0x20 ≤ c.toNat ∧ c.toNat < 0x7F) →
      (utf8 (l.flatMap escaped)).length ≤ 2 * l.length := by
    intro l
    induction l with
    | nil => exact fun _ => Nat.le_refl 0
    | cons c rest ih =>
      intro all
      have later := ih fun d mem => all d (List.mem_cons_of_mem _ mem)
      have most : (utf8 (escaped c)).length ≤ 2 := by
        by_cases quote_ : c = '"'
        · subst quote_
          decide
        · by_cases slash : c = '\\'
          · subst slash
            decide
          · obtain ⟨low,high⟩ := all c List.mem_cons_self
            have plain : plainChar c = true := by
              simp only [plainChar,Bool.and_eq_true,decide_eq_true_eq,bne_iff_ne]
              exact ⟨⟨⟨low,high⟩,quote_⟩,slash⟩
            rw [plainEscaped plain,asciiSize (by omega)]
            exact Nat.le_succ 1
      rw [List.flatMap_cons,appendSize,List.length_cons]
      omega
  have most := chars text.toList seen
  rw [sizeStr,quoted,consSize (by decide),closed,appendSize,asciiSize (by decide)]
  omega

theorem leastSize (text : String) : text.toList.length ≤ size (.str text) := by
  have chars : ∀ l : List Char, l.length ≤ (utf8 (l.flatMap escaped)).length := by
    intro l
    induction l with
    | nil => exact Nat.le_refl 0
    | cons c rest ih =>
      have some_ : 1 ≤ (utf8 (escaped c)).length := by
        refine List.length_pos_iff.mpr fun none_ => ?_
        have start := unescapedEscaped c []
        cases parts : escaped c with
        | nil =>
          rw [parts] at start
          cases start
        | cons d more =>
          rw [parts,utf8,List.flatMap_cons] at none_
          exact String.utf8EncodeChar_ne_nil (List.append_eq_nil_iff.mp none_).1
      rw [List.flatMap_cons,appendSize,List.length_cons]
      omega
  rw [sizeStr,quoted,consSize (by decide),closed,appendSize]
  have most := chars text.toList
  omega

theorem asciiText {l : List Char} (small : ∀ c ∈ l, c.toNat < 128) : (utf8 l).length = l.length := by
  induction l with
  | nil => rfl
  | cons c rest ih =>
    rw [consSize (small c List.mem_cons_self),ih fun d mem => small d (List.mem_cons_of_mem _ mem),List.length_cons]

theorem intSize {n : Int} (positive : 0 ≤ n) {digits : Nat} (some_ : 0 < digits) (small : n < 10 ^ digits) :
    size (.int n) ≤ digits := by
  obtain ⟨m,rfl⟩ := Int.eq_ofNat_of_zero_le positive
  have text : (toString (m : Int)).toList = Nat.toDigits 10 m := Nat.toList_repr
  have ascii : ∀ c ∈ Nat.toDigits 10 m, c.toNat < 128 := by
    intro c mem
    have digit := Nat.isDigit_of_mem_toDigits (by decide) (by decide) mem
    simp only [Char.isDigit,Bool.and_eq_true,decide_eq_true_eq] at digit
    exact Nat.lt_of_le_of_lt digit.2 (by decide)
  rw [sizeInt,text,asciiText ascii]
  exact Nat.toDigits_length 10 m digits some_ (by exact_mod_cast small)

end Sizes

end Wepuu.CompactTokens
