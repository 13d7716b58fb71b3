import Mathlib.Data.List.Infix
import Mathlib.Data.List.TakeWhile
import Mathlib.Tactic.IntervalCases

/-! Cookies of one host as a user agent keeps them. A Set-Cookie field is the pair before its
first semicolon and attributes, of which Max-Age decides whether the pair is kept; a request
carries the pairs that are kept in one Cookie field. Fields outside the grammar of servers
are ignored. -/
namespace Wepuu.Cookies

section Texts

def octetChar (c : Char) : Bool := '!' ≤ c && c ≤ '~' && !(['"',',',';','\\'].contains c)

def tokenChar (c : Char) : Bool :=
  octetChar c && !(['(',')','<','>','@',':','/','[',']','?','=','\x7b','\x7d'].contains c)

def blank (c : Char) : Bool := c == ' ' || c == '\t'

def strip (p : Char → Bool) (text : List Char) : List Char := ((text.dropWhile p).reverse.dropWhile p).reverse

def trimmed (text : List Char) : List Char := strip blank text

def nameOf (pair : List Char) : List Char := pair.takeWhile (· != '=')
def valueOf (pair : List Char) : List Char := (pair.dropWhile (· != '=')).drop 1

theorem cutPair {name : List Char} (value : List Char) (inside : '=' ∉ name) :
    nameOf (name ++ '=' :: value) = name ∧ valueOf (name ++ '=' :: value) = value := by
  have all : ∀ c ∈ name, (c != '=') = true := fun c mem => bne_iff_ne.mpr fun same => inside (same ▸ mem)
  constructor
  · unfold nameOf
    rw [List.takeWhile_append_of_pos all,List.takeWhile_cons_of_neg (by decide),List.append_nil]
  · unfold valueOf
    rw [List.dropWhile_append_of_pos all,List.dropWhile_cons_of_neg (by decide),List.drop_one,List.tail_cons]

theorem frontKept {p : Char → Bool} {text : List Char} (plain : ∀ c ∈ text, p c = false) : text.dropWhile p = text := by
  cases text with
  | nil => rfl
  | cons c rest => exact List.dropWhile_cons_of_neg (by rw [plain c List.mem_cons_self]; decide)

theorem stripPlain {p : Char → Bool} {text : List Char} (plain : ∀ c ∈ text, p c = false) : strip p text = text := by
  unfold strip
  rw [frontKept plain,frontKept fun c mem => plain c (List.mem_reverse.mp mem),List.reverse_reverse]

theorem stripFront {p : Char → Bool} {b : Char} {text : List Char} (front : p b = true)
    (plain : ∀ c ∈ text, p c = false) : strip p (b :: text) = text := by
  have same := stripPlain plain
  unfold strip at same ⊢
  rw [List.dropWhile_cons_of_pos front]
  exact same

theorem zeroDigits (n : Nat) : (Nat.toDigits 10 n).all (· == '0') = true ↔ n = 0 := by
  induction n using Nat.strongRecOn with
  | ind n ih =>
    rw [Nat.toDigits_eq_if (by decide)]
    split
    · rename_i small
      simp only [List.all_cons,List.all_nil,Bool.and_true,beq_iff_eq]
      interval_cases n <;> decide
    · rename_i large
      have higher := ih (n / 10) (by omega)
      rw [List.all_append,Bool.and_eq_true,higher]
      omega

theorem digitPlain {n : Nat} {c : Char} (mem : c ∈ Nat.toDigits 10 n) : c.isDigit = true ∧ blank c = false ∧ c ≠ ';' := by
  have digit := Nat.isDigit_of_mem_toDigits (by decide) (by decide) mem
  refine ⟨digit,?_,?_⟩
  · rw [Bool.eq_false_iff]
    intro gap
    rcases Bool.or_eq_true_iff.mp gap with mark | mark <;> rw [beq_iff_eq.mp mark] at digit <;> exact absurd digit (by decide)
  · rintro rfl
    exact absurd digit (by decide)

end Texts

section Jars

structure Cookie where
  name : List Char
  value : List Char
  token : name ≠ [] ∧ name.all tokenChar = true
  octets : value.all octetChar = true
  deriving DecidableEq

abbrev Jar := List Cookie

variable {jar : Jar} {cookie c : Cookie}

def remove (name : List Char) (jar : Jar) : Jar := jar.filter (·.name != name)

def put (cookie : Cookie) (jar : Jar) : Jar := remove cookie.name jar ++ [cookie]

def stored (name : List Char) (jar : Jar) : Option (List Char) := (jar.find? (·.name == name)).map (·.value)

def cookieOf (pair : List Char) : Option Cookie :=
  if octets : (trimmed (valueOf pair)).all octetChar = true then
    if token : trimmed (nameOf pair) ≠ [] ∧ (trimmed (nameOf pair)).all tokenChar = true then
      some ⟨trimmed (nameOf pair),trimmed (valueOf pair),token,octets⟩
    else none
  else none

def maxAge (part : List Char) : Option Bool :=
  let seconds := trimmed (valueOf part)
  if (trimmed (nameOf part)).map Char.toLower == "max-age".toList && seconds.any Char.isDigit then
    some (seconds.head? == some '-' || seconds.all (· == '0'))
  else none

def receive (field : List Char) (jar : Jar) : Jar := match field.splitOn ';' with
  | [] => jar
  | pair :: attributes => match cookieOf pair with
    | none => jar
    | some cookie => if (attributes.filterMap maxAge).getLast? == some true then remove cookie.name jar else put cookie jar

def Cookie.text (cookie : Cookie) : List Char := cookie.name ++ '=' :: cookie.value

def cookieField : Jar → Option (List Char)
  | [] => none
  | jar => some ("; ".toList.intercalate (jar.map Cookie.text))

theorem memRemove {name : List Char} : c ∈ remove name jar ↔ c ∈ jar ∧ c.name ≠ name := by
  unfold remove
  rw [List.mem_filter,bne_iff_ne]

theorem memPut (mem : c ∈ put cookie jar) : c = cookie ∨ (c ∈ jar ∧ c.name ≠ cookie.name) := by
  rcases List.mem_append.mp mem with old | new
  · exact .inr (memRemove.mp old)
  · exact .inl (List.mem_singleton.mp new)

theorem storedFrom {name value : List Char} (found : stored name jar = some value) :
    ∃ c ∈ jar, c.name = name ∧ c.value = value := by
  obtain ⟨c,held,rfl⟩ := Option.map_eq_some_iff.mp found
  have named := List.find?_some held
  simp only [beq_iff_eq] at named
  exact ⟨c,List.mem_of_find?_eq_some held,named,rfl⟩

theorem octetPlain {c : Char} (octet : octetChar c = true) : blank c = false ∧ c ≠ ';' := by
  simp only [octetChar,Bool.and_eq_true,decide_eq_true_eq,Bool.not_eq_true',List.contains_eq_mem,decide_eq_false_iff_not,
    List.mem_cons,List.not_mem_nil,or_false,not_or] at octet
  refine ⟨?_,octet.2.2.2.1⟩
  simp only [blank,Bool.or_eq_false_iff,beq_eq_false_iff_ne]
  constructor <;> rintro rfl
  · exact absurd octet.1.1 (by decide)
  · exact absurd octet.1.1 (by decide)

theorem tokenOctet {c : Char} (token : tokenChar c = true) : octetChar c = true := (Bool.and_eq_true_iff.mp token).1

theorem tokens (cookie : Cookie) : ∀ c ∈ cookie.name, tokenChar c = true := List.all_eq_true.mp cookie.token.2

theorem valueOctets (cookie : Cookie) : ∀ c ∈ cookie.value, octetChar c = true := List.all_eq_true.mp cookie.octets

theorem nameEquals (cookie : Cookie) : '=' ∉ cookie.name := fun mem =>
  absurd (tokens cookie _ mem) (by decide)

theorem textPlain (cookie : Cookie) : ∀ c ∈ cookie.text, blank c = false ∧ c ≠ ';' := by
  intro c mem
  rcases List.mem_append.mp mem with name | rest
  · exact octetPlain (tokenOctet (tokens cookie c name))
  · rcases List.mem_cons.mp rest with rfl | value
    · decide
    · exact octetPlain (valueOctets cookie c value)

theorem cookieRead (cookie : Cookie) : cookieOf cookie.text = some cookie := by
  obtain ⟨name,value⟩ := cutPair cookie.value (nameEquals cookie)
  have plainName := stripPlain fun c mem => (octetPlain (tokenOctet (tokens cookie c mem))).1
  have plainValue := stripPlain fun c mem => (octetPlain (valueOctets cookie c mem)).1
  unfold cookieOf Cookie.text trimmed
  simp only [name,value,plainName,plainValue]
  rw [dif_pos cookie.octets,dif_pos cookie.token]

theorem maxAgeDigits (n : Nat) : maxAge (" Max-Age=".toList ++ Nat.toDigits 10 n) = some (decide (n = 0)) := by
  obtain ⟨name,value⟩ := @cutPair " Max-Age".toList (Nat.toDigits 10 n) (by decide)
  have text : " Max-Age=".toList ++ Nat.toDigits 10 n = " Max-Age".toList ++ '=' :: Nat.toDigits 10 n := rfl
  have plain := stripPlain fun c mem => (digitPlain (n := n) (c := c) mem).2.1
  unfold maxAge trimmed
  simp only [text,name,value,plain]
  have named : ((strip blank " Max-Age".toList).map Char.toLower == "max-age".toList) = true := by decide
  cases digits : Nat.toDigits 10 n with
  | nil => exact absurd digits Nat.toDigits_ne_nil
  | cons d rest =>
    have first := (digitPlain (n := n) (c := d) (digits ▸ List.mem_cons_self)).1
    have unsigned : ((d :: rest).head? == some '-') = false := by
      rw [List.head?_cons,beq_eq_false_iff_ne]
      rintro ⟨⟩
      exact absurd first (by decide)
    rw [named,Bool.true_and,List.any_cons,first,Bool.true_or,if_pos rfl,unsigned,Bool.false_or,← digits]
    exact congrArg some (Bool.eq_iff_iff.mpr ((zeroDigits n).trans decide_eq_true_iff.symm))

theorem receivePair {attributes : List (List Char)} (apart : ∀ a ∈ attributes, ';' ∉ a) :
    receive ([';'].intercalate (cookie.text :: attributes)) jar =
      if (attributes.filterMap maxAge).getLast? == some true then remove cookie.name jar else put cookie jar := by
  have pieces : ([';'].intercalate (cookie.text :: attributes)).splitOn ';' = cookie.text :: attributes := by
    refine List.splitOn_intercalate ';' (fun l mem => ?_) (List.cons_ne_nil _ _)
    rcases List.mem_cons.mp mem with rfl | other
    · exact fun inside => (textPlain cookie _ inside).2 rfl
    · exact apart l other
  unfold receive
  simp only [pieces,cookieRead]

theorem fieldCons (cookie : Cookie) (jar : Jar) : "; ".toList.intercalate ((cookie :: jar).map Cookie.text) =
    [';'].intercalate (cookie.text :: jar.map fun c => ' ' :: c.text) := by
  induction jar generalizing cookie with
  | nil => rfl
  | cons next jar ih =>
    have left : ∀ mark : List Char, ∀ rest : List (List Char), ∀ a b : List Char,
        mark.intercalate (a :: b :: rest) = a ++ (mark ++ mark.intercalate (b :: rest)) := by
      intro mark rest a b
      simp [List.intercalate]
    rw [List.map_cons,List.map_cons,left,← List.map_cons,ih next,List.map_cons,left]
    cases jar with
    | nil => rfl
    | cons third jar => rw [List.map_cons,left,left]; rfl

/- A server that splits the field at its semicolons and strips the parts of blanks reads the jar. -/
theorem fieldPieces {field : List Char} (some_ : cookieField jar = some field) {strip : List Char → List Char}
    (strips : ∀ cookie : Cookie, strip cookie.text = cookie.text ∧ strip (' ' :: cookie.text) = cookie.text) :
    (field.splitOn ';').map strip = jar.map Cookie.text := by
  cases jar with
  | nil => cases some_
  | cons cookie jar =>
    cases some_
    have apart : ∀ c : Cookie, ';' ∉ c.text := fun c inside => (textPlain c _ inside).2 rfl
    rw [fieldCons,List.splitOn_intercalate ';' ?_ (List.cons_ne_nil _ _),List.map_cons,(strips cookie).1,List.map_map]
    · exact congrArg (cookie.text :: ·) (List.map_congr_left fun c _ => (strips c).2)
    · intro l mem
      rcases List.mem_cons.mp mem with rfl | other
      · exact apart cookie
      · obtain ⟨c,-,rfl⟩ := List.mem_map.mp other
        exact fun inside => (List.mem_cons.mp inside).elim (by decide) (apart c)

end Jars
end Wepuu.Cookies
