import Mathlib.Tactic.Ring

/-! Instants as ISO 8601 texts: what Date.prototype.toISOString prints, the pattern of
z.iso.datetime(), and the instant that a timestamptz column takes from such a text. A date is
its UTC fields, which the type keeps on the calendar. -/
namespace Wepuu.IsoDates

section Calendar

def leapYear (year : Int) : Bool := year % 4 == 0 && (year % 100 != 0 || year % 400 == 0)

def monthDays (year : Int) (month : Nat) : Nat :=
  if month == 2 then (if leapYear year then 29 else 28) else if [4,6,9,11].contains month then 30 else 31

/- Days since the first of January 1970, as Day of the language counts them. -/
def epochDays (year : Int) (month day : Nat) : Int :=
  365 * (year - 1970) + (year - 1969) / 4 - (year - 1901) / 100 + (year - 1601) / 400 +
    ((List.range (month - 1)).map fun m => monthDays year (m + 1)).sum + (day - 1)

def microseconds (days : Int) (hour minute second micros : Nat) : Int :=
  (((days * 24 + hour) * 60 + minute) * 60 + second) * 1000000 + micros

structure UtcDate where
  year : Int
  month : Nat
  day : Nat
  hour : Nat
  minute : Nat
  second : Nat
  millisecond : Nat
  ofYear : 1 ≤ month ∧ month ≤ 12 ∧ 1 ≤ day ∧ day ≤ monthDays year month
  ofDay : hour < 24 ∧ minute < 60 ∧ second < 60 ∧ millisecond < 1000

def UtcDate.instant (d : UtcDate) : Int :=
  microseconds (epochDays d.year d.month d.day) d.hour d.minute d.second (d.millisecond * 1000)

end Calendar

section Printing

def digit (n : Nat) : Char := Char.ofNat (48 + n)

def padded : Nat → Nat → List Char
  | 0, _ => []
  | width + 1, n => padded width (n / 10) ++ [digit (n % 10)]

/- Four digits, or a sign and six outside the years that four digits hold. -/
def printedYear (year : Int) : List Char :=
  if 0 ≤ year ∧ year ≤ 9999 then padded 4 year.toNat
  else (if year < 0 then '-' else '+') :: padded 6 year.natAbs

def printed (d : UtcDate) : List Char :=
  printedYear d.year ++ '-' :: (padded 2 d.month ++ '-' :: (padded 2 d.day ++ 'T' :: (padded 2 d.hour ++
    ':' :: (padded 2 d.minute ++ ':' :: (padded 2 d.second ++ '.' :: (padded 3 d.millisecond ++ ['Z']))))))

def UtcDate.toISOString (d : UtcDate) : String := String.ofList (printed d)

end Printing

section Reading

def digitChar (c : Char) : Bool := '0' ≤ c && c ≤ '9'

def number (digits : List Char) : Nat := digits.foldl (fun n c => 10 * n + (c.toNat - 48)) 0

def field (width : Nat) (chars : List Char) : Option (Nat × List Char) :=
  if width ≤ chars.length ∧ (chars.take width).all digitChar then some (number (chars.take width),chars.drop width)
  else none

def after (mark : Char) : List Char → Option (List Char)
  | c :: rest => if c = mark then some rest else none
  | [] => none

def readSeconds : List Char → Option (Nat × List Char)
  | ['Z'] => some (0,[])
  | ':' :: chars => do
    let (second,rest) ← field 2 chars
    match rest with
    | ['Z'] => some (second,[])
    | '.' :: more =>
      let fraction := more.takeWhile digitChar
      if fraction ≠ [] ∧ more.drop fraction.length = ['Z'] then some (second,fraction) else none
    | _ => none
  | _ => none

structure Reading where
  year : Nat
  month : Nat
  day : Nat
  hour : Nat
  minute : Nat
  second : Nat
  fraction : List Char
  deriving DecidableEq, Repr

def Reading.valid (r : Reading) : Bool :=
  decide (1 ≤ r.month) && decide (r.month ≤ 12) && decide (1 ≤ r.day) && decide (r.day ≤ monthDays r.year r.month) &&
  decide (r.hour < 24) && decide (r.minute < 60) && decide (r.second < 60)

def readFields (chars : List Char) : Option Reading := do
  let (year,chars) ← field 4 chars
  let (month,chars) ← field 2 (← after '-' chars)
  let (day,chars) ← field 2 (← after '-' chars)
  let (hour,chars) ← field 2 (← after 'T' chars)
  let (minute,chars) ← field 2 (← after ':' chars)
  let (second,fraction) ← readSeconds chars
  some ⟨year,month,day,hour,minute,second,fraction⟩

def readDatetime (text : String) : Option Reading := (readFields text.toList).filter Reading.valid

def isDatetime (text : String) : Bool := (readDatetime text).isSome

def Reading.instant (r : Reading) : Int :=
  microseconds (epochDays r.year r.month r.day) r.hour r.minute r.second
    ((number r.fraction * 1000000 + 10 ^ r.fraction.length / 2) / 10 ^ r.fraction.length)

/- The input of a timestamptz column, on the texts of that pattern: there is no year zero. -/
def timestamptz (text : String) : Option Int :=
  (readDatetime text).bind fun r => if r.year = 0 then none else some r.instant

end Reading

section RoundTrip

theorem paddedLength (width n : Nat) : (padded width n).length = width := by
  induction width generalizing n with
  | zero => rfl
  | succ width ih => simp [padded,ih]

theorem digitShown {n : Nat} (small : n < 10) : digitChar (digit n) = true ∧ (digit n).toNat - 48 = n := by
  have all : ∀ m : Fin 10, digitChar (digit m) = true ∧ (digit m).toNat - 48 = m := by decide
  exact all ⟨n,small⟩

theorem paddedDigits (width n : Nat) : (padded width n).all digitChar = true := by
  induction width generalizing n with
  | zero => rfl
  | succ width ih =>
    simp [padded,List.all_append,ih,(digitShown (Nat.mod_lt n (by decide : 0 < 10))).1]

theorem paddedNumber {width n : Nat} (fits : n < 10 ^ width) : number (padded width n) = n := by
  induction width generalizing n with
  | zero => simp only [padded,number,List.foldl_nil]; omega
  | succ width ih =>
    have shorter : n / 10 < 10 ^ width := by
      rw [Nat.div_lt_iff_lt_mul (by decide)]
      rw [pow_succ] at fits
      exact fits
    have before : (padded width (n / 10)).foldl (fun n c => 10 * n + (c.toNat - 48)) 0 = n / 10 := ih shorter
    simp only [padded,number,List.foldl_append,before,List.foldl_cons,List.foldl_nil,
      (digitShown (Nat.mod_lt n (by decide : 0 < 10))).2]
    omega

theorem fieldPadded {width n : Nat} (fits : n < 10 ^ width) (rest : List Char) :
    field width (padded width n ++ rest) = some (n,rest) := by
  have length := paddedLength width n
  have taken : (padded width n ++ rest).take width = padded width n := List.take_left' length
  have dropped : (padded width n ++ rest).drop width = rest := List.drop_left' length
  simp [field,taken,dropped,paddedDigits,paddedNumber fits,length]

theorem fractionPadded (width n : Nat) : (padded width n ++ ['Z']).takeWhile digitChar = padded width n := by
  rw [List.takeWhile_append_of_pos fun c mem => List.all_eq_true.mp (paddedDigits width n) c mem]
  simp [List.takeWhile,digitChar]

theorem secondsPadded {second millisecond : Nat} (fits : second < 60) :
    readSeconds (':' :: (padded 2 second ++ '.' :: (padded 3 millisecond ++ ['Z']))) =
      some (second,padded 3 millisecond) := by
  have some_ : padded 3 millisecond ≠ [] := by
    intro none
    have length := paddedLength 3 millisecond
    simp [none] at length
  have rest : (padded 3 millisecond ++ ['Z']).drop (padded 3 millisecond).length = ['Z'] := List.drop_left
  simp only [readSeconds]
  rw [fieldPadded (by omega)]
  simp only [Option.bind_eq_bind,Option.bind_some,fractionPadded]
  exact if_pos ⟨some_,rest⟩

variable (d : UtcDate)

def UtcDate.reading : Reading := ⟨d.year.toNat,d.month,d.day,d.hour,d.minute,d.second,padded 3 d.millisecond⟩

theorem fieldsPrinted (low : 0 ≤ d.year) (high : d.year ≤ 9999) : readFields (printed d) = some d.reading := by
  obtain ⟨_,month,_,day⟩ := d.ofYear
  obtain ⟨hour,minute,second,_⟩ := d.ofDay
  have days : d.day < 10 ^ 2 := by
    unfold monthDays at day
    split at day
    · split at day <;> omega
    · split at day <;> omega
  have year : d.year.toNat < 10 ^ 4 := by omega
  simp only [readFields,printed,printedYear,if_pos (And.intro low high),fieldPadded year,after,if_true,
    Option.bind_eq_bind,Option.bind_some]
  rw [fieldPadded (by omega)]
  simp only [Option.bind_some,if_true]
  rw [fieldPadded days]
  simp only [Option.bind_some,if_true]
  rw [fieldPadded (by omega)]
  simp only [Option.bind_some,if_true]
  rw [fieldPadded (by omega)]
  simp only [Option.bind_some,secondsPadded second]
  rfl

theorem readingValid (low : 0 ≤ d.year) : d.reading.valid = true := by
  obtain ⟨first,month,some_,day⟩ := d.ofYear
  obtain ⟨hour,minute,second,_⟩ := d.ofDay
  have year : ((d.year.toNat : Nat) : Int) = d.year := Int.toNat_of_nonneg low
  simp [Reading.valid,UtcDate.reading,year,first,month,some_,day,hour,minute,second]

theorem signedUnread (outside : ¬(0 ≤ d.year ∧ d.year ≤ 9999)) : readFields (printed d) = none := by
  have unread : ∀ rest, field 4 ((if d.year < 0 then '-' else '+') :: rest) = none := by
    intro rest
    split <;> simp [field,digitChar]
  simp only [readFields,printed,printedYear,if_neg outside,List.cons_append,unread,Option.bind_eq_bind,Option.bind_none]

theorem readPrinted : readDatetime d.toISOString = if 0 ≤ d.year ∧ d.year ≤ 9999 then some d.reading else none := by
  simp only [readDatetime,UtcDate.toISOString,String.toList_ofList]
  split
  · rename_i within
    rw [fieldsPrinted d within.1 within.2]
    simp [Option.filter,readingValid d within.1]
  · rename_i outside
    rw [signedUnread d outside]
    rfl

theorem printedDatetime : isDatetime d.toISOString = true ↔ 0 ≤ d.year ∧ d.year ≤ 9999 := by
  rw [isDatetime,readPrinted]
  split <;> simp [*]

theorem readingInstant (low : 0 ≤ d.year) : d.reading.instant = d.instant := by
  have year : ((d.year.toNat : Nat) : Int) = d.year := Int.toNat_of_nonneg low
  have small : d.millisecond < 10 ^ 3 := d.ofDay.2.2.2
  have whole : (d.millisecond * 1000000 + 10 ^ 3 / 2) / 10 ^ 3 = d.millisecond * 1000 := by omega
  simp only [Reading.instant,UtcDate.instant,UtcDate.reading,year,paddedNumber small,paddedLength,whole]

theorem timestamptzPrinted : timestamptz d.toISOString = if 1 ≤ d.year ∧ d.year ≤ 9999 then some d.instant else none := by
  rw [timestamptz,readPrinted]
  by_cases within : 0 ≤ d.year ∧ d.year ≤ 9999
  · rw [if_pos within,Option.bind_some,readingInstant d within.1]
    by_cases zero : d.year = 0
    · rw [if_pos (by simp [UtcDate.reading,zero]),if_neg (by omega)]
    · rw [if_neg (by simp only [UtcDate.reading]; omega),if_pos (by omega)]
  · rw [if_neg within,if_neg (by omega)]
    rfl

end RoundTrip

example : timestamptz "2024-02-29T23:59:59.001Z" = some 1709251199001000 := by decide

end Wepuu.IsoDates
