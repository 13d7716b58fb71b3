import Mathlib.Data.List.Basic

/-! Base64url without padding. -/
namespace Wepuu.Base64Url

def digit (n : Nat) : Char :=
  if n < 26 then Char.ofNat (65 + n)
  else if n < 52 then Char.ofNat (71 + n)
  else if n < 62 then Char.ofNat (n - 4)
  else if n = 62 then '-' else '_'

def value (c : Char) : Nat :=
  if 'A' ≤ c ∧ c ≤ 'Z' then c.toNat - 65
  else if 'a' ≤ c ∧ c ≤ 'z' then c.toNat - 71
  else if '0' ≤ c ∧ c ≤ '9' then c.toNat + 4
  else if c = '-' then 62 else 63

def urlChar (c : Char) : Bool :=
  ('a' ≤ c && c ≤ 'z') || ('A' ≤ c && c ≤ 'Z') || ('0' ≤ c && c ≤ '9') || c == '_' || c == '-'

theorem valueDigit {n : Nat} (small : n < 64) : value (digit n) = n := by
  have all : ∀ m : Fin 64, value (digit m) = m := by decide
  exact all ⟨n,small⟩

theorem digitChar {n : Nat} (small : n < 64) : urlChar (digit n) = true := by
  have all : ∀ m : Fin 64, urlChar (digit m) = true := by decide
  exact all ⟨n,small⟩

theorem digitInjective {m n : Nat} (left : m < 64) (right : n < 64) (same : digit m = digit n) : m = n := by
  rw [← valueDigit left,same,valueDigit right]

/- Three bytes are four digits; one byte left over is two, two bytes are three. -/
def encode : List UInt8 → List Char
  | [] => []
  | [a] => [digit (a.toNat / 4),digit (a.toNat % 4 * 16)]
  | [a,b] => [digit (a.toNat / 4),digit (a.toNat % 4 * 16 + b.toNat / 16),digit (b.toNat % 16 * 4)]
  | a :: b :: c :: rest =>
    digit (a.toNat / 4) :: digit (a.toNat % 4 * 16 + b.toNat / 16) ::
      digit (b.toNat % 16 * 4 + c.toNat / 64) :: digit (c.toNat % 64) :: encode rest

def base64url (bytes : List UInt8) : String := String.ofList (encode bytes)

theorem encodeChars (bytes : List UInt8) : ∀ c ∈ encode bytes, urlChar c = true := by
  induction bytes using encode.induct with
  | case1 => simp [encode]
  | case2 a =>
    have ha := a.toNat_lt
    intro c mem
    simp only [encode,List.mem_cons,List.not_mem_nil,or_false] at mem
    rcases mem with rfl | rfl <;> exact digitChar (by omega)
  | case3 a b =>
    have ha := a.toNat_lt
    have hb := b.toNat_lt
    intro c mem
    simp only [encode,List.mem_cons,List.not_mem_nil,or_false] at mem
    rcases mem with rfl | rfl | rfl <;> exact digitChar (by omega)
  | case4 a b c rest ih =>
    have ha := a.toNat_lt
    have hb := b.toNat_lt
    have hc := c.toNat_lt
    intro d mem
    simp only [encode,List.mem_cons] at mem
    rcases mem with rfl | rfl | rfl | rfl | later
    · exact digitChar (by omega)
    · exact digitChar (by omega)
    · exact digitChar (by omega)
    · exact digitChar (by omega)
    · exact ih d later

theorem encodeLength (bytes : List UInt8) : (encode bytes).length = (bytes.length * 4 + 2) / 3 := by
  induction bytes using encode.induct with
  | case1 => simp [encode]
  | case2 a => simp [encode]
  | case3 a b => simp [encode]
  | case4 a b c rest ih =>
    simp only [encode,List.length_cons,ih]
    omega

theorem encodeInjective {left right : List UInt8} (same : encode left = encode right) : left = right := by
  induction left using encode.induct generalizing right with
  | case1 =>
    cases right using encode.induct with
    | case1 => rfl
    | case2 | case3 | case4 => simp [encode] at same
  | case2 a =>
    cases right using encode.induct with
    | case1 | case3 | case4 => simp [encode] at same
    | case2 a' =>
      have ha := a.toNat_lt
      have ha' := a'.toNat_lt
      simp only [encode,List.cons.injEq,and_true] at same
      have first := digitInjective (by omega) (by omega) same.1
      have second := digitInjective (by omega) (by omega) same.2
      rw [UInt8.toNat_inj.mp (by omega : a.toNat = a'.toNat)]
  | case3 a b =>
    cases right using encode.induct with
    | case1 | case2 | case4 => simp [encode] at same
    | case3 a' b' =>
      have ha := a.toNat_lt
      have hb := b.toNat_lt
      have ha' := a'.toNat_lt
      have hb' := b'.toNat_lt
      simp only [encode,List.cons.injEq,and_true] at same
      have first := digitInjective (by omega) (by omega) same.1
      have second := digitInjective (by omega) (by omega) same.2.1
      have third := digitInjective (by omega) (by omega) same.2.2
      rw [UInt8.toNat_inj.mp (by omega : a.toNat = a'.toNat),UInt8.toNat_inj.mp (by omega : b.toNat = b'.toNat)]
  | case4 a b c rest ih =>
    cases right using encode.induct with
    | case1 | case2 | case3 => simp [encode] at same
    | case4 a' b' c' rest' =>
      have ha := a.toNat_lt
      have hb := b.toNat_lt
      have hc := c.toNat_lt
      have ha' := a'.toNat_lt
      have hb' := b'.toNat_lt
      have hc' := c'.toNat_lt
      simp only [encode,List.cons.injEq] at same
      have first := digitInjective (by omega) (by omega) same.1
      have second := digitInjective (by omega) (by omega) same.2.1
      have third := digitInjective (by omega) (by omega) same.2.2.1
      have fourth := digitInjective (by omega) (by omega) same.2.2.2.1
      rw [UInt8.toNat_inj.mp (by omega : a.toNat = a'.toNat),UInt8.toNat_inj.mp (by omega : b.toNat = b'.toNat),
        UInt8.toNat_inj.mp (by omega : c.toNat = c'.toNat),ih same.2.2.2.2]

theorem base64urlInjective {left right : List UInt8} (same : base64url left = base64url right) : left = right :=
  encodeInjective (String.ofList_injective same)

end Wepuu.Base64Url
