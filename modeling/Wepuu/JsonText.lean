import Mathlib.Data.List.Basic

/-! The text JSON.stringify gives for strings, arrays of strings and objects with fixed
members. Each of these texts ends itself: with anything written behind it, the value and
what follows can be told apart. -/
namespace Wepuu.JsonText

def Delimited {α : Type} (write : α → List Char) : Prop :=
  ∀ a b r s, write a ++ r = write b ++ s → a = b ∧ r = s

theorem delimitedAfter {α : Type} {write : α → List Char} (label : List Char) (delimited : Delimited write) :
    Delimited fun a => label ++ write a := by
  intro a b r s same
  simp only [List.append_assoc] at same
  exact delimited a b r s (List.append_cancel_left same)

theorem delimitedMap {α β : Type} {write : β → List Char} {f : α → β} (delimited : Delimited write)
    (injective : ∀ a b, f a = f b → a = b) : Delimited fun a => write (f a) := by
  intro a b r s same
  obtain ⟨one,behind⟩ := delimited _ _ _ _ same
  exact ⟨injective a b one,behind⟩

section Strings

def hexDigit (n : Nat) : Char := if n < 10 then Char.ofNat (48 + n) else Char.ofNat (87 + n)
def hexValue (c : Char) : Nat := if '0' ≤ c ∧ c ≤ '9' then c.toNat - 48 else c.toNat - 87

def escaped (c : Char) : List Char :=
  if c = '"' then ['\\','"']
  else if c = '\\' then ['\\','\\']
  else if c = '\x08' then ['\\','b']
  else if c = '\x0c' then ['\\','f']
  else if c = '\n' then ['\\','n']
  else if c = '\r' then ['\\','r']
  else if c = '\t' then ['\\','t']
  else if c.toNat < 32 then ['\\','u','0','0',hexDigit (c.toNat / 16),hexDigit (c.toNat % 16)]
  else [c]

def unescapedAfter : List Char → Option (Char × List Char)
  | 'u' :: _ :: _ :: high :: low :: rest => some (Char.ofNat (16 * hexValue high + hexValue low),rest)
  | 'b' :: rest => some ('\x08',rest)
  | 'f' :: rest => some ('\x0c',rest)
  | 'n' :: rest => some ('\n',rest)
  | 'r' :: rest => some ('\r',rest)
  | 't' :: rest => some ('\t',rest)
  | c :: rest => some (c,rest)
  | [] => none

def unescaped : List Char → Option (Char × List Char)
  | [] => none
  | c :: rest => if c = '\\' then unescapedAfter rest else some (c,rest)

theorem controlRead (n : Nat) (control : n < 32) : 16 * hexValue (hexDigit (n / 16)) + hexValue (hexDigit (n % 16)) = n := by
  have all : ∀ m : Fin 32, 16 * hexValue (hexDigit (m / 16)) + hexValue (hexDigit (m % 16)) = m := by decide
  exact all ⟨n,control⟩

theorem unescapedEscaped (c : Char) (rest : List Char) : unescaped (escaped c ++ rest) = some (c,rest) := by
  unfold escaped
  split
  · rename_i here; subst here; rfl
  split
  · rename_i here; subst here; rfl
  split
  · rename_i here; subst here; rfl
  split
  · rename_i here; subst here; rfl
  split
  · rename_i here; subst here; rfl
  split
  · rename_i here; subst here; rfl
  split
  · rename_i here; subst here; rfl
  split
  · rename_i control
    simp only [List.cons_append,List.nil_append,unescaped,if_true,unescapedAfter]
    rw [controlRead _ control,Char.ofNat_toNat]
  · rename_i plain _ _ _ _ _ _
    simp only [List.cons_append,List.nil_append,unescaped,if_neg plain]

theorem escapedStart (c : Char) (rest : List Char) : (escaped c ++ rest).head? ≠ some '"' := by
  unfold escaped
  repeat' split
  all_goals simp_all

def closed (text : List Char) : List Char := text.flatMap escaped ++ ['"']

theorem delimitedClosed : Delimited closed := by
  intro a
  induction a with
  | nil =>
    intro b r s same
    cases b with
    | nil => simpa [closed] using same
    | cons c rest =>
      have start := escapedStart c (rest.flatMap escaped ++ ['"'] ++ s)
      simp only [closed,List.flatMap_nil,List.flatMap_cons,List.nil_append,List.append_assoc] at same start
      rw [← same] at start
      exact absurd rfl start
  | cons c rest ih =>
    intro b r s same
    cases b with
    | nil =>
      have start := escapedStart c (rest.flatMap escaped ++ ['"'] ++ r)
      simp only [closed,List.flatMap_nil,List.flatMap_cons,List.nil_append,List.append_assoc] at same start
      rw [same] at start
      exact absurd rfl start
    | cons d others =>
      simp only [closed,List.flatMap_cons,List.append_assoc] at same
      have read := congrArg unescaped same
      rw [unescapedEscaped,unescapedEscaped] at read
      simp only [Option.some.injEq,Prod.mk.injEq] at read
      obtain ⟨rfl,behind⟩ := read
      obtain ⟨rfl,tail⟩ := ih others r s (by simpa only [closed,List.append_assoc] using behind)
      exact ⟨rfl,tail⟩

def quoted (text : String) : List Char := '"' :: closed text.toList

theorem delimitedQuoted : Delimited quoted := by
  refine delimitedAfter ['"'] (delimitedMap delimitedClosed ?_)
  intro a b same
  exact String.toList_inj.mp same

end Strings

section Arrays
variable {α : Type} {write : α → List Char}

def arrayTail (write : α → List Char) : List α → List Char
  | [] => [']']
  | a :: rest => ',' :: (write a ++ arrayTail write rest)

def array (write : α → List Char) : List α → List Char
  | [] => ['[',']']
  | a :: rest => '[' :: (write a ++ arrayTail write rest)

theorem delimitedTail (delimited : Delimited write) : Delimited (arrayTail write) := by
  intro a
  induction a with
  | nil =>
    intro b r s same
    cases b with
    | nil => simpa [arrayTail] using same
    | cons _ _ => simp [arrayTail] at same
  | cons x rest ih =>
    intro b r s same
    cases b with
    | nil => simp [arrayTail] at same
    | cons y others =>
      simp only [arrayTail,List.cons_append,List.cons.injEq,true_and,List.append_assoc] at same
      obtain ⟨rfl,behind⟩ := delimited x y _ _ same
      obtain ⟨rfl,tail⟩ := ih others r s behind
      exact ⟨rfl,tail⟩

theorem delimitedArray (delimited : Delimited write) (opens : ∀ a rest, (write a ++ rest).head? ≠ some ']') :
    Delimited (array write) := by
  intro a b r s same
  cases a with
  | nil =>
    cases b with
    | nil => simpa [array] using same
    | cons y others =>
      simp only [array,List.cons_append,List.nil_append,List.cons.injEq,true_and,List.append_assoc] at same
      have start := opens y (arrayTail write others ++ s)
      rw [← same] at start
      exact absurd rfl start
  | cons x rest =>
    cases b with
    | nil =>
      simp only [array,List.cons_append,List.nil_append,List.cons.injEq,true_and,List.append_assoc] at same
      have start := opens x (arrayTail write rest ++ r)
      rw [same] at start
      exact absurd rfl start
    | cons y others =>
      simp only [array,List.cons_append,List.cons.injEq,true_and,List.append_assoc] at same
      obtain ⟨rfl,behind⟩ := delimited x y _ _ same
      obtain ⟨rfl,tail⟩ := delimitedTail delimited rest others r s behind
      exact ⟨rfl,tail⟩

end Arrays

end Wepuu.JsonText
