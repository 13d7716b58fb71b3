import Mathlib.Algebra.GroupWithZero.Nat
import Wepuu.Schema

/-! What the services take from Node: hashing, the URL parser and the length of a
JavaScript string. The functions of node:crypto and URL are fields of one structure, with
the digest length as the only fact about them that the model builds in. -/
namespace Wepuu.NodeApi
open Schema

structure Url where
  protocol : String
  username : String
  password : String
  hostname : String
  port : String
  pathname : String
  search : String
  hash : String
  href : String
  deriving DecidableEq, Repr

abbrev Key := List UInt8

structure Node where
  sha256 : String → Digest
  hmacSha256 : Key → String → Digest
  parseUrl : String → Option Url
  sha256Length : ∀ text, (sha256 text).length = 32
  hmacLength : ∀ key text, (hmacSha256 key text).length = 32

/- Node on finitely many inputs; a text outside the tables hashes to zeros. -/
def tabled (digests : List (String × Digest)) (macs : List ((Key × String) × Digest))
    (urls : List (String × Url)) : Node where
  sha256 text := ((digests.lookup text).filter (·.length == 32)).getD (List.replicate 32 0)
  hmacSha256 key text := ((macs.lookup (key,text)).filter (·.length == 32)).getD (List.replicate 32 0)
  parseUrl text := urls.lookup text
  sha256Length text := by
    cases h : (digests.lookup text).filter (·.length == 32) with
    | none => simp
    | some d => simpa using (Option.filter_eq_some_iff.mp h).2
  hmacLength key text := by
    cases h : (macs.lookup (key,text)).filter (·.length == 32) with
    | none => simp
    | some d => simpa using (Option.filter_eq_some_iff.mp h).2

/- A Date holds whole milliseconds. -/
def asDate (t : Time) : Time := t / 1000 * 1000

theorem asDateLe (t : Time) : asDate t ≤ t := by
  unfold asDate Time at *
  omega

theorem asDateWithin (t : Time) : t - 1000 < asDate t := by
  unfold asDate Time at *
  omega

theorem asDateTwice (t : Time) : asDate (asDate t) = asDate t := by
  unfold asDate Time at *
  omega

/- String.length counts UTF-16 code units. -/
def utf16Units (c : Char) : Nat := if 0x10000 ≤ c.toNat then 2 else 1
def utf16Length (text : String) : Nat := (text.toList.map utf16Units).sum

/- slice(0, n) as it is written out: half of a surrogate pair becomes U+FFFD. -/
def sliceUnits : Nat → List Char → List Char
  | _, [] => []
  | n, c :: rest =>
    if utf16Units c ≤ n then c :: sliceUnits (n - utf16Units c) rest
    else if n = 0 then [] else ['\uFFFD']
def sliceText (n : Nat) (text : String) : String := String.ofList (sliceUnits n text.toList)

theorem bindOk {ε α β : Type} {x : Except ε α} {f : α → Except ε β} {b : β} :
    (x >>= f) = .ok b ↔ ∃ a, x = .ok a ∧ f a = .ok b := by
  cases x with
  | error e => exact ⟨fun bad => (by cases bad),fun ⟨_,bad,_⟩ => (by cases bad)⟩
  | ok a => exact ⟨fun ok => ⟨a,rfl,ok⟩,fun ⟨_,same,ok⟩ => (by cases same; exact ok)⟩

theorem bindError {ε α β : Type} {x : Except ε α} {f : α → Except ε β} {e : ε} (failed : (x >>= f) = .error e) :
    x = .error e ∨ ∃ a, x = .ok a ∧ f a = .error e := by
  cases x with
  | error _ => exact .inl (by cases failed; rfl)
  | ok a => exact .inr ⟨a,rfl,failed⟩

theorem presentOk {ε α : Type} {fault : ε} (answer : Option α → Except ε α) (absent : answer none = .error fault)
    (present : ∀ a, answer (some a) = .ok a) {x : Option α} {a : α} : answer x = .ok a ↔ x = some a := by
  cases x with
  | none => simp [absent]
  | some b => simp [present]

theorem holdsOk {ε : Type} {fault : ε} {holds : Bool} {u : Unit} :
    (if holds then Except.ok () else Except.error fault) = .ok u ↔ holds = true := by
  cases holds with
  | false => exact ⟨fun bad => (by cases bad),fun bad => (by cases bad)⟩
  | true => exact ⟨fun _ => rfl,fun _ => rfl⟩

def orFail {α : Type} (fault : Fault) : Option α → Except Fault α
  | some a => .ok a
  | none => .error fault

theorem orFailOk {α : Type} {fault : Fault} {x : Option α} {a : α} :
    orFail fault x = .ok a ↔ x = some a :=
  presentOk (orFail fault) rfl fun _ => rfl

theorem orFailError {α : Type} {fault cause : Fault} {x : Option α} (failed : orFail fault x = .error cause) :
    cause = fault := by
  cases x with
  | none => cases failed; rfl
  | some _ => cases failed

def ensure (holds : Bool) (fault : Fault) : Except Fault Unit :=
  if holds then .ok () else .error fault

theorem ensureOk {holds : Bool} {fault : Fault} {u : Unit} :
    ensure holds fault = .ok u ↔ holds = true :=
  holdsOk

theorem ensureError {holds : Bool} {fault cause : Fault} (failed : ensure holds fault = .error cause) : cause = fault := by
  cases holds with
  | false => cases failed; rfl
  | true => cases failed

end Wepuu.NodeApi
