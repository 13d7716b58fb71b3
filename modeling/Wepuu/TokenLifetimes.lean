import Mathlib.Algebra.Group.Int.Defs
import Wepuu.Artifacts
import Wepuu.JsValues
import Wepuu.Runs

/-! refreshTokenTtl of the provider, the expiry its adapter stores and the rotations of a
refresh token. A token is issued in the second in which its predecessor is consumed. -/
namespace Wepuu.TokenLifetimes
open Artifacts JsValues NodeApi Outbox Relational Runs Schema

def refreshInactivitySeconds : Int := 30 * 24 * 60 * 60
def refreshAbsoluteSeconds : Int := 90 * 24 * 60 * 60

def isSafeInteger (value : Int) : Bool := decide (-(2 ^ 53 - 1) ≤ value) && decide (value ≤ 2 ^ 53 - 1)

def initialIssuedAt (iiat : JsValue) (nowSeconds : Int) : Int := match iiat with
  | .int value => if isSafeInteger value then value else nowSeconds
  | _ => nowSeconds

/- A reading of Date.now() is far below 2^53 seconds, so the sum is exact wherever it decides. -/
def refreshTokenTtl (iiat : JsValue) (nowSeconds : Int) : Int :=
  let absoluteRemaining := initialIssuedAt iiat nowSeconds + refreshAbsoluteSeconds - nowSeconds
  if absoluteRemaining ≤ 0 then 1 else min refreshInactivitySeconds absoluteRemaining

abbrev Reading := { t : Time // seconds (-8640000000000) ≤ t ∧ t ≤ seconds 8640000000000 }

/- Math.floor(Date.now() / 1_000) -/
def nowSeconds (dateNow : Reading) : Int := dateNow.val / seconds 1

theorem readingSafe (dateNow : Reading) : isSafeInteger (nowSeconds dateNow) = true := by
  obtain ⟨t,low,high⟩ := dateNow
  unfold seconds Time at *
  have above : -(2 ^ 53 - 1) ≤ t / (1 * 1000000) := by omega
  have below : t / (1 * 1000000) ≤ 2 ^ 53 - 1 := by omega
  exact Bool.and_eq_true_iff.mpr ⟨decide_eq_true above,decide_eq_true below⟩

section Lifetimes
variable {iiat : JsValue} {n : Int}

theorem ttlPositive : 1 ≤ refreshTokenTtl iiat n := by
  simp only [refreshTokenTtl,refreshInactivitySeconds]
  split <;> omega

theorem ttlInactivity : refreshTokenTtl iiat n ≤ refreshInactivitySeconds := by
  simp only [refreshTokenTtl,refreshInactivitySeconds]
  split <;> omega

/- Before the absolute end the lifetime reaches it at most; from then on a token is
issued for one second. -/
theorem ttlAbsolute (early : n < initialIssuedAt iiat n + refreshAbsoluteSeconds) :
    n + refreshTokenTtl iiat n ≤ initialIssuedAt iiat n + refreshAbsoluteSeconds := by
  simp only [refreshTokenTtl]
  split <;> omega

theorem ttlLate (late : initialIssuedAt iiat n + refreshAbsoluteSeconds ≤ n) : refreshTokenTtl iiat n = 1 := by
  simp only [refreshTokenTtl]
  rw [if_pos (by omega)]

end Lifetimes

structure RefreshToken where
  iiat : JsValue
  issuedAt : Int

def expiresAt (token : RefreshToken) : Int := token.issuedAt + refreshTokenTtl token.iiat token.issuedAt

/- iiat is the second of the first token of the chain, and every successor keeps it. -/
def issued (dateNow : Reading) : RefreshToken := ⟨.int (nowSeconds dateNow),nowSeconds dateNow⟩
def rotated (token : RefreshToken) (consumedAt : Reading) : RefreshToken := ⟨token.iiat,nowSeconds consumedAt⟩

theorem storedExpiry {node : Node} {adapter : OidcAdapter} {id : String} {payload : ProviderPayload}
    {token : RefreshToken} {dateNow : Reading} {db next : Db} (refresh : refreshModel adapter = true)
    (issuedNow : token.issuedAt = nowSeconds dateNow)
    (ok : upsert node adapter id payload (some (refreshTokenTtl token.iiat token.issuedAt)) dateNow.val db = .ok next) :
    ∀ a ∈ next.secretArtifacts, a ∈ db.secretArtifacts ∨
      ∃ at_, a.expiresAt = some at_ ∧ at_ / seconds 1 = expiresAt token := by
  have secret : secretModel adapter = true := by
    rw [secretModel,eq_of_beq refresh]
    decide
  rw [upsert,if_pos secret] at ok
  obtain ⟨lookup,-,written⟩ := bindOk.mp ok
  obtain ⟨-,-,checked⟩ := bindOk.mp written
  obtain ⟨-,-,last⟩ := bindOk.mp checked
  cases last
  have second : (dateNow.val + seconds (refreshTokenTtl token.iiat token.issuedAt)) / seconds 1 = expiresAt token := by
    simp only [expiresAt,issuedNow,nowSeconds,seconds]
    unfold Time at *
    omega
  intro a mem
  rcases memUpsertRow mem with old | rfl | ⟨_,-,-,rfl⟩
  · exact .inl old
  · exact .inr ⟨_,rfl,second⟩
  · exact .inr ⟨_,rfl,second⟩

def live (token : RefreshToken) (consumedAt : Reading) : Prop := consumedAt.val < seconds (expiresAt token)
instance (token consumedAt) : Decidable (live token consumedAt) := by
  unfold live; infer_instance

structure Within (first : Int) (token : RefreshToken) : Prop where
  iiat : token.iiat = .int first
  safe : isSafeInteger first = true
  early : token.issuedAt < first + refreshAbsoluteSeconds

theorem withinIssued (dateNow : Reading) : Within (nowSeconds dateNow) (issued dateNow) where
  iiat := rfl
  safe := readingSafe dateNow
  early := by
    simp only [issued,refreshAbsoluteSeconds]
    omega

section Chains
variable {first : Int} {token : RefreshToken}

theorem withinInitial (within : Within first token) : initialIssuedAt token.iiat token.issuedAt = first := by
  simp [initialIssuedAt,within.iiat,within.safe]

theorem withinExpiry (within : Within first token) : expiresAt token ≤ first + refreshAbsoluteSeconds := by
  have initial := withinInitial within
  have early : token.issuedAt < initialIssuedAt token.iiat token.issuedAt + refreshAbsoluteSeconds := by
    rw [initial]
    exact within.early
  have bound := ttlAbsolute early
  rw [initial] at bound
  exact bound

theorem secondBefore {at_ : Reading} {second : Int} (before : at_.val < seconds second) : nowSeconds at_ < second := by
  simp only [nowSeconds,seconds] at before ⊢
  unfold Time at *
  omega

theorem withinRotated (within : Within first token) {consumedAt : Reading} (consumed : live token consumedAt) :
    Within first (rotated token consumedAt) where
  iiat := within.iiat
  safe := within.safe
  early := Int.lt_of_lt_of_le (secondBefore consumed) (withinExpiry within)

end Chains

def chain (token : RefreshToken) : List Reading → List RefreshToken
  | [] => [token]
  | consumedAt :: rest => token :: chain (rotated token consumedAt) rest

theorem withinChain {first : Int} {token : RefreshToken} {instants : List Reading} (within : Within first token)
    (consumed : Guarded rotated live token instants) : ∀ t ∈ chain token instants, Within first t := by
  induction instants generalizing token with
  | nil =>
    intro t mem
    rw [List.mem_singleton.mp mem]
    exact within
  | cons at_ rest ih =>
    intro t mem
    rcases List.mem_cons.mp mem with rfl | later
    · exact within
    · exact ih (withinRotated within consumed.1) consumed.2 t later

theorem chainBounded (start : Reading) (instants : List Reading)
    (consumed : Guarded rotated live (issued start) instants) :
    ∀ token ∈ chain (issued start) instants,
      expiresAt token ≤ token.issuedAt + refreshInactivitySeconds ∧
      expiresAt token ≤ nowSeconds start + refreshAbsoluteSeconds := by
  intro token mem
  have within := withinChain (withinIssued start) consumed token mem
  have inactivity : refreshTokenTtl token.iiat token.issuedAt ≤ refreshInactivitySeconds := ttlInactivity
  refine ⟨?_,withinExpiry within⟩
  unfold expiresAt
  omega

/- Four rotations of a token issued in second 1000, the last just before the absolute end. -/
def reading (t : Time) (fits : seconds (-8640000000000) ≤ t ∧ t ≤ seconds 8640000000000 := by decide) : Reading :=
  ⟨t,fits⟩

def monthly : List Reading :=
  [reading (seconds (1000 + 29 * 24 * 60 * 60)),reading (seconds (1000 + 58 * 24 * 60 * 60)),
    reading (seconds (1000 + 87 * 24 * 60 * 60)),reading (seconds (1000 + 90 * 24 * 60 * 60) - 1)]

theorem monthlyBounded :
    Guarded rotated live (issued (reading (seconds 1000))) monthly ∧
    ∀ token ∈ chain (issued (reading (seconds 1000))) monthly,
      expiresAt token ≤ token.issuedAt + refreshInactivitySeconds ∧
      expiresAt token ≤ 1000 + refreshAbsoluteSeconds :=
  have consumed : Guarded rotated live (issued (reading (seconds 1000))) monthly := by decide
  ⟨consumed,chainBounded _ _ consumed⟩

end Wepuu.TokenLifetimes
