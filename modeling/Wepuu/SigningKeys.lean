import Wepuu.Outbox
import Wepuu.NodeApi

/-! oauth.signing_key_metadata: publish, the activation of migration 009, revocation with
its event for every active site, and retirement. -/
namespace Wepuu.SigningKeys
open NodeApi Outbox Relational Schema

structure NewKey where
  kid : KeyId
  custodyProvider : CustodyProvider
  custodyReference : String
  publicJwk : ProviderPayload
  publishedAt : Time
  deriving DecidableEq, Repr

/- A comparison with a member that is missing is null, and a check takes null for true. -/
def publicRsaJwk (jwk : ProviderPayload) : Bool :=
  (memberText jwk "kty").all (· == "RSA") && (memberText jwk "alg").all (· == "RS256") &&
  (memberText jwk "use").all (· == "sig") &&
  ["d","p","q","dp","dq","qi","oth"].all fun field => (member jwk field).isNone

def publish (input : NewKey) (db : Db) : Except Fault Db := do
  ensure (opaqueId input.kid && publicRsaJwk input.publicJwk) .checkViolation
  let keys ← orFail .uniqueViolation (insertRow (fun a b => a.kid == b.kid)
    ⟨input.kid,input.custodyProvider,input.custodyReference,input.publicJwk,.published,
      input.publishedAt,none,none,none⟩ db.signingKeys)
  .ok { db with signingKeys := keys }

def activatable (target : KeyId) (observedAt : Time) (k : SigningKey) : Bool :=
  k.kid == target && k.status == .published && k.custodyProvider == .localPkcs8 &&
  decide (k.publishAt ≤ observedAt - minutes 20)

def activateSigningKey (target : KeyId) (observedAt : Time) (db : Db) : Db × Bool :=
  let current := (db.signingKeys.find? fun k => k.status == .active).map (·.kid)
  if current == some target || !db.signingKeys.any (activatable target observedAt) then (db,false)
  else
    let retired := updateWhere (fun k => some k.kid == current && k.status == .active)
      (fun k => { k with status := .retiring, retireAt := some (observedAt + minutes 20) }) db.signingKeys
    ({ db with
      signingKeys := updateWhere (fun k => k.kid == target && k.status == .published)
        (fun k => { k with status := .active, activateAt := some observedAt }) retired },true)

/- FOR site IN SELECT … WHERE status = 'active': one key event a site. -/
def announceKey (target : KeyId) (now : Time) : List Site → Db → Except Fault Db
  | [], db => .ok db
  | s :: rest, db => do
    let next ← insertEvent .raise ⟨s.tenantId,s.id,s.resourceUri,.key,none,some target,"key_revoked"⟩ now db
    announceKey target now rest next

def revokeSigningKey (target : KeyId) (observedAt now : Time) (db : Db) : Except Fault (Db × Bool) :=
  let chosen := fun k : SigningKey => k.kid == target && k.status != .revoked
  if db.signingKeys.any chosen then do
    let next ← announceKey target now (db.sites.filter fun s => s.status == .active)
      { db with
        signingKeys := updateWhere chosen
          (fun k => { k with status := .revoked, revokeAt := some observedAt }) db.signingKeys }
    .ok (next,true)
  else .ok (db,false)

def retire (target : KeyId) (observedAt : Time) (db : Db) : Db × Bool :=
  let chosen := fun k : SigningKey => k.kid == target && k.status == .retiring &&
    (match k.retireAt with
      | some at_ => decide (at_ ≤ observedAt)
      | none => false)
  ({ db with
    signingKeys := updateWhere chosen
      (fun k => { k with status := .revoked, revokeAt := some observedAt }) db.signingKeys },
    db.signingKeys.countP chosen == 1)

end Wepuu.SigningKeys
