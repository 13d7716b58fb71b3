import Wepuu.Grants

/-! oauth.secret_artifacts and oauth.provider_artifacts: SecretArtifactCodec, the rate
limiter of migration 005 and PostgresOidcAdapter. A method of the adapter is one
transaction; Date.now() and now() are separate arguments. -/
namespace Wepuu.Artifacts
open Grants NodeApi Outbox Relational Schema

structure SecretArtifactCodec where
  keys : List Key
  rotationSet : 1 ≤ keys.length ∧ keys.length ≤ 2 ∧ ∀ key ∈ keys, 32 ≤ key.length
  deriving DecidableEq, Repr

def secretArtifactCodec (keys : List Key) : Except Fault SecretArtifactCodec :=
  if valid : 1 ≤ keys.length ∧ keys.length ≤ 2 ∧ ∀ key ∈ keys, 32 ≤ key.length then .ok ⟨keys,valid⟩
  else .error (.thrown "oauth_artifact_key_rotation_set_required")

structure SecretArtifactLookup where
  version : Nat
  digest : Digest
  deriving DecidableEq, Repr

/- Newest first: the first of n keys has version n, the last has version 1. -/
def versionedFrom : List Key → List (Nat × Key)
  | [] => []
  | key :: rest => (rest.length + 1,key) :: versionedFrom rest

def artifactValue (value : String) : Bool :=
  decide (8 ≤ utf16Length value) && decide (utf16Length value ≤ 4096)

def current (node : Node) (codec : SecretArtifactCodec) (value : String) : Except Fault SecretArtifactLookup :=
  match versionedFrom codec.keys with
  | [] => .error (.thrown "invalid_oauth_artifact")
  | (version,key) :: _ =>
    if artifactValue value then .ok ⟨version,node.hmacSha256 key value⟩
    else .error (.thrown "invalid_oauth_artifact")

def candidates (node : Node) (codec : SecretArtifactCodec) (value : String) : List SecretArtifactLookup :=
  if artifactValue value then
    (versionedFrom codec.keys).map fun (version,key) => ⟨version,node.hmacSha256 key value⟩
  else []

structure RateLimitSubjectCodec where
  key : Key
  length : 32 ≤ key.length

def RateLimitSubjectCodec.digest (node : Node) (codec : RateLimitSubjectCodec) (policy subject : String) :
    Except Fault Digest :=
  if policyShape policy && decide (1 ≤ utf16Length subject) && decide (utf16Length subject ≤ 2048) then
    .ok (node.hmacSha256 codec.key (policy ++ "\x00" ++ subject))
  else .error (.thrown "invalid_rate_limit_subject")

def bucketAt (policy : String) (subject : Digest) (windowStart : Time) (b : RateLimitBucket) : Bool :=
  b.policy == policy && b.subjectHash == subject && b.windowStartedAt == windowStart

def windowStart (windowSeconds : Int) (observedAt : Time) : Time :=
  observedAt / seconds windowSeconds * seconds windowSeconds

def consumeRateLimit (policy : String) (subject : Digest) (limit windowSeconds : Int) (observedAt : Time)
    (db : Db) : Db × Bool :=
  if policyShape policy && decide (subject.length = 32) && decide (1 ≤ limit) && decide (limit ≤ 10000) &&
      decide (1 ≤ windowSeconds) && decide (windowSeconds ≤ 3600) then
    let start := windowStart windowSeconds observedAt
    match db.rateLimitBuckets.find? (bucketAt policy subject start) with
    | none =>
      ({ db with
          rateLimitBuckets :=
            db.rateLimitBuckets ++ [⟨policy,subject,start,1,start + seconds (windowSeconds * 2)⟩] },true)
    | some bucket =>
      if bucket.counter < limit then
        ({ db with
            rateLimitBuckets := updateWhere (bucketAt policy subject start)
              (fun b => { b with counter := b.counter + 1 }) db.rateLimitBuckets },true)
      else (db,false)
  else (db,false)

def setMember (payload : ProviderPayload) (field : String) (value : JsonValue) : ProviderPayload :=
  if (member payload field).isSome then payload.map fun p => if p.1 == field then (field,value) else p
  else payload ++ [(field,value)]
def dropMember (payload : ProviderPayload) (field : String) : ProviderPayload :=
  payload.filter fun p => p.1 != field

/- payload['tenantId'] ?? payload['tenant_id'], when it is a nonempty string. -/
def payloadTenantId (payload : ProviderPayload) : Option String :=
  let first := (member payload "tenantId").filter (· != .null)
  match first.or (member payload "tenant_id") with
  | some (.str tenant) => if tenant.isEmpty then none else some tenant
  | _ => none

def storedTenant (payload : ProviderPayload) : Option TenantId := (payloadTenantId payload).bind uuidIn
def tenantRead (payload : ProviderPayload) : Bool := (payloadTenantId payload).all fun text => (uuidIn text).isSome

def secretArtifactModels : List String :=
  ["AccessToken","AuthorizationCode","BackchannelAuthenticationRequest","DeviceCode","InitialAccessToken",
    "PushedAuthorizationRequest","RefreshToken","RegistrationAccessToken"]

inductive GrantRevocationReason where | refreshReplay | tokenRevoked deriving DecidableEq, Repr

def GrantRevocationReason.text : GrantRevocationReason → String
  | .refreshReplay => "refresh_replay"
  | .tokenRevoked => "token_revoked"

structure OidcAdapter where
  model : String
  codec : SecretArtifactCodec
  rateLimitCodec : Option RateLimitSubjectCodec

def secretModel (adapter : OidcAdapter) : Bool := secretArtifactModels.contains adapter.model
def refreshModel (adapter : OidcAdapter) : Bool := adapter.model == "RefreshToken"

def unexpired (now : Time) (expiresAt : Option Time) : Bool := match expiresAt with
  | none => true
  | some at_ => decide (now < at_)

def atLookup (model : String) (lookup : SecretArtifactLookup) (a : SecretArtifact) : Bool :=
  a.model == model && a.lookupVersion == lookup.version && a.artifactHash == lookup.digest
def providerAt (model id : String) (a : ProviderArtifact) : Bool := a.model == model && a.artifactId == id

def storedSecret (adapter : OidcAdapter) (lookup : SecretArtifactLookup) (payload : ProviderPayload)
    (expiresAt : Option Time) : SecretArtifact :=
  ⟨adapter.model,lookup.version,lookup.digest,storedTenant payload,dropMember payload "jti",expiresAt,none⟩

def upsert (node : Node) (adapter : OidcAdapter) (id : String) (payload : ProviderPayload)
    (expiresIn : Option Int) (dateNow : Time) (db : Db) : Except Fault Db :=
  let expiresAt := expiresIn.map fun s => dateNow + seconds s
  if secretModel adapter then do
    let lookup ← current node adapter.codec id
    ensure (tenantRead payload) .invalidTextRepresentation
    let row := storedSecret adapter lookup payload expiresAt
    ensure row.check .checkViolation
    .ok { db with secretArtifacts := upsertRow secretClash row (fun _ => row) db.secretArtifacts }
  else do
    ensure (tenantRead payload) .invalidTextRepresentation
    let row : ProviderArtifact := ⟨adapter.model,id,storedTenant payload,payload,expiresAt⟩
    .ok { db with
      providerArtifacts := upsertRow (fun a b => a.model == b.model && a.artifactId == b.artifactId) row
        (fun _ => row) db.providerArtifacts }

/- { ...payload, jti: id, consumed } -/
def presented (id : String) (a : SecretArtifact) : ProviderPayload :=
  let named := setMember a.payload "jti" (.str id)
  match a.consumedAt with
  | none => named
  | some at_ => setMember named "consumed" (.num (toString (at_ / seconds 1)))

def find (node : Node) (adapter : OidcAdapter) (id : String) (now : Time) (db : Db) : Option ProviderPayload :=
  if secretModel adapter then
    (candidates node adapter.codec id).findSome? fun lookup =>
      (db.secretArtifacts.find? fun a => atLookup adapter.model lookup a && unexpired now a.expiresAt).map
        (presented id)
  else
    (db.providerArtifacts.find? fun a => providerAt adapter.model id a && unexpired now a.expiresAt).map (·.payload)

def destroy (node : Node) (adapter : OidcAdapter) (id : String) (db : Db) : Db :=
  if secretModel adapter then
    { db with
      secretArtifacts := deleteWhere
        (fun a => (candidates node adapter.codec id).any fun lookup => atLookup adapter.model lookup a)
        db.secretArtifacts }
  else { db with providerArtifacts := deleteWhere (providerAt adapter.model id) db.providerArtifacts }

inductive ConsumeOutcome where | consumed | missing | rateLimited | replay deriving DecidableEq, Repr

/- What consume throws after its transaction has committed. -/
def ConsumeOutcome.fault : ConsumeOutcome → Option Fault
  | .consumed => none
  | .rateLimited => some (.thrown "refresh_family_rate_limited")
  | .replay => some (.thrown "invalid_grant")
  | .missing => some (.thrown "oauth_artifact_already_consumed")

def consumable (model : String) (lookup : SecretArtifactLookup) (now : Time) (a : SecretArtifact) : Bool :=
  atLookup model lookup a && a.consumedAt.isNone && unexpired now a.expiresAt

def consumeAt (model : String) (lookup : SecretArtifactLookup) (now : Time) (db : Db) : Db :=
  { db with
    secretArtifacts := updateWhere (consumable model lookup now)
      (fun a => { a with consumedAt := some now }) db.secretArtifacts }

/- The first loop: one probe and one conditional update a key version. -/
def consumeLookups (node : Node) (adapter : OidcAdapter) (now : Time) :
    List SecretArtifactLookup → Db → Except Fault (Db × Option ConsumeOutcome)
  | [], db => .ok (db,none)
  | lookup :: rest, db =>
    match db.secretArtifacts.find? (consumable adapter.model lookup now) with
    | none => consumeLookups node adapter now rest db
    | some stored =>
      if refreshModel adapter then
        match member stored.payload "grantId", adapter.rateLimitCodec with
        | some (.str grantId), some subjects => do
          let subject ← subjects.digest node "oauth.refresh_family" grantId
          let limited := consumeRateLimit "oauth.refresh_family" subject 10 60 now db
          if limited.2 then .ok (consumeAt adapter.model lookup now limited.1,some .consumed)
          else .ok (limited.1,some .rateLimited)
        | _, _ => .ok (db,some .rateLimited)
      else .ok (consumeAt adapter.model lookup now db,some .consumed)

/- The second loop: a consumed artifact with a grant is a replay. -/
def replayLookups (adapter : OidcAdapter) (now : Time) :
    List SecretArtifactLookup → Db → Except Fault (Db × ConsumeOutcome)
  | [], db => .ok (db,.missing)
  | lookup :: rest, db =>
    match (db.secretArtifacts.find? fun a => atLookup adapter.model lookup a && a.consumedAt.isSome).bind
        (fun a => memberText a.payload "grantId") with
    | some grantId => do
      let (next,_) ← revokeRefreshGrant grantId now "refresh_replay" now db
      .ok (next,.replay)
    | none => replayLookups adapter now rest db

def consume (node : Node) (adapter : OidcAdapter) (id : String) (dateNow now : Time)
    (db : Db) : Except Fault (Db × ConsumeOutcome) :=
  if secretModel adapter then do
    let (next,outcome) ← consumeLookups node adapter now (candidates node adapter.codec id) db
    match outcome with
    | some outcome => .ok (next,outcome)
    | none =>
      if refreshModel adapter then replayLookups adapter now (candidates node adapter.codec id) next
      else .ok (next,.missing)
  else
    let chosen := fun a : ProviderArtifact => providerAt adapter.model id a && (member a.payload "consumed").isNone
    .ok ({ db with
        providerArtifacts := updateWhere chosen
          (fun a => { a with payload := setMember a.payload "consumed" (.num (toString (dateNow / seconds 1))) })
          db.providerArtifacts },
      if db.providerArtifacts.countP chosen == 1 then .consumed else .missing)

def revokePlatformGrant (adapter : OidcAdapter) (reason : GrantRevocationReason) (grantId : GrantId) (now : Time)
    (db : Db) : Except Fault (Db × Bool) :=
  if refreshModel adapter then revokeRefreshGrant grantId now reason.text now db else .ok (db,false)

def revokeByGrantId (adapter : OidcAdapter) (reason : GrantRevocationReason) (grantId : GrantId) (now : Time)
    (db : Db) : Except Fault Db := do
  let (revoked,_) ← revokePlatformGrant adapter reason grantId now db
  .ok { revoked with
    secretArtifacts := deleteWhere (fun a => memberText a.payload "grantId" == some grantId)
      revoked.secretArtifacts
    providerArtifacts := deleteWhere (fun a => memberText a.payload "grantId" == some grantId)
      revoked.providerArtifacts }

end Wepuu.Artifacts
