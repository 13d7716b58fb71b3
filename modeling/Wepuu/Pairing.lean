import Wepuu.Grants

/-! platform.pairing_attempts: the writes of PostgresPairingRepository. The proof's key
and thumbprint are what verifySiteProof hands over. -/
namespace Wepuu.Pairing
open Grants NodeApi Relational Schema Tenancy

structure NewAttempt where
  tenantId : TenantId
  id : String
  initiatorAccountId : AccountId
  resource : String
  verifierHash : Digest
  expiresAt : Time
  deriving DecidableEq, Repr

def httpsText (text : String) : Bool := text.toList.take 8 == "https://".toList

def createAttempt (context : TenantContext) (record : NewAttempt) (now : Time) (db : Db) : Except Fault Db := do
  let row : PairingAttempt := ⟨record.tenantId,record.id,record.initiatorAccountId,record.resource,
    record.verifierHash,.pending,record.expiresAt,none,none,none⟩
  ensure (pairingTenantAccess context db row) .insufficientPrivilege
  ensure (opaqueId row.id && httpsText row.proposedResource && decide (row.verifierHash.length = 32) &&
    decide (now < row.expiresAt)) .checkViolation
  let attempts ← orFail .uniqueViolation (insertRow attemptClash row db.pairingAttempts)
  ensure (db.hasTenant row.tenantId && db.hasAccount row.initiatorAccountId) .foreignKeyViolation
  .ok { db with pairingAttempts := attempts }

def attemptTarget (context : TenantContext) (tenant : TenantId) (attempt : String) (status : AttemptStatus)
    (db : Db) (a : PairingAttempt) : Bool :=
  a.tenantId == tenant && a.id == attempt && a.status == status && pairingTenantAccess context db a

def markVerifying (context : TenantContext) (tenant : TenantId) (attempt : String) (now : Time)
    (db : Db) : Db × Bool :=
  let chosen := fun a => attemptTarget context tenant attempt .pending db a && decide (now < a.expiresAt)
  ({ db with
      pairingAttempts := updateWhere chosen (fun a => { a with status := .verifying }) db.pairingAttempts },
    db.pairingAttempts.countP chosen == 1)

def fail (context : TenantContext) (tenant : TenantId) (attempt reason : String) (db : Db) : Db :=
  { db with
    pairingAttempts := updateWhere (attemptTarget context tenant attempt .verifying db)
      (fun a => { a with status := .failed, failureCode := some (sliceText 64 reason) }) db.pairingAttempts }

structure VerifiedKey where
  publicJwk : SitePublicJwk
  thumbprint : String
  deriving DecidableEq, Repr

structure PairedAttempt where
  tenantId : TenantId
  id : String
  resource : String
  deriving DecidableEq, Repr

def pairedSite (record : PairedAttempt) (proof : VerifiedKey) (site : SiteId) (hostname : String) : Site :=
  ⟨record.tenantId,site,record.resource,hostname,.active,proof.publicJwk,proof.thumbprint,none⟩

def siteCheck (s : Site) : Bool :=
  opaqueId s.id && httpsText s.resourceUri && decide (1 ≤ s.displayHostname.toList.length) &&
  decide (s.displayHostname.toList.length ≤ 253)

def pairingRecord (context : TenantContext) (tenant : TenantId) (key : String) (db : Db) :
    Option IdempotencyRecord :=
  db.idempotencyRecords.find? fun r => r.tenantId == tenant && r.operation == .pairingComplete &&
    r.idempotencyKey == key && idempotencyTenantAccess context db r

def complete (node : Node) (context : TenantContext) (record : PairedAttempt) (proof : VerifiedKey)
    (site : SiteId) (key : String) (now : Time) (db : Db) : Except Fault Db :=
  let digest := node.sha256 (record.id ++ "\x00" ++ site ++ "\x00" ++ proof.thumbprint)
  match pairingRecord context record.tenantId key db with
  | some prior =>
    if prior.requestDigest = digest ∧ prior.resultReference = site then .ok db
    else .error (.thrown "idempotency_conflict")
  | none => do
    let url ← orFail (.thrown "Invalid URL") (node.parseUrl record.resource)
    let row := pairedSite record proof site url.hostname
    ensure (siteTenantInsert context db row) .insufficientPrivilege
    ensure (siteCheck row) .checkViolation
    let sites ← orFail .uniqueViolation (insertRow siteClash row db.sites)
    ensure (db.hasTenant row.tenantId) .foreignKeyViolation
    let chosen := fun a => attemptTarget context record.tenantId record.id .verifying db a && decide (now < a.expiresAt)
    ensure (db.pairingAttempts.countP chosen == 1) (.thrown "pairing_replay")
    insertIdempotency context ⟨record.tenantId,.pairingComplete,key,digest,site⟩
      { db with
        sites := sites
        pairingAttempts := updateWhere chosen
          (fun a => { a with status := .active, consumedAt := some now, siteId := some site }) db.pairingAttempts }

end Wepuu.Pairing
