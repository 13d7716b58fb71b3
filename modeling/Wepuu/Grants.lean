import Wepuu.Outbox
import Wepuu.Tenancy

/-! platform.grants: PostgresGrantRepository and the SQL functions of migration 005 that
revoke grants. A repository method runs under the policies of its tenant context; the SQL
functions are SECURITY DEFINER and check the context themselves. -/
namespace Wepuu.Grants
open NodeApi Outbox Relational Schema Tenancy

structure NewPendingGrant where
  tenantId : TenantId
  id : GrantId
  siteId : SiteId
  subjectId : AccountId
  clientId : ClientId
  scopes : List McpScope
  resource : String
  challengeHash : Digest
  expiresAt : Time
  consentVersion : String
  idempotencyKey : String
  requestDigest : Digest
  createdAt : Time
  deriving DecidableEq, Repr

structure CreatedGrant where
  id : GrantId
  createdAt : Time
  expiresAt : Time
  deriving DecidableEq, Repr

def pendingGrant (record : NewPendingGrant) : Grant where
  tenantId := record.tenantId
  id := record.id
  siteId := record.siteId
  subjectId := record.subjectId
  clientId := record.clientId
  scopes := record.scopes
  consentChallengeHash := record.challengeHash
  consentExpiresAt := record.expiresAt
  status := .pending
  consentVersion := record.consentVersion
  createdAt := record.createdAt
  revokedAt := none
  revocationReason := none

def insertIdempotency (context : TenantContext) (row : IdempotencyRecord) (db : Db) : Except Fault Db := do
  ensure (idempotencyTenantAccess context db row) .insufficientPrivilege
  ensure row.check .checkViolation
  let rows ← orFail .uniqueViolation (insertRow idempotencyClash row db.idempotencyRecords)
  ensure (db.hasTenant row.tenantId) .foreignKeyViolation
  .ok { db with idempotencyRecords := rows }

/- The join of the visible record with the visible grant it refers to. -/
def priorCreation (context : TenantContext) (tenant : TenantId) (key : String) (db : Db) :
    Option (IdempotencyRecord × Grant) :=
  db.idempotencyRecords.findSome? fun r =>
    if r.tenantId == tenant && r.operation == .grantCreate && r.idempotencyKey == key &&
        idempotencyTenantAccess context db r then
      (db.grants.find? fun g => g.tenantId == r.tenantId && g.id == r.resultReference &&
        grantTenantAccess context db g).map fun g => (r,g)
    else none

def activeSiteFor (context : TenantContext) (record : NewPendingGrant) (db : Db) : Bool :=
  db.sites.any fun s => s.tenantId == record.tenantId && s.id == record.siteId &&
    s.resourceUri == record.resource && s.status == .active && siteTenantSelect context db s

def creationRecord (record : NewPendingGrant) : IdempotencyRecord :=
  ⟨record.tenantId,.grantCreate,record.idempotencyKey,record.requestDigest,record.id⟩

def createPending (context : TenantContext) (record : NewPendingGrant) (db : Db) :
    Except Fault (Db × CreatedGrant) :=
  match priorCreation context record.tenantId record.idempotencyKey db with
  | some (prior,g) =>
    if prior.requestDigest = record.requestDigest then
      .ok (db,⟨prior.resultReference,g.createdAt,g.consentExpiresAt⟩)
    else .error (.thrown "idempotency_conflict")
  | none => do
    ensure (activeSiteFor context record db) (.thrown "active_site_not_found")
    ensure (grantTenantAccess context db (pendingGrant record)) .insufficientPrivilege
    ensure (pendingGrant record).check .checkViolation
    let grants ← orFail .uniqueViolation (insertRow grantClash (pendingGrant record) db.grants)
    ensure (db.hasTenant record.tenantId) .foreignKeyViolation
    let next ← insertIdempotency context (creationRecord record) { db with grants := grants }
    .ok (next,⟨record.id,record.createdAt,record.expiresAt⟩)

theorem insertIdempotencyExact {context row db next} (ok : insertIdempotency context row db = .ok next) :
    idempotencyTenantAccess context db row = true ∧ row.check = true ∧
    (∀ r ∈ db.idempotencyRecords, idempotencyClash row r = false) ∧ db.hasTenant row.tenantId = true ∧
    next = { db with idempotencyRecords := db.idempotencyRecords ++ [row] } := by
  simp only [insertIdempotency,bindOk,ensureOk,orFailOk] at ok
  obtain ⟨_,access,_,checked,rows,hr,_,tenant,last⟩ := ok
  cases last
  obtain ⟨free,rfl⟩ := insertRowExact.mp hr
  exact ⟨access,checked,free,tenant,rfl⟩

theorem createPendingCases {context record db next out}
    (ok : createPending context record db = .ok (next,out)) :
    (∃ prior g, priorCreation context record.tenantId record.idempotencyKey db = some (prior,g) ∧
      prior.requestDigest = record.requestDigest ∧ next = db ∧
      out = ⟨prior.resultReference,g.createdAt,g.consentExpiresAt⟩) ∨
    (activeSiteFor context record db = true ∧
      (∀ g ∈ db.grants, grantClash (pendingGrant record) g = false) ∧
      next = { db with
        grants := db.grants ++ [pendingGrant record]
        idempotencyRecords := db.idempotencyRecords ++ [creationRecord record] } ∧
      priorCreation context record.tenantId record.idempotencyKey db = none ∧
      out = ⟨record.id,record.createdAt,record.expiresAt⟩ ∧
      idempotencyTenantAccess context db (creationRecord record) = true ∧
      ∀ r ∈ db.idempotencyRecords, idempotencyClash (creationRecord record) r = false) := by
  unfold createPending at ok
  split at ok
  · rename_i prior g found
    split at ok <;> cases ok
    exact .inl ⟨prior,g,found,‹_›,rfl,rfl⟩
  · rename_i absent
    simp only [bindOk,ensureOk,orFailOk] at ok
    obtain ⟨_,active,_,_,_,_,grants,hg,_,_,recorded,hr,last⟩ := ok
    cases last
    obtain ⟨free,rfl⟩ := insertRowExact.mp hg
    obtain ⟨access,_,unused,_,rfl⟩ := insertIdempotencyExact hr
    exact .inr ⟨active,free,rfl,absent,rfl,access,unused⟩

structure PendingGrantRecord where
  tenantId : TenantId
  id : GrantId
  siteId : SiteId
  subjectId : AccountId
  clientId : ClientId
  scopes : List McpScope
  resource : String
  publicJwk : SitePublicJwk
  challengeHash : Digest
  expiresAt : Time
  completionReplay : Bool
  deriving DecidableEq, Repr

def completionRecord (context : TenantContext) (tenant : TenantId) (key : String) (db : Db) :
    Option IdempotencyRecord :=
  db.idempotencyRecords.find? fun r => r.tenantId == tenant && r.operation == .grantComplete &&
    r.idempotencyKey == key && idempotencyTenantAccess context db r

/- The left join also asks the record to refer to this grant. -/
def completionReplay (context : TenantContext) (g : Grant) (key : String) (db : Db) : Bool :=
  (completionRecord context g.tenantId key db).any fun r => r.resultReference == g.id

def findPending (context : TenantContext) (tenant : TenantId) (grantId : GrantId) (key : String)
    (db : Db) : Except Fault (Option PendingGrantRecord) :=
  let row := db.grants.findSome? fun g =>
    if g.tenantId == tenant && g.id == grantId && grantTenantAccess context db g &&
        (g.status == .pending || completionReplay context g key db) then
      (db.sites.find? fun s => s.tenantId == g.tenantId && s.id == g.siteId && s.status == .active &&
        siteTenantSelect context db s).map fun s => (g,s)
    else none
  match row with
  | none => .ok none
  | some (g,s) =>
    if scopeSet g.scopes then
      .ok (some ⟨g.tenantId,g.id,g.siteId,g.subjectId,g.clientId,g.scopes,s.resourceUri,s.publicJwk,
        g.consentChallengeHash,g.consentExpiresAt,completionReplay context g key db⟩)
    else .error (.thrown "ZodError")

/- activate and deny differ in the columns they set. -/
def pendingTarget (context : TenantContext) (tenant : TenantId) (grantId : GrantId) (now : Time)
    (db : Db) (g : Grant) : Bool :=
  g.tenantId == tenant && g.id == grantId && g.status == .pending &&
  decide (now < g.consentExpiresAt) && grantTenantAccess context db g

def settleConsent (outcome : Grant → Grant) (context : TenantContext) (tenant : TenantId)
    (grantId : GrantId) (key : String) (digest : Digest) (now : Time) (db : Db) : Except Fault Db :=
  match completionRecord context tenant key db with
  | some prior =>
    if prior.requestDigest = digest ∧ prior.resultReference = grantId then .ok db
    else .error (.thrown "idempotency_conflict")
  | none => do
    ensure (db.grants.countP (pendingTarget context tenant grantId now db) == 1)
      (.thrown "grant_completion_replay")
    insertIdempotency context ⟨tenant,.grantComplete,key,digest,grantId⟩
      { db with grants := updateWhere (pendingTarget context tenant grantId now db) outcome db.grants }

def completionDigest (node : Node) (grantId : GrantId) (proofThumbprint : String) : Digest :=
  node.sha256 (grantId ++ "\x00" ++ proofThumbprint)

def approvedGrant (g : Grant) : Grant := { g with status := .active }
def deniedGrant (now : Time) (g : Grant) : Grant :=
  { g with status := .revoked, revokedAt := some now, revocationReason := some "consent_denied" }

def activate (node : Node) (context : TenantContext) (tenant : TenantId) (grantId : GrantId)
    (key proofThumbprint : String) (now : Time) (db : Db) : Except Fault Db :=
  settleConsent approvedGrant context tenant grantId key (completionDigest node grantId proofThumbprint) now db

def deny (node : Node) (context : TenantContext) (tenant : TenantId) (grantId : GrantId)
    (key proofThumbprint : String) (now : Time) (db : Db) : Except Fault Db :=
  settleConsent (deniedGrant now) context tenant grantId key
    (completionDigest node grantId proofThumbprint) now db

def repositoryTarget (context : TenantContext) (tenant : TenantId) (grantId : GrantId)
    (db : Db) (g : Grant) : Bool :=
  g.tenantId == tenant && g.id == grantId && g.live && grantTenantAccess context db g

def revoke (context : TenantContext) (tenant : TenantId) (grantId : GrantId) (reason : String)
    (now : Time) (db : Db) : Db × Bool :=
  let chosen := repositoryTarget context tenant grantId db
  ({ db with
      grants := updateWhere chosen (fun g => { g with
        status := .revoked, revokedAt := some now, revocationReason := some (sliceText 64 reason) }) db.grants },
    db.grants.countP chosen == 1)

/- SET status = 'revoked', revoked_at = COALESCE(revoked_at, …), revocation_reason = …. -/
def revokedGrant (reason : String) (at_ : Time) (g : Grant) : Grant :=
  { g with status := .revoked, revokedAt := some (g.revokedAt.getD at_), revocationReason := some reason }

def userTarget (context : TenantContext) (tenant : TenantId) (grantId : GrantId) (db : Db) (g : Grant) : Bool :=
  g.tenantId == tenant && g.id == grantId && g.live &&
  (g.subjectId == context.accountId || administers db tenant context.accountId)

def revokeGrantWithEvent (context : TenantContext) (tenant : TenantId) (grantId : GrantId)
    (now : Time) (db : Db) : Except Fault (Db × Bool) :=
  if tenant == context.tenantId && hasActiveMembership db tenant context.accountId then
    match db.grants.find? (userTarget context tenant grantId db) with
    | none => .ok (db,false)
    | some bound => do
      let site ← orFail .noDataFound (db.siteAt tenant bound.siteId)
      let next ← insertEvent .raise
        ⟨tenant,bound.siteId,site.resourceUri,.grant,some grantId,none,"platform_user_revoked"⟩ now
        { db with grants :=
            updateWhere (userTarget context tenant grantId db) (revokedGrant "platform_user_revoked" now) db.grants }
      .ok (next,true)
  else .ok (db,false)

def siteTarget (tenant : TenantId) (site : SiteId) (s : Site) : Bool :=
  s.tenantId == tenant && s.id == site && siteLive s
def liveAtSite (tenant : TenantId) (site : SiteId) (g : Grant) : Bool :=
  g.tenantId == tenant && g.siteId == site && g.live

def revokedSite (at_ : Time) (s : Site) : Site :=
  { s with status := .revoked, revokedAt := some (s.revokedAt.getD at_) }

def disconnectSiteWithEvent (context : TenantContext) (tenant : TenantId) (site : SiteId)
    (now : Time) (db : Db) : Except Fault (Db × Bool) :=
  if tenant == context.tenantId && administers db tenant context.accountId then
    match db.sites.find? (siteTarget tenant site) with
    | none => .ok (db,false)
    | some bound => do
      let next ← insertEvent .raise
        ⟨tenant,site,bound.resourceUri,.site,none,none,"site_disconnected"⟩ now
        { db with
          sites := updateWhere (siteTarget tenant site) (revokedSite now) db.sites
          grants := updateWhere (liveAtSite tenant site) (revokedGrant "site_disconnected" now) db.grants }
      .ok (next,true)
  else .ok (db,false)

def refreshArtifactOf (grantId : GrantId) (a : SecretArtifact) : Bool :=
  a.model == "RefreshToken" && memberText a.payload "grantId" == some grantId

def liveGrant (tenant : TenantId) (grantId : GrantId) (g : Grant) : Bool :=
  g.tenantId == tenant && g.id == grantId && g.live

/- Here a reason that is already there is kept. -/
def refreshRevokedGrant (reason : String) (at_ : Time) (g : Grant) : Grant :=
  { g with
    status := .revoked, revokedAt := some (g.revokedAt.getD at_)
    revocationReason := some (g.revocationReason.getD reason) }

def refreshRevoked (bound : Grant) (grantId : GrantId) (observedAt : Time) (reason : String) (db : Db) : Db :=
  { db with
    grants := updateWhere (liveGrant bound.tenantId bound.id) (refreshRevokedGrant reason observedAt) db.grants
    secretArtifacts := updateWhere (refreshArtifactOf grantId)
      (fun a => { a with expiresAt := some observedAt }) db.secretArtifacts }

def revokeRefreshGrant (grantId : GrantId) (observedAt : Time) (reason : String) (now : Time)
    (db : Db) : Except Fault (Db × Bool) :=
  match db.grants.find? (fun g => g.id == grantId) with
  | none => .ok (db,false)
  | some bound =>
    if db.grants.any (liveGrant bound.tenantId bound.id) then do
      let site ← orFail (raiseException "refresh_grant_site_missing") (db.siteAt bound.tenantId bound.siteId)
      let next ← insertEvent .doNothing
        ⟨bound.tenantId,bound.siteId,site.resourceUri,.grant,some bound.id,none,reason⟩ now
        (refreshRevoked bound grantId observedAt reason db)
      .ok (next,true)
    else .ok (refreshRevoked bound grantId observedAt reason db,true)

end Wepuu.Grants
