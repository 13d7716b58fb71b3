import Wepuu.Grants

/-! platform.deletion_jobs: begin_deletion_job and advance_deletion_job of migration 007.
The first advance revokes what is in scope, a later one purges it. -/
namespace Wepuu.Deletion
open Grants NodeApi Outbox Relational Schema

def scopeChar (c : Char) : Bool := opaqueChar c || c == '.' || c == ':'

def deletionRequest (jobId : JobId) (scopeId : String) (requestedBy : AccountId) : Bool :=
  matchesClass opaqueChar 16 128 jobId && matchesClass scopeChar 8 256 scopeId && opaqueId requestedBy

def addTombstones (rows : List DeletionTombstone) (db : Db) : Db :=
  { db with
    deletionTombstones := rows.foldl (fun kept row =>
      (insertRow (fun a b => a.jobId == b.jobId && a.objectKind == b.objectKind && a.objectId == b.objectId)
        row kept).getD kept) db.deletionTombstones }

/- An owner may go only when each tenant it owns has another active owner. -/
def ownerReplaced (account : AccountId) (db : Db) : Bool :=
  db.memberships.all fun owned =>
    !(owned.accountId == account && owned.role == .owner && owned.status == .active) ||
    db.memberships.any fun replacement =>
      replacement.tenantId == owned.tenantId && replacement.accountId != account &&
      replacement.role == .owner && replacement.status == .active

def admitScope (kind : ScopeKind) (scopeId : String) (tenantId : Option TenantId) (db : Db) : Except Fault Unit :=
  let missing : Fault := .raised "deletion_subject_missing" "P0002"
  match kind with
  | .account => do
    ensure (db.hasAccount scopeId) missing
    ensure (ownerReplaced scopeId db) (.raised "deletion_owner_transfer_required" "42501")
  | .tenant => ensure (some scopeId == tenantId && db.hasTenant scopeId) missing
  | .site => ensure (tenantId.any fun tenant => db.hasSite tenant scopeId) missing

def scopeTombstones (jobId : JobId) (kind : ScopeKind) (scopeId : String) (tenantId : Option TenantId)
    (db : Db) : List DeletionTombstone :=
  let grantRow := fun g : Grant => (⟨jobId,.grant,g.id,some g.tenantId⟩ : DeletionTombstone)
  match kind with
  | .account =>
    ⟨jobId,.account,scopeId,none⟩ ::
    ((db.memberships.filter fun m => m.accountId == scopeId).map fun m =>
      ⟨jobId,.membership,m.tenantId ++ ":" ++ m.accountId,some m.tenantId⟩) ++
    ((db.grants.filter fun g => g.subjectId == scopeId).map grantRow)
  | .tenant =>
    ⟨jobId,.tenant,scopeId,tenantId⟩ ::
    ((db.sites.filter fun s => some s.tenantId == tenantId).map fun s => ⟨jobId,.site,s.id,some s.tenantId⟩) ++
    ((db.grants.filter fun g => some g.tenantId == tenantId).map grantRow)
  | .site =>
    ⟨jobId,.site,scopeId,tenantId⟩ ::
    ((db.grants.filter fun g => some g.tenantId == tenantId && g.siteId == scopeId).map grantRow)

def beginDeletionJob (jobId : JobId) (kind : ScopeKind) (scopeId : String) (tenantId : Option TenantId)
    (requestedBy : AccountId) (db : Db) : Except Fault (Db × JobId) := do
  ensure (deletionRequest jobId scopeId requestedBy) (.raised "deletion_request_invalid" "22023")
  ensure (tenantId.isNone == (kind == .account)) (.raised "deletion_scope_invalid" "22023")
  if db.deletionJobs.any fun job => job.id == jobId then .ok (db,jobId)
  else do
    admitScope kind scopeId tenantId db
    let job : DeletionJob := ⟨jobId,kind,scopeId,tenantId,requestedBy,.pending,none,none,none,.empty⟩
    .ok (addTombstones (scopeTombstones jobId kind scopeId tenantId db)
      { db with deletionJobs := db.deletionJobs ++ [job] },jobId)

structure DeletionReport where
  jobId : JobId
  scope : Option (ScopeKind × String)
  status : JobStatus
  safeAfter : Option Time
  completedAt : Option Time
  failureCode : Option String
  counts : Option DeletionCounts
  deriving DecidableEq, Repr

def report (job : DeletionJob) : DeletionReport where
  jobId := job.id
  scope := some (job.scopeKind,job.scopeId)
  status := job.status
  safeAfter := if job.status = .failed then none else job.safeAfter
  completedAt := if job.status = .complete then job.completedAt else none
  failureCode := if job.status = .failed then job.failureCode else none
  counts := some job.counts

/- tenant_id = job.tenant_id AND (job.scope_kind = 'tenant' OR site_id = job.scope_id) -/
def inTenantScope (job : DeletionJob) (tenant : TenantId) (site : Option SiteId) : Bool :=
  some tenant == job.tenantId && (job.scopeKind == .tenant || site == some job.scopeId)

def grantAt (tenant : TenantId) (grantId : GrantId) (g : Grant) : Bool := g.tenantId == tenant && g.id == grantId
def siteIn (tenant : TenantId) (site : SiteId) (s : Site) : Bool := s.tenantId == tenant && s.id == site

/- FOR grant_row IN …: the cursor's rows are those before the loop. -/
def revokeSubjectGrants (observedAt now : Time) : List Grant → Db → Nat → Except Fault (Db × Nat)
  | [], db, events => .ok (db,events)
  | g :: rest, db, events =>
    let revoked := { db with
      grants := updateWhere (grantAt g.tenantId g.id) (revokedGrant "account_deleted" observedAt) db.grants }
    match revoked.siteAt g.tenantId g.siteId with
    | none => revokeSubjectGrants observedAt now rest revoked events
    | some site => do
      let next ← insertEvent .doNothing
        ⟨g.tenantId,g.siteId,site.resourceUri,.grant,some g.id,none,"account_deleted"⟩ now revoked
      revokeSubjectGrants observedAt now rest next (events + 1)

def siteGrant (tenant : TenantId) (site : SiteId) (g : Grant) : Bool :=
  g.tenantId == tenant && g.siteId == site && g.status != .revoked

def revokeSites (observedAt now : Time) : List Site → Db → Nat → Except Fault (Db × Nat)
  | [], db, events => .ok (db,events)
  | s :: rest, db, events => do
    let next ← insertEvent .doNothing ⟨s.tenantId,s.id,s.resourceUri,.site,none,none,"deletion_requested"⟩ now
      { db with sites := updateWhere (siteIn s.tenantId s.id) (revokedSite observedAt) db.sites }
    revokeSites observedAt now rest
      { next with
        grants := updateWhere (siteGrant s.tenantId s.id) (revokedGrant "deletion_requested" observedAt) next.grants }
      (events + 1)

def revokeAccount (job : DeletionJob) (observedAt now : Time) (db : Db) : Except Fault (Db × Nat × Nat) := do
  let open_ := fun session : AccountSession => session.accountId == job.scopeId && session.revokedAt.isNone
  let (next,events) ← revokeSubjectGrants observedAt now
    (db.grants.filter fun g => g.subjectId == job.scopeId && g.status != .revoked)
    { db with
      accountSessions := updateWhere open_ (fun session => { session with revokedAt := some observedAt })
        db.accountSessions
      memberships := updateWhere (fun m => m.accountId == job.scopeId && m.status == .active)
        (fun m => { m with status := .revoked, revokedAt := some (m.revokedAt.getD observedAt) }) db.memberships
      accounts := updateWhere (fun a => a.id == job.scopeId) (fun a => { a with status := .deleted }) db.accounts } 0
  .ok (next,db.accountSessions.countP open_,events)

def revokeTenantScope (job : DeletionJob) (observedAt now : Time) (db : Db) : Except Fault (Db × Nat × Nat) := do
  let (next,events) ← revokeSites observedAt now
    (db.sites.filter fun s => inTenantScope job s.tenantId (some s.id) && s.status != .deleted) db 0
  .ok ({ next with
      refreshFamilies := updateWhere
        (fun f => inTenantScope job f.tenantId (some f.siteId) && f.status == .active)
        (fun f => { f with
          status := .revoked, revokedAt := some (f.revokedAt.getD observedAt)
          revocationReason := some "deletion_requested" }) next.refreshFamilies
      tenants := updateWhere (fun t => job.scopeKind == .tenant && some t.id == job.tenantId)
        (fun t => { t with status := .deleted, deletedAt := some (t.deletedAt.getD observedAt) }) next.tenants },
    0,events)

def tombstonedGrant (job : DeletionJob) (db : Db) (grantId : GrantId) : Bool :=
  db.deletionTombstones.any fun t => t.jobId == job.id && t.objectKind == .grant && t.objectId == grantId

/- payload->>'grantId' IN (…): a NULL is in no list. -/
def tombstonedPayload (job : DeletionJob) (db : Db) (payload : ProviderPayload) : Bool :=
  (memberText payload "grantId").any (tombstonedGrant job db)

/- A pairing attempt still refers to its initiator; homes and auth links cascade. -/
def purgeAccount (job : DeletionJob) (db : Db) : Except Fault Db := do
  let inScope := tombstonedGrant job db
  ensure (db.pairingAttempts.all fun a => a.initiatorAccountId != job.scopeId) .foreignKeyViolation
  .ok { db with
    secretArtifacts := deleteWhere (fun a => tombstonedPayload job db a.payload) db.secretArtifacts
    providerArtifacts := deleteWhere (fun a => tombstonedPayload job db a.payload) db.providerArtifacts
    refreshFamilies := deleteWhere (fun f => inScope f.grantId) db.refreshFamilies
    revocationOutbox := deleteWhere (fun r => r.grantId.any inScope) db.revocationOutbox
    idempotencyRecords := deleteWhere (fun r => inScope r.resultReference) db.idempotencyRecords
    grants := deleteWhere (fun g => g.subjectId == job.scopeId) db.grants
    accountSessions := deleteWhere (fun session => session.accountId == job.scopeId) db.accountSessions
    memberships := deleteWhere (fun m => m.accountId == job.scopeId) db.memberships
    accounts := deleteWhere (fun a => a.id == job.scopeId) db.accounts
    homeTenants := deleteWhere (fun h => h.accountId == job.scopeId) db.homeTenants
    authLinks := deleteWhere (fun l => l.accountId == job.scopeId) db.authLinks }

/- Every row that refers to a purged site or tenant is purged by an earlier statement. -/
def purgeTenantScope (job : DeletionJob) (db : Db) : Db :=
  let wholeTenant := fun tenant : TenantId => job.scopeKind == .tenant && some tenant == job.tenantId
  let inScope := tombstonedGrant job db
  { db with
    secretArtifacts := deleteWhere
      (fun a => a.tenantId.any wholeTenant || tombstonedPayload job db a.payload) db.secretArtifacts
    providerArtifacts := deleteWhere
      (fun a => a.tenantId.any wholeTenant || tombstonedPayload job db a.payload) db.providerArtifacts
    refreshFamilies := deleteWhere (fun f => inTenantScope job f.tenantId (some f.siteId)) db.refreshFamilies
    revocationOutbox := deleteWhere (fun r => inTenantScope job r.tenantId (some r.siteId)) db.revocationOutbox
    pairingAttempts := deleteWhere (fun a => inTenantScope job a.tenantId a.siteId) db.pairingAttempts
    idempotencyRecords := deleteWhere
      (fun r => some r.tenantId == job.tenantId &&
        (job.scopeKind == .tenant || r.resultReference == job.scopeId || inScope r.resultReference))
      db.idempotencyRecords
    grants := deleteWhere (fun g => inTenantScope job g.tenantId (some g.siteId)) db.grants
    sites := deleteWhere (fun s => inTenantScope job s.tenantId (some s.id)) db.sites
    securityEvents := deleteWhere (fun e => wholeTenant e.tenantId) db.securityEvents
    memberships := deleteWhere (fun m => wholeTenant m.tenantId) db.memberships
    tenants := deleteWhere (fun t => wholeTenant t.id) db.tenants
    homeTenants := deleteWhere (fun h => wholeTenant h.tenantId) db.homeTenants }

def setJob (jobId : JobId) (change : DeletionJob → DeletionJob) (db : Db) : Db :=
  { db with deletionJobs := updateWhere (fun job => job.id == jobId) change db.deletionJobs }

def revokeScope (job : DeletionJob) (observedAt now : Time) (db : Db) : Except Fault (Db × Nat × Nat) :=
  if job.scopeKind = .account then revokeAccount job observedAt now db
  else revokeTenantScope job observedAt now db

def firstPhase (job : DeletionJob) (observedAt now : Time) (db : Db) : Except Fault (Db × DeletionReport) := do
  let (next,sessions,events) ← revokeScope job observedAt now db
  let waiting := fun j : DeletionJob =>
    { j with status := .waiting, safeAfter := some (observedAt + minutes 6), counts := .revoked sessions events }
  .ok (setJob job.id waiting next,report (waiting job))

def purgeScope (job : DeletionJob) (db : Db) : Except Fault Db :=
  if job.scopeKind = .account then purgeAccount job db else .ok (purgeTenantScope job db)

def purgePhase (job : DeletionJob) (observedAt : Time) (db : Db) : Except Fault (Db × DeletionReport) := do
  let next ← purgeScope job db
  let complete := fun j : DeletionJob =>
    { j with status := .complete, completedAt := some observedAt, counts := .purged true true }
  .ok (setJob job.id complete next,report (complete job))

def advanceBody (jobId : JobId) (observedAt now : Time) (db : Db) : Except Fault (Db × DeletionReport) := do
  let job ← orFail (.raised "deletion_job_missing" "P0002") (db.deletionJobs.find? fun job => job.id == jobId)
  match job.status with
  | .complete | .failed => .ok (db,report job)
  | .pending => firstPhase job observedAt now db
  | .waiting =>
    if job.safeAfter.all fun safeAfter => observedAt < safeAfter then .ok (db,report job)
    else purgePhase job observedAt db

def advanceDeletionJob (jobId : JobId) (observedAt now : Time) (db : Db) : Db × DeletionReport :=
  match advanceBody jobId observedAt now db with
  | .ok done => done
  | .error fault =>
    (setJob jobId (fun job => { job with status := .failed, failureCode := fault.sqlstate }) db,
      ⟨jobId,none,.failed,none,none,fault.sqlstate,none⟩)

end Wepuu.Deletion
