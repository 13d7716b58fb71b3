import Wepuu.DeletionSweep
import Wepuu.LiveSites
import Wepuu.RowSecurity

/-! What an advance of a deletion job leaves alone. For each scope a predicate on the rows of
each table says which are outside it; those are the same before and after every advance. An
artifact belongs to the grant that its payload names and, where an account is deleted, a
refresh family, an idempotency record and an event to the grant whose id they carry. -/
namespace Wepuu.DeletionFrames
open Deletion DeletionCompletes DeletionSweep Footprint Frames GrantLifecycle Grants NodeApi Outbox Relational RowSecurity
open Runs Schema SiteRows Statements Wepuu.System

section Scopes

structure Outside where
  accounts : Account → Prop
  tenants : Tenant → Prop
  memberships : Membership → Prop
  homeTenants : HomeTenant → Prop
  authLinks : AuthLink → Prop
  accountSessions : AccountSession → Prop
  sites : Site → Prop
  pairingAttempts : PairingAttempt → Prop
  grants : Grant → Prop
  idempotencyRecords : IdempotencyRecord → Prop
  providerArtifacts : ProviderArtifact → Prop
  secretArtifacts : SecretArtifact → Prop
  refreshFamilies : RefreshFamily → Prop
  revocationOutbox : OutboxRow → Prop
  deletionJobs : DeletionJob → Prop
  securityEvents : SecurityEventRow → Prop

def foreignPayload (foreign : GrantId → Prop) (payload : ProviderPayload) : Prop := ∀ id, ofGrant id payload → foreign id

def accountOutside (account : AccountId) (foreign : GrantId → Prop) (jobId : JobId) : Outside where
  accounts a := a.id ≠ account
  tenants _ := True
  memberships m := m.accountId ≠ account
  homeTenants h := h.accountId ≠ account
  authLinks l := l.accountId ≠ account
  accountSessions s := s.accountId ≠ account
  sites _ := True
  pairingAttempts _ := True
  grants g := g.subjectId ≠ account
  idempotencyRecords r := foreign r.resultReference
  providerArtifacts a := foreignPayload foreign a.payload
  secretArtifacts a := foreignPayload foreign a.payload
  refreshFamilies f := foreign f.grantId
  revocationOutbox r := ∀ id, r.grantId = some id → foreign id
  deletionJobs j := j.id ≠ jobId
  securityEvents _ := True

def tenantOutside (tenant : Option TenantId) (foreign : GrantId → Prop) (jobId : JobId) : Outside where
  accounts _ := True
  tenants t := some t.id ≠ tenant
  memberships m := some m.tenantId ≠ tenant
  homeTenants h := some h.tenantId ≠ tenant
  authLinks _ := True
  accountSessions _ := True
  sites s := some s.tenantId ≠ tenant
  pairingAttempts a := some a.tenantId ≠ tenant
  grants g := some g.tenantId ≠ tenant
  idempotencyRecords r := some r.tenantId ≠ tenant
  providerArtifacts a := (∀ own, a.tenantId = some own → some own ≠ tenant) ∧ foreignPayload foreign a.payload
  secretArtifacts a := (∀ own, a.tenantId = some own → some own ≠ tenant) ∧ foreignPayload foreign a.payload
  refreshFamilies f := some f.tenantId ≠ tenant
  revocationOutbox r := some r.tenantId ≠ tenant
  deletionJobs j := j.id ≠ jobId
  securityEvents e := some e.tenantId ≠ tenant

def siteOutside (tenant : Option TenantId) (site : SiteId) (foreign : GrantId → Prop) (jobId : JobId) : Outside where
  accounts _ := True
  tenants _ := True
  memberships _ := True
  homeTenants _ := True
  authLinks _ := True
  accountSessions _ := True
  sites s := some s.tenantId = tenant → s.id ≠ site
  pairingAttempts a := some a.tenantId = tenant → a.siteId ≠ some site
  grants g := some g.tenantId = tenant → g.siteId ≠ site
  idempotencyRecords r := some r.tenantId = tenant → r.resultReference ≠ site ∧ foreign r.resultReference
  providerArtifacts a := foreignPayload foreign a.payload
  secretArtifacts a := foreignPayload foreign a.payload
  refreshFamilies f := some f.tenantId = tenant → f.siteId ≠ site
  revocationOutbox r := some r.tenantId = tenant → r.siteId ≠ site
  deletionJobs j := j.id ≠ jobId
  securityEvents _ := True

def outsideOf (job : DeletionJob) (foreign : GrantId → Prop) : Outside := match job.scopeKind with
  | .account => accountOutside job.scopeId foreign job.id
  | .tenant => tenantOutside job.tenantId foreign job.id
  | .site => siteOutside job.tenantId job.scopeId foreign job.id

structure Framed (out : Outside) (db next : Db) : Prop where
  accounts : AgreeWhere out.accounts db.accounts next.accounts
  tenants : AgreeWhere out.tenants db.tenants next.tenants
  memberships : AgreeWhere out.memberships db.memberships next.memberships
  homeTenants : AgreeWhere out.homeTenants db.homeTenants next.homeTenants
  authUsers : next.authUsers = db.authUsers
  authLinks : AgreeWhere out.authLinks db.authLinks next.authLinks
  accountSessions : AgreeWhere out.accountSessions db.accountSessions next.accountSessions
  sites : AgreeWhere out.sites db.sites next.sites
  pairingAttempts : AgreeWhere out.pairingAttempts db.pairingAttempts next.pairingAttempts
  grants : AgreeWhere out.grants db.grants next.grants
  idempotencyRecords : AgreeWhere out.idempotencyRecords db.idempotencyRecords next.idempotencyRecords
  providerArtifacts : AgreeWhere out.providerArtifacts db.providerArtifacts next.providerArtifacts
  secretArtifacts : AgreeWhere out.secretArtifacts db.secretArtifacts next.secretArtifacts
  refreshFamilies : AgreeWhere out.refreshFamilies db.refreshFamilies next.refreshFamilies
  revocationOutbox : AgreeWhere out.revocationOutbox db.revocationOutbox next.revocationOutbox
  rateLimitBuckets : next.rateLimitBuckets = db.rateLimitBuckets
  signingKeys : next.signingKeys = db.signingKeys
  deletionJobs : AgreeWhere out.deletionJobs db.deletionJobs next.deletionJobs
  deletionTombstones : next.deletionTombstones = db.deletionTombstones
  securityEvents : AgreeWhere out.securityEvents db.securityEvents next.securityEvents

end Scopes

section Statements
variable {out : Outside} {db mid next : Db}

theorem framedRefl (out : Outside) (db : Db) : Framed out db db where
  accounts := agreeRefl _ _
  tenants := agreeRefl _ _
  memberships := agreeRefl _ _
  homeTenants := agreeRefl _ _
  authUsers := rfl
  authLinks := agreeRefl _ _
  accountSessions := agreeRefl _ _
  sites := agreeRefl _ _
  pairingAttempts := agreeRefl _ _
  grants := agreeRefl _ _
  idempotencyRecords := agreeRefl _ _
  providerArtifacts := agreeRefl _ _
  secretArtifacts := agreeRefl _ _
  refreshFamilies := agreeRefl _ _
  revocationOutbox := agreeRefl _ _
  rateLimitBuckets := rfl
  signingKeys := rfl
  deletionJobs := agreeRefl _ _
  deletionTombstones := rfl
  securityEvents := agreeRefl _ _

theorem framedTrans (left : Framed out db mid) (right : Framed out mid next) : Framed out db next where
  accounts := agreeTrans left.accounts right.accounts
  tenants := agreeTrans left.tenants right.tenants
  memberships := agreeTrans left.memberships right.memberships
  homeTenants := agreeTrans left.homeTenants right.homeTenants
  authUsers := right.authUsers.trans left.authUsers
  authLinks := agreeTrans left.authLinks right.authLinks
  accountSessions := agreeTrans left.accountSessions right.accountSessions
  sites := agreeTrans left.sites right.sites
  pairingAttempts := agreeTrans left.pairingAttempts right.pairingAttempts
  grants := agreeTrans left.grants right.grants
  idempotencyRecords := agreeTrans left.idempotencyRecords right.idempotencyRecords
  providerArtifacts := agreeTrans left.providerArtifacts right.providerArtifacts
  secretArtifacts := agreeTrans left.secretArtifacts right.secretArtifacts
  refreshFamilies := agreeTrans left.refreshFamilies right.refreshFamilies
  revocationOutbox := agreeTrans left.revocationOutbox right.revocationOutbox
  rateLimitBuckets := right.rateLimitBuckets.trans left.rateLimitBuckets
  signingKeys := right.signingKeys.trans left.signingKeys
  deletionJobs := agreeTrans left.deletionJobs right.deletionJobs
  deletionTombstones := right.deletionTombstones.trans left.deletionTombstones
  securityEvents := agreeTrans left.securityEvents right.securityEvents

theorem emitFramed {onConflict : OnConflict} {event : NewEvent} {now : Time}
    (inside : ∀ r : OutboxRow, r.tenantId = event.tenantId → r.siteId = event.siteId → r.grantId = event.grantId →
      ¬out.revocationOutbox r)
    (ok : insertEvent onConflict event now db = .ok next) : Framed out db next := by
  unfold insertEvent at ok
  split at ok <;> try contradiction
  split at ok
  · rename_i rows made
    cases ok
    obtain ⟨_,rfl⟩ := insertRowExact.mp made
    exact { framedRefl out db with revocationOutbox := agreeAppend (inside _ rfl rfl rfl) }
  · cases ok
    exact { framedRefl out db with }
  · cases ok

theorem setJobFramed {jobId : JobId} {change : DeletionJob → DeletionJob} (keeps : ∀ j, (change j).id = j.id)
    (own : ∀ j : DeletionJob, j.id = jobId → ¬out.deletionJobs j) : Framed out db (setJob jobId change db) := by
  refine { framedRefl out db with deletionJobs := agreeUpdate fun j _ hit => ?_ }
  have named : j.id = jobId := by simpa using hit
  exact ⟨own j named,own (change j) ((keeps j).trans named)⟩

end Statements
section Phases
variable {job : DeletionJob} {foreign : GrantId → Prop} {db next : Db} {observedAt now : Time}

theorem revokeSubjectGrantsFramed {account : AccountId} {jobId : JobId} {rest : List Grant} {events out : Nat}
    (owned : ∀ g ∈ rest, ¬foreign g.id ∧ ∀ r ∈ db.grants, r.id = g.id → r.subjectId = account)
    (ok : revokeSubjectGrants observedAt now rest db events = .ok (next,out)) :
    Framed (accountOutside account foreign jobId) db next := by
  induction rest generalizing db events with
  | nil =>
    cases ok
    exact framedRefl _ _
  | cons g rest ih =>
    obtain ⟨known,rows⟩ := owned g List.mem_cons_self
    have first : Framed (accountOutside account foreign jobId) db { db with
        grants := updateWhere (grantAt g.tenantId g.id) (revokedGrant "account_deleted" observedAt) db.grants } := by
      refine { framedRefl _ db with grants := agreeUpdate fun r mem hit => ?_ }
      simp only [grantAt,Bool.and_eq_true,beq_iff_eq] at hit
      have own := rows r mem hit.2
      exact ⟨fun apart => apart own,fun apart => apart own⟩
    have later : ∀ d : Db, d.grants =
          updateWhere (grantAt g.tenantId g.id) (revokedGrant "account_deleted" observedAt) db.grants →
        ∀ o ∈ rest, ¬foreign o.id ∧ ∀ r ∈ d.grants, r.id = o.id → r.subjectId = account := by
      intro d same o ho
      obtain ⟨knownO,rowsO⟩ := owned o (List.mem_cons_of_mem _ ho)
      refine ⟨knownO,fun r mem named => ?_⟩
      rw [same] at mem
      obtain ⟨p,hp,rfl⟩ := memUpdateWhere.mp mem
      by_cases chosen : grantAt g.tenantId g.id p = true
      · rw [if_pos chosen] at named ⊢
        exact rowsO p hp named
      · rw [if_neg chosen] at named ⊢
        exact rowsO p hp named
    simp only [revokeSubjectGrants] at ok
    split at ok
    · exact framedTrans first (ih (later _ rfl) ok)
    · simp only [bindOk] at ok
      obtain ⟨emitted,inserted,ok⟩ := ok
      refine framedTrans (framedTrans first (emitFramed ?_ inserted)) (ih (later _ (insertEventGrants inserted)) ok)
      exact fun r _ _ named apart => known (apart g.id named)

theorem revokeAccountFramed {sessions events : Nat} (wf : WellFormed db)
    (known : ∀ g ∈ db.grants, g.subjectId = job.scopeId → ¬foreign g.id)
    (ok : revokeAccount job observedAt now db = .ok (next,sessions,events)) :
    Framed (accountOutside job.scopeId foreign job.id) db next := by
  simp only [revokeAccount,bindOk] at ok
  obtain ⟨⟨revoked,count⟩,loop,last⟩ := ok
  cases last
  have started : Framed (accountOutside job.scopeId foreign job.id) db { db with
      accountSessions := updateWhere (fun session => session.accountId == job.scopeId && session.revokedAt.isNone)
        (fun session => { session with revokedAt := some observedAt }) db.accountSessions
      memberships := updateWhere (fun m => m.accountId == job.scopeId && m.status == .active)
        (fun m => { m with status := .revoked, revokedAt := some (m.revokedAt.getD observedAt) }) db.memberships
      accounts := updateWhere (fun a => a.id == job.scopeId) (fun a => { a with status := .deleted }) db.accounts } := by
    refine { framedRefl _ db with
      accounts := agreeUpdate fun a _ hit => ?_
      memberships := agreeUpdate fun m _ hit => ?_
      accountSessions := agreeUpdate fun session _ hit => ?_ }
    · have own : a.id = job.scopeId := by simpa using hit
      exact ⟨fun apart => apart own,fun apart => apart own⟩
    · simp only [Bool.and_eq_true,beq_iff_eq] at hit
      exact ⟨fun apart => apart hit.1,fun apart => apart hit.1⟩
    · simp only [Bool.and_eq_true,beq_iff_eq] at hit
      exact ⟨fun apart => apart hit.1,fun apart => apart hit.1⟩
  refine framedTrans started (revokeSubjectGrantsFramed (fun g mem => ?_) loop)
  obtain ⟨stored,chosen⟩ := List.mem_filter.mp mem
  simp only [Bool.and_eq_true,beq_iff_eq] at chosen
  refine ⟨known g stored chosen.1,fun r hr named => ?_⟩
  rw [sameGrant wf hr stored named]
  exact chosen.1

structure ByColumns (job : DeletionJob) (out : Outside) : Prop where
  sites : ∀ s : Site, inTenantScope job s.tenantId (some s.id) = true → ¬out.sites s
  pairingAttempts : ∀ a : PairingAttempt, inTenantScope job a.tenantId a.siteId = true → ¬out.pairingAttempts a
  grants : ∀ g : Grant, inTenantScope job g.tenantId (some g.siteId) = true → ¬out.grants g
  refreshFamilies : ∀ f : RefreshFamily, inTenantScope job f.tenantId (some f.siteId) = true → ¬out.refreshFamilies f
  revocationOutbox : ∀ r : OutboxRow, inTenantScope job r.tenantId (some r.siteId) = true → ¬out.revocationOutbox r

theorem byColumnsInside (other : job.scopeKind ≠ .account) : ByColumns job (outsideOf job foreign) := by
  unfold outsideOf
  cases kind : job.scopeKind with
  | account => exact absurd kind other
  | tenant => constructor <;> simp [tenantOutside,inTenantScope,kind]
  | site => constructor <;> simp [siteOutside,inTenantScope,kind]

theorem revokeSitesFramed (other : job.scopeKind ≠ .account) {rest : List Site} {events out : Nat}
    (inScope : ∀ s ∈ rest, inTenantScope job s.tenantId (some s.id) = true)
    (ok : revokeSites observedAt now rest db events = .ok (next,out)) : Framed (outsideOf job foreign) db next := by
  induction rest generalizing db events with
  | nil =>
    cases ok
    exact framedRefl _ _
  | cons s rest ih =>
    have own := inScope s List.mem_cons_self
    simp only [revokeSites,bindOk] at ok
    obtain ⟨emitted,inserted,ok⟩ := ok
    have closed : Framed (outsideOf job foreign) db { db with
        sites := updateWhere (siteIn s.tenantId s.id) (revokedSite observedAt) db.sites } := by
      refine { framedRefl _ db with sites := agreeUpdate fun r _ hit => ?_ }
      simp only [siteIn,Bool.and_eq_true,beq_iff_eq] at hit
      rw [← hit.1,← hit.2] at own
      exact ⟨(byColumnsInside other).sites _ own,(byColumnsInside other).sites _ own⟩
    have told : Framed (outsideOf job foreign) _ emitted := emitFramed (fun r tenant site _ => by
      refine (byColumnsInside other).revocationOutbox _ ?_
      rw [tenant,site]
      exact own) inserted
    have ended : Framed (outsideOf job foreign) emitted { emitted with
        grants := updateWhere (siteGrant s.tenantId s.id) (revokedGrant "deletion_requested" observedAt)
          emitted.grants } := by
      refine { framedRefl _ emitted with grants := agreeUpdate fun g _ hit => ?_ }
      simp only [siteGrant,Bool.and_eq_true,beq_iff_eq] at hit
      rw [← hit.1.1,← hit.1.2] at own
      exact ⟨(byColumnsInside other).grants _ own,(byColumnsInside other).grants _ own⟩
    exact framedTrans (framedTrans (framedTrans closed told) ended)
      (ih (fun o mem => inScope o (List.mem_cons_of_mem _ mem)) ok)

theorem revokeTenantScopeFramed (other : job.scopeKind ≠ .account) {sessions events : Nat}
    (ok : revokeTenantScope job observedAt now db = .ok (next,sessions,events)) :
    Framed (outsideOf job foreign) db next := by
  simp only [revokeTenantScope,bindOk] at ok
  obtain ⟨⟨revoked,count⟩,loop,last⟩ := ok
  cases last
  refine framedTrans (revokeSitesFramed other (fun s mem => ?_) loop) ?_
  · have chosen := (List.mem_filter.mp mem).2
    exact (Bool.and_eq_true_iff.mp chosen).1
  · refine { framedRefl _ revoked with
      refreshFamilies := agreeUpdate fun f _ hit => ?_
      tenants := agreeUpdate fun t _ hit => ?_ }
    · simp only [Bool.and_eq_true,beq_iff_eq] at hit
      unfold outsideOf
      rw [hit.1]
      exact ⟨fun apart => apart hit.2,fun apart => apart hit.2⟩
    · have own := (Bool.and_eq_true_iff.mp hit).1
      exact ⟨(byColumnsInside other).refreshFamilies _ own,(byColumnsInside other).refreshFamilies _ own⟩

def Marked (job : DeletionJob) (foreign : GrantId → Prop) (db : Db) : Prop :=
  ∀ id, tombstonedGrant job db id = true → ¬foreign id

theorem markedPayload (marked : Marked job foreign db) {payload : ProviderPayload}
    (hit : tombstonedPayload job db payload = true) : ¬foreignPayload foreign payload := by
  obtain ⟨id,named,chosen⟩ := tombstonedOf.mp hit
  exact fun apart => marked id chosen (apart id named)

theorem purgeAccountFramed (marked : Marked job foreign db) (ok : purgeAccount job db = .ok next) :
    Framed (accountOutside job.scopeId foreign job.id) db next := by
  simp only [purgeAccount,bindOk,ensureOk] at ok
  obtain ⟨_,_,last⟩ := ok
  cases last
  have outbox : ∀ r : OutboxRow, r.grantId.any (tombstonedGrant job db) = true →
      ¬(accountOutside job.scopeId foreign job.id).revocationOutbox r := by
    intro r hit apart
    obtain ⟨id,named,chosen⟩ := (Option.any_eq_true _ _).mp hit
    exact marked id chosen (apart id named)
  refine { framedRefl _ db with
    accounts := agreeDelete fun a _ hit => ?_
    memberships := agreeDelete fun m _ hit => ?_
    homeTenants := agreeDelete fun h _ hit => ?_
    authLinks := agreeDelete fun l _ hit => ?_
    accountSessions := agreeDelete fun session _ hit => ?_
    grants := agreeDelete fun g _ hit => ?_
    idempotencyRecords := agreeDelete fun r _ hit => marked _ hit
    providerArtifacts := agreeDelete fun a _ hit => markedPayload marked hit
    secretArtifacts := agreeDelete fun a _ hit => markedPayload marked hit
    refreshFamilies := agreeDelete fun f _ hit => marked _ hit
    revocationOutbox := agreeDelete fun r _ hit => outbox r hit }
  all_goals
    simp only [beq_iff_eq] at hit
    exact fun apart => apart hit

end Phases

section Purges
variable {job : DeletionJob} {foreign : GrantId → Prop} {db next : Db} {observedAt now : Time}

theorem wholeTenantInside {tenant : TenantId} (hit : (job.scopeKind == .tenant && some tenant == job.tenantId) = true) :
    outsideOf job foreign = tenantOutside (some tenant) foreign job.id := by
  simp only [Bool.and_eq_true,beq_iff_eq] at hit
  unfold outsideOf
  rw [hit.1,hit.2]

theorem artifactInside (other : job.scopeKind ≠ .account) (marked : Marked job foreign db)
    {tenant : Option TenantId} {payload : ProviderPayload}
    (hit : (tenant.any (fun t => job.scopeKind == .tenant && some t == job.tenantId) ||
      tombstonedPayload job db payload) = true) :
    (∀ a : ProviderArtifact, a.tenantId = tenant → a.payload = payload → ¬(outsideOf job foreign).providerArtifacts a) ∧
    ∀ a : SecretArtifact, a.tenantId = tenant → a.payload = payload → ¬(outsideOf job foreign).secretArtifacts a := by
  rw [Bool.or_eq_true] at hit
  rcases hit with whole | tombstoned
  · obtain ⟨own,named,whole⟩ := (Option.any_eq_true _ _).mp whole
    rw [wholeTenantInside whole]
    exact ⟨fun a carried _ apart => apart.1 own (carried.trans named) rfl,
      fun a carried _ apart => apart.1 own (carried.trans named) rfl⟩
  · have known := markedPayload marked tombstoned
    unfold outsideOf
    cases kind : job.scopeKind with
    | account => exact absurd kind other
    | tenant =>
      refine ⟨fun a _ carried apart => known ?_,fun a _ carried apart => known ?_⟩
      · exact carried ▸ apart.2
      · exact carried ▸ apart.2
    | site =>
      refine ⟨fun a _ carried apart => known ?_,fun a _ carried apart => known ?_⟩
      · exact carried ▸ apart
      · exact carried ▸ apart

theorem recordInside (other : job.scopeKind ≠ .account) (marked : Marked job foreign db) {r : IdempotencyRecord}
    (hit : (some r.tenantId == job.tenantId && (job.scopeKind == .tenant || r.resultReference == job.scopeId ||
      tombstonedGrant job db r.resultReference)) = true) : ¬(outsideOf job foreign).idempotencyRecords r := by
  simp only [Bool.and_eq_true,Bool.or_eq_true,beq_iff_eq] at hit
  unfold outsideOf
  cases kind : job.scopeKind with
  | account => exact absurd kind other
  | tenant => exact fun apart => apart hit.1
  | site =>
    intro apart
    obtain ⟨notSite,unknown⟩ := apart hit.1
    rcases hit.2 with (whole | ofSite) | tombstoned
    · rw [kind] at whole
      contradiction
    · exact notSite ofSite
    · exact marked _ tombstoned unknown

theorem purgeTenantScopeFramed (other : job.scopeKind ≠ .account) (marked : Marked job foreign db) :
    Framed (outsideOf job foreign) db (purgeTenantScope job db) where
  accounts := agreeRefl _ _
  tenants := agreeDelete fun t _ hit => by
    rw [wholeTenantInside hit]
    exact fun apart => apart rfl
  memberships := agreeDelete fun m _ hit => by
    rw [wholeTenantInside hit]
    exact fun apart => apart rfl
  homeTenants := agreeDelete fun h _ hit => by
    rw [wholeTenantInside hit]
    exact fun apart => apart rfl
  authUsers := rfl
  authLinks := agreeRefl _ _
  accountSessions := agreeRefl _ _
  sites := agreeDelete fun s _ hit => (byColumnsInside other).sites s hit
  pairingAttempts := agreeDelete fun a _ hit => (byColumnsInside other).pairingAttempts a hit
  grants := agreeDelete fun g _ hit => (byColumnsInside other).grants g hit
  idempotencyRecords := agreeDelete fun r _ hit => recordInside other marked hit
  providerArtifacts := agreeDelete fun a _ hit => (artifactInside other marked hit).1 a rfl rfl
  secretArtifacts := agreeDelete fun a _ hit => (artifactInside other marked hit).2 a rfl rfl
  refreshFamilies := agreeDelete fun f _ hit => (byColumnsInside other).refreshFamilies f hit
  revocationOutbox := agreeDelete fun r _ hit => (byColumnsInside other).revocationOutbox r hit
  rateLimitBuckets := rfl
  signingKeys := rfl
  deletionJobs := agreeRefl _ _
  deletionTombstones := rfl
  securityEvents := agreeDelete fun e _ hit => by
    rw [wholeTenantInside hit]
    exact fun apart => apart rfl

theorem revokeScopeFramed {sessions events : Nat} (wf : WellFormed db)
    (known : ∀ g ∈ db.grants, grantInScope job g → ¬foreign g.id)
    (ok : revokeScope job observedAt now db = .ok (next,sessions,events)) : Framed (outsideOf job foreign) db next := by
  unfold revokeScope at ok
  split at ok
  · rename_i account
    unfold outsideOf
    rw [account]
    exact revokeAccountFramed wf (fun g mem own => known g mem (by rw [grantInScope,if_pos account]; exact own)) ok
  · rename_i other
    exact revokeTenantScopeFramed other ok

theorem purgeScopeFramed (marked : Marked job foreign db) (ok : purgeScope job db = .ok next) :
    Framed (outsideOf job foreign) db next := by
  unfold purgeScope at ok
  split at ok
  · rename_i account
    unfold outsideOf
    rw [account]
    exact purgeAccountFramed marked ok
  · rename_i other
    cases ok
    exact purgeTenantScopeFramed other marked

theorem outsideJobs {j : DeletionJob} (named : j.id = job.id) : ¬(outsideOf job foreign).deletionJobs j := by
  unfold outsideOf
  cases job.scopeKind <;> exact fun apart => apart named

theorem advanceFramed {jobId : JobId} (wf : WellFormed db) (found : jobOf jobId db = some job)
    (known : ∀ g ∈ db.grants, grantInScope job g → ¬foreign g.id) (marked : Marked job foreign db) :
    Framed (outsideOf job foreign) db (advanceDeletionJob jobId observedAt now db).1 := by
  have own : ∀ j : DeletionJob, j.id = jobId → ¬(outsideOf job foreign).deletionJobs j := by
    intro j named
    exact outsideJobs (named.trans (jobOfId found).symm)
  have moved := advanced jobId observedAt now db
  generalize (advanceDeletionJob jobId observedAt now db).1 = after at moved ⊢
  cases moved with
  | missing none =>
    rw [found] at none
    contradiction
  | ended _ _ | early _ _ _ => exact framedRefl _ _
  | revoked other _ ok =>
    cases found.symm.trans other
    exact framedTrans (revokeScopeFramed wf known ok) (setJobFramed (fun _ => rfl) own)
  | purged other _ _ ok =>
    cases found.symm.trans other
    exact framedTrans (purgeScopeFramed marked ok) (setJobFramed (fun _ => rfl) own)
  | revokeRaised _ _ _ | purgeRaised _ _ _ _ => exact setJobFramed (fun _ => rfl) own

end Purges

section Marks
variable {node : Node} {e : Event} {es : List Event} {job : DeletionJob} {db next : Db}

structure SameScope (j o : DeletionJob) : Prop where
  id : j.id = o.id
  scopeKind : j.scopeKind = o.scopeKind
  scopeId : j.scopeId = o.scopeId
  tenantId : j.tenantId = o.tenantId

theorem sameScopeGrants {o : DeletionJob} (same : SameScope job o) {g : Grant} :
    grantInScope job g ↔ grantInScope o g := by
  unfold grantInScope inTenantScope
  rw [same.scopeKind,same.scopeId,same.tenantId]

theorem sameScopeTombstoned {o : DeletionJob} (same : SameScope job o) {id : GrantId} :
    tombstonedGrant job db id = tombstonedGrant o db id := by
  unfold tombstonedGrant
  rw [same.id]

def JobKept (db : Db) (j : DeletionJob) : Prop := ∃ o ∈ db.deletionJobs, SameScope j o

theorem jobSameKept {j : DeletionJob} (mem : j ∈ db.deletionJobs) : JobKept db j := ⟨j,mem,rfl,rfl,rfl,rfl⟩

theorem setJobKept {jobId : JobId} {change : DeletionJob → DeletionJob} (keeps : ∀ j, SameScope (change j) j)
    (same : next.deletionJobs = db.deletionJobs) : ∀ j ∈ (setJob jobId change next).deletionJobs, JobKept db j := by
  intro j mem
  obtain ⟨o,ho,rfl⟩ := memUpdateWhere.mp mem
  rw [same] at ho
  by_cases chosen : (o.id == jobId) = true
  · rw [if_pos chosen]
    exact ⟨o,ho,keeps o⟩
  · rw [if_neg chosen]
    exact jobSameKept ho

theorem advancedJobs {jobId : JobId} {observedAt now : Time} (moved : Advanced jobId observedAt now db next) :
    ∀ j ∈ next.deletionJobs, JobKept db j := by
  cases moved with
  | missing _ | revokeRaised _ _ _ | purgeRaised _ _ _ _ => exact setJobKept (fun _ => ⟨rfl,rfl,rfl,rfl⟩) rfl
  | ended _ _ | early _ _ _ => exact fun j mem => jobSameKept mem
  | revoked _ _ ok => exact setJobKept (fun _ => ⟨rfl,rfl,rfl,rfl⟩) (revokeScopeJobs ok)
  | purged _ _ _ ok => exact setJobKept (fun _ => ⟨rfl,rfl,rfl,rfl⟩) (purgeScopeJobs ok)

theorem stepJobs (jobs : TombstoneJobs db) {j : DeletionJob} (mem : j ∈ (step node db e).deletionJobs) :
    JobKept db j ∨ ∀ id, tombstonedGrant j (step node db e) id = true →
      ∃ g ∈ db.grants, grantInScope j g ∧ g.id = id := by
  by_cases untouched : Table.deletionJobs ∈ touches e.op
  · rcases settleCases db (exec node e db) with same | ⟨next,reply,ok,done⟩
    · rw [step,same] at mem
      exact .inl (jobSameKept mem)
    obtain ⟨now,op⟩ := e
    cases op <;> try (simp [touches] at untouched; done)
    case beginDeletionJob target kind scopeId tenantId requestedBy =>
      rw [step,done] at mem ⊢
      simp only [exec] at ok
      obtain ⟨_,made,_⟩ := answeredOk ok
      rcases beginCases made with ⟨_,rfl⟩ | ⟨unknown,shape⟩
      · exact .inl (jobSameKept mem)
      · have rows : next.deletionJobs = db.deletionJobs ++ [begunJob target kind scopeId tenantId requestedBy] := by
          rw [shape]
          rfl
        rw [rows] at mem
        rcases List.mem_append.mp mem with old | new
        · exact .inl (jobSameKept old)
        · rw [List.mem_singleton.mp new]
          exact .inr fun id hit => (begunTombstoned jobs unknown made).2.mp hit
    case advanceDeletionJob target observedAt =>
      rw [step,done] at mem
      have moved := advanced target observedAt now db
      cases ok
      exact .inl (advancedJobs moved j mem)
  · have same : (step node db e).deletionJobs = db.deletionJobs := stepOnly .deletionJobs untouched
    rw [same] at mem
    exact .inl (jobSameKept mem)

def Held (node : Node) (es : List Event) (g : Grant) : Prop :=
  ∃ early late, es = early ++ late ∧ g ∈ (run (step node) Db.empty early).grants

theorem heldNow {g : Grant} (mem : g ∈ (run (step node) Db.empty es).grants) : Held node es g :=
  ⟨es,[],(List.append_nil es).symm,mem⟩

theorem heldLater {more : List Event} {g : Grant} (held : Held node es g) : Held node (es ++ more) g := by
  obtain ⟨early,late,rfl,mem⟩ := held
  exact ⟨early,late ++ more,List.append_assoc _ _ _,mem⟩

theorem reachableMarks (node : Node) (es : List Event) : ∀ j ∈ (run (step node) Db.empty es).deletionJobs,
    ∀ id, tombstonedGrant j (run (step node) Db.empty es) id = true →
      ∃ g, Held node es g ∧ grantInScope j g ∧ g.id = id := by
  induction es using List.reverseRecOn with
  | nil => exact fun j mem => absurd mem List.not_mem_nil
  | append_singleton es e ih =>
    intro j mem id hit
    rw [runAppend] at mem hit
    rcases stepJobs (reachableTombstoneJobs node es) mem with ⟨o,ho,same⟩ | begun
    · have before : tombstonedGrant o (run (step node) Db.empty es) id = true := by
        rw [← stepTombstoned ⟨o,ho,rfl⟩,← sameScopeTombstoned same]
        exact hit
      obtain ⟨g,held,scope,named⟩ := ih o ho id before
      exact ⟨g,heldLater held,(sameScopeGrants same).mpr scope,named⟩
    · obtain ⟨g,stored,scope,named⟩ := begun id hit
      exact ⟨g,heldLater (heldNow stored),scope,named⟩

/- A grant id that no grant of the scope has had in the run. -/
def Foreign (node : Node) (es : List Event) (job : DeletionJob) (id : GrantId) : Prop :=
  ∀ g, Held node es g → g.id = id → ¬grantInScope job g

theorem reachableMarked {jobId : JobId} (found : jobOf jobId (run (step node) Db.empty es) = some job) :
    Marked job (Foreign node es job) (run (step node) Db.empty es) := by
  intro id hit apart
  obtain ⟨g,held,scope,named⟩ := reachableMarks node es job (List.mem_of_find?_eq_some found) id hit
  exact apart g held named scope

theorem proposalsAppend (es fs : List Event) : proposals (es ++ fs) = proposals es ++ proposals fs :=
  List.filterMap_append

theorem runSame {more : List Event} (fresh : (proposals (es ++ more)).Nodup) {g r : Grant}
    (mem : g ∈ (run (step node) Db.empty es).grants) (later : r ∈ (run (step node) Db.empty (es ++ more)).grants)
    (named : r.id = g.id) : SameGrant g r := by
  rw [runAppend] at later
  refine advancesKeeps (runAdvances (reachableWellFormed node es) mem (fun again => ?_) later named)
  rcases runIds wellFormedEmpty mem with ⟨o,ho,_⟩ | proposed
  · simp [Db.empty] at ho
  · rw [proposalsAppend] at fresh
    exact (List.nodup_append.mp fresh).2.2 _ proposed _ again rfl

theorem sameGrantScope {g r : Grant} (same : SameGrant g r) : grantInScope job g ↔ grantInScope job r := by
  unfold grantInScope
  rw [same.subjectId,same.tenantId,same.siteId]

theorem heldScope (fresh : (proposals es).Nodup) {g r : Grant} (held : Held node es g) (other : Held node es r)
    (named : r.id = g.id) : grantInScope job g ↔ grantInScope job r := by
  obtain ⟨early,late,rfl,mem⟩ := held
  obtain ⟨first,rest,same,stored⟩ := other
  rcases List.append_eq_append_iff.mp same with ⟨more,rfl,_⟩ | ⟨more,rfl,_⟩
  · rw [same,proposalsAppend] at fresh
    exact sameGrantScope (runSame (List.nodup_append.mp fresh).1 mem stored named)
  · rw [proposalsAppend] at fresh
    exact (sameGrantScope (runSame (List.nodup_append.mp fresh).1 stored mem named.symm)).symm

theorem heldProposed {g : Grant} (held : Held node es g) : g.id ∈ proposals es := by
  obtain ⟨early,late,rfl,mem⟩ := held
  rw [proposalsAppend]
  rcases runIds wellFormedEmpty mem with ⟨o,ho,_⟩ | proposed
  · simp [Db.empty] at ho
  · exact List.mem_append_left _ proposed

end Marks

section Idle
variable {jobId : JobId} {job : DeletionJob} {db next : Db} {observedAt now : Time}

def Idle (observedAt : Time) (job : DeletionJob) : Prop :=
  job.status = .complete ∨ job.status = .failed ∨
    (job.status = .waiting ∧ ∃ safeAfter, job.safeAfter = some safeAfter ∧ observedAt < safeAfter)

theorem idleNotPending (idle : Idle observedAt job) : job.status ≠ .pending := by
  intro pending
  rcases idle with done | done | ⟨done,_⟩ <;> rw [pending] at done <;> contradiction

theorem idleUnsafe (idle : Idle observedAt job) (waiting : job.status = .waiting) :
    job.safeAfter.all (fun safeAfter => decide (observedAt < safeAfter)) = true := by
  rcases idle with done | done | ⟨_,safeAfter,due,early⟩
  · rw [waiting] at done
    contradiction
  · rw [waiting] at done
    contradiction
  · rw [due,Option.all_some]
    exact decide_eq_true early

theorem advancedIdle (found : jobOf jobId db = some job) (idle : Idle observedAt job)
    (moved : Advanced jobId observedAt now db next) : next = db := by
  cases moved with
  | missing none =>
    rw [found] at none
    contradiction
  | ended _ _ | early _ _ _ => rfl
  | revoked other pending _ | revokeRaised other pending _ =>
    cases found.symm.trans other
    exact absurd pending (idleNotPending idle)
  | purged other waiting safe _ | purgeRaised other waiting safe _ =>
    cases found.symm.trans other
    rw [idleUnsafe idle waiting] at safe
    contradiction

theorem advancedMissing (none : jobOf jobId db = none) (moved : Advanced jobId observedAt now db next) : next = db := by
  cases moved with
  | missing _ =>
    unfold setJob
    rw [updateNone]
    intro j mem
    unfold jobOf at none
    simpa using List.find?_eq_none.mp none j mem
  | ended _ _ | early _ _ _ => rfl
  | revoked other _ _ | purged other _ _ _ | revokeRaised other _ _ | purgeRaised other _ _ _ =>
    rw [none] at other
    contradiction

end Idle

/- An advance of a job leaves what is outside its scope, and everything when it is not due.
The ids outside are those of grants of another subject, tenant or site, and all that were
never the id of a grant. -/
theorem deletionFrames (node : Node) (es : List Event) (jobId : JobId) (observedAt now : Time)
    (fresh : (proposals es).Nodup) :
    let db := run (step node) Db.empty es
    let next := step node db (advanceOf jobId observedAt now)
    (jobOf jobId db = none → next = db) ∧ ∀ job, jobOf jobId db = some job →
      Framed (outsideOf job (Foreign node es job)) db next ∧
      (∀ g, Held node es g → ¬grantInScope job g → Foreign node es job g.id) ∧
      (∀ id, id ∉ proposals es → Foreign node es job id) ∧
      (Idle observedAt job → next = db) := by
  intro db next
  have moved : Advanced jobId observedAt now db next := advanced jobId observedAt now db
  refine ⟨fun none => advancedMissing none moved,fun job found => ⟨?_,?_,?_,fun idle => advancedIdle found idle moved⟩⟩
  · refine advanceFramed (reachableWellFormed node es) found (fun g mem scope apart => ?_) (reachableMarked found)
    exact apart g (heldNow mem) rfl scope
  · intro g held outside r other named scope
    exact outside ((heldScope fresh held other named).mpr scope)
  · intro id unknown g held named
    exact absurd (named ▸ heldProposed held) unknown

theorem siteFramed :
    let es := approvedHistory ++ [beginOf siteJob .site sampleSite (some sampleTenant) sampleAccount (seconds 30)]
    let db := run (step (sampleNode [] [])) Db.empty es
    ∃ job, jobOf siteJob db = some job ∧ job.scopeKind = .site ∧
      Framed (outsideOf job (Foreign (sampleNode [] []) es job)) db
        (step (sampleNode [] []) db (advanceOf siteJob (seconds 40) (seconds 40))) := by
  intro es db
  have found : jobOf siteJob db = some siteScope := by decide
  exact ⟨siteScope,found,rfl,((deletionFrames (sampleNode [] []) es siteJob (seconds 40) (seconds 40) (by decide)).2
    siteScope found).1⟩

end Wepuu.DeletionFrames
