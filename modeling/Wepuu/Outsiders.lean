import Wepuu.ControlReads

/-! An account without an active membership of a tenant, under a context that names both. The
policies leave it the grants whose subject it is, and nothing else of the tenant. -/
namespace Wepuu.Outsiders
open ControlReads Grants NodeApi Pairing Relational RowSecurity Runs Schema Tenancy Wepuu.System

structure SameRows (tenant : TenantId) (db next : Db) : Prop where
  tenants : next.tenants.filter (·.id == tenant) = db.tenants.filter (·.id == tenant)
  memberships : next.memberships.filter (·.tenantId == tenant) = db.memberships.filter (·.tenantId == tenant)
  homeTenants : next.homeTenants.filter (·.tenantId == tenant) = db.homeTenants.filter (·.tenantId == tenant)
  sites : next.sites.filter (·.tenantId == tenant) = db.sites.filter (·.tenantId == tenant)
  pairingAttempts : next.pairingAttempts.filter (·.tenantId == tenant) = db.pairingAttempts.filter (·.tenantId == tenant)
  grants : next.grants.filter (·.tenantId == tenant) = db.grants.filter (·.tenantId == tenant)
  idempotencyRecords : next.idempotencyRecords.filter (·.tenantId == tenant) =
    db.idempotencyRecords.filter (·.tenantId == tenant)
  refreshFamilies : next.refreshFamilies.filter (·.tenantId == tenant) = db.refreshFamilies.filter (·.tenantId == tenant)
  revocationOutbox : next.revocationOutbox.filter (·.tenantId == tenant) =
    db.revocationOutbox.filter (·.tenantId == tenant)
  securityEvents : next.securityEvents.filter (·.tenantId == tenant) = db.securityEvents.filter (·.tenantId == tenant)

theorem sameRowsRefl (tenant : TenantId) (db : Db) : SameRows tenant db db := ⟨rfl,rfl,rfl,rfl,rfl,rfl,rfl,rfl,rfl,rfl⟩

/- The operations of the control API and of the repositories that a context is given to. -/
def operationContext (op : Op) : Option TenantContext := match op with
  | .createAttempt context _ | .markVerifying context _ _ | .failAttempt context _ _ _
  | .completePairing context _ _ _ _ | .createPending context _ | .activate context _ _ _ _ | .deny context _ _ _ _
  | .revoke context _ _ _ | .revokeGrantWithEvent context _ _ | .disconnectSiteWithEvent context _ _ => some context
  | _ => none

structure Denied (collation : Collation) (node : Node) (context : TenantContext) (state : ControlState) : Prop where
  tenant : withTenant collation context state .findTenant = .ok (.tenant none)
  sites : withTenant collation context state .listSites = .ok (.sites [])
  site : ∀ site, withTenant collation context state (.findActiveSite site) = .ok (.site none)
  grants : withTenant collation context state .listGrants = .ok (.grants [])
  events : ∀ limit offset outcome, withTenant collation context state (.listSecurityEvents limit offset outcome) = .ok (.events [])
  unchanged : ∀ e, operationContext e.op = some context → SameRows context.tenantId state.db (step node state.db e)

section Policies
variable {context : TenantContext} {db : Db}

def outside (context : TenantContext) (db : Db) : Prop :=
  hasActiveMembership db context.tenantId context.accountId = false

instance : Decidable (outside context db) := inferInstanceAs (Decidable (_ = false))

theorem noRole (out : outside context db) : administers db context.tenantId context.accountId = false := by
  rw [outside,hasActiveMembership,List.any_eq_false] at out
  rw [administers,hasTenantRole,List.any_eq_false]
  intro m mem hit
  simp only [Bool.and_eq_true] at hit
  exact out m mem (by simp only [hit.1.1.1,hit.1.1.2,hit.1.2,Bool.and_self])

theorem noMembership {tenant : TenantId} (out : outside context db) :
    (tenant == context.tenantId && hasActiveMembership db tenant context.accountId) = false := by
  by_cases own : tenant = context.tenantId
  · rw [own,out,Bool.and_false]
  · rw [beq_eq_false_iff_ne.mpr own,Bool.false_and]

theorem noAdministration {tenant : TenantId} (out : outside context db) :
    (tenant == context.tenantId && administers db tenant context.accountId) = false := by
  by_cases own : tenant = context.tenantId
  · rw [own,noRole out,Bool.and_false]
  · rw [beq_eq_false_iff_ne.mpr own,Bool.false_and]

theorem noAttempt (out : outside context db) (a : PairingAttempt) : pairingTenantAccess context db a = false := by
  rw [pairingTenantAccess,Bool.and_right_comm,noAdministration out,Bool.false_and]

theorem ownGrants (out : outside context db) (g : Grant) :
    grantTenantAccess context db g = true ↔ g.tenantId = context.tenantId ∧ g.subjectId = context.accountId := by
  rw [grantTenantAccess,Bool.and_eq_true,beq_iff_eq]
  refine and_congr_right fun own => ?_
  rw [own,noRole out,Bool.or_false,beq_iff_eq]

end Policies

section Operations
variable {node : Node} {context : TenantContext} {db : Db}

theorem noRecord (out : outside context db) (tenant : TenantId) (key : String) :
    completionRecord context tenant key db = none := by
  refine List.find?_eq_none.mpr fun r _ hit => ?_
  rw [idempotencyTenantAccess,noMembership out,Bool.and_false] at hit
  contradiction

theorem noInsert (out : outside context db) (row : IdempotencyRecord) (grants : List Grant) :
    insertIdempotency context row { db with grants := grants } = .error .insufficientPrivilege := by
  have denied : idempotencyTenantAccess context { db with grants := grants } row = false := noMembership out
  simp only [insertIdempotency,denied]
  rfl

/- The update would reach an own pending grant; the record of the completion does not go in,
and the transaction is rolled back. -/
theorem settleRefused (out : outside context db) {outcome : Grant → Grant} {tenant : TenantId} {grantId : GrantId}
    {key : String} {digest : Digest} {now : Time} :
    ∃ fault, settleConsent outcome context tenant grantId key digest now db = .error fault := by
  unfold settleConsent
  rw [noRecord out]
  simp only [noInsert out]
  cases ensure _ _ with
  | error fault => exact ⟨fault,rfl⟩
  | ok _ => exact ⟨_,rfl⟩

theorem completeRefused (out : outside context db) {record : PairedAttempt} {proof : VerifiedKey} {site : SiteId}
    {key : String} {now : Time} : ∃ fault, complete node context record proof site key now db = .error fault := by
  have unseen : pairingRecord context record.tenantId key db = none := by
    refine List.find?_eq_none.mpr fun r _ hit => ?_
    rw [idempotencyTenantAccess,noMembership out,Bool.and_false] at hit
    contradiction
  unfold complete
  simp only [unseen]
  cases node.parseUrl record.resource with
  | none => exact ⟨_,rfl⟩
  | some url =>
    have denied : siteTenantInsert context db (pairedSite record proof site url.hostname) = false := noAdministration out
    refine ⟨.insufficientPrivilege,?_⟩
    show (do ensure (siteTenantInsert context db (pairedSite record proof site url.hostname)) .insufficientPrivilege; _) = _
    rw [denied]
    rfl

theorem createPendingRefused (out : outside context db) {record : NewPendingGrant} :
    createPending context record db = .error (.thrown "active_site_not_found") := by
  have unseen : priorCreation context record.tenantId record.idempotencyKey db = none := by
    refine List.findSome?_eq_none_iff.mpr fun r _ => if_neg ?_
    rw [idempotencyTenantAccess,noMembership out,Bool.and_false]
    decide
  have closed : activeSiteFor context record db = false := by
    refine List.any_eq_false.mpr fun s _ hit => ?_
    rw [siteTenantSelect,noMembership out,Bool.and_false] at hit
    contradiction
  unfold createPending
  rw [unseen]
  simp only [closed]
  rfl

theorem outsiderStays (out : outside context db)
    (grantless : ∀ g ∈ db.grants, g.tenantId = context.tenantId → g.subjectId ≠ context.accountId) {e : Event}
    (given : operationContext e.op = some context) : step node db e = db := by
  obtain ⟨now,op⟩ := e
  cases op <;> simp only [operationContext] at given <;> cases given
  case createAttempt record =>
    have denied := noAttempt out ⟨record.tenantId,record.id,record.initiatorAccountId,record.resource,
      record.verifierHash,.pending,record.expiresAt,none,none,none⟩
    simp only [step,exec,createAttempt,denied]
    rfl
  case markVerifying tenant attempt =>
    have none_ : ∀ a ∈ db.pairingAttempts,
        (attemptTarget context tenant attempt .pending db a && decide (now < a.expiresAt)) = false := by
      intro a _
      rw [attemptTarget,noAttempt out,Bool.and_false,Bool.false_and]
    show { db with pairingAttempts := updateWhere _ _ db.pairingAttempts } = db
    rw [updateNone none_]
  case failAttempt tenant attempt reason =>
    have none_ : ∀ a ∈ db.pairingAttempts, attemptTarget context tenant attempt .verifying db a = false := by
      intro a _
      rw [attemptTarget,noAttempt out,Bool.and_false]
    show { db with pairingAttempts := updateWhere _ _ db.pairingAttempts } = db
    rw [updateNone none_]
  case completePairing record proof site key =>
    obtain ⟨fault,refused⟩ := @completeRefused node context db out record proof site key now
    simp only [step,exec,refused]
    rfl
  case createPending record =>
    simp only [step,exec,createPendingRefused out]
    rfl
  case activate tenant grantId key proof =>
    obtain ⟨fault,refused⟩ := @settleRefused context db out approvedGrant tenant grantId key
      (completionDigest node grantId proof) now
    simp only [step,exec,activate,refused]
    rfl
  case deny tenant grantId key proof =>
    obtain ⟨fault,refused⟩ := @settleRefused context db out (deniedGrant now) tenant grantId key
      (completionDigest node grantId proof) now
    simp only [step,exec,deny,refused]
    rfl
  case revoke tenant grantId reason =>
    have none_ : ∀ g ∈ db.grants, repositoryTarget context tenant grantId db g = false := by
      intro g mem
      by_contra hit
      rw [Bool.not_eq_false,repositoryTarget,Bool.and_eq_true,ownGrants out] at hit
      exact grantless g mem hit.2.1 hit.2.2
    show { db with grants := updateWhere _ _ db.grants } = db
    rw [updateNone none_]
  case revokeGrantWithEvent tenant grantId =>
    simp only [step,exec,revokeGrantWithEvent,noMembership out]
    rfl
  case disconnectSiteWithEvent tenant site =>
    simp only [step,exec,disconnectSiteWithEvent,noAdministration out]
    rfl

end Operations
section Reads
variable {collation : Collation} {node : Node} {context : TenantContext} {state : ControlState}

theorem nothingListed {α β : Type} {le : α → α → Prop} [DecidableRel le] {q : α → Bool} {f : α → β} {rows : List α}
    (none_ : ∀ r ∈ rows, q r = false) : ((rows.filter q).insertionSort le).map f = [] := by
  have empty : rows.filter q = [] := List.filter_eq_nil_iff.mpr fun r mem hit => by simp [none_ r mem] at hit
  rw [empty]
  rfl

theorem noEvent (out : outside context state.db) (e : SecurityEventRow) : securityEventAccess context state.db e = false :=
  noMembership out

theorem noSite (out : outside context state.db) (s : Site) : siteTenantSelect context state.db s = false := noMembership out

theorem noTenant (out : outside context state.db) (t : Tenant) : tenantAccess context state.db t = false := noMembership out

theorem grantlessDenied (out : outside context state.db)
    (grantless : ∀ g ∈ state.db.grants, g.tenantId = context.tenantId → g.subjectId ≠ context.accountId) :
    Denied collation node context state where
  tenant := by
    have unseen : findTenant context state = none := by
      refine Option.map_eq_none_iff.mpr (List.find?_eq_none.mpr fun row _ hit => ?_)
      rw [noTenant out,Bool.and_false] at hit
      contradiction
    simp only [withTenant,unseen]
  sites := by
    have unseen : listSites collation context state = [] :=
      nothingListed fun row _ => by rw [noSite out,Bool.and_false]
    simp only [withTenant,unseen]
  site site := by
    have unseen : findActiveSite context state site = none := by
      refine Option.map_eq_none_iff.mpr (List.find?_eq_none.mpr fun row _ hit => ?_)
      rw [noSite out,Bool.and_false] at hit
      contradiction
    simp only [withTenant,unseen]
  grants := by
    have unseen : state.db.grants.filter (grantTenantAccess context state.db) = [] := by
      refine List.filter_eq_nil_iff.mpr fun g mem hit => ?_
      obtain ⟨own,subject⟩ := (ownGrants out g).mp hit
      exact grantless g mem own subject
    simp only [withTenant,listGrants,unseen]
    rfl
  events limit offset outcome := by
    have unseen : (state.db.securityEvents.filter fun e => outcome.all (e.outcome == ·) &&
        securityEventAccess context state.db e) = [] := by
      refine List.filter_eq_nil_iff.mpr fun e _ hit => ?_
      rw [noEvent out,Bool.and_false] at hit
      contradiction
    simp only [withTenant,listSecurityEvents,unseen,List.insertionSort_nil,List.drop_nil,List.take_nil,List.map_nil]
  unchanged e given := by
    rw [outsiderStays out grantless given]
    exact sameRowsRefl _ _

theorem ownGrantListed (out : outside context state.db) {g : Grant} (mem : g ∈ state.db.grants)
    (own : g.tenantId = context.tenantId) (subject : g.subjectId = context.accountId) :
    withTenant collation context state .listGrants ≠ .ok (.grants []) := by
  intro empty
  have seen : g ∈ (state.db.grants.filter (grantTenantAccess context state.db)).insertionSort (grantOrder collation) :=
    (List.mem_insertionSort _).mpr (List.mem_filter.mpr ⟨mem,(ownGrants out g).mpr ⟨own,subject⟩⟩)
  simp only [withTenant,listGrants,grantViews] at empty
  split at empty
  · simp only [Except.map,Except.ok.injEq,Answer.grants.injEq,List.map_eq_nil_iff] at empty
    rw [empty] at seen
    exact absurd seen List.not_mem_nil
  · cases empty

/- An account outside a tenant is denied everything exactly when no grant of the tenant names it. -/
theorem outsiderDenied (collation : Collation) (node : Node) (context : TenantContext) (state : ControlState)
    (out : outside context state.db) : Denied collation node context state ↔
      ∀ g ∈ state.db.grants, g.tenantId = context.tenantId → g.subjectId ≠ context.accountId :=
  ⟨fun denied _ mem own subject => ownGrantListed out mem own subject denied.grants,grantlessDenied out⟩

end Reads

theorem strangerDenied : Denied textOrder (sampleNode [] []) memberContext aloneState :=
  (outsiderDenied textOrder (sampleNode [] []) memberContext aloneState (by decide)).mpr (by decide)

def formerState : ControlState where
  db := { approvedDb with memberships := approvedDb.memberships.map fun m =>
    { m with status := .revoked, revokedAt := some (seconds 30) } }
  stamps := sampleStamps
  keys := ⟨by decide,by decide,by decide,by decide,by decide,by decide⟩

def formerRevokes : Event := ⟨seconds 40,.revoke sampleContext sampleTenant "grant_0001" "former member"⟩

/- It still reads its grant, and revokes it without an event for the site. -/
theorem formerMemberReaches : outside sampleContext formerState.db ∧
    withTenant textOrder sampleContext formerState .listGrants = .ok (.grants [grantView approvedSample]) ∧
    (step (sampleNode [] []) formerState.db formerRevokes).grants.map (·.status) = [.revoked] ∧
    ¬Denied textOrder (sampleNode [] []) sampleContext formerState := by
  have listed : withTenant textOrder sampleContext formerState .listGrants = .ok (.grants [grantView approvedSample]) := by
    decide
  refine ⟨by decide,listed,by decide,fun denied => ?_⟩
  rw [denied.grants] at listed
  cases listed

end Wepuu.Outsiders
