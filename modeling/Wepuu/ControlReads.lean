import Wepuu.PairingService
import Wepuu.RowSecurity

/-! What Database.withTenant reads for the control API and the two services: a query sees the
rows that the policies of wepuu_control admit for its context. Several queries have no
tenant predicate of their own; every answer is a function of the tenant's rows alone. -/
namespace Wepuu.ControlReads
open Consent Grants NodeApi Pairing PairingService Relational RowSecurity Schema Tenancy

section Queries

/- The order of a text column: total, and equal only on equal texts. -/
structure Collation where
  le : String → String → Bool
  total : ∀ a b, le a b = true ∨ le b a = true
  trans : ∀ a b c, le a b = true → le b c = true → le a c = true
  antisymm : ∀ a b, le a b = true → le b a = true → a = b

def Collation.on {α : Type} (collation : Collation) (text : α → String) (a b : α) : Prop :=
  collation.le (text a) (text b) = true

instance {α : Type} (collation : Collation) (text : α → String) : DecidableRel (collation.on text) := fun a b =>
  inferInstanceAs (Decidable (collation.le (text a) (text b) = true))
instance {α : Type} (collation : Collation) (text : α → String) : Std.Total (collation.on text) :=
  ⟨fun a b => collation.total (text a) (text b)⟩
instance {α : Type} (collation : Collation) (text : α → String) : IsTrans α (collation.on text) :=
  ⟨fun a b c => collation.trans (text a) (text b) (text c)⟩

/- created_at is DEFAULT now() and never written again: it stands beside the rows, by primary key. -/
structure Stamps where
  tenantCreatedAt : TenantId → Time
  siteCreatedAt : TenantId → SiteId → Time

structure PrimaryKeys (db : Db) : Prop where
  tenants : (db.tenants.map (·.id)).Nodup
  sites : (db.sites.map fun s => (s.tenantId,s.id)).Nodup
  pairingAttempts : (db.pairingAttempts.map fun a => (a.tenantId,a.id)).Nodup
  grants : (db.grants.map fun g => (g.tenantId,g.id)).Nodup
  idempotencyRecords : (db.idempotencyRecords.map fun r => (r.tenantId,r.operation,r.idempotencyKey)).Nodup
  securityEvents : (db.securityEvents.map (·.id)).Nodup

structure ControlState where
  db : Db
  stamps : Stamps
  keys : PrimaryKeys db

def ControlState.tenantRows (state : ControlState) : List (Tenant × Time) :=
  state.db.tenants.map fun t => (t,state.stamps.tenantCreatedAt t.id)
def ControlState.siteRows (state : ControlState) : List (Site × Time) :=
  state.db.sites.map fun s => (s,state.stamps.siteCreatedAt s.tenantId s.id)

def tenantAccess (context : TenantContext) (db : Db) (t : Tenant) : Bool :=
  t.id == context.tenantId && hasActiveMembership db t.id context.accountId

def securityEventAccess (context : TenantContext) (db : Db) (e : SecurityEventRow) : Bool :=
  e.tenantId == context.tenantId && hasActiveMembership db e.tenantId context.accountId

structure TenantView where
  id : TenantId
  status : TenantStatus
  createdAt : Time
  deriving DecidableEq, Repr

structure SiteView where
  tenantId : TenantId
  id : SiteId
  resource : String
  displayHostname : String
  status : SiteStatus
  protocolVersion : String
  createdAt : Time
  deriving DecidableEq, Repr

structure GrantView where
  tenantId : TenantId
  id : GrantId
  siteId : SiteId
  subjectId : AccountId
  clientId : ClientId
  scopes : List McpScope
  status : GrantStatus
  consentVersion : String
  createdAt : Time
  deriving DecidableEq, Repr

structure SecurityEventView where
  id : Nat
  occurredAt : Time
  eventName : SecurityEventName
  outcome : SecurityOutcome
  reason : SecurityReason
  correlationId : String
  service : AuditService
  deriving DecidableEq, Repr

-- A Date has whole milliseconds, and protocol_version is '1' by its CHECK.
def tenantView (row : Tenant × Time) : TenantView := ⟨row.1.id,row.1.status,asDate row.2⟩
def siteView (row : Site × Time) : SiteView :=
  ⟨row.1.tenantId,row.1.id,row.1.resourceUri,row.1.displayHostname,row.1.status,"1",asDate row.2⟩
def grantView (g : Grant) : GrantView :=
  ⟨g.tenantId,g.id,g.siteId,g.subjectId,g.clientId,g.scopes,g.status,g.consentVersion,asDate g.createdAt⟩
def securityEventView (e : SecurityEventRow) : SecurityEventView :=
  ⟨e.id,asDate e.occurredAt,e.eventName,e.outcome,e.reason,e.correlationId,e.service⟩

variable (collation : Collation) (context : TenantContext) (state : ControlState)

def findTenant : Option TenantView :=
  (state.tenantRows.find? fun row => row.1.id == context.tenantId && tenantAccess context state.db row.1).map tenantView

def findActiveSite (site : SiteId) : Option SiteView :=
  (state.siteRows.find? fun row => row.1.tenantId == context.tenantId && row.1.id == site && row.1.status == .active &&
    siteTenantSelect context state.db row.1).map siteView

abbrev siteOrder : Site × Time → Site × Time → Prop := ThenBy (fun row => row.2) (collation.on fun row => row.1.id)
abbrev grantOrder : Grant → Grant → Prop := ThenBy (fun g => g.createdAt) (collation.on fun g => g.id)

/- ORDER BY occurred_at DESC, id DESC -/
def laterId (a b : SecurityEventRow) : Prop := b.id ≤ a.id
abbrev eventOrder : SecurityEventRow → SecurityEventRow → Prop := ThenBy (fun e => -e.occurredAt) laterId

instance : DecidableRel laterId := fun a b => inferInstanceAs (Decidable (b.id ≤ a.id))
instance : Std.Total laterId := ⟨fun a b => by unfold laterId; omega⟩
instance : IsTrans SecurityEventRow laterId := ⟨fun a b c ab bc => by unfold laterId at *; omega⟩

def listSites : List SiteView :=
  ((state.siteRows.filter fun row => row.1.status != .deleted && siteTenantSelect context state.db row.1).insertionSort
    (siteOrder collation)).map siteView

def grantViews (rows : List Grant) : Except Fault (List GrantView) :=
  if rows.all fun g => scopeSet g.scopes then .ok (rows.map grantView) else .error zodError

def listGrants : Except Fault (List GrantView) :=
  grantViews ((state.db.grants.filter (grantTenantAccess context state.db)).insertionSort (grantOrder collation))

def safeLimit (limit : Int) : Nat := (max 1 (min 100 limit)).toNat
def safeOffset (offset : Int) : Nat := (max 0 (min 10000 offset)).toNat

def listSecurityEvents (limit offset : Int) (outcome : Option SecurityOutcome) : List SecurityEventView :=
  ((((state.db.securityEvents.filter fun e => outcome.all (e.outcome == ·) && securityEventAccess context state.db e).insertionSort
    eventOrder).drop (safeOffset offset)).take (safeLimit limit)).map securityEventView

/- The reads through withTenant; the repositories of the services name a tenant of their own. -/
inductive Read where
  | findTenant
  | listSites
  | findActiveSite (site : SiteId)
  | listGrants
  | listSecurityEvents (limit offset : Int) (outcome : Option SecurityOutcome)
  | findPending (tenant : TenantId) (grantId : GrantId) (key : String)
  | findAttemptForUpdate (tenant : TenantId) (attempt : String)
  deriving DecidableEq, Repr

inductive Answer where
  | tenant (view : Option TenantView)
  | sites (views : List SiteView)
  | site (view : Option SiteView)
  | grants (views : List GrantView)
  | events (views : List SecurityEventView)
  | pending (record : Option PendingGrantRecord)
  | attempt (record : Option PairingAttemptRecord)
  deriving DecidableEq, Repr

def withTenant : Read → Except Fault Answer
  | .findTenant => .ok (.tenant (findTenant context state))
  | .listSites => .ok (.sites (listSites collation context state))
  | .findActiveSite site => .ok (.site (findActiveSite context state site))
  | .listGrants => (listGrants collation context state).map .grants
  | .listSecurityEvents limit offset outcome => .ok (.events (listSecurityEvents context state limit offset outcome))
  | .findPending tenant grantId key => (findPending context tenant grantId key state.db).map .pending
  | .findAttemptForUpdate tenant attempt => .ok (.attempt (findAttemptForUpdate context tenant attempt state.db))

end Queries

section Confinement
variable {collation : Collation} {context : TenantContext} {a b : ControlState}

structure AgreeOn (tenant : TenantId) (a b : ControlState) : Prop where
  tenants : AgreeWhere (fun row => row.1.id = tenant) a.tenantRows b.tenantRows
  memberships : AgreeWhere (fun m => m.tenantId = tenant) a.db.memberships b.db.memberships
  sites : AgreeWhere (fun row => row.1.tenantId = tenant) a.siteRows b.siteRows
  pairingAttempts : AgreeWhere (fun r => r.tenantId = tenant) a.db.pairingAttempts b.db.pairingAttempts
  grants : AgreeWhere (fun g => g.tenantId = tenant) a.db.grants b.db.grants
  idempotencyRecords : AgreeWhere (fun r => r.tenantId = tenant) a.db.idempotencyRecords b.db.idempotencyRecords
  securityEvents : AgreeWhere (fun e => e.tenantId = tenant) a.db.securityEvents b.db.securityEvents

theorem keyOnce {α κ : Type} {key : α → κ} {rows : List α} (keys : (rows.map key).Nodup) {r o : α} (left : r ∈ rows)
    (right : o ∈ rows) (same : key r = key o) : r = o := List.inj_on_of_nodup_map keys left right same

theorem tenantRowsOnce {r o : Tenant × Time} (left : r ∈ a.tenantRows) (right : o ∈ a.tenantRows) (same : r.1.id = o.1.id) :
    r = o := by
  obtain ⟨t,ht,rfl⟩ := List.mem_map.mp left
  obtain ⟨u,hu,rfl⟩ := List.mem_map.mp right
  rw [keyOnce a.keys.tenants ht hu same]

theorem siteRowsOnce {r o : Site × Time} (left : r ∈ a.siteRows) (right : o ∈ a.siteRows)
    (tenant : r.1.tenantId = o.1.tenantId) (id : r.1.id = o.1.id) : r = o := by
  obtain ⟨s,hs,rfl⟩ := List.mem_map.mp left
  obtain ⟨t,ht,rfl⟩ := List.mem_map.mp right
  rw [keyOnce a.keys.sites hs ht (Prod.ext tenant id)]

theorem siteRowsNodup : a.siteRows.Nodup :=
  (List.Nodup.of_map _ a.keys.sites).map fun _ _ same => (Prod.mk.inj same).1

theorem sitesAgree (agree : AgreeOn context.tenantId a b) :
    AgreeWhere (fun s => s.tenantId = context.tenantId) a.db.sites b.db.sites := by
  intro s own
  have rows : ∀ c : ControlState, s ∈ c.db.sites ↔ ∃ at_, (s,at_) ∈ c.siteRows := by
    intro c
    simp [ControlState.siteRows]
  rw [rows a,rows b]
  exact exists_congr fun at_ => agree.sites (s,at_) own

theorem membershipAgrees (agree : AgreeOn context.tenantId a b) (account : AccountId) :
    hasActiveMembership a.db context.tenantId account = hasActiveMembership b.db context.tenantId account := by
  refine anyAgrees agree.memberships fun m hit => ?_
  simp only [Bool.and_eq_true,beq_iff_eq] at hit
  exact hit.1.1

theorem administersAgrees (agree : AgreeOn context.tenantId a b) (account : AccountId) :
    administers a.db context.tenantId account = administers b.db context.tenantId account := by
  refine anyAgrees agree.memberships ?_
  intro m hit
  simp only [Bool.and_eq_true,beq_iff_eq] at hit
  exact hit.1.1.1

theorem ownTenant {tenant own : TenantId} (f g : TenantId → Bool) (same : f own = g own) :
    (tenant == own && f tenant) = (tenant == own && g tenant) := by
  by_cases h : tenant = own
  · rw [h,same]
  · have apart : (tenant == own) = false := beq_eq_false_iff_ne.mpr h
    rw [apart,Bool.false_and,Bool.false_and]

theorem memberPolicyAgrees {α : Type} (agree : AgreeOn context.tenantId a b) (tenantOf : α → TenantId) :
    (fun r => tenantOf r == context.tenantId && hasActiveMembership a.db (tenantOf r) context.accountId) =
    fun r => tenantOf r == context.tenantId && hasActiveMembership b.db (tenantOf r) context.accountId :=
  funext fun _ => ownTenant (fun t => hasActiveMembership a.db t context.accountId)
    (fun t => hasActiveMembership b.db t context.accountId) (membershipAgrees agree _)

theorem tenantAccessAgrees (agree : AgreeOn context.tenantId a b) : tenantAccess context a.db = tenantAccess context b.db :=
  memberPolicyAgrees agree Tenant.id

theorem siteSelectAgrees (agree : AgreeOn context.tenantId a b) :
    siteTenantSelect context a.db = siteTenantSelect context b.db := memberPolicyAgrees agree Site.tenantId

theorem recordAccessAgrees (agree : AgreeOn context.tenantId a b) :
    idempotencyTenantAccess context a.db = idempotencyTenantAccess context b.db :=
  memberPolicyAgrees agree IdempotencyRecord.tenantId

theorem eventAccessAgrees (agree : AgreeOn context.tenantId a b) :
    securityEventAccess context a.db = securityEventAccess context b.db := memberPolicyAgrees agree SecurityEventRow.tenantId

theorem grantAccessAgrees (agree : AgreeOn context.tenantId a b) :
    grantTenantAccess context a.db = grantTenantAccess context b.db := by
  funext g
  refine ownTenant (fun t => g.subjectId == context.accountId || administers a.db t context.accountId)
    (fun t => g.subjectId == context.accountId || administers b.db t context.accountId) ?_
  rw [administersAgrees agree]

theorem attemptAccessAgrees (agree : AgreeOn context.tenantId a b) :
    pairingTenantAccess context a.db = pairingTenantAccess context b.db := by
  funext r
  unfold pairingTenantAccess
  rw [Bool.and_assoc,Bool.and_assoc]
  refine ownTenant (fun t => r.initiatorAccountId == context.accountId && administers a.db t context.accountId)
    (fun t => r.initiatorAccountId == context.accountId && administers b.db t context.accountId) ?_
  rw [administersAgrees agree]

theorem siteInside {s : Site} {db : Db} (seen : siteTenantSelect context db s = true) : s.tenantId = context.tenantId := by
  simp only [siteTenantSelect,Bool.and_eq_true,beq_iff_eq] at seen
  exact seen.1

theorem grantInside {g : Grant} {db : Db} (seen : grantTenantAccess context db g = true) : g.tenantId = context.tenantId := by
  simp only [grantTenantAccess,Bool.and_eq_true,beq_iff_eq] at seen
  exact seen.1

theorem findTenantAgrees (agree : AgreeOn context.tenantId a b) : findTenant context a = findTenant context b := by
  unfold findTenant
  rw [tenantAccessAgrees agree]
  congr 1
  refine findAgrees agree.tenants (fun row hit => ?_) fun r left o right hitR hitO => tenantRowsOnce left right ?_
  · simp only [Bool.and_eq_true,beq_iff_eq] at hit
    exact hit.1
  · simp only [Bool.and_eq_true,beq_iff_eq] at hitR hitO
    rw [hitR.1,hitO.1]

theorem findActiveSiteAgrees (agree : AgreeOn context.tenantId a b) (site : SiteId) :
    findActiveSite context a site = findActiveSite context b site := by
  unfold findActiveSite
  rw [siteSelectAgrees agree]
  congr 1
  refine findAgrees agree.sites (fun row hit => ?_) fun r left o right hitR hitO => ?_
  · simp only [Bool.and_eq_true,beq_iff_eq] at hit
    exact hit.1.1.1
  · simp only [Bool.and_eq_true,beq_iff_eq] at hitR hitO
    exact siteRowsOnce left right (hitR.1.1.1.trans hitO.1.1.1.symm) (hitR.1.1.2.trans hitO.1.1.2.symm)

theorem listSitesAgrees (agree : AgreeOn context.tenantId a b) : listSites collation context a = listSites collation context b := by
  unfold listSites
  rw [siteSelectAgrees agree]
  congr 1
  refine orderedAgrees agree.sites (fun row hit => ?_) siteRowsNodup siteRowsNodup fun r left o right hitR hitO ro or_ => ?_
  · exact siteInside (Bool.and_eq_true_iff.mp hit).2
  · obtain ⟨first,second⟩ := thenByBoth ro or_
    exact siteRowsOnce left right
      ((siteInside (Bool.and_eq_true_iff.mp hitR).2).trans (siteInside (Bool.and_eq_true_iff.mp hitO).2).symm)
      (collation.antisymm _ _ first second)

theorem listGrantsAgrees (agree : AgreeOn context.tenantId a b) :
    listGrants collation context a = listGrants collation context b := by
  unfold listGrants
  rw [grantAccessAgrees agree]
  congr 1
  refine orderedAgrees agree.grants (fun g hit => grantInside hit) (List.Nodup.of_map _ a.keys.grants)
    (List.Nodup.of_map _ b.keys.grants) fun g left o right hitG hitO go og => ?_
  obtain ⟨first,second⟩ := thenByBoth go og
  exact keyOnce a.keys.grants left right
    (Prod.ext ((grantInside hitG).trans (grantInside hitO).symm) (collation.antisymm _ _ first second))

theorem listSecurityEventsAgrees (agree : AgreeOn context.tenantId a b) (limit offset : Int)
    (outcome : Option SecurityOutcome) :
    listSecurityEvents context a limit offset outcome = listSecurityEvents context b limit offset outcome := by
  unfold listSecurityEvents
  rw [eventAccessAgrees agree]
  congr 3
  refine orderedAgrees agree.securityEvents (fun e hit => ?_) (List.Nodup.of_map _ a.keys.securityEvents)
    (List.Nodup.of_map _ b.keys.securityEvents) fun e left o right _ _ eo oe => ?_
  · simp only [securityEventAccess,Bool.and_eq_true,beq_iff_eq] at hit
    exact hit.2.1
  · obtain ⟨first,second⟩ := thenByBoth eo oe
    exact keyOnce a.keys.securityEvents left right (Nat.le_antisymm second first)

theorem completionRecordAgrees (agree : AgreeOn context.tenantId a b) (tenant : TenantId) (key : String) :
    completionRecord context tenant key a.db = completionRecord context tenant key b.db := by
  unfold completionRecord
  rw [recordAccessAgrees agree]
  refine findAgrees agree.idempotencyRecords (fun r hit => ?_) fun r left o right hitR hitO => ?_
  · simp only [idempotencyTenantAccess,Bool.and_eq_true,beq_iff_eq] at hit
    exact hit.2.1
  · simp only [Bool.and_eq_true,beq_iff_eq] at hitR hitO
    obtain ⟨⟨⟨tenantR,operationR⟩,keyR⟩,_⟩ := hitR
    obtain ⟨⟨⟨tenantO,operationO⟩,keyO⟩,_⟩ := hitO
    refine keyOnce a.keys.idempotencyRecords left right ?_
    rw [tenantR,operationR,keyR,tenantO,operationO,keyO]

theorem siteOfGrantAgrees (agree : AgreeOn context.tenantId a b) (g : Grant) :
    (a.db.sites.find? fun s => s.tenantId == g.tenantId && s.id == g.siteId && s.status == .active &&
      siteTenantSelect context b.db s) =
    b.db.sites.find? fun s => s.tenantId == g.tenantId && s.id == g.siteId && s.status == .active &&
      siteTenantSelect context b.db s := by
  refine findAgrees (sitesAgree agree) (fun s hit => siteInside (Bool.and_eq_true_iff.mp hit).2)
    fun s left t right hitS hitT => ?_
  simp only [Bool.and_eq_true,beq_iff_eq] at hitS hitT
  exact keyOnce a.keys.sites left right
    (Prod.ext (hitS.1.1.1.trans hitT.1.1.1.symm) (hitS.1.1.2.trans hitT.1.1.2.symm))

theorem findPendingAgrees (agree : AgreeOn context.tenantId a b) (tenant : TenantId) (grantId : GrantId) (key : String) :
    findPending context tenant grantId key a.db = findPending context tenant grantId key b.db := by
  have replay : ∀ g : Grant, completionReplay context g key a.db = completionReplay context g key b.db := by
    intro g
    unfold completionReplay
    rw [completionRecordAgrees agree]
  unfold findPending
  simp only [grantAccessAgrees agree,siteSelectAgrees agree,replay,siteOfGrantAgrees agree]
  rw [findSomeAgrees agree.grants]
  · intro g some_
    split at some_
    · rename_i hit
      simp only [Bool.and_eq_true] at hit
      exact grantInside hit.1.2
    · cases some_
  · intro g left o right someG someO
    split at someG
    · rename_i hitG
      split at someO
      · rename_i hitO
        simp only [Bool.and_eq_true,beq_iff_eq] at hitG hitO
        exact keyOnce a.keys.grants left right
          (Prod.ext (hitG.1.1.1.trans hitO.1.1.1.symm) (hitG.1.1.2.trans hitO.1.1.2.symm))
      · cases someO
    · cases someG

theorem findAttemptAgrees (agree : AgreeOn context.tenantId a b) (tenant : TenantId) (attempt : String) :
    findAttemptForUpdate context tenant attempt a.db = findAttemptForUpdate context tenant attempt b.db := by
  unfold findAttemptForUpdate
  rw [attemptAccessAgrees agree]
  congr 1
  refine findAgrees agree.pairingAttempts (fun r hit => ?_) fun r left o right hitR hitO => ?_
  · simp only [pairingTenantAccess,Bool.and_eq_true,beq_iff_eq] at hit
    exact hit.2.1.1
  · simp only [Bool.and_eq_true,beq_iff_eq] at hitR hitO
    exact keyOnce a.keys.pairingAttempts left right
      (Prod.ext (hitR.1.1.1.trans hitO.1.1.1.symm) (hitR.1.1.2.trans hitO.1.1.2.symm))

/- Rows of other tenants never show in an answer. -/
theorem readConfined (collation : Collation) (context : TenantContext) (a b : ControlState)
    (agree : AgreeOn context.tenantId a b) (query : Read) :
    withTenant collation context a query = withTenant collation context b query := by
  cases query with
  | findTenant => simp only [withTenant,findTenantAgrees agree]
  | listSites => simp only [withTenant,listSitesAgrees agree]
  | findActiveSite site => simp only [withTenant,findActiveSiteAgrees agree]
  | listGrants => simp only [withTenant,listGrantsAgrees agree]
  | listSecurityEvents limit offset outcome => simp only [withTenant,listSecurityEventsAgrees agree]
  | findPending tenant grantId key => simp only [withTenant,findPendingAgrees agree]
  | findAttemptForUpdate tenant attempt => simp only [withTenant,findAttemptAgrees agree]

end Confinement

section Sample
open Wepuu.System Runs

def textOrder : Collation where
  le a b := decide (a ≤ b)
  total a b := by simpa using String.le_total a b
  trans a b c ab bc := by
    simp only [decide_eq_true_eq] at ab bc ⊢
    exact String.le_trans ab bc
  antisymm a b ab ba := by
    simp only [decide_eq_true_eq] at ab ba
    exact String.le_antisymm ab ba

def sampleStamps : Stamps := ⟨fun _ => seconds 2,fun _ _ => seconds 5⟩

def approvedDb : Db := run (step (sampleNode [] [])) Db.empty approvedHistory

def aloneState : ControlState :=
  ⟨approvedDb,sampleStamps,⟨by decide,by decide,by decide,by decide,by decide,by decide⟩⟩

def otherTenant : TenantId := "22222222-2222-4222-8222-222222222222"

def otherEvent : SecurityEventRow :=
  ⟨7,otherTenant,seconds 9,.accessDenied,.denied,.membershipMissing,"correlation_0007",.controlApi⟩

def sharedState : ControlState where
  db := { approvedDb with
    tenants := ⟨otherTenant,.active,none⟩ :: approvedDb.tenants
    memberships := ⟨otherTenant,memberAccount,.owner,.active,none⟩ :: approvedDb.memberships
    sites := { sampleSiteRow with tenantId := otherTenant, resourceUri := "https://other.example/mcp" } :: approvedDb.sites
    grants := { approvedSample with tenantId := otherTenant, id := "grant_0009" } :: approvedDb.grants
    securityEvents := otherEvent :: approvedDb.securityEvents }
  stamps := sampleStamps
  keys := ⟨by decide,by decide,by decide,by decide,by decide,by decide⟩

theorem agreeCons {α : Type} {p : α → Prop} {rows : List α} {r : α} (outside : ¬p r) : AgreeWhere p rows (r :: rows) := by
  intro o own
  refine ⟨List.mem_cons_of_mem _,fun mem => (List.mem_cons.mp mem).resolve_left fun same => ?_⟩
  exact outside (same ▸ own)

theorem statesAgree : AgreeOn sampleTenant aloneState sharedState where
  tenants := agreeCons (r := ((⟨otherTenant,.active,none⟩ : Tenant),_)) (by decide)
  memberships := agreeCons (by decide)
  sites := agreeCons (r := ({ sampleSiteRow with tenantId := otherTenant, resourceUri := "https://other.example/mcp" },_))
    (by decide)
  pairingAttempts _ _ := Iff.rfl
  grants := agreeCons (by decide)
  idempotencyRecords _ _ := Iff.rfl
  securityEvents := agreeCons (by decide)

theorem otherTenantUnseen :
    (∀ query, withTenant textOrder sampleContext aloneState query = withTenant textOrder sampleContext sharedState query) ∧
    withTenant textOrder sampleContext aloneState .listSites = .ok (.sites [siteView (sampleSiteRow,seconds 5)]) :=
  ⟨readConfined textOrder sampleContext aloneState sharedState statesAgree,by decide⟩

end Sample

end Wepuu.ControlReads
