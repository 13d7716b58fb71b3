import Wepuu.ControlReads
import Wepuu.RevocationDelivery
import Wepuu.SecurityAudit

/-! The requests of the control API that build an audit event, as calls in flight with every
other operation of the system between their turns. A turn is one transaction, one answer of
a service, or the write of the event that the handler hands to safeAudit. -/
namespace Wepuu.AuditedRequests
open Base64Url Consent Grants Interleaving IsoDates NodeApi Relational RevocationDelivery Runs
open Schema SecurityAudit SiteProofs Statements Tenancy
open Wepuu.ConsentRetry (ControlApi priorKnown)
open Wepuu.Footprint (reachableWellFormed stepWellFormed)
open Wepuu.Reconsent (FirstCall beginOpens ofTuple)
open Wepuu.System (pairedHistory sampleAccount sampleNode sampleResource sampleSite sampleSiteRow sampleTenant)
open Wepuu.ControlReads (tenantAccess)

section Requests

/- randomBytes(18), written in base64url. -/
abbrev Drawn := { bytes : List UInt8 // bytes.length = 18 }
def Drawn.text (drawn : Drawn) : String := base64url drawn.1

inductive AuthenticationMethod where | oidc | emailOtp deriving DecidableEq, Repr

structure AccountPrincipal where
  accountId : AccountId
  authenticationTime : Int
  authenticationMethod : AuthenticationMethod
  deriving DecidableEq, Repr

def accountPrincipalSchema (principal : AccountPrincipal) : Bool :=
  opaqueId principal.accountId && decide (0 ≤ principal.authenticationTime)

structure RequestContext where
  tenantId : String
  accountId : AccountId
  correlationId : String
  deriving DecidableEq, Repr

def tenantContextSchema (formats : Formats) (context : RequestContext) : Bool :=
  formats.isUuid context.tenantId && opaqueId context.accountId && opaqueId context.correlationId

/- What the policies see of it: app.tenant_id is cast to uuid. -/
def RequestContext.rows (context : RequestContext) : TenantContext := ⟨storedUuid context.tenantId,context.accountId⟩

structure GrantStart where
  siteId : String
  clientId : String
  scopes : List McpScope
  idempotencyKey : String
  deriving DecidableEq, Repr

structure BootstrapClaims where
  interactionUid : String
  clientId : String
  resource : String
  scopes : List McpScope
  subjectId : String
  jwtId : String
  deriving DecidableEq, Repr

def bootstrapClaimsSchema (node : Node) (claims : BootstrapClaims) : Bool :=
  matchesClass opaqueChar 8 256 claims.interactionUid && clientIdShape claims.clientId &&
  canonicalResource node claims.resource && scopeSet claims.scopes && opaqueId claims.subjectId &&
  matchesClass opaqueChar 32 32 claims.jwtId

def textWithin (least most : Nat) (text : String) : Bool :=
  decide (least ≤ utf16Length text) && decide (utf16Length text ≤ most)

/- The routes under /v1/tenants/:tenantId; the others build no event of their own. -/
inductive Route where
  | tenant
  | pairing (resource verifier : String)
  | startGrant (start : GrantStart)
  | completeGrant (grantId proof challenge : String) (decision : ProofDecision) (idempotencyKey : String)
  | other
  deriving DecidableEq, Repr

def routeParses : Route → Bool
  | .tenant | .other => true
  | .pairing resource verifier => textWithin 1 2048 resource && matchesClass opaqueChar 43 128 verifier
  | .startGrant start => opaqueId start.siteId && clientIdShape start.clientId && scopeSet start.scopes &&
    idempotencyKeyShape start.idempotencyKey
  | .completeGrant grantId proof challenge _ key => opaqueId grantId && textWithin 1 (16 * 1024) proof &&
    matchesClass opaqueChar 43 43 challenge && idempotencyKeyShape key

inductive Body where
  | ofTenant (tenantId : String) (route : Route)
  | consentStart (request : String) (claims : Option BootstrapClaims)
  deriving DecidableEq, Repr

structure Asked where
  principal : Option AccountPrincipal
  drawn : Drawn
  body : Body

structure Api where
  control : ControlApi
  formats : Formats

variable (api : Api)

def bodyParses : Body → Bool
  | .ofTenant tenantId route => api.formats.isUuid tenantId && routeParses route
  | .consentStart request claims => textWithin 1 8192 request && claims.any (bootstrapClaimsSchema api.control.node)

def accepted (asked : Asked) : Bool := asked.principal.any accountPrincipalSchema && bodyParses api asked.body

/- The client id that a request with an identity starts a grant for. -/
def startedClient (asked : Asked) : Option String := match asked.principal, asked.body with
  | some _, .ofTenant _ (.startGrant start) => some start.clientId
  | some _, .consentStart _ (some claims) => some claims.clientId
  | _, _ => none

end Requests

section Events

def contextEvent (clock : UtcDate) (context : RequestContext) (eventName : SecurityEventName) (outcome : SecurityOutcome)
    (reason : SecurityReason) : SecurityAuditEvent where
  occurredAt := clock.toISOString
  eventName := eventName
  outcome := outcome
  reason := reason
  correlationId := context.correlationId
  tenantId := some context.tenantId
  siteId := none
  clientId := none
  grantId := none
  actorId := some context.accountId
  service := .controlApi
  serviceVersion := "0.5.0"
  durationBucket := none

def authenticationDenied (clock : UtcDate) (correlationId : String) (tenantId : Option String) : SecurityAuditEvent :=
  { contextEvent clock ⟨"","",correlationId⟩ .authenticationDenied .denied .identityMissing with
    tenantId := tenantId
    actorId := none }

def accessDenied (clock : UtcDate) (context : RequestContext) : SecurityAuditEvent :=
  contextEvent clock context .accessDenied .denied .membershipMissing

def pairingVerified (clock : UtcDate) (context : RequestContext) (siteId : SiteId) : SecurityAuditEvent :=
  { contextEvent clock context .pairingVerified .success .noReason with siteId := some siteId }

def pairingDenied (clock : UtcDate) (context : RequestContext) : SecurityAuditEvent :=
  contextEvent clock context .pairingDenied .denied .proofInvalid

def grantCreated (clock : UtcDate) (context : RequestContext) (start : GrantStart) (grantId : GrantId) : SecurityAuditEvent :=
  { contextEvent clock context .grantCreated .success .noReason with
    siteId := some start.siteId
    clientId := some start.clientId
    grantId := some grantId }

def grantDecided (clock : UtcDate) (context : RequestContext) (grantId : GrantId) : ProofDecision → SecurityAuditEvent
  | .approved => { contextEvent clock context .grantCreated .success .noReason with grantId := some grantId }
  | .denied => { contextEvent clock context .grantRevoked .denied .consentDenied with grantId := some grantId }

end Events

section Handlers
variable (api : Api)

inductive Stage where
  | anonymous (correlationId : String) (tenantId : Option String)
  | reading (context : RequestContext)
  | joining (context : RequestContext)
  | pairing (context : RequestContext)
  | gathering (principal : AccountPrincipal) (claims : BootstrapClaims)
  | collecting (principal : AccountPrincipal) (claims : BootstrapClaims) (rest : List TenantId)
      (found : List (RequestContext × Site))
  | selecting (context : RequestContext) (start : GrantStart)
  | starting (context : RequestContext) (start : GrantStart) (site : Site)
  | completing (context : RequestContext) (grantId : GrantId) (decision : ProofDecision)
  | auditing (clock : UtcDate) (event : SecurityAuditEvent)
  | answered

def routed (context : RequestContext) : Route → Stage
  | .tenant => .reading context
  | .pairing _ _ => .joining context
  | .startGrant start => .selecting context start
  | .completeGrant grantId _ _ decision _ => .completing context grantId decision
  | .other => .answered

def opened (asked : Asked) : Stage := match asked.principal, asked.body with
  | none, .ofTenant tenantId _ =>
    .anonymous asked.drawn.text (if api.formats.isUuid tenantId then some tenantId else none)
  | none, .consentStart _ _ => .answered
  | some principal, .ofTenant tenantId route =>
    let context := ⟨tenantId,principal.accountId,asked.drawn.text⟩
    if accountPrincipalSchema principal && bodyParses api asked.body && tenantContextSchema api.formats context then
      routed context route
    else .answered
  | some principal, .consentStart _ claims =>
    if accountPrincipalSchema principal && bodyParses api asked.body then
      match claims with
      | some claims => .gathering principal claims
      | none => .answered
    else .answered

/- What a turn reads besides the database: the clock, fresh bytes, what PairingService or
GrantService.complete comes to, and the signer of consent requests. -/
structure Turn where
  clock : UtcDate
  drawn : Drawn
  served : Bool
  signer : ConsentRequest → Option String

def listMemberships (account : AccountId) (db : Db) : List Membership := db.memberships.filter fun m =>
  m.accountId == account && m.status == .active && db.tenants.any fun t => t.id == m.tenantId && t.status == .active

def mayPair (context : RequestContext) (db : Db) : Bool :=
  ((listMemberships context.accountId db).find? (·.tenantId == context.tenantId)).any fun m =>
    m.role == .owner || m.role == .administrator

def findTenant (context : RequestContext) (db : Db) : Option Tenant :=
  db.tenants.find? fun t => t.id == context.rows.tenantId && tenantAccess context.rows db t

def matchingSites (context : RequestContext) (resource : String) (db : Db) : List Site := db.sites.filter fun s =>
  s.status != .deleted && siteTenantSelect context.rows db s && s.status == .active && s.resourceUri == resource

def findActive (context : RequestContext) (siteId : SiteId) (db : Db) : Option Site := db.sites.find? fun s =>
  s.tenantId == context.rows.tenantId && s.id == siteId && s.status == .active && siteTenantSelect context.rows db s

def beginInput (context : RequestContext) (start : GrantStart) (site : Site) (grantId : GrantId) : BeginInput :=
  ⟨context.tenantId,grantId,site.id,context.accountId,start.clientId,start.scopes,site.resourceUri,"1",
    start.idempotencyKey⟩

def grantService (t : Turn) : GrantService :=
  ⟨api.control.issuer,controlChallenge api.control.node api.control.secret,t.signer⟩

/- GrantService.begin; its statements take the tenant as a uuid. -/
def beginGrant (context : RequestContext) (start : GrantStart) (site : Site) (t : Turn) (db : Db) :
    Except Fault (Db × Option BegunConsent) := do
  let service := grantService api t
  let input := beginInput context start site ("grant_" ++ t.drawn.text)
  let (resource,challenge) ← parseBegin service api.control.node input
  let record := pendingRecord api.control.node input resource challenge t.clock.instant
  let (next,created) ← createPending context.rows { record with tenantId := context.rows.tenantId } db
  let payload := consentRequest service input resource challenge created
  .ok (next,(service.signer payload).map fun signature =>
    ⟨created.id,⟨payload,signature⟩,challenge,created.expiresAt⟩)

def consentKey (principal : AccountPrincipal) (claims : BootstrapClaims) : String :=
  interactionKey api.control.node principal.accountId claims.interactionUid

structure Shared where
  db : Db
  nextEventId : Nat

def stageTurn (s : Shared) (t : Turn) : Stage → Shared × Stage
  | .anonymous correlationId tenantId => (s,.auditing t.clock (authenticationDenied t.clock correlationId tenantId))
  | .reading context => match findTenant context s.db with
    | some _ => (s,.answered)
    | none => (s,.auditing t.clock (accessDenied t.clock context))
  | .joining context =>
    if mayPair context s.db then (s,.pairing context) else (s,.auditing t.clock (accessDenied t.clock context))
  | .pairing context =>
    if t.served then (s,.auditing t.clock (pairingVerified t.clock context ("site_" ++ t.drawn.text)))
    else (s,.auditing t.clock (pairingDenied t.clock context))
  | .gathering principal claims =>
    (s,.collecting principal claims ((listMemberships principal.accountId s.db).map (·.tenantId)) [])
  | .collecting principal claims (tenant :: rest) found =>
    let context := ⟨tenant,principal.accountId,t.drawn.text⟩
    if tenantContextSchema api.formats context then
      (s,.collecting principal claims rest
        (found ++ (matchingSites context claims.resource s.db).map fun site => (context,site)))
    else (s,.answered)
  | .collecting principal claims [] [(context,site)] =>
    (s,.selecting context ⟨site.id,claims.clientId,claims.scopes,consentKey api principal claims⟩)
  | .collecting _ _ [] _ => (s,.answered)
  | .selecting context start => match findActive context start.siteId s.db with
    | some site => (s,.starting context start site)
    | none => (s,.answered)
  | .starting context start site => match beginGrant api context start site t s.db with
    | .ok (next,some begun) => ({ s with db := next },.auditing t.clock (grantCreated t.clock context start begun.grantId))
    | .ok (next,none) => ({ s with db := next },.answered)
    | .error _ => (s,.answered)
  | .completing context grantId decision =>
    if t.served then (s,.auditing t.clock (grantDecided t.clock context grantId decision)) else (s,.answered)
  | .auditing _ event => (⟨safeAudit api.formats s.nextEventId event s.db,s.nextEventId + 1⟩,.answered)
  | .answered => (s,.answered)

inductive Request where
  | http (asked : Asked)
  | other (event : System.Event)

inductive Call where
  | http (asked : Asked) (stage : Stage)
  | other (event : System.Event) (done : Bool)

def opening : Request → Call
  | .http asked => .http asked (opened api asked)
  | .other event => .other event false

def turn (s : Shared) (c : Call) (t : Turn) : Shared × Call := match c with
  | .http asked stage => ((stageTurn api s t stage).1,.http asked (stageTurn api s t stage).2)
  | .other event false => ({ s with db := System.step api.control.node s.db event },.other event true)
  | .other event true => (s,.other event true)

abbrev Requests := World Shared Call
abbrev RequestMove := Move Request Turn

def requestStep : Requests → RequestMove → Requests := step (opening api) (turn api)

def started (history : List System.Event) : Requests := ⟨⟨run (System.step api.control.node) Db.empty history,1⟩,[]⟩

end Handlers

section Identifiers
variable {node : Node} {db next : Db}

theorem drawnChars (drawn : Drawn) : drawn.text.toList.length = 24 ∧ drawn.text.toList.all opaqueChar = true := by
  simp only [Drawn.text,base64url,String.toList_ofList]
  refine ⟨by rw [encodeLength,drawn.2],List.all_eq_true.mpr fun c mem => ?_⟩
  rw [← urlOpaque]
  exact encodeChars _ c mem

theorem prefixedOpaque {name : String} (drawn : Drawn) (short : name.toList.length ≤ 104)
    (plain : name.toList.all opaqueChar = true) : opaqueId (name ++ drawn.text) = true := by
  obtain ⟨length,chars⟩ := drawnChars drawn
  simp only [opaqueId,matchesClass,String.toList_append,List.length_append,length,List.all_append,plain,chars,
    Bool.and_self,Bool.and_true,Bool.and_eq_true,decide_eq_true_eq]
  omega

theorem drawnOpaque (drawn : Drawn) : opaqueId drawn.text = true := by
  have named := @prefixedOpaque "" drawn (by decide) (by decide)
  rwa [String.empty_append] at named

structure Identified (db : Db) : Prop where
  wellFormed : WellFormed db
  sites : ∀ s ∈ db.sites, opaqueId s.id = true
  grants : ∀ g ∈ db.grants, opaqueId g.id = true

theorem stepIdentified {e : System.Event} (known : Identified db) : Identified (System.step node db e) :=
  ⟨stepWellFormed known.wellFormed,stepSiteIds known.wellFormed known.sites,stepGrantIds known.wellFormed known.grants⟩

theorem reachedIdentified (history : List System.Event) : Identified (run (System.step node) Db.empty history) :=
  invariantAlways (fun _ _ known => stepIdentified known)
    ⟨wellFormedEmpty,fun _ mem => absurd mem List.not_mem_nil,fun _ mem => absurd mem List.not_mem_nil⟩ history

theorem auditIdentified {formats : Formats} {id : Nat} {event : SecurityAuditEvent} (known : Identified db) :
    Identified (safeAudit formats id event db) := by
  unfold safeAudit
  split
  · rename_i after row written
    obtain ⟨_,_,_,_,_,_,_,rfl⟩ := writeExactly.mp written
    obtain ⟨wf,sites,grants⟩ := known
    exact ⟨⟨wf.grantIndex,wf.grantSite,wf.neverSuspended,wf.siteIndex,wf.siteTenant,wf.outboxIndex,wf.numbered,
      wf.recordIndex,wf.secretIndex⟩,sites,grants⟩
  · exact known

theorem createdIdentified (node : Node) {context : TenantContext} {record : NewPendingGrant} {created : CreatedGrant}
    (known : Identified db) (ok : createPending context record db = .ok (next,created)) :
    Identified next ∧ opaqueId created.id = true := by
  have stepped : System.step node db ⟨0,.createPending context record⟩ = next := by
    simp only [System.step,System.exec,System.answered,ok,Except.map,settle]
  refine ⟨stepped ▸ stepIdentified known,?_⟩
  rcases createPendingCases ok with ⟨prior,g,found,_,_,rfl⟩ | ⟨_,_,rfl,_,rfl,_⟩
  · obtain ⟨_,mem,same⟩ := priorKnown found
    rw [← same]
    exact known.grants g mem
  · have after : Identified _ := stepped ▸ stepIdentified known
    exact after.grants (pendingGrant record) (List.mem_append_right _ (List.mem_singleton_self _))

theorem beginGrantExact {api : Api} {context : RequestContext} {start : GrantStart} {site : Site} {t : Turn}
    {out : Option BegunConsent} (ok : beginGrant api context start site t db = .ok (next,out)) :
    ∃ record created, createPending context.rows record db = .ok (next,created) ∧
      ∀ begun, out = some begun → begun.grantId = created.id := by
  simp only [beginGrant,bindOk] at ok
  obtain ⟨⟨resource,challenge⟩,_,⟨after,created⟩,made,last⟩ := ok
  simp only [Except.ok.injEq,Prod.mk.injEq] at last
  obtain ⟨rfl,signed⟩ := last
  refine ⟨_,created,made,fun begun some_ => ?_⟩
  obtain ⟨_,_,rfl⟩ := Option.map_eq_some_iff.mp (signed.trans some_)
  rfl

end Identifiers

section Auditing
variable {api : Api} {formats : Formats} {client : Option String} {clock : UtcDate} {context : RequestContext}

structure Audited (formats : Formats) (client : Option String) (clock : UtcDate) (event : SecurityAuditEvent) : Prop where
  occurredAt : event.occurredAt = clock.toISOString
  correlationId : opaqueId event.correlationId = true
  tenantId : event.tenantId.all formats.isUuid = true
  siteId : event.siteId.all opaqueId = true
  clientId : event.clientId = client
  grantId : event.grantId.all opaqueId = true
  actorId : event.actorId.all opaqueId = true
  serviceVersion : event.serviceVersion = "0.5.0"

theorem contextParts (parsed : tenantContextSchema formats context = true) :
    formats.isUuid context.tenantId = true ∧ opaqueId context.accountId = true ∧ opaqueId context.correlationId = true := by
  simp only [tenantContextSchema,Bool.and_eq_true] at parsed
  exact ⟨parsed.1.1,parsed.1.2,parsed.2⟩

theorem contextAudited (parsed : tenantContextSchema formats context = true) (eventName : SecurityEventName)
    (outcome : SecurityOutcome) (reason : SecurityReason) :
    Audited formats none clock (contextEvent clock context eventName outcome reason) := by
  obtain ⟨tenant,account,correlation⟩ := contextParts parsed
  exact ⟨rfl,correlation,tenant,rfl,rfl,rfl,account,rfl⟩

theorem schemaExactly {event : SecurityAuditEvent} (dated : Dated formats) (audited : Audited formats client clock event) :
    securityAuditEventSchema formats event = true ↔
      client.all opaqueId = true ∧ 0 ≤ clock.year ∧ clock.year ≤ 9999 := by
  have version : versionText "0.5.0" = true := by decide
  simp only [securityAuditEventSchema,audited.occurredAt,audited.correlationId,audited.tenantId,audited.siteId,
    audited.clientId,audited.grantId,audited.actorId,audited.serviceVersion,version,Bool.and_true,Bool.and_eq_true,
    dated clock]
  exact and_comm

theorem auditedExactly {event : SecurityAuditEvent} {id : Nat} {db : Db} (dated : Dated formats)
    (audited : Audited formats client clock event) : (write formats id event db).isOk = true ↔
      client.all opaqueId = true ∧ event.tenantId.any (fun t => db.hasTenant (storedUuid t)) = true ∧
        1 ≤ clock.year ∧ clock.year ≤ 9999 := by
  rw [writeOk,schemaExactly dated audited,audited.occurredAt,timestamptzPrinted]
  constructor
  · rintro ⟨⟨plain,_⟩,on,standing⟩
    split at on
    · rename_i year
      exact ⟨plain,standing,year⟩
    · cases on
  · rintro ⟨plain,standing,low,high⟩
    exact ⟨⟨plain,by omega,high⟩,by rw [if_pos ⟨low,high⟩]; rfl,standing⟩

end Auditing

section Runs
variable {api : Api} {asked : Asked} {s : Shared} {t : Turn}

def holds (api : Api) (asked : Asked) : Stage → Prop
  | .anonymous correlationId tenantId => startedClient asked = none ∧ opaqueId correlationId = true ∧
    tenantId.all api.formats.isUuid = true
  | .reading context | .joining context | .pairing context =>
    startedClient asked = none ∧ tenantContextSchema api.formats context = true
  | .gathering _ claims => startedClient asked = some claims.clientId
  | .collecting _ claims _ found => startedClient asked = some claims.clientId ∧
    ∀ f ∈ found, tenantContextSchema api.formats f.1 = true ∧ opaqueId f.2.id = true
  | .selecting context start | .starting context start _ => startedClient asked = some start.clientId ∧
    tenantContextSchema api.formats context = true ∧ opaqueId start.siteId = true
  | .completing context grantId _ => startedClient asked = none ∧ tenantContextSchema api.formats context = true ∧
    opaqueId grantId = true
  | .auditing clock event => Audited api.formats (startedClient asked) clock event
  | .answered => True

theorem openedHolds : holds api asked (opened api asked) := by
  obtain ⟨principal,drawn,body⟩ := asked
  cases principal with
  | none =>
    cases body with
    | ofTenant tenantId route =>
      refine ⟨rfl,drawnOpaque drawn,?_⟩
      split
      · assumption
      · rfl
    | consentStart request claims => trivial
  | some principal =>
    cases body with
    | ofTenant tenantId route =>
      simp only [opened]
      split
      · rename_i parsed
        simp only [Bool.and_eq_true,bodyParses] at parsed
        obtain ⟨⟨_,_,parses⟩,schema⟩ := parsed
        cases route with
        | tenant => exact ⟨rfl,schema⟩
        | pairing resource verifier => exact ⟨rfl,schema⟩
        | startGrant start =>
          simp only [routeParses,Bool.and_eq_true] at parses
          exact ⟨rfl,schema,parses.1.1.1⟩
        | completeGrant grantId proof challenge decision key =>
          simp only [routeParses,Bool.and_eq_true] at parses
          exact ⟨rfl,schema,parses.1.1.1⟩
        | other => trivial
      · trivial
    | consentStart request claims =>
      simp only [opened]
      split
      · cases claims with
        | none => trivial
        | some claims => rfl
      · trivial

theorem waitingHolds {context : RequestContext} (none_ : startedClient asked = none)
    (parsed : tenantContextSchema api.formats context = true) (clock : UtcDate) (eventName : SecurityEventName)
    (outcome : SecurityOutcome) (reason : SecurityReason) :
    holds api asked (.auditing clock (contextEvent clock context eventName outcome reason)) := by
  rw [holds,none_]
  exact contextAudited parsed eventName outcome reason

theorem stageHolds {stage : Stage} (known : Identified s.db) (held : holds api asked stage) :
    Identified (stageTurn api s t stage).1.db ∧ holds api asked (stageTurn api s t stage).2 := by
  cases stage with
  | anonymous correlationId tenantId =>
    obtain ⟨none_,correlation,tenant⟩ := held
    exact ⟨known,⟨rfl,correlation,tenant,rfl,none_.symm,rfl,rfl,rfl⟩⟩
  | reading context =>
    simp only [stageTurn]
    split
    · exact ⟨known,trivial⟩
    · exact ⟨known,waitingHolds held.1 held.2 _ _ _ _⟩
  | joining context =>
    simp only [stageTurn]
    split
    · exact ⟨known,held⟩
    · exact ⟨known,waitingHolds held.1 held.2 _ _ _ _⟩
  | pairing context =>
    simp only [stageTurn]
    split
    · refine ⟨known,?_⟩
      rw [holds,held.1]
      have audited := @contextAudited _ t.clock _ held.2 .pairingVerified .success .noReason
      exact { audited with siteId := prefixedOpaque t.drawn (by decide) (by decide) }
    · exact ⟨known,waitingHolds held.1 held.2 _ _ _ _⟩
  | gathering principal claims => exact ⟨known,held,fun _ mem => absurd mem List.not_mem_nil⟩
  | collecting principal claims rest found =>
    cases rest with
    | cons tenant rest =>
      simp only [stageTurn]
      split
      · rename_i schema
        refine ⟨known,held.1,fun f mem => ?_⟩
        rcases List.mem_append.mp mem with old | new
        · exact held.2 f old
        · obtain ⟨site,matching,rfl⟩ := List.mem_map.mp new
          exact ⟨schema,known.sites site (List.mem_filter.mp matching).1⟩
      · exact ⟨known,trivial⟩
    | nil =>
      match found with
      | [] => exact ⟨known,trivial⟩
      | [(context,site)] =>
        obtain ⟨schema,id⟩ := held.2 (context,site) (List.mem_singleton_self _)
        exact ⟨known,held.1,schema,id⟩
      | _ :: _ :: _ => exact ⟨known,trivial⟩
  | selecting context start =>
    simp only [stageTurn]
    split
    · exact ⟨known,held⟩
    · exact ⟨known,trivial⟩
  | starting context start site =>
    simp only [stageTurn]
    split
    · rename_i next begun ok
      obtain ⟨record,created,made,named⟩ := beginGrantExact ok
      obtain ⟨kept,id⟩ := createdIdentified api.control.node known made
      refine ⟨kept,?_⟩
      rw [holds,held.1]
      have audited := @contextAudited _ t.clock _ held.2.1 .grantCreated .success .noReason
      exact { audited with siteId := held.2.2, clientId := rfl, grantId := by rw [← named begun rfl] at id; exact id }
    · rename_i next ok
      obtain ⟨record,created,made,_⟩ := beginGrantExact ok
      exact ⟨(createdIdentified api.control.node known made).1,trivial⟩
    · exact ⟨known,trivial⟩
  | completing context grantId decision =>
    simp only [stageTurn]
    split
    · refine ⟨known,?_⟩
      rw [holds,held.1]
      cases decision with
      | approved =>
        have audited := @contextAudited _ t.clock _ held.2.1 .grantCreated .success .noReason
        exact { audited with grantId := held.2.2 }
      | denied =>
        have audited := @contextAudited _ t.clock _ held.2.1 .grantRevoked .denied .consentDenied
        exact { audited with grantId := held.2.2 }
    · exact ⟨known,trivial⟩
  | auditing clock event => exact ⟨auditIdentified known,trivial⟩
  | answered => exact ⟨known,trivial⟩

def callHolds (api : Api) : Call → Prop
  | .http asked stage => holds api asked stage
  | .other _ _ => True

theorem requestRules (api : Api) : Discipline (opening api) (turn api) (fun s => Identified s.db)
    (fun _ c => callHolds api c) (fun _ _ => True) (fun _ _ _ => True) where
  symmetric _ _ _ := trivial
  opens s request _ := by
    refine ⟨?_,fun _ _ => trivial⟩
    cases request with
    | http asked => exact openedHolds
    | other event => trivial
  keeps s c t known held _ := by
    cases c with
    | http asked stage => exact stageHolds known held
    | other event done =>
      cases done with
      | false => exact ⟨stepIdentified known,trivial⟩
      | true => exact ⟨known,trivial⟩
  frames s c t d _ _ _ held _ := ⟨held,trivial⟩

theorem begunTenants {api : Api} {context : RequestContext} {start : GrantStart} {site : Site} {t : Turn} {db next : Db}
    {out : Option BegunConsent} (ok : beginGrant api context start site t db = .ok (next,out)) :
    next.tenants = db.tenants := by
  obtain ⟨record,created,made,_⟩ := beginGrantExact ok
  rcases createPendingCases made with ⟨_,_,_,_,rfl,_⟩ | ⟨_,_,rfl,_⟩
  · rfl
  · rfl

theorem beginStored {api : Api} {context : RequestContext} {start : GrantStart} {site : Site} {t : Turn} {db : Db}
    (stored : storedUuid context.tenantId = context.tenantId) : beginGrant api context start site t db =
      (grantService api t).begin api.control.node context.rows (beginInput context start site ("grant_" ++ t.drawn.text))
        t.clock.instant db := by
  simp only [beginGrant,GrantService.begin,RequestContext.rows,stored]
  rfl

/- In every run of requests and other operations, an event that waits to be written is a
valid one, and is recorded, under exactly these conditions. -/
theorem eventsRecorded (api : Api) (dated : Dated api.formats) (history : List System.Event) (moves : List RequestMove)
    (asked : Asked) (clock : UtcDate) (event : SecurityAuditEvent)
    (waiting : .http asked (.auditing clock event) ∈ (run (requestStep api) (started api history) moves).calls) :
    (securityAuditEventSchema api.formats event = true ↔
      (startedClient asked).all opaqueId = true ∧ 0 ≤ clock.year ∧ clock.year ≤ 9999) ∧
    ∀ id, (write api.formats id event (run (requestStep api) (started api history) moves).shared.db).isOk = true ↔
      (startedClient asked).all opaqueId = true ∧
      event.tenantId.any (fun t => (run (requestStep api) (started api history) moves).shared.db.hasTenant (storedUuid t)) = true ∧
      1 ≤ clock.year ∧ clock.year ≤ 9999 := by
  have start : Safe (fun s => Identified s.db) (fun _ c => callHolds api c) (fun _ _ => True) (started api history) :=
    ⟨reachedIdentified history,fun _ _ at_ => by simp [started] at at_,fun _ _ _ _ _ _ _ => trivial⟩
  have always : ∀ (w : Requests) (m : RequestMove), Allowed (fun _ _ _ => True) w m := by
    intro w m
    cases m with
    | start request => trivial
    | turn i input => exact fun _ _ => trivial
  have safe := runSafe (requestRules api) start (guardedAlways _ always _ moves)
  obtain ⟨i,at_⟩ := List.mem_iff_getElem?.mp waiting
  have audited : Audited api.formats (startedClient asked) clock event := safe.each i _ at_
  exact ⟨schemaExactly dated audited,fun _ => auditedExactly dated audited⟩

end Runs

section Samples

def uuidText (text : String) : Bool := match text.toList.splitOn '-' with
  | [a,b,c,d,e] => [a,b,c,d,e].map List.length == [8,4,4,4,12] && [a,b,c,d,e].all (·.all Schema.hexChar) &&
    ((c.head?.any "12345678".toList.contains && d.head?.any "89abAB".toList.contains) ||
      text == "00000000-0000-0000-0000-000000000000" || text == "ffffffff-ffff-ffff-ffff-ffffffffffff")
  | _ => false

def sampleFormats : Formats := ⟨uuidText,isDatetime⟩

theorem sampleDated : Dated sampleFormats := printedDatetime

def startKey : String := "start_0000000000000001"

def startOf (client : String) : GrantStart := ⟨sampleSite,client,[.read],startKey⟩

/- The HMAC of the immutable input of each client, and SHA-256 of its challenge and of the input. -/
def startText (client : String) : String :=
  immutableText ⟨sampleTenant,sampleSite,sampleAccount,client,[.read],sampleResource,"1",startKey⟩
def plainMac : Digest :=
  [132,190,80,222,10,39,142,246,132,140,245,31,168,223,54,154,116,178,190,254,44,132,88,255,57,113,64,20,178,36,
  164,21]
def plainChallenge : Digest :=
  [254,21,96,82,130,255,82,212,82,23,158,186,184,110,223,137,48,225,51,190,201,0,166,211,22,29,46,66,17,68,182,17]
def plainRequest : Digest :=
  [14,184,229,90,70,250,63,21,197,134,252,138,64,55,52,250,111,71,53,132,242,200,125,97,96,138,87,142,218,198,192,
  243]
def dottedMac : Digest :=
  [126,126,75,63,165,211,28,70,175,45,157,80,222,139,238,62,0,206,226,37,195,241,200,203,78,167,83,136,87,162,210,
  60]
def dottedChallenge : Digest :=
  [23,71,14,174,140,109,22,235,125,84,190,246,105,115,30,105,63,84,243,158,142,130,203,86,103,233,93,76,18,79,136,
  103]
def dottedRequest : Digest :=
  [249,242,65,220,63,142,16,29,182,45,233,199,67,215,166,224,254,57,156,74,56,67,177,130,231,108,140,162,61,86,141,
  177]

def auditNode : Node := sampleNode
  [(base64url plainMac,plainChallenge),(startText "client_0001",plainRequest),
    (base64url dottedMac,dottedChallenge),(startText "client.example.com",dottedRequest)]
  [((grantIdempotencyKey,startText "client_0001"),plainMac),
    ((grantIdempotencyKey,startText "client.example.com"),dottedMac)]

def sampleApi : Api := ⟨⟨auditNode,"https://auth.example",grantIdempotencyKey⟩,sampleFormats⟩

def zeroBytes : Drawn := ⟨List.replicate 18 0,by decide⟩

def askedFor (client : String) : Asked :=
  ⟨some ⟨sampleAccount,0,.emailOtp⟩,zeroBytes,.ofTenant sampleTenant (.startGrant (startOf client))⟩

def sampleClock : UtcDate := ⟨2026,10,14,9,30,0,250,by decide,by decide⟩
def sampleTurn : Turn := ⟨sampleClock,zeroBytes,true,fun _ => some "signature"⟩

def askedContext : RequestContext := ⟨sampleTenant,sampleAccount,zeroBytes.text⟩

def startMoves (client : String) : List RequestMove :=
  [.start (.http (askedFor client)),.turn 0 sampleTurn,.turn 0 sampleTurn]

def pairedState : Db := run (System.step auditNode) Db.empty pairedHistory

/- One evaluation of the history for all that is read off it. -/
theorem pairedFacts : findActive askedContext sampleSite pairedState = some sampleSiteRow ∧
    hasActiveMembership pairedState sampleTenant sampleAccount = true ∧ sampleSiteRow ∈ pairedState.sites ∧
    (∀ r ∈ pairedState.idempotencyRecords, r.operation ≠ .grantCreate) ∧ pairedState.grants = [] ∧
    pairedState.hasTenant (storedUuid sampleTenant) = true ∧ storedUuid sampleTenant = sampleTenant := by decide

theorem sampleBegins {client : String} (shape : clientIdShape client = true) : ∃ next begun,
    beginGrant sampleApi askedContext (startOf client) sampleSiteRow sampleTurn pairedState = .ok (next,some begun) := by
  obtain ⟨-,member,site,unused,empty,-,stored⟩ := pairedFacts
  have ids : opaqueId ("grant_" ++ sampleTurn.drawn.text) = true ∧ opaqueId sampleSiteRow.id = true ∧
      opaqueId sampleAccount = true ∧ digitsShape "1" = true ∧ idempotencyKeyShape startKey = true := by decide
  have scopes : scopeSet [.read] = true := by decide
  have call : FirstCall (grantService sampleApi sampleTurn) auditNode askedContext.rows
      (beginInput askedContext (startOf client) sampleSiteRow ("grant_" ++ sampleTurn.drawn.text)) pairedState :=
    { tenant := stored.symm
      membership := member
      subject := .inl rfl
      site := ⟨sampleSiteRow,site,rfl,rfl,rfl,rfl⟩
      scopes := scopes
      identifiers := by simp only [identifiersParse,beginInput,startOf,askedContext,ids,shape,Bool.and_self]
      challenge := controlChallengeShape auditNode grantIdempotencyKey
      signs := fun _ => rfl
      newKey := fun r mem _ creates => absurd creates (unused r mem)
      newId := fun g mem => by
        rw [empty] at mem
        cases mem }
  have opens : ∃ next begun, (grantService sampleApi sampleTurn).begin auditNode askedContext.rows
      (beginInput askedContext (startOf client) sampleSiteRow ("grant_" ++ sampleTurn.drawn.text)) sampleClock.instant
        pairedState = .ok (next,some begun) ∧ _ :=
    beginOpens (reachableWellFormed auditNode pairedHistory) call fun g mem _ => by
      rw [empty] at mem
      cases mem
  obtain ⟨next,begun,ok,_⟩ := opens
  have same : beginGrant sampleApi askedContext (startOf client) sampleSiteRow sampleTurn pairedState = _ :=
    beginStored stored
  rw [same]
  exact ⟨next,begun,ok⟩

theorem startOpens {client : String} (shape : clientIdShape client = true) :
    opened sampleApi (askedFor client) = .selecting askedContext (startOf client) := by
  have others : accountPrincipalSchema ⟨sampleAccount,0,.emailOtp⟩ = true ∧ uuidText sampleTenant = true ∧
      opaqueId sampleSite = true ∧ scopeSet [.read] = true ∧ idempotencyKeyShape startKey = true ∧
      tenantContextSchema sampleFormats askedContext = true := by decide
  have parsed : (accountPrincipalSchema ⟨sampleAccount,0,.emailOtp⟩ && (uuidText sampleTenant &&
      routeParses (.startGrant (startOf client))) && tenantContextSchema sampleFormats askedContext) = true := by
    simp only [routeParses,startOf,others,shape,Bool.and_self]
  exact if_pos parsed

theorem selectsSite {api : Api} {t : Turn} {context : RequestContext} {start : GrantStart} {site : Site} {db : Db} {n : Nat}
    (found : findActive context start.siteId db = some site) :
    stageTurn api ⟨db,n⟩ t (.selecting context start) = (⟨db,n⟩,.starting context start site) := by
  simp only [stageTurn,found]

theorem startsGrant {api : Api} {t : Turn} {context : RequestContext} {start : GrantStart} {site : Site} {db next : Db}
    {n : Nat} {begun : BegunConsent} (ok : beginGrant api context start site t db = .ok (next,some begun)) :
    stageTurn api ⟨db,n⟩ t (.starting context start site) =
      (⟨next,n⟩,.auditing t.clock (grantCreated t.clock context start begun.grantId)) := by
  simp only [stageTurn,ok]

theorem startRuns {client : String} (shape : clientIdShape client = true) {db next : Db} {begun : BegunConsent}
    (found : findActive askedContext sampleSite db = some sampleSiteRow)
    (ok : beginGrant sampleApi askedContext (startOf client) sampleSiteRow sampleTurn db = .ok (next,some begun)) :
    run (requestStep sampleApi) ⟨⟨db,1⟩,[]⟩ (startMoves client) = ⟨⟨next,1⟩,
      [.http (askedFor client) (.auditing sampleClock (grantCreated sampleClock askedContext (startOf client) begun.grantId))]⟩ := by
  have selects : stageTurn sampleApi ⟨db,1⟩ sampleTurn (.selecting askedContext (startOf client)) = _ := selectsSite found
  have turns : ∀ (s : Shared) (stage : Stage), requestStep sampleApi ⟨s,[.http (askedFor client) stage]⟩
      (.turn 0 sampleTurn) = ⟨(stageTurn sampleApi s sampleTurn stage).1,
        [.http (askedFor client) (stageTurn sampleApi s sampleTurn stage).2]⟩ := fun _ _ => rfl
  have starts : requestStep sampleApi ⟨⟨db,1⟩,[]⟩ (.start (.http (askedFor client))) =
      ⟨⟨db,1⟩,[.http (askedFor client) (opened sampleApi (askedFor client))]⟩ := rfl
  simp only [run,startMoves,List.foldl_cons,List.foldl_nil]
  rw [starts,startOpens shape,turns,selects,turns,startsGrant ok]
  rfl

theorem sampleWaits {client : String} (shape : clientIdShape client = true) : ∃ event,
    .http (askedFor client) (.auditing sampleClock event) ∈
      (run (requestStep sampleApi) (started sampleApi pairedHistory) (startMoves client)).calls ∧
    event.clientId = some client ∧ event.tenantId = some sampleTenant ∧
    (run (requestStep sampleApi) (started sampleApi pairedHistory) (startMoves client)).shared.db.hasTenant
      (storedUuid sampleTenant) = true := by
  obtain ⟨next,begun,ok⟩ := sampleBegins shape
  obtain ⟨found,-,-,-,-,standing,-⟩ := pairedFacts
  rw [show run (requestStep sampleApi) (started sampleApi pairedHistory) (startMoves client) = _ from
    startRuns shape found ok]
  refine ⟨_,List.mem_singleton_self _,rfl,rfl,?_⟩
  rw [Db.hasTenant,begunTenants ok]
  exact standing

/- OAuthClientIdSchema takes a dot, OpaqueIdSchema does not: the grant is there and its event is lost. -/
theorem dottedDropped : ¬∀ api : Api, Dated api.formats → ∀ (history : List System.Event) (moves : List RequestMove)
    (asked : Asked) (clock : UtcDate) (event : SecurityAuditEvent),
    .http asked (.auditing clock event) ∈ (run (requestStep api) (started api history) moves).calls →
    accepted api asked = true → securityAuditEventSchema api.formats event = true ∧
      ∀ id, (write api.formats id event (run (requestStep api) (started api history) moves).shared.db).isOk = true := by
  intro claimed
  obtain ⟨event,waiting,client,_⟩ := @sampleWaits "client.example.com" (by decide)
  obtain ⟨fits,_⟩ := claimed sampleApi sampleDated _ _ _ _ _ waiting (by decide)
  have dotted : opaqueId "client.example.com" = false := by decide
  simp [securityAuditEventSchema,client,dotted] at fits

theorem plainRecorded : ∃ event,
    .http (askedFor "client_0001") (.auditing sampleClock event) ∈
      (run (requestStep sampleApi) (started sampleApi pairedHistory) (startMoves "client_0001")).calls ∧
    securityAuditEventSchema sampleFormats event = true ∧ ∀ id, (write sampleFormats id event
      (run (requestStep sampleApi) (started sampleApi pairedHistory) (startMoves "client_0001")).shared.db).isOk = true := by
  obtain ⟨event,waiting,_,tenant,standing⟩ := @sampleWaits "client_0001" (by decide)
  have client : (startedClient (askedFor "client_0001")).all opaqueId = true := by decide
  obtain ⟨valid,written⟩ := eventsRecorded sampleApi sampleDated _ _ _ _ _ waiting
  refine ⟨event,waiting,valid.mpr ⟨client,by decide,by decide⟩,fun id => (written id).mpr ⟨client,?_,by decide,by decide⟩⟩
  rw [tenant,Option.any_some]
  exact standing

example : (write sampleFormats 1 (accessDenied sampleClock askedContext) Db.empty).isOk = false := by decide

end Samples
end Wepuu.AuditedRequests
