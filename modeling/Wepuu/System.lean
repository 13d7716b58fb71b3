import Wepuu.Artifacts
import Wepuu.Deletion
import Wepuu.Families
import Wepuu.Pairing
import Wepuu.Runs
import Wepuu.SigningKeys

/-! The database under all writers. An operation is one transaction; which of them come
in which order, at what times and with which fresh identifiers is the run. -/
namespace Wepuu.System
open Artifacts Deletion Families Grants NodeApi Outbox Pairing Relational Runs Schema SigningKeys Tenancy

inductive Op where
  | signUp (authUser : String)
  | ensureAccountAuthLink (authUser : String) (proposedAccount : AccountId) (proposedTenant : TenantId)
  | ensurePersonalWorkspace (account : AccountId) (proposedTenant : TenantId)
  | seedMembership (tenant : TenantId) (account : AccountId) (role : MembershipRole)
  | createSession (input : NewSession)
  | createAttempt (context : TenantContext) (record : NewAttempt)
  | markVerifying (context : TenantContext) (tenant : TenantId) (attempt : String)
  | failAttempt (context : TenantContext) (tenant : TenantId) (attempt reason : String)
  | completePairing (context : TenantContext) (record : PairedAttempt) (proof : VerifiedKey) (site : SiteId)
      (key : String)
  | createPending (context : TenantContext) (record : NewPendingGrant)
  | activate (context : TenantContext) (tenant : TenantId) (grantId : GrantId) (key proofThumbprint : String)
  | deny (context : TenantContext) (tenant : TenantId) (grantId : GrantId) (key proofThumbprint : String)
  | revoke (context : TenantContext) (tenant : TenantId) (grantId : GrantId) (reason : String)
  | revokeGrantWithEvent (context : TenantContext) (tenant : TenantId) (grantId : GrantId)
  | disconnectSiteWithEvent (context : TenantContext) (tenant : TenantId) (site : SiteId)
  | revokeRefreshGrant (grantId : GrantId) (observedAt : Time) (reason : String)
  | createFamily (input : NewFamily)
  | rotate (target : FamilyId) (expectedGeneration : Int) (observedAt : Time)
  | publishKey (input : NewKey)
  | activateSigningKey (target : KeyId) (observedAt : Time)
  | revokeSigningKey (target : KeyId) (observedAt : Time)
  | retireKey (target : KeyId) (observedAt : Time)
  | upsert (adapter : OidcAdapter) (id : String) (payload : ProviderPayload) (expiresIn : Option Int)
      (dateNow : Time)
  | destroy (adapter : OidcAdapter) (id : String)
  | consume (adapter : OidcAdapter) (id : String) (dateNow : Time)
  | revokeByGrantId (adapter : OidcAdapter) (reason : GrantRevocationReason) (grantId : GrantId)
  | consumeRateLimit (policy : String) (subject : Digest) (limit windowSeconds : Int) (observedAt : Time)
  | claim (limit : Int) (skipped : Nat → Bool)
  | markDelivered (id : Nat)
  | reschedule (id : Nat) (errorCode : String) (delaySeconds : Int)
  | beginDeletionJob (jobId : JobId) (kind : ScopeKind) (scopeId : String) (tenantId : Option TenantId)
      (requestedBy : AccountId)
  | advanceDeletionJob (jobId : JobId) (observedAt : Time)

/- An operation with the now() of its transaction. -/
structure Event where
  now : Time
  op : Op

inductive Reply where
  | done
  | flag (value : Bool)
  | workspace (account : Option AccountId) (tenant : Option TenantId)
  | created (grant : CreatedGrant)
  | rotation (result : RefreshRotationResult)
  | consumption (outcome : ConsumeOutcome)
  | claimed (rows : List OutboxRow)
  | job (id : JobId)
  | report (value : DeletionReport)

def silent (out : Except Fault Db) : Except Fault (Db × Reply) := out.map fun next => (next,.done)
def answered {α : Type} (reply : α → Reply) (out : Except Fault (Db × α)) : Except Fault (Db × Reply) :=
  out.map fun (next,a) => (next,reply a)

theorem silentOk {out : Except Fault Db} {next : Db} {reply : Reply}
    (ok : silent out = .ok (next,reply)) : out = .ok next := by
  cases out with
  | error e => cases ok
  | ok db => cases ok; rfl

theorem answeredOk {α : Type} {f : α → Reply} {out : Except Fault (Db × α)} {next : Db} {reply : Reply}
    (ok : answered f out = .ok (next,reply)) : ∃ a, out = .ok (next,a) ∧ reply = f a := by
  cases out with
  | error e => cases ok
  | ok pair => cases ok; exact ⟨pair.2,rfl,rfl⟩

def exec (node : Node) (e : Event) (db : Db) : Except Fault (Db × Reply) :=
  match e.op with
  | .signUp authUser => silent (signUp authUser db)
  | .ensureAccountAuthLink authUser account tenant =>
    answered (fun (a,t) => .workspace (some a) (some t)) (ensureAccountAuthLink authUser account tenant db)
  | .ensurePersonalWorkspace account tenant =>
    answered (fun t => .workspace (some account) (some t)) (ensurePersonalWorkspace account tenant db)
  | .seedMembership tenant account role => silent (seedMembership tenant account role db)
  | .createSession input => answered (fun a => .workspace a none) (createSession input db)
  | .createAttempt context record => silent (createAttempt context record e.now db)
  | .markVerifying context tenant attempt => answered .flag (.ok (markVerifying context tenant attempt e.now db))
  | .failAttempt context tenant attempt reason => silent (.ok (fail context tenant attempt reason db))
  | .completePairing context record proof site key => silent (complete node context record proof site key e.now db)
  | .createPending context record => answered .created (createPending context record db)
  | .activate context tenant grantId key proof => silent (activate node context tenant grantId key proof e.now db)
  | .deny context tenant grantId key proof => silent (deny node context tenant grantId key proof e.now db)
  | .revoke context tenant grantId reason =>
    answered .flag (.ok (Grants.revoke context tenant grantId reason e.now db))
  | .revokeGrantWithEvent context tenant grantId =>
    answered .flag (revokeGrantWithEvent context tenant grantId e.now db)
  | .disconnectSiteWithEvent context tenant site =>
    answered .flag (disconnectSiteWithEvent context tenant site e.now db)
  | .revokeRefreshGrant grantId observedAt reason =>
    answered .flag (revokeRefreshGrant grantId observedAt reason e.now db)
  | .createFamily input => silent (Families.create input db)
  | .rotate target expectedGeneration observedAt =>
    answered .rotation (rotate target expectedGeneration observedAt e.now db)
  | .publishKey input => silent (publish input db)
  | .activateSigningKey target observedAt => answered .flag (.ok (activateSigningKey target observedAt db))
  | .revokeSigningKey target observedAt => answered .flag (revokeSigningKey target observedAt e.now db)
  | .retireKey target observedAt => answered .flag (.ok (retire target observedAt db))
  | .upsert adapter id payload expiresIn dateNow => silent (upsert node adapter id payload expiresIn dateNow db)
  | .destroy adapter id => silent (.ok (destroy node adapter id db))
  | .consume adapter id dateNow => answered .consumption (consume node adapter id dateNow e.now db)
  | .revokeByGrantId adapter reason grantId => silent (revokeByGrantId adapter reason grantId e.now db)
  | .consumeRateLimit policy subject limit windowSeconds observedAt =>
    answered .flag (.ok (consumeRateLimit policy subject limit windowSeconds observedAt db))
  | .claim limit skipped => answered .claimed (.ok (claim limit skipped e.now db))
  | .markDelivered id => silent (.ok (markDelivered id e.now db))
  | .reschedule id errorCode delaySeconds => silent (.ok (reschedule id errorCode delaySeconds e.now db))
  | .beginDeletionJob jobId kind scopeId tenantId requestedBy =>
    answered .job (beginDeletionJob jobId kind scopeId tenantId requestedBy db)
  | .advanceDeletionJob jobId observedAt =>
    answered .report (.ok (advanceDeletionJob jobId observedAt e.now db))

def step (node : Node) (db : Db) (e : Event) : Db := settle db (exec node e db)

/- A small history to evaluate on: one account pairs one site of its own tenant. -/
def sampleTenant : TenantId := "11111111-1111-4111-8111-111111111111"
def sampleAccount : AccountId := "account_0123456789abcdef"
def sampleSite : SiteId := "site_0001"
def sampleResource : String := "https://site.example/wp-json/wp-auto/mcp"
def sampleContext : TenantContext := ⟨sampleTenant,sampleAccount⟩

/- A second account, for histories with a member beside the owner. -/
def memberAccount : AccountId := "account_fedcba9876543210"
def memberContext : TenantContext := ⟨sampleTenant,memberAccount⟩

def sampleUrl : Url where
  protocol := "https:"
  username := ""
  password := ""
  hostname := "site.example"
  port := ""
  pathname := "/wp-json/wp-auto/mcp"
  search := ""
  hash := ""
  href := sampleResource

/- SHA-256 of the attempt, the site and the thumbprint joined by zero bytes. -/
def samplePairingDigest : Digest :=
  [178,149,86,241,17,4,206,12,111,188,237,238,97,12,101,116,239,49,217,104,220,183,209,196,65,21,117,242,
    243,35,96,179]

def sampleNode (digests : List (String × Digest)) (macs : List ((Key × String) × Digest)) : Node :=
  tabled (("attempt_0001\x00site_0001\x00thumbprint_0001",samplePairingDigest) :: digests) macs
    [(sampleResource,sampleUrl)]

def sampleAttempt : PairedAttempt := ⟨sampleTenant,"attempt_0001",sampleResource⟩
def sampleProof : VerifiedKey :=
  ⟨⟨"AAAAAAAAAAAAAAAAAAAAAAAAAAAAAAAAAAAAAAAAAAA","site_key_0001"⟩,"thumbprint_0001"⟩
def sampleSiteRow : Site := pairedSite sampleAttempt sampleProof sampleSite "site.example"

def pairedHistory : List Event :=
  [⟨seconds 1,.signUp "user_0001"⟩,
    ⟨seconds 2,.ensureAccountAuthLink "user_0001" sampleAccount sampleTenant⟩,
    ⟨seconds 3,.createAttempt sampleContext
      ⟨sampleTenant,"attempt_0001",sampleAccount,sampleResource,List.replicate 32 7,minutes 10⟩⟩,
    ⟨seconds 4,.markVerifying sampleContext sampleTenant "attempt_0001"⟩,
    ⟨seconds 5,.completePairing sampleContext sampleAttempt sampleProof sampleSite "pair_0000000000000001"⟩]

def samplePending (grantId : GrantId) (key : String) (at_ : Time) : NewPendingGrant where
  tenantId := sampleTenant
  id := grantId
  siteId := sampleSite
  subjectId := sampleAccount
  clientId := "client_0001"
  scopes := [.read]
  resource := sampleResource
  challengeHash := List.replicate 32 9
  expiresAt := at_ + minutes 2
  consentVersion := "1"
  idempotencyKey := key
  requestDigest := List.replicate 32 5
  createdAt := at_

def approvedHistory : List Event := pairedHistory ++
  [⟨seconds 10,.createPending sampleContext (samplePending "grant_0001" "begin_0000000000000001" (seconds 10))⟩,
    ⟨seconds 20,.activate sampleContext sampleTenant "grant_0001" "complete_00000000000001" "proof_0001"⟩]

def approvedSample : Grant :=
  { pendingGrant (samplePending "grant_0001" "begin_0000000000000001" (seconds 10)) with status := .active }

example : (run (step (sampleNode [] [])) Db.empty approvedHistory).grants = [approvedSample] := by decide

end Wepuu.System
