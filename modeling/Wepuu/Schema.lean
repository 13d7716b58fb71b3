import Wepuu.Relational

/-! The tables of packages/database/migrations with the columns that a modelled
statement reads or writes. Times are microseconds since the epoch, the resolution of
timestamptz. Identifiers, digests and uuids are kept as the texts and bytes they are. -/
namespace Wepuu.Schema

abbrev Time := Int
abbrev Digest := List UInt8
abbrev TenantId := String
abbrev AccountId := String
abbrev SiteId := String
abbrev GrantId := String
abbrev ClientId := String
abbrev FamilyId := String
abbrev JobId := String
abbrev KeyId := String

def seconds (n : Int) : Time := n * 1000000
def minutes (n : Int) : Time := seconds (n * 60)
def hours (n : Int) : Time := minutes (n * 60)
def days (n : Int) : Time := hours (n * 24)

inductive Fault where
  | thrown (message : String)
  | raised (message : String) (errcode : String)
  | uniqueViolation | checkViolation | foreignKeyViolation | insufficientPrivilege | noDataFound
  | invalidTextRepresentation | numericValueOutOfRange
  deriving DecidableEq, Repr

/- RAISE EXCEPTION without USING ERRCODE reports P0001. -/
def raiseException (message : String) : Fault := .raised message "P0001"

def Fault.sqlstate : Fault → Option String
  | .thrown _ => none
  | .raised _ errcode => some errcode
  | .uniqueViolation => some "23505"
  | .checkViolation => some "23514"
  | .foreignKeyViolation => some "23503"
  | .insufficientPrivilege => some "42501"
  | .noDataFound => some "P0002"
  | .invalidTextRepresentation => some "22P02"
  | .numericValueOutOfRange => some "22003"

-- The character classes of the regular expressions in the migrations and in packages/contracts.
def letterOrDigit (c : Char) : Bool :=
  ('a' ≤ c && c ≤ 'z') || ('A' ≤ c && c ≤ 'Z') || ('0' ≤ c && c ≤ '9')
def opaqueChar (c : Char) : Bool := letterOrDigit c || c == '_' || c == '-'
def clientChar (c : Char) : Bool := letterOrDigit c || c == '.' || c == '_' || c == '~' || c == '-'
def digitChar (c : Char) : Bool := '0' ≤ c && c ≤ '9'

def matchesClass (ofClass : Char → Bool) (least most : Nat) (text : String) : Bool :=
  let chars := text.toList
  decide (least ≤ chars.length) && decide (chars.length ≤ most) && chars.all ofClass

def opaqueId (text : String) : Bool := matchesClass opaqueChar 8 128 text
def idempotencyKeyShape (text : String) : Bool := matchesClass opaqueChar 16 128 text
def clientIdShape (text : String) : Bool := matchesClass clientChar 8 256 text
def digitsShape (text : String) : Bool := !text.toList.isEmpty && text.toList.all digitChar
def hexChar (c : Char) : Bool := digitChar c || ('a' ≤ c && c ≤ 'f') || ('A' ≤ c && c ≤ 'F')

def uuidDigits : Nat → List Char → Option (List Char × List Char)
  | 0, rest => some ([],rest)
  | n + 1, a :: b :: rest =>
    if hexChar a && hexChar b then
      let rest := if rest.head? == some '-' && n % 2 == 0 && n != 0 then rest.tail else rest
      (uuidDigits n rest).map fun (digits,left) => (a.toLower :: b.toLower :: digits,left)
    else none
  | _, _ => none

def uuidOut (digits : List Char) : String :=
  String.ofList (digits.take 8 ++ '-' :: (digits.drop 8).take 4 ++ '-' :: (digits.drop 12).take 4 ++
    '-' :: (digits.drop 16).take 4 ++ '-' :: digits.drop 20)

/- The uuid that a text is read as, in the spelling in which it is printed again. -/
def uuidIn (text : String) : Option String :=
  let (chars,end_) := match text.toList with
    | '\x7b' :: rest => (rest,['\x7d'])
    | chars => (chars,[])
  (uuidDigits 16 chars).bind fun (digits,left) => if left == end_ then some (uuidOut digits) else none

example : uuidIn "\x7bA1111111-11114111-8111111111111111\x7d" = some "a1111111-1111-4111-8111-111111111111" := by decide

def int4Max : Int := 2147483647

inductive AccountStatus where | active | suspended | deleted deriving DecidableEq, Repr
inductive TenantStatus where | active | suspended | deleted deriving DecidableEq, Repr
inductive MembershipRole where | owner | administrator | member deriving DecidableEq, Repr
inductive MembershipStatus where | active | revoked deriving DecidableEq, Repr
inductive SiteStatus where | pending | active | suspended | revoked | deleted deriving DecidableEq, Repr
inductive AttemptStatus where | pending | verifying | active | expired | cancelled | failed
  deriving DecidableEq, Repr
inductive GrantStatus where | pending | active | suspended | revoked deriving DecidableEq, Repr
inductive FamilyStatus where | active | revoked | expired deriving DecidableEq, Repr
inductive EventType where | grant | site | subject | token | key deriving DecidableEq, Repr
inductive KeyStatus where | published | active | retiring | revoked deriving DecidableEq, Repr
inductive CustodyProvider where | awsKms | localPkcs8 deriving DecidableEq, Repr
inductive JobStatus where | pending | waiting | complete | failed deriving DecidableEq, Repr
inductive ScopeKind where | account | tenant | site deriving DecidableEq, Repr
inductive ObjectKind where | account | tenant | membership | site | grant deriving DecidableEq, Repr
inductive IdempotencyOperation where
  | pairingComplete | grantCreate | grantComplete | grantRevoke | siteDisconnect
  deriving DecidableEq, Repr

inductive SecurityEventName where
  | authenticationDenied | accessDenied | authorizationDenied | codeReplayDetected | refreshReplayDetected
  | tokenIssued | signingFailed | rotationObserved | pairingStarted | pairingVerified | pairingDenied
  | grantCreated | grantRevoked | siteDisconnected
  deriving DecidableEq, Repr
inductive SecurityOutcome where | success | denied | error deriving DecidableEq, Repr
inductive SecurityReason where
  | noReason | identityMissing | membershipMissing | tenantContextMissing | bindingMismatch | replay
  | kmsUnavailable | invalidInput | unsafeEventRejected | ssrfBlocked | proofInvalid | expired
  | idempotencyConflict | siteSuspended | consentDenied
  deriving DecidableEq, Repr
inductive AuditService where | authorizationService | controlApi deriving DecidableEq, Repr

-- In the order of MCP_SCOPE_ORDER.
inductive McpScope where | read | contentWrite | mediaWrite | taxonomyWrite | seoWrite
  deriving DecidableEq, Repr

def McpScope.order : McpScope → Nat
  | .read => 0 | .contentWrite => 1 | .mediaWrite => 2 | .taxonomyWrite => 3 | .seoWrite => 4

def McpScope.text : McpScope → String
  | .read => "mcp:read" | .contentWrite => "mcp:content.write" | .mediaWrite => "mcp:media.write"
  | .taxonomyWrite => "mcp:taxonomy.write" | .seoWrite => "mcp:seo.write"

def ascending : List McpScope → Bool
  | a :: b :: rest => decide (a.order < b.order) && ascending (b :: rest)
  | _ => true
def scopeSet (scopes : List McpScope) : Bool :=
  !scopes.isEmpty && decide (scopes.length ≤ 5) && decide scopes.Nodup && ascending scopes

/- A value of a provider payload. Numbers and composite values are kept by their jsonb text. -/
inductive JsonValue where
  | null
  | bool (value : Bool)
  | num (text : String)
  | str (text : String)
  | composite (text : String)
  deriving DecidableEq, Repr

abbrev ProviderPayload := List (String × JsonValue)

/- The operator ->> of a member: its text, or NULL. -/
def JsonValue.text : JsonValue → Option String
  | .null => none
  | .bool value => some (if value then "true" else "false")
  | .num text | .str text | .composite text => some text

def member (payload : ProviderPayload) (field : String) : Option JsonValue := payload.lookup field
def memberText (payload : ProviderPayload) (field : String) : Option String :=
  (member payload field).bind JsonValue.text

structure Account where
  id : AccountId
  status : AccountStatus
  identityIssuer : Option String
  identitySubjectHash : Option String
  deriving DecidableEq, Repr

structure Tenant where
  id : TenantId
  status : TenantStatus
  deletedAt : Option Time
  deriving DecidableEq, Repr

structure Membership where
  tenantId : TenantId
  accountId : AccountId
  role : MembershipRole
  status : MembershipStatus
  revokedAt : Option Time
  deriving DecidableEq, Repr

structure HomeTenant where
  accountId : AccountId
  tenantId : TenantId
  deriving DecidableEq, Repr

structure AuthUser where
  id : String
  deriving DecidableEq, Repr

structure AuthLink where
  authUserId : String
  accountId : AccountId
  deriving DecidableEq, Repr

structure AccountSession where
  sessionHash : Digest
  accountId : AccountId
  authenticatedAt : Time
  expiresAt : Time
  revokedAt : Option Time
  deriving DecidableEq, Repr

/- kty, crv, alg and use are the literals that the site key schema allows. -/
structure SitePublicJwk where
  x : String
  kid : String
  deriving DecidableEq, Repr

structure Site where
  tenantId : TenantId
  id : SiteId
  resourceUri : String
  displayHostname : String
  status : SiteStatus
  publicJwk : SitePublicJwk
  keyThumbprint : String
  revokedAt : Option Time
  deriving DecidableEq, Repr

structure PairingAttempt where
  tenantId : TenantId
  id : String
  initiatorAccountId : AccountId
  proposedResource : String
  verifierHash : Digest
  status : AttemptStatus
  expiresAt : Time
  consumedAt : Option Time
  siteId : Option SiteId
  failureCode : Option String
  deriving DecidableEq, Repr

structure Grant where
  tenantId : TenantId
  id : GrantId
  siteId : SiteId
  subjectId : AccountId
  clientId : ClientId
  scopes : List McpScope
  consentChallengeHash : Digest
  consentExpiresAt : Time
  status : GrantStatus
  consentVersion : String
  createdAt : Time
  revokedAt : Option Time
  revocationReason : Option String
  deriving DecidableEq, Repr

structure IdempotencyRecord where
  tenantId : TenantId
  operation : IdempotencyOperation
  idempotencyKey : String
  requestDigest : Digest
  resultReference : String
  deriving DecidableEq, Repr

structure ProviderArtifact where
  model : String
  artifactId : String
  tenantId : Option TenantId
  payload : ProviderPayload
  expiresAt : Option Time
  deriving DecidableEq, Repr

structure SecretArtifact where
  model : String
  lookupVersion : Nat
  artifactHash : Digest
  tenantId : Option TenantId
  payload : ProviderPayload
  expiresAt : Option Time
  consumedAt : Option Time
  deriving DecidableEq, Repr

structure RefreshFamily where
  familyId : FamilyId
  tenantId : TenantId
  siteId : SiteId
  grantId : GrantId
  clientId : ClientId
  subjectId : AccountId
  status : FamilyStatus
  currentGeneration : Nat
  lastUsedAt : Time
  absoluteExpiresAt : Time
  revokedAt : Option Time
  revocationReason : Option String
  deriving DecidableEq, Repr

structure OutboxRow where
  id : Nat
  tenantId : TenantId
  siteId : SiteId
  resourceUri : String
  eventSequence : Nat
  eventType : EventType
  grantId : Option GrantId
  keyId : Option KeyId
  reason : String
  notBefore : Time
  attempts : Nat
  lockedAt : Option Time
  deliveredAt : Option Time
  lastErrorCode : Option String
  deriving DecidableEq, Repr

structure RateLimitBucket where
  policy : String
  subjectHash : Digest
  windowStartedAt : Time
  counter : Nat
  expiresAt : Time
  deriving DecidableEq, Repr

structure SigningKey where
  kid : KeyId
  custodyProvider : CustodyProvider
  custodyReference : String
  publicJwk : ProviderPayload
  status : KeyStatus
  publishAt : Time
  activateAt : Option Time
  retireAt : Option Time
  revokeAt : Option Time
  deriving DecidableEq, Repr

inductive DeletionCounts where
  | empty
  | revoked (revokedSessions revocationEvents : Nat)
  | purged (deleted outboxPurged : Bool)
  deriving DecidableEq, Repr

structure DeletionJob where
  id : JobId
  scopeKind : ScopeKind
  scopeId : String
  tenantId : Option TenantId
  requestedBy : AccountId
  status : JobStatus
  safeAfter : Option Time
  completedAt : Option Time
  failureCode : Option String
  counts : DeletionCounts
  deriving DecidableEq, Repr

structure DeletionTombstone where
  jobId : JobId
  objectKind : ObjectKind
  objectId : String
  tenantId : Option TenantId
  deriving DecidableEq, Repr

structure SecurityEventRow where
  id : Nat
  tenantId : TenantId
  occurredAt : Time
  eventName : SecurityEventName
  outcome : SecurityOutcome
  reason : SecurityReason
  correlationId : String
  service : AuditService
  deriving DecidableEq, Repr

structure Db where
  accounts : List Account
  tenants : List Tenant
  memberships : List Membership
  homeTenants : List HomeTenant
  authUsers : List AuthUser
  authLinks : List AuthLink
  accountSessions : List AccountSession
  sites : List Site
  pairingAttempts : List PairingAttempt
  grants : List Grant
  idempotencyRecords : List IdempotencyRecord
  providerArtifacts : List ProviderArtifact
  secretArtifacts : List SecretArtifact
  refreshFamilies : List RefreshFamily
  revocationOutbox : List OutboxRow
  outboxNextId : Nat
  rateLimitBuckets : List RateLimitBucket
  signingKeys : List SigningKey
  deletionJobs : List DeletionJob
  deletionTombstones : List DeletionTombstone
  securityEvents : List SecurityEventRow
  deriving DecidableEq, Repr

def Db.empty : Db :=
  ⟨[],[],[],[],[],[],[],[],[],[],[],[],[],[],[],1,[],[],[],[],[]⟩

def Grant.live (g : Grant) : Bool :=
  g.status == .pending || g.status == .active || g.status == .suspended

/- Primary key, grants_global_id_idx and grants_one_live_consent_idx. -/
def grantClash (a b : Grant) : Bool :=
  a.id == b.id ||
  (a.live && b.live && a.tenantId == b.tenantId && a.siteId == b.siteId &&
    a.subjectId == b.subjectId && a.clientId == b.clientId)

def siteLive (s : Site) : Bool := s.status == .pending || s.status == .active || s.status == .suspended

/- Primary key and one_live_site_per_resource_idx. -/
def siteClash (a b : Site) : Bool :=
  (a.tenantId == b.tenantId && a.id == b.id) ||
  (siteLive a && siteLive b && a.resourceUri == b.resourceUri)

def accountClash (a b : Account) : Bool :=
  a.id == b.id ||
  (a.identityIssuer.isSome && a.identityIssuer == b.identityIssuer &&
    a.identitySubjectHash.isSome && a.identitySubjectHash == b.identitySubjectHash)

def tenantClash (a b : Tenant) : Bool := a.id == b.id
def membershipClash (a b : Membership) : Bool := a.tenantId == b.tenantId && a.accountId == b.accountId
def homeClash (a b : HomeTenant) : Bool := a.accountId == b.accountId || a.tenantId == b.tenantId
def linkClash (a b : AuthLink) : Bool := a.authUserId == b.authUserId || a.accountId == b.accountId
def attemptClash (a b : PairingAttempt) : Bool := a.tenantId == b.tenantId && a.id == b.id
def familyClash (a b : RefreshFamily) : Bool := a.familyId == b.familyId
def idempotencyClash (a b : IdempotencyRecord) : Bool :=
  a.tenantId == b.tenantId && a.operation == b.operation && a.idempotencyKey == b.idempotencyKey
def outboxClash (a b : OutboxRow) : Bool :=
  a.id == b.id || (a.tenantId == b.tenantId && a.siteId == b.siteId && a.eventSequence == b.eventSequence)
def secretClash (a b : SecretArtifact) : Bool :=
  a.model == b.model && a.lookupVersion == b.lookupVersion && a.artifactHash == b.artifactHash

/- The CHECK constraints of the rows that a request fills in. -/
def Grant.check (g : Grant) : Bool :=
  opaqueId g.id && opaqueId g.subjectId && clientIdShape g.clientId &&
  decide (1 ≤ g.scopes.length) && decide (g.scopes.length ≤ 16) &&
  decide (g.consentChallengeHash.length = 32) && digitsShape g.consentVersion
def IdempotencyRecord.check (r : IdempotencyRecord) : Bool :=
  idempotencyKeyShape r.idempotencyKey && decide (r.requestDigest.length = 32) && opaqueId r.resultReference
def SecretArtifact.check (a : SecretArtifact) : Bool :=
  decide (1 ≤ a.lookupVersion) && decide (a.lookupVersion ≤ 32767) &&
  decide (a.artifactHash.length = 32) && (member a.payload "jti").isNone

def Db.hasTenant (db : Db) (tenant : TenantId) : Bool := db.tenants.any fun t => t.id == tenant
def Db.hasAccount (db : Db) (account : AccountId) : Bool := db.accounts.any fun a => a.id == account
def Db.siteAt (db : Db) (tenant : TenantId) (site : SiteId) : Option Site :=
  db.sites.find? fun s => s.tenantId == tenant && s.id == site
def Db.hasSite (db : Db) (tenant : TenantId) (site : SiteId) : Bool := (db.siteAt tenant site).isSome

end Wepuu.Schema
