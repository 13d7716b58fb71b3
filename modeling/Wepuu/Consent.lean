import Wepuu.Base64Url
import Wepuu.Grants
import Wepuu.JsonText
import Wepuu.System

/-! GrantService.begin of packages/pairing and its wiring in the control API. The signer
works after the transaction has committed, so a call whose signer fails has still written
its grant; a signed token is kept as its payload with the signature. -/
namespace Wepuu.Consent
open Base64Url Grants JsonText NodeApi Outbox Relational Schema Tenancy Wepuu.System

def zodError : Fault := .thrown "ZodError"

/- CanonicalResourceSchema. -/
def canonicalResource (node : Node) (text : String) : Bool := match node.parseUrl text with
  | none => false
  | some url =>
    url.protocol == "https:" && url.username == "" && url.password == "" && url.hash == "" && url.search == "" &&
    (url.port == "" || url.port == "443")

/- The parser has lower-cased the host of an https URL and dropped port 443 already, so the
two setters of the source leave href as it is. -/
def canonicalizeResource (node : Node) (input : String) : Except Fault String := do
  let url ← orFail (.thrown "Invalid URL") (node.parseUrl input)
  ensure (url.protocol == "https:" && url.username == "" && url.password == "" && url.search == "" && url.hash == "")
    (.thrown "invalid_resource")
  ensure (url.port == "" || url.port == "443") (.thrown "resource_port_not_allowed")
  ensure (!(url.pathname == "/" || url.pathname.toList.getLast? == some '/')) (.thrown "resource_path_not_canonical")
  ensure (canonicalResource node url.href) zodError
  .ok url.href

structure BeginInput where
  tenantId : TenantId
  grantId : GrantId
  siteId : SiteId
  subjectId : AccountId
  clientId : ClientId
  scopes : List McpScope
  resource : String
  consentVersion : String
  idempotencyKey : String
  deriving DecidableEq, Repr

structure ImmutableInput where
  tenantId : TenantId
  siteId : SiteId
  subjectId : AccountId
  clientId : ClientId
  scopes : List McpScope
  resource : String
  consentVersion : String
  idempotencyKey : String
  deriving DecidableEq, Repr

def immutableInput (input : BeginInput) (resource : String) : ImmutableInput :=
  ⟨input.tenantId,input.siteId,input.subjectId,input.clientId,input.scopes,resource,input.consentVersion,
    input.idempotencyKey⟩

def writeScope (scope : McpScope) : List Char := quoted scope.text

def stringify (input : ImmutableInput) : List Char :=
  "\x7b\"tenantId\":".toList ++ (quoted input.tenantId ++
  (",\"siteId\":".toList ++ (quoted input.siteId ++
  (",\"subjectId\":".toList ++ (quoted input.subjectId ++
  (",\"clientId\":".toList ++ (quoted input.clientId ++
  (",\"scopes\":".toList ++ (array writeScope input.scopes ++
  (",\"resource\":".toList ++ (quoted input.resource ++
  (",\"consentVersion\":".toList ++ (quoted input.consentVersion ++
  (",\"idempotencyKey\":".toList ++ (quoted input.idempotencyKey ++ "\x7d".toList)))))))))))))))

def immutableText (input : ImmutableInput) : String := String.ofList (stringify input)

structure ConsentRequest where
  kind : String
  protocolVersion : String
  iss : String
  tenantId : TenantId
  siteId : SiteId
  grantId : GrantId
  subjectId : AccountId
  clientId : ClientId
  aud : String
  resource : String
  scope : List McpScope
  challenge : String
  iat : Int
  exp : Int
  deriving DecidableEq, Repr

structure ConsentToken where
  payload : ConsentRequest
  signature : String
  deriving DecidableEq, Repr

structure BegunConsent where
  grantId : GrantId
  request : ConsentToken
  challenge : String
  expiresAt : Time
  deriving DecidableEq, Repr

structure GrantService where
  platformIssuer : String
  challengeFactory : ImmutableInput → String
  signer : ConsentRequest → Option String

def secretHash (node : Node) (secret : String) : Digest := node.sha256 secret

def challengeShape (text : String) : Bool := matchesClass opaqueChar 43 43 text

/- The schemas of the identifiers in the order createPending's argument parses them. -/
def identifiersParse (input : BeginInput) : Bool :=
  opaqueId input.grantId && opaqueId input.siteId && opaqueId input.subjectId && clientIdShape input.clientId &&
  digitsShape input.consentVersion && idempotencyKeyShape input.idempotencyKey

def pendingRecord (node : Node) (input : BeginInput) (resource challenge : String) (dateNow : Time) :
    NewPendingGrant where
  tenantId := input.tenantId
  id := input.grantId
  siteId := input.siteId
  subjectId := input.subjectId
  clientId := input.clientId
  scopes := input.scopes
  resource := resource
  challengeHash := secretHash node challenge
  expiresAt := dateNow + minutes 2
  consentVersion := input.consentVersion
  idempotencyKey := input.idempotencyKey
  requestDigest := node.sha256 (immutableText (immutableInput input resource))
  createdAt := dateNow

def consentRequest (service : GrantService) (input : BeginInput) (resource challenge : String)
    (created : CreatedGrant) : ConsentRequest where
  kind := "consent_request"
  protocolVersion := "1"
  iss := service.platformIssuer
  tenantId := input.tenantId
  siteId := input.siteId
  grantId := created.id
  subjectId := input.subjectId
  clientId := input.clientId
  aud := resource
  resource := resource
  scope := input.scopes
  challenge := challenge
  iat := created.createdAt / seconds 1
  exp := created.expiresAt / seconds 1

def parseBegin (service : GrantService) (node : Node) (input : BeginInput) : Except Fault (String × String) := do
  ensure (scopeSet input.scopes) zodError
  let resource ← canonicalizeResource node input.resource
  let challenge := service.challengeFactory (immutableInput input resource)
  ensure (challengeShape challenge) zodError
  ensure (identifiersParse input) zodError
  .ok (resource,challenge)

/- No consent where the signer fails after the transaction. -/
def GrantService.begin (service : GrantService) (node : Node) (context : TenantContext) (input : BeginInput)
    (dateNow : Time) (db : Db) : Except Fault (Db × Option BegunConsent) := do
  let (resource,challenge) ← parseBegin service node input
  let (next,created) ← createPending context (pendingRecord node input resource challenge dateNow) db
  let payload := consentRequest service input resource challenge created
  .ok (next,(service.signer payload).map fun signature =>
    ⟨created.id,⟨payload,signature⟩,challenge,created.expiresAt⟩)

def controlChallenge (node : Node) (grantIdempotencyKey : Key) (input : ImmutableInput) : String :=
  base64url (node.hmacSha256 grantIdempotencyKey (immutableText input))

def interactionKey (node : Node) (account interactionUid : String) : String :=
  "oauth_" ++ base64url (node.sha256 (account ++ "\x00" ++ interactionUid))

theorem urlOpaque (c : Char) : urlChar c = opaqueChar c := rfl

theorem controlChallengeShape (node : Node) (key : Key) (input : ImmutableInput) :
    challengeShape (controlChallenge node key input) = true := by
  have length : (encode (node.hmacSha256 key (immutableText input))).length = 43 := by
    rw [encodeLength,node.hmacLength]
  simp only [challengeShape,controlChallenge,base64url,matchesClass,String.toList_ofList,length]
  simp only [Nat.le_refl,decide_true,Bool.true_and,List.all_eq_true]
  intro c mem
  rw [← urlOpaque]
  exact encodeChars _ c mem

theorem scopeTextInjective (a b : McpScope) (same : a.text = b.text) : a = b := by
  cases a <;> cases b <;> first | rfl | (revert same; decide)

theorem delimitedScopes : Delimited (array writeScope) := by
  have each : Delimited writeScope := by
    intro a b r s same
    obtain ⟨text,behind⟩ := delimitedQuoted _ _ r s same
    exact ⟨scopeTextInjective a b text,behind⟩
  exact delimitedArray each fun _ _ => by simp [writeScope,quoted]

theorem immutableTextInjective {a b : ImmutableInput} (same : immutableText a = immutableText b) : a = b := by
  have texts : stringify a = stringify b := String.ofList_injective same
  unfold stringify at texts
  obtain ⟨tenant,texts⟩ := delimitedQuoted _ _ _ _ (List.append_cancel_left texts)
  obtain ⟨site,texts⟩ := delimitedQuoted _ _ _ _ (List.append_cancel_left texts)
  obtain ⟨subject,texts⟩ := delimitedQuoted _ _ _ _ (List.append_cancel_left texts)
  obtain ⟨client,texts⟩ := delimitedQuoted _ _ _ _ (List.append_cancel_left texts)
  obtain ⟨scopes,texts⟩ := delimitedScopes _ _ _ _ (List.append_cancel_left texts)
  obtain ⟨resource,texts⟩ := delimitedQuoted _ _ _ _ (List.append_cancel_left texts)
  obtain ⟨version,texts⟩ := delimitedQuoted _ _ _ _ (List.append_cancel_left texts)
  obtain ⟨key,_⟩ := delimitedQuoted _ _ _ _ (List.append_cancel_left texts)
  obtain ⟨t,s,u,c,sc,r,v,k⟩ := a
  simp only at tenant site subject client scopes resource version key
  subst tenant site subject client scopes resource version key
  rfl

theorem parseBeginExact {service : GrantService} {node : Node} {input : BeginInput} {resource challenge : String} :
    parseBegin service node input = .ok (resource,challenge) ↔
      scopeSet input.scopes = true ∧ canonicalizeResource node input.resource = .ok resource ∧
      challenge = service.challengeFactory (immutableInput input resource) ∧
      challengeShape challenge = true ∧ identifiersParse input = true := by
  simp only [parseBegin,bindOk,ensureOk]
  constructor
  · rintro ⟨_,scopes,found,hr,_,shape,_,ids,last⟩
    cases last
    exact ⟨scopes,hr,rfl,shape,ids⟩
  · rintro ⟨scopes,hr,rfl,shape,ids⟩
    exact ⟨(),scopes,resource,hr,(),shape,(),ids,rfl⟩

theorem beginExact {service : GrantService} {node : Node} {context : TenantContext} {input : BeginInput}
    {dateNow : Time} {db next : Db} {out : Option BegunConsent}
    (ok : service.begin node context input dateNow db = .ok (next,out)) :
    ∃ resource challenge created, parseBegin service node input = .ok (resource,challenge) ∧
      createPending context (pendingRecord node input resource challenge dateNow) db = .ok (next,created) ∧
      out = (service.signer (consentRequest service input resource challenge created)).map fun signature =>
        ⟨created.id,⟨consentRequest service input resource challenge created,signature⟩,challenge,created.expiresAt⟩ := by
  simp only [GrantService.begin,bindOk] at ok
  obtain ⟨⟨resource,challenge⟩,parsed,⟨after,created⟩,hc,last⟩ := ok
  cases last
  exact ⟨resource,challenge,created,parsed,hc,rfl⟩

/- Two interactions of the sample account: SHA-256 of its id and the interaction uid, the
HMAC of the immutable input, and SHA-256 of the challenge and of the input. -/
def firstKeyDigest : Digest :=
  [16,196,71,255,165,95,254,86,155,142,219,47,88,167,29,64,241,31,119,180,195,32,245,10,187,222,200,243,213,
  191,82,216]
def firstChallengeMac : Digest :=
  [243,88,132,199,233,73,142,31,213,36,126,248,1,241,53,235,170,231,118,174,195,170,38,191,143,94,98,21,14,81,
  166,188]
def firstChallengeDigest : Digest :=
  [103,146,54,0,242,79,16,211,87,152,56,61,108,245,217,50,7,106,25,237,11,250,203,62,117,144,91,148,19,26,60,
  78]
def firstRequestDigest : Digest :=
  [56,107,9,233,175,20,173,177,165,80,43,2,201,2,155,212,162,138,206,225,98,233,217,156,205,113,141,76,214,51,
  85,218]

def secondKeyDigest : Digest :=
  [74,131,170,172,22,130,72,133,71,201,161,194,196,152,31,32,254,221,26,26,237,22,178,84,10,208,49,56,204,129,
  27,41]
def secondChallengeMac : Digest :=
  [20,239,226,212,218,65,199,244,192,202,191,86,16,223,62,202,65,186,63,139,180,197,205,46,211,209,54,237,243,
  31,193,186]
def secondChallengeDigest : Digest :=
  [254,160,163,106,204,7,99,150,16,191,252,41,36,150,104,3,23,174,1,55,227,52,233,67,138,115,225,52,110,207,
  14,43]
def secondRequestDigest : Digest :=
  [174,152,196,179,252,157,12,192,59,229,51,108,41,50,73,145,179,215,193,4,128,54,123,212,110,66,177,162,173,
  83,118,138]

def sampleKey (keyDigest : Digest) : String := "oauth_" ++ base64url keyDigest

def grantIdempotencyKey : Key := List.replicate 32 4

def sampleBegin (grantId : GrantId) (keyDigest : Digest) : BeginInput :=
  ⟨sampleTenant,grantId,sampleSite,sampleAccount,"client_0001",[.read],sampleResource,"1",sampleKey keyDigest⟩

def sampleText (keyDigest : Digest) : String :=
  immutableText (immutableInput (sampleBegin "" keyDigest) sampleResource)

def consentNode : Node := sampleNode
  [(sampleAccount ++ "\x00interaction_0001",firstKeyDigest),(base64url firstChallengeMac,firstChallengeDigest),
    (sampleText firstKeyDigest,firstRequestDigest),
    (sampleAccount ++ "\x00interaction_0002",secondKeyDigest),(base64url secondChallengeMac,secondChallengeDigest),
    (sampleText secondKeyDigest,secondRequestDigest)]
  [((grantIdempotencyKey,sampleText firstKeyDigest),firstChallengeMac),
    ((grantIdempotencyKey,sampleText secondKeyDigest),secondChallengeMac)]

def sampleService : GrantService where
  platformIssuer := "https://auth.example"
  challengeFactory := controlChallenge consentNode grantIdempotencyKey
  signer _ := some "signature"

end Wepuu.Consent
