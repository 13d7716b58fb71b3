import Wepuu.Consent
import Wepuu.JsValues
import Wepuu.Words

/-! verifySiteProof of packages/pairing and the expectations of its two callers. The
functions of jose and the formats of zod are a parameter. -/
namespace Wepuu.SiteProofs
open Base64Url Consent Grants JsValues NodeApi Schema Wepuu.System Words

inductive PairingDiagnosticStage where
  | dns | destination | network | response | proof | state | persistence | unknown
  deriving DecidableEq, Repr

inductive PairingDiagnosticCode where
  | dnsFailed | destinationUnsafe | networkFailed | networkTimeout | tlsFailed | http401 | http403 | http429 | http4xx
  | http5xx | httpOther | contentTypeInvalid | tooLarge | jsonInvalid | schemaInvalid | keyInvalid | signatureInvalid
  | headerInvalid | claimsInvalid | stateInvalid | tenantAccessDenied | persistenceFailed | unknown
  deriving DecidableEq, Repr

def PairingDiagnosticCode.text : PairingDiagnosticCode → String
  | .dnsFailed => "dns.failed" | .destinationUnsafe => "destination.unsafe" | .networkFailed => "network.failed"
  | .networkTimeout => "network.timeout" | .tlsFailed => "tls.failed" | .http401 => "http.401" | .http403 => "http.403"
  | .http429 => "http.429" | .http4xx => "http.4xx" | .http5xx => "http.5xx" | .httpOther => "http.other"
  | .contentTypeInvalid => "response.content_type_invalid" | .tooLarge => "response.too_large"
  | .jsonInvalid => "response.json_invalid" | .schemaInvalid => "response.schema_invalid"
  | .keyInvalid => "proof.key_invalid" | .signatureInvalid => "proof.signature_invalid"
  | .headerInvalid => "proof.header_invalid" | .claimsInvalid => "proof.claims_invalid"
  | .stateInvalid => "pairing.state_invalid" | .tenantAccessDenied => "pairing.tenant_access_denied"
  | .persistenceFailed => "pairing.persistence_failed" | .unknown => "unknown"

structure PairingDiagnosticError where
  stage : PairingDiagnosticStage
  code : PairingDiagnosticCode
  deriving DecidableEq, Repr

def diagnostic {α : Type} (stage : PairingDiagnosticStage) (code : PairingDiagnosticCode) :
    Except PairingDiagnosticError α := .error ⟨stage,code⟩

/- importJWK, decodeProtectedHeader, compactVerify and calculateJwkThumbprint, each none when it
throws; JSON.parse; and the formats of z.url and z.uuid. -/
structure ProofApi (K : Type) where
  importJwk : SitePublicJwk → Option K
  protectedHeader : String → Option (List (String × JsValue))
  compactVerify : String → K → Option String
  thumbprint : SitePublicJwk → Option String
  jsonParse : String → Option JsValue
  isUrl : String → Bool
  isUuid : String → Bool

inductive ProofKind where | pairing | consent deriving DecidableEq, Repr
inductive ProofDecision where | approved | denied deriving DecidableEq, Repr

section Claims
variable {K : Type} (node : Node) (api : ProofApi K)

structure SiteProofClaims where
  kind : ProofKind
  iss : String
  platformIssuer : String
  tenantId : String
  siteId : Option String
  pairingAttemptId : Option String
  platformSigningKeySha256 : Option String
  platformSigningKid : Option String
  grantId : Option String
  subjectId : Option String
  clientId : Option String
  resource : String
  aud : Option String
  scope : Option (List McpScope)
  decision : Option ProofDecision
  challenge : String
  iat : Int
  exp : Int
  deriving DecidableEq, Repr

structure ExpectedSiteProof where
  kind : ProofKind
  platformIssuer : String
  tenantId : String
  resource : String
  challenge : String
  pairingAttemptId : Option String
  siteId : Option String
  platformSigningKeySha256 : Option String
  platformSigningKid : Option String
  grantId : Option String
  clientId : Option String
  subjectId : Option String
  scopes : Option (List McpScope)
  decision : Option ProofDecision
  now : Option Time
  deriving DecidableEq, Repr

def kindMember (members : List (String × JsValue)) : Option ProofKind := match property members "kind" with
  | .str "pairing" => some .pairing
  | .str "consent" => some .consent
  | _ => none

def decisionValue : JsValue → Option ProofDecision
  | .str "approved" => some .approved
  | .str "denied" => some .denied
  | _ => none

def mcpScope (text : String) : Option McpScope :=
  [McpScope.read,.contentWrite,.mediaWrite,.taxonomyWrite,.seoWrite].find? fun scope => scope.text == text

def scopeValue : JsValue → Option (List McpScope)
  | .arr items => ((stringItems items).bind (List.mapM mcpScope)).filter scopeSet
  | _ => none

def resourceText (text : String) : Bool := api.isUrl text && canonicalResource node text

def siteProofMembers : List String :=
  ["kind","protocol_version","iss","platform_issuer","tenant_id","site_id","pairing_attempt_id",
    "platform_signing_key_sha256","platform_signing_kid","grant_id","subject_id","client_id","resource","aud","scope",
    "decision","challenge","iat","exp"]

def parseClaims : JsValue → Option SiteProofClaims
  | .obj members => do
    guard (onlyMembers siteProofMembers members)
    let kind ← kindMember members
    let _ ← textMember (· == "1") members "protocol_version"
    let iss ← textMember (fun text => decide (1 ≤ utf16Length text) && decide (utf16Length text ≤ 253)) members "iss"
    let platformIssuer ← textMember api.isUrl members "platform_issuer"
    let tenantId ← textMember api.isUuid members "tenant_id"
    let siteId ← optionalText opaqueId members "site_id"
    let pairingAttemptId ← optionalText opaqueId members "pairing_attempt_id"
    let platformSigningKeySha256 ← optionalText (matchesClass opaqueChar 43 43) members "platform_signing_key_sha256"
    let platformSigningKid ← optionalText opaqueId members "platform_signing_kid"
    let grantId ← optionalText opaqueId members "grant_id"
    let subjectId ← optionalText opaqueId members "subject_id"
    let clientId ← optionalText clientIdShape members "client_id"
    let resource ← textMember (resourceText node api) members "resource"
    let aud ← optionalText (resourceText node api) members "aud"
    let scope ← optionalMember scopeValue members "scope"
    let decision ← optionalMember decisionValue members "decision"
    let challenge ← textMember (matchesClass opaqueChar 32 128) members "challenge"
    let iat ← integerMember members "iat"
    let exp ← integerMember members "exp"
    some ⟨kind,iss,platformIssuer,tenantId,siteId,pairingAttemptId,platformSigningKeySha256,platformSigningKid,grantId,
      subjectId,clientId,resource,aud,scope,decision,challenge,iat,exp⟩
  | _ => none

def parseJwk : JsValue → Option SitePublicJwk
  | .obj members => do
    guard (onlyMembers ["kty","crv","x","kid","alg","use"] members)
    let _ ← textMember (· == "OKP") members "kty"
    let _ ← textMember (· == "Ed25519") members "crv"
    let x ← textMember (fun text => decide (40 ≤ utf16Length text) && decide (utf16Length text ≤ 64)) members "x"
    let kid ← textMember opaqueId members "kid"
    let _ ← optionalText (· == "EdDSA") members "alg"
    let _ ← optionalText (· == "sig") members "use"
    some ⟨x,kid⟩
  | _ => none

end Claims

section Verify
variable {K : Type} (node : Node) (api : ProofApi K)

structure VerifiedSiteProof where
  claims : SiteProofClaims
  publicJwk : SitePublicJwk
  thumbprint : String
  deriving DecidableEq, Repr

def orDiagnostic {α : Type} (code : PairingDiagnosticCode) : Option α → Except PairingDiagnosticError α
  | some a => .ok a
  | none => diagnostic .proof code

def insist (holds : Bool) (code : PairingDiagnosticCode) : Except PairingDiagnosticError Unit :=
  if holds then .ok () else diagnostic .proof code

def proofHeader (header : List (String × JsValue)) (kid : String) : Bool :=
  String.intercalate "," ((header.map (·.1)).insertionSort fun a b => codeUnits a ≤ codeUnits b) == "alg,kid,typ" &&
  (property header "alg").isText "EdDSA" && (property header "typ").isText "wepuu-site-proof+jwt" &&
  (property header "kid").isText kid

def proofTimes (claims : SiteProofClaims) (now : Int) : Bool :=
  decide (now < claims.exp) && decide (claims.iat ≤ now + 5) && decide (claims.exp - claims.iat ≤ 60)

def proofClaims (claims : SiteProofClaims) (expected : ExpectedSiteProof) : Bool :=
  claims.kind == expected.kind && claims.platformIssuer == expected.platformIssuer &&
  (node.parseUrl expected.resource).any (fun url => claims.iss == url.hostname) &&
  claims.tenantId == expected.tenantId && claims.resource == expected.resource &&
  claims.challenge == expected.challenge && claims.pairingAttemptId == expected.pairingAttemptId &&
  claims.siteId == expected.siteId && claims.platformSigningKeySha256 == expected.platformSigningKeySha256 &&
  claims.platformSigningKid == expected.platformSigningKid && claims.grantId == expected.grantId &&
  claims.clientId == expected.clientId && claims.subjectId == expected.subjectId &&
  claims.aud == (if expected.kind = .consent then some expected.resource else none) &&
  claims.decision == expected.decision && expected.scopes.all fun scopes => claims.scope.getD [] == scopes

/- clock is the Date that an expectation without a time takes. -/
def verifySiteProof (compactJws : String) (publicJwkInput : JsValue) (expected : ExpectedSiteProof) (clock : Time) :
    Except PairingDiagnosticError VerifiedSiteProof := do
  insist (decide (compactJws.utf8ByteSize ≤ 16 * 1024)) .signatureInvalid
  let publicJwk ← orDiagnostic .keyInvalid (parseJwk publicJwkInput)
  let key ← orDiagnostic .keyInvalid (api.importJwk publicJwk)
  let header ← orDiagnostic .headerInvalid (api.protectedHeader compactJws)
  insist (proofHeader header publicJwk.kid) .headerInvalid
  let payload ← orDiagnostic .signatureInvalid (api.compactVerify compactJws key)
  let claims ← orDiagnostic .claimsInvalid ((api.jsonParse payload).bind (parseClaims node api))
  insist (proofTimes claims (expected.now.getD clock / seconds 1)) .claimsInvalid
  insist (proofClaims node claims expected) .claimsInvalid
  let thumbprint ← orDiagnostic .claimsInvalid (api.thumbprint publicJwk)
  .ok ⟨claims,publicJwk,thumbprint⟩

end Verify

section Callers

structure SiteVerificationRequest where
  tenantId : TenantId
  pairingAttemptId : String
  siteId : SiteId
  resource : String
  verifier : String
  challenge : String
  platformIssuer : String
  platformSigningKeyPem : String
  platformSigningKid : String
  deriving DecidableEq, Repr

/- HttpsSiteVerificationClient.verify, with the resource it has made canonical. -/
def pairingExpectation (node : Node) (input : SiteVerificationRequest) (resource : String) : ExpectedSiteProof where
  kind := .pairing
  platformIssuer := input.platformIssuer
  tenantId := input.tenantId
  resource := resource
  challenge := input.challenge
  pairingAttemptId := some input.pairingAttemptId
  siteId := some input.siteId
  platformSigningKeySha256 := some (base64url (node.sha256 input.platformSigningKeyPem))
  platformSigningKid := some input.platformSigningKid
  grantId := none
  clientId := none
  subjectId := none
  scopes := none
  decision := none
  now := none

def consentExpectation (platformIssuer : String) (grant : PendingGrantRecord) (challenge : String)
    (decision : ProofDecision) (now : Time) : ExpectedSiteProof where
  kind := .consent
  platformIssuer := platformIssuer
  tenantId := grant.tenantId
  resource := grant.resource
  challenge := challenge
  pairingAttemptId := none
  siteId := some grant.siteId
  platformSigningKeySha256 := none
  platformSigningKid := none
  grantId := some grant.id
  clientId := some grant.clientId
  subjectId := some grant.subjectId
  scopes := some grant.scopes
  decision := some decision
  now := some now

inductive OfCaller (node : Node) : ExpectedSiteProof → Prop
  | pairing (input : SiteVerificationRequest) (resource : String) : OfCaller node (pairingExpectation node input resource)
  | consent (platformIssuer : String) (grant : PendingGrantRecord) (challenge : String) (decision : ProofDecision)
      (now : Time) : OfCaller node (consentExpectation platformIssuer grant challenge decision now)

end Callers

section Binding
variable {K : Type} {node : Node} {api : ProofApi K} {compactJws : String} {publicJwk : JsValue}
variable {expected : ExpectedSiteProof} {clock : Time} {proof : VerifiedSiteProof}

theorem insistOk {holds : Bool} {code : PairingDiagnosticCode} {u : Unit} :
    insist holds code = .ok u ↔ holds = true :=
  holdsOk

theorem orDiagnosticOk {α : Type} {code : PairingDiagnosticCode} {x : Option α} {a : α} :
    orDiagnostic code x = .ok a ↔ x = some a :=
  presentOk (orDiagnostic code) rfl fun _ => rfl

def signedClaims (node : Node) (api : ProofApi K) (compactJws : String) (publicJwk : JsValue) : Option SiteProofClaims := do
  let jwk ← parseJwk publicJwk
  let key ← api.importJwk jwk
  let payload ← api.compactVerify compactJws key
  let value ← api.jsonParse payload
  parseClaims node api value

theorem verifiedClaims (ok : verifySiteProof node api compactJws publicJwk expected clock = .ok proof) :
    signedClaims node api compactJws publicJwk = some proof.claims ∧
    proofTimes proof.claims (expected.now.getD clock / seconds 1) = true ∧
    proofClaims node proof.claims expected = true := by
  simp only [verifySiteProof,bindOk,insistOk,orDiagnosticOk] at ok
  obtain ⟨_,_,jwk,parsed,key,imported,_,_,_,_,payload,verified,claims,read,_,times,_,matches_,_,_,last⟩ := ok
  cases last
  refine ⟨?_,times,matches_⟩
  obtain ⟨value,json,ofValue⟩ := Option.bind_eq_some_iff.mp read
  simp only [signedClaims,parsed,imported,verified,json,ofValue,bind,Option.bind]

def expectedBy (claims : SiteProofClaims) (now : Option Time) : ExpectedSiteProof where
  kind := claims.kind
  platformIssuer := claims.platformIssuer
  tenantId := claims.tenantId
  resource := claims.resource
  challenge := claims.challenge
  pairingAttemptId := claims.pairingAttemptId
  siteId := claims.siteId
  platformSigningKeySha256 := claims.platformSigningKeySha256
  platformSigningKid := claims.platformSigningKid
  grantId := claims.grantId
  clientId := claims.clientId
  subjectId := claims.subjectId
  scopes := if claims.kind = .consent then some (claims.scope.getD []) else none
  decision := claims.decision
  now := now

theorem callerExpected {claims : SiteProofClaims} (caller : OfCaller node expected)
    (matches_ : proofClaims node claims expected = true) : expected = expectedBy claims expected.now := by
  cases caller with
  | pairing input resource =>
    simp only [proofClaims,pairingExpectation,Bool.and_eq_true,beq_iff_eq] at matches_
    obtain ⟨⟨⟨⟨⟨⟨⟨⟨⟨⟨⟨⟨⟨⟨⟨kind,issuer⟩,_⟩,tenant⟩,resource⟩,challenge⟩,attempt⟩,site⟩,digest⟩,kid⟩,grant⟩,client⟩,subject⟩,_⟩,
      decision⟩,_⟩ := matches_
    simp [pairingExpectation,expectedBy,kind,issuer,tenant,resource,challenge,attempt,site,digest,kid,grant,client,
      subject,decision]
  | consent platformIssuer grant challenge decision now =>
    simp only [proofClaims,consentExpectation,Bool.and_eq_true,beq_iff_eq,Option.all_some] at matches_
    obtain ⟨⟨⟨⟨⟨⟨⟨⟨⟨⟨⟨⟨⟨⟨⟨kind,issuer⟩,_⟩,tenant⟩,resource⟩,challenge⟩,attempt⟩,site⟩,digest⟩,kid⟩,grant⟩,client⟩,subject⟩,_⟩,
      decision⟩,scopes⟩ := matches_
    simp [consentExpectation,expectedBy,kind,issuer,tenant,resource,challenge,attempt,site,digest,kid,grant,client,
      subject,decision,scopes]

theorem wholeSeconds {iat exp instant : Int} (before : instant / (1 * 1000000) < exp)
    (after : iat ≤ instant / (1 * 1000000) + 5) : (iat - 5) * 1000000 ≤ instant ∧ instant < exp * 1000000 := by
  omega

theorem instantWithin {claims : SiteProofClaims} {instant : Time} (times : proofTimes claims (instant / seconds 1) = true) :
    seconds (claims.iat - 5) ≤ instant ∧ instant < seconds claims.exp ∧ claims.exp - (claims.iat - 5) ≤ 65 := by
  simp only [proofTimes,Bool.and_eq_true,decide_eq_true_eq] at times
  obtain ⟨⟨before,after⟩,short⟩ := times
  obtain ⟨low,high⟩ := wholeSeconds before after
  exact ⟨low,high,by omega⟩

/- One proof meets the expectations of at most one purpose, site, attempt, grant, decision and
list of scopes, and only at the instants of one interval of 65 seconds. -/
theorem proofBound (node : Node) (api : ProofApi K) (compactJws : String) (publicJwk : JsValue) :
    (∀ left right leftClock rightClock leftProof rightProof, OfCaller node left → OfCaller node right →
      verifySiteProof node api compactJws publicJwk left leftClock = .ok leftProof →
      verifySiteProof node api compactJws publicJwk right rightClock = .ok rightProof →
      left = { right with now := left.now }) ∧
    ∃ iat exp, exp - (iat - 5) ≤ 65 ∧ ∀ expected clock proof,
      verifySiteProof node api compactJws publicJwk expected clock = .ok proof →
      proof.claims.iat = iat ∧ proof.claims.exp = exp ∧
      seconds (iat - 5) ≤ expected.now.getD clock ∧ expected.now.getD clock < seconds exp := by
  refine ⟨?_,?_⟩
  · intro left right leftClock rightClock leftProof rightProof leftCaller rightCaller leftOk rightOk
    obtain ⟨leftSigned,_,leftMatches⟩ := verifiedClaims leftOk
    obtain ⟨rightSigned,_,rightMatches⟩ := verifiedClaims rightOk
    have same : leftProof.claims = rightProof.claims := Option.some.inj (leftSigned.symm.trans rightSigned)
    rw [callerExpected leftCaller leftMatches,callerExpected rightCaller rightMatches,same]
    rfl
  · cases signed : signedClaims node api compactJws publicJwk with
    | none =>
      refine ⟨0,0,by decide,fun expected clock proof ok => ?_⟩
      obtain ⟨known,_⟩ := verifiedClaims ok
      rw [signed] at known
      contradiction
    | some claims =>
      by_cases accepted : ∃ expected clock proof, verifySiteProof node api compactJws publicJwk expected clock = .ok proof
      · obtain ⟨expected,clock,proof,ok⟩ := accepted
        obtain ⟨known,times,_⟩ := verifiedClaims ok
        rw [signed] at known
        cases known
        refine ⟨proof.claims.iat,proof.claims.exp,(instantWithin times).2.2,fun other otherClock otherProof ok => ?_⟩
        obtain ⟨known,otherTimes,_⟩ := verifiedClaims ok
        have same : proof.claims = otherProof.claims := Option.some.inj (signed.symm.trans known)
        rw [← same] at otherTimes
        obtain ⟨after,before,_⟩ := instantWithin otherTimes
        exact ⟨by rw [same],by rw [same],after,before⟩
      · exact ⟨0,0,by decide,fun expected clock proof ok => absurd ⟨expected,clock,proof,ok⟩ accepted⟩

end Binding

section Sample

/- A consent proof that a site signed with an Ed25519 key of its own. -/
def proofX : String := "vgqAKH4PdqC1XdPBbxauWUR4FNjOdStvetqSLVa5vtU"
@[irreducible] def proofJws : String :=
  "eyJhbGciOiJFZERTQSIsInR5cCI6IndlcHV1LXNpdGUtcHJvb2Yrand0Iiwia2lkIjoic2l0ZV9rZXlfMDAwMSJ9.eyJraW5kIjo" ++
  "iY29uc2VudCIsInByb3RvY29sX3ZlcnNpb24iOiIxIiwiaXNzIjoic2l0ZS5leGFtcGxlIiwicGxhdGZvcm1faXNzdWVyIjoiaHR" ++
  "0cHM6Ly9hdXRoLmV4YW1wbGUiLCJ0ZW5hbnRfaWQiOiIxMTExMTExMS0xMTExLTQxMTEtODExMS0xMTExMTExMTExMTEiLCJzaXR" ++
  "lX2lkIjoic2l0ZV8wMDAxIiwiZ3JhbnRfaWQiOiJncmFudF8wMDAxIiwic3ViamVjdF9pZCI6ImFjY291bnRfMDEyMzQ1Njc4OWF" ++
  "iY2RlZiIsImNsaWVudF9pZCI6ImNsaWVudF8wMDAxIiwicmVzb3VyY2UiOiJodHRwczovL3NpdGUuZXhhbXBsZS93cC1qc29uL3d" ++
  "wLWF1dG8vbWNwIiwiYXVkIjoiaHR0cHM6Ly9zaXRlLmV4YW1wbGUvd3AtanNvbi93cC1hdXRvL21jcCIsInNjb3BlIjpbIm1jcDp" ++
  "yZWFkIl0sImRlY2lzaW9uIjoiYXBwcm92ZWQiLCJjaGFsbGVuZ2UiOiJBQUFBQUFBQUFBQUFBQUFBQUFBQUFBQUFBQUFBQUFBQUF" ++
  "BQUFBQUFBQUFBIiwiaWF0IjoxMDAsImV4cCI6MTYwfQ.56sIvB-aTLyvfEpmBgr5US3ch9CFSf-TMXs5-5fpYzX1UJK46nrGsYOK" ++
  "1uh63pafrNUEfNb8TAlhOMeMKO1lCQ"

@[irreducible] def proofPayload : String :=
  "\x7b\"kind\":\"consent\",\"protocol_version\":\"1\",\"iss\":\"site.example\",\"platform_issuer\":\"https://a" ++
  "uth.example\",\"tenant_id\":\"11111111-1111-4111-8111-111111111111\",\"site_id\":\"site_0001\",\"gra" ++
  "nt_id\":\"grant_0001\",\"subject_id\":\"account_0123456789abcdef\",\"client_id\":\"client_0001\",\"res" ++
  "ource\":\"https://site.example/wp-json/wp-auto/mcp\",\"aud\":\"https://site.example/wp-json/wp-a" ++
  "uto/mcp\",\"scope\":[\"mcp:read\"],\"decision\":\"approved\",\"challenge\":\"AAAAAAAAAAAAAAAAAAAAAAAAA" ++
  "AAAAAAAAAAAAAAAAAA\",\"iat\":100,\"exp\":160\x7d"

def proofThumbprint : String := "CGzCaApBHxzT5Y5vybesyqFMLsw9Ro_QlyLgu87HDjo"
def proofChallenge : String := "AAAAAAAAAAAAAAAAAAAAAAAAAAAAAAAAAAAAAAAAAAA"

def proofMembers : List (String × JsValue) :=
  [("kind",.str "consent"),("protocol_version",.str "1"),("iss",.str "site.example"),
    ("platform_issuer",.str "https://auth.example"),("tenant_id",.str sampleTenant),("site_id",.str sampleSite),
    ("grant_id",.str "grant_0001"),("subject_id",.str sampleAccount),("client_id",.str "client_0001"),
    ("resource",.str sampleResource),("aud",.str sampleResource),("scope",.arr [.str "mcp:read"]),
    ("decision",.str "approved"),("challenge",.str proofChallenge),("iat",.int 100),("exp",.int 160)]

def proofHeaderMembers : List (String × JsValue) :=
  [("alg",.str "EdDSA"),("typ",.str "wepuu-site-proof+jwt"),("kid",.str "site_key_0001")]

def sampleProofApi : ProofApi String where
  importJwk jwk := if jwk.x = proofX then some jwk.x else none
  protectedHeader jws := if jws = proofJws then some proofHeaderMembers else none
  compactVerify jws key := if jws = proofJws ∧ key = proofX then some proofPayload else none
  thumbprint jwk := if jwk.x = proofX then some proofThumbprint else none
  jsonParse text := if text = proofPayload then some (.obj proofMembers) else none
  isUrl text := ["https://auth.example",sampleResource].contains text
  isUuid text := text == sampleTenant

def proofJwk : JsValue := .obj [("kty",.str "OKP"),("crv",.str "Ed25519"),("x",.str proofX),("kid",.str "site_key_0001")]

def proofGrant : PendingGrantRecord :=
  ⟨sampleTenant,"grant_0001",sampleSite,sampleAccount,"client_0001",[.read],sampleResource,⟨proofX,"site_key_0001"⟩,
    List.replicate 32 9,seconds 200,false⟩

def approvedClaims : SiteProofClaims :=
  ⟨.consent,"site.example","https://auth.example",sampleTenant,some sampleSite,none,none,none,some "grant_0001",
    some sampleAccount,some "client_0001",sampleResource,some sampleResource,some [.read],some .approved,
    proofChallenge,100,160⟩

theorem textFits {l : List Char} {n : Nat} (bytes : (l.flatMap String.utf8EncodeChar).length ≤ n) :
    (String.ofList l).utf8ByteSize ≤ n := by
  rw [← String.size_toByteArray]
  simpa [List.utf8Encode] using bytes

theorem appendFits {left right : String} {m n : Nat} (leftFits : left.utf8ByteSize ≤ m)
    (rightFits : right.utf8ByteSize ≤ n) : (left ++ right).utf8ByteSize ≤ m + n := by
  rw [String.utf8ByteSize_append]
  exact Nat.add_le_add leftFits rightFits

theorem proofFits : proofJws.utf8ByteSize ≤ 16 * 1024 := by
  unfold proofJws
  have fits : ∀ {l : List Char}, (l.flatMap String.utf8EncodeChar).length ≤ 101 → (String.ofList l).utf8ByteSize ≤ 101 :=
    textFits
  refine Nat.le_trans (appendFits (appendFits (appendFits (appendFits (appendFits (appendFits (appendFits (appendFits
    (fits ?_) (fits ?_)) (fits ?_)) (fits ?_)) (fits ?_)) (fits ?_)) (fits ?_)) (fits ?_)) (fits ?_)) ?_ <;> decide

def approvedAt (now : Time) : ExpectedSiteProof :=
  consentExpectation "https://auth.example" proofGrant proofChallenge .approved now

theorem proofAccepted : verifySiteProof (sampleNode [] []) sampleProofApi proofJws proofJwk (approvedAt (seconds 120)) 0 =
    .ok ⟨approvedClaims,⟨proofX,"site_key_0001"⟩,proofThumbprint⟩ := by
  have size : decide (proofJws.utf8ByteSize ≤ 16 * 1024) = true := decide_eq_true proofFits
  have jwk : parseJwk proofJwk = some ⟨proofX,"site_key_0001"⟩ := by decide
  have header : proofHeader proofHeaderMembers "site_key_0001" = true := by decide
  have claims : parseClaims (sampleNode [] []) sampleProofApi (.obj proofMembers) = some approvedClaims := by decide
  have times : proofTimes approvedClaims ((approvedAt (seconds 120)).now.getD 0 / seconds 1) = true := by decide
  have expected : proofClaims (sampleNode [] []) approvedClaims (approvedAt (seconds 120)) = true := by decide
  have imported : sampleProofApi.importJwk ⟨proofX,"site_key_0001"⟩ = some proofX := by simp [sampleProofApi]
  have decoded : sampleProofApi.protectedHeader proofJws = some proofHeaderMembers := by simp [sampleProofApi]
  have verified : sampleProofApi.compactVerify proofJws proofX = some proofPayload := by simp [sampleProofApi]
  have parsed : sampleProofApi.jsonParse proofPayload = some (.obj proofMembers) := by simp [sampleProofApi]
  have read : (sampleProofApi.jsonParse proofPayload).bind (parseClaims (sampleNode [] []) sampleProofApi) =
      some approvedClaims := Option.bind_eq_some_iff.mpr ⟨_,parsed,claims⟩
  have thumbprint : sampleProofApi.thumbprint ⟨proofX,"site_key_0001"⟩ = some proofThumbprint := by simp [sampleProofApi]
  simp only [verifySiteProof,bindOk,insistOk,orDiagnosticOk]
  exact ⟨(),size,_,jwk,_,imported,_,decoded,(),header,_,verified,_,read,(),times,(),expected,_,thumbprint,rfl⟩

theorem approvalOnly : ∀ grant decision now clock proof,
    verifySiteProof (sampleNode [] []) sampleProofApi proofJws proofJwk
      (consentExpectation "https://auth.example" grant proofChallenge decision now) clock = .ok proof →
    decision = .approved ∧ grant.id = "grant_0001" ∧ grant.scopes = [.read] ∧ seconds 95 ≤ now ∧ now < seconds 160 := by
  intro grant decision now clock proof ok
  obtain ⟨agree,iat,exp,_,within⟩ := proofBound (sampleNode [] []) sampleProofApi proofJws proofJwk
  have same := agree _ _ _ _ _ _ (.consent "https://auth.example" grant proofChallenge decision now)
    (.consent "https://auth.example" proofGrant proofChallenge .approved (seconds 120)) ok proofAccepted
  obtain ⟨rfl,rfl,_⟩ := within _ _ _ proofAccepted
  obtain ⟨_,_,after,before⟩ := within _ _ _ ok
  have decided := congrArg ExpectedSiteProof.decision same
  have named := congrArg ExpectedSiteProof.grantId same
  have scopes := congrArg ExpectedSiteProof.scopes same
  exact ⟨Option.some.inj decided,Option.some.inj named,Option.some.inj scopes,after,before⟩

end Sample

end Wepuu.SiteProofs
