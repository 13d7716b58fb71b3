import Wepuu.AuditedRequests
import Wepuu.CompactTokens
import Wepuu.ConsentPolicy
import Wepuu.LiveSites
import Wepuu.PairedResources

/-! The consent bootstrap: the authorization service signs an interaction's request, the
control API verifies it for the account of its own session, and a denial brings it back.
The functions of jose and z.url() are parameters. -/
namespace Wepuu.ConsentBootstrap
open AuditedRequests Base64Url CompactTokens ConsentPlan ConsentPolicy GrantCeiling Grants JsValues LiveSites
open NodeApi PairedResources PairingRuns PairingService Relational Resources Runs Schema SiteProofs Words
open Consent (canonicalResource canonicalizeResource)
open Pairing (httpsText)

section Jose

structure VerifyOptions where
  algorithms : List String
  issuer : String
  audience : String
  subject : String
  typ : String
  currentDate : Time
  deriving DecidableEq, Repr

/- RSA-SHA256 over a signing input, and the two readers, none where they throw. -/
structure Jose (Secret Public : Type) where
  rsaSign : Secret → List Char → List UInt8
  decodeProtectedHeader : String → Option (List (String × JsValue))
  jwtVerify : String → Public → VerifyOptions → Option (List (String × JsValue))

variable {Secret Public : Type}

def signJwt (jose : Jose Secret Public) (key : Secret) (header payload : List (String × JsValue)) : String :=
  String.ofList (compact header payload (jose.rsaSign key (signingInput header payload)))

def notBefore (now : Int) : JsValue → Bool
  | .int nbf => decide (nbf ≤ now)
  | .undefined => true
  | _ => false

def unexpired (now : Int) : JsValue → Bool
  | .int exp => decide (now < exp)
  | .undefined => true
  | _ => false

def claimsHold (header payload : List (String × JsValue)) (options : VerifyOptions) : Bool :=
  options.algorithms.any (fun algorithm => (property header "alg").isText algorithm) &&
  (property header "typ").isText options.typ && (property payload "iss").isText options.issuer &&
  (property payload "sub").isText options.subject && (property payload "aud").isText options.audience &&
  notBefore (options.currentDate / seconds 1) (property payload "nbf") &&
  unexpired (options.currentDate / seconds 1) (property payload "exp")

/- How jose reads back a token that it signed. An option that is an empty text is not checked. -/
structure Reads (jose : Jose Secret Public) (key : Public) (token : String) (header payload : List (String × JsValue)) :
    Prop where
  decoded : jose.decodeProtectedHeader token = some header
  verified : ∀ options, options.issuer ≠ "" → options.audience ≠ "" → options.subject ≠ "" → options.typ ≠ "" →
    jose.jwtVerify token key options = if claimsHold header payload options then some payload else none

end Jose

section Custody
variable {Secret Public : Type}

structure BootstrapInput where
  issuer : String
  audience : String
  subjectId : AccountId
  interactionUid : String
  clientId : ClientId
  resource : String
  scopes : List String
  deriving DecidableEq, Repr

/- randomBytes(24), written in base64url. -/
abbrev DrawnId := { bytes : List UInt8 // bytes.length = 24 }
def DrawnId.text (drawn : DrawnId) : String := base64url drawn.1

def bootstrapType : String := "wepuu-oauth-consent-bootstrap+jwt"

def protectedHeader (kid : String) : List (String × JsValue) :=
  [("alg",.str "RS256"),("typ",.str bootstrapType),("kid",.str kid)]

def bootstrapClaims (input : BootstrapInput) (issuedAt : Int) (jti : String) : List (String × JsValue) :=
  [("kind",.str "oauth_consent_bootstrap"),("interaction_uid",.str input.interactionUid),
    ("client_id",.str input.clientId),("resource",.str input.resource),("scope",.arr (input.scopes.map .str)),
    ("iss",.str input.issuer),("aud",.str input.audience),("sub",.str input.subjectId),("iat",.int issuedAt),
    ("nbf",.int (issuedAt - 5)),("exp",.int (issuedAt + 300)),("jti",.str jti)]

def signBootstrap (jose : Jose Secret Public) (privateKey : Secret) (kid : String) (input : BootstrapInput)
    (now : Time) (drawn : DrawnId) : String :=
  signJwt jose privateKey (protectedHeader kid) (bootstrapClaims input (now / seconds 1) drawn.text)

structure OAuthConsentBootstrapClaims where
  interactionUid : String
  clientId : String
  resource : String
  scopes : List String
  subjectId : String
  jwtId : String
  deriving DecidableEq, Repr

def scopeShape (text : String) : Bool :=
  text.toList.take 4 == "mcp:".toList && !(text.toList.drop 4).isEmpty &&
  (text.toList.drop 4).all fun c => ('a' ≤ c && c ≤ 'z') || c == '.'

def httpsMember (zodUrl : String → Option String) (members : List (String × JsValue)) (name : String) : Option String :=
  match property members name with
  | .str text => (zodUrl text).filter httpsText
  | _ => none

def scopeMember (members : List (String × JsValue)) : Option (List String) := match property members "scope" with
  | .arr items => (stringItems items).filter fun scopes =>
    decide (1 ≤ scopes.length) && decide (scopes.length ≤ 8) && scopes.all scopeShape
  | _ => none

def audienceShape : JsValue → Bool
  | .str _ => true
  | .arr items => (stringItems items).any fun audiences => decide (1 ≤ audiences.length)
  | _ => false

def parseBootstrap (zodUrl : String → Option String) (members : List (String × JsValue)) :
    Option OAuthConsentBootstrapClaims := do
  let _ ← textMember (· == "oauth_consent_bootstrap") members "kind"
  let interactionUid ← textMember (matchesClass opaqueChar 8 256) members "interaction_uid"
  let clientId ← textMember clientIdShape members "client_id"
  let resource ← httpsMember zodUrl members "resource"
  let scopes ← scopeMember members
  let subjectId ← textMember opaqueId members "sub"
  let _ ← httpsMember zodUrl members "iss"
  guard (audienceShape (property members "aud"))
  let _ ← integerMember members "iat"
  let _ ← integerMember members "nbf"
  let _ ← integerMember members "exp"
  let jwtId ← textMember (matchesClass opaqueChar 32 32) members "jti"
  some ⟨interactionUid,clientId,resource,scopes,subjectId,jwtId⟩

def bootstrapHeader (header : List (String × JsValue)) (kid : String) : Bool :=
  String.intercalate "," ((header.map (·.1)).insertionSort fun a b => codeUnits a ≤ codeUnits b) == "alg,kid,typ" &&
  (property header "alg").isText "RS256" && (property header "typ").isText bootstrapType &&
  (property header "kid").isText kid

structure ExpectedBootstrap where
  issuer : String
  audience : String
  subjectId : AccountId
  deriving DecidableEq, Repr

def verifyBootstrap (jose : Jose Secret Public) (zodUrl : String → Option String) (publicKey : Public) (kid token : String)
    (expected : ExpectedBootstrap) (now : Time) : Option OAuthConsentBootstrapClaims := do
  guard (textWithin 1 8192 token)
  let header ← jose.decodeProtectedHeader token
  guard (bootstrapHeader header kid)
  let payload ← jose.jwtVerify token publicKey
    ⟨["RS256"],expected.issuer,expected.audience,expected.subjectId,bootstrapType,now⟩
  parseBootstrap zodUrl payload

end Custody

section Services
variable {Secret Public : Type}

/- What both services are configured with: one signing key, and the issuer that
ServiceConfigSchema gives. -/
structure Deployment (Secret Public : Type) where
  jose : Jose Secret Public
  zodUrl : String → Option String
  privateKey : Secret
  publicKey : Public
  kid : String
  issuer : String
  kidShape : matchesClass opaqueChar 8 128 kid = true
  issuerParsed : ∃ text, (zodUrl text).filter httpsText = some issuer

def consentAudience (publicOrigin : String) : String := publicOrigin ++ "/v1/oauth/consent/start"

variable (d : Deployment Secret Public) (node : Node)

def Deployment.origin : Option String := (node.parseUrl d.issuer).map ConsentPolicy.origin

def Deployment.sign (input : BootstrapInput) (now : Time) (drawn : DrawnId) : String :=
  signBootstrap d.jose d.privateKey d.kid input now drawn

def Deployment.verify (token : String) (expected : ExpectedBootstrap) (now : Time) : Option OAuthConsentBootstrapClaims :=
  verifyBootstrap d.jose d.zodUrl d.publicKey d.kid token expected now

def parseConsentClaims (claims : OAuthConsentBootstrapClaims) : Option BootstrapClaims := do
  let resource ← d.zodUrl claims.resource
  let scopes ← claims.scopes.mapM mcpScope
  some ⟨claims.interactionUid,claims.clientId,resource,scopes,claims.subjectId,claims.jwtId⟩
    |>.filter (bootstrapClaimsSchema node)

def consentStart (oauthIssuer authOrigin : String) (accountId : AccountId) (request : String) (now : Time) :
    Option BootstrapClaims := do
  guard (textWithin 1 8192 request)
  let claims ← d.verify request ⟨oauthIssuer,consentAudience authOrigin,accountId⟩ now
  parseConsentClaims d node claims

structure BootstrapBinding where
  interactionUid : String
  clientId : String
  resource : String
  scopes : List String
  deriving DecidableEq, Repr

def oauthConsentBootstrapMatches (input : OAuthConsentBootstrapClaims) (expected : BootstrapBinding) : Bool :=
  input.interactionUid == expected.interactionUid && input.clientId == expected.clientId &&
  input.resource == expected.resource && input.scopes.length == expected.scopes.length &&
  input.scopes.zipIdx.all fun (scope,index) => expected.scopes[index]? == some scope

/- An interaction of the provider, for the account of the session. The uid is one of nanoid,
the client and the account are rows that passed their checks. -/
structure ConsentInteraction where
  details : InteractionDetails
  accountId : AccountId
  uidShape : matchesClass opaqueChar 8 256 details.uid = true
  clientShape : ∀ client, property details.params "client_id" = .str client → clientIdShape client = true
  accountShape : opaqueId accountId = true

structure BootstrapForm where
  decision : Option String
  localConsentRequest : Option String
  deriving DecidableEq, Repr

/- bound is where the handler goes on with the binding, thrown where it ends in its catch. -/
inductive ConsentAnswer where
  | rejected (status : Nat) (reason : String)
  | denied
  | redirected (bootstrapRequest : String)
  | bound (binding : AuthorizationGrantBinding)
  | thrown
  deriving DecidableEq, Repr

def interactionBinding (details : InteractionDetails) : Option BootstrapBinding :=
  match property details.params "client_id", interactionResource details.params, interactionScopes details.params,
    consentInteractionCsp node (property details.params "redirect_uri") with
  | .str clientId, some resource, some scopes, some _ => some ⟨details.uid,clientId,resource,scopes⟩
  | _, _, _, _ => none

def bootstrapInput (accountId : AccountId) (asked : BootstrapBinding) : Option BootstrapInput :=
  (d.origin node).map fun publicOrigin => ⟨d.issuer,consentAudience publicOrigin,accountId,asked.interactionUid,
    asked.clientId,asked.resource,asked.scopes⟩

def returnedRequest (form : Option BootstrapForm) : Option String :=
  (form.filter fun form => form.decision == some "deny").bind BootstrapForm.localConsentRequest

def returnedMatches (accountId : AccountId) (token : String) (expected : BootstrapBinding) (now : Time) : Bool :=
  ((d.origin node).bind fun publicOrigin =>
    d.verify token ⟨d.issuer,consentAudience publicOrigin,accountId⟩ now).any fun claims =>
      oauthConsentBootstrapMatches claims expected

def consentPrompt (interaction : ConsentInteraction) (form : Option BootstrapForm) (db : Db) (now : Time)
    (drawn : DrawnId) : ConsentAnswer :=
  match interactionBinding node interaction.details with
  | none => .rejected 400 "invalid_parameters"
  | some asked =>
    match returnedRequest form with
    | some token =>
      if returnedMatches d node interaction.accountId token asked now then .denied
      else .rejected 400 "oauth_consent_bootstrap_invalid"
    | none =>
      match resolveExact ⟨interaction.accountId,asked.clientId,asked.resource,asked.scopes⟩ db,
        bootstrapInput d node interaction.accountId asked with
      | .error _, _ => .thrown
      | .ok (some binding), _ => .bound binding
      | .ok none, none => .thrown
      | .ok none, some input => .redirected (d.sign input now drawn)

end Services

section Registry

structure ResourceServerInfo where
  scope : String
  audience : String
  deriving DecidableEq, Repr

/- PostgresResourceRegistry.resolve: the one active site of a resource. -/
def registeredResource (db : Db) (resource : String) : Option String :=
  match (db.sites.filter fun s => s.resourceUri == resource && s.status == .active).take 2 with
  | [row] => some row.resourceUri
  | _ => none

/- none is InvalidTarget, or the error of assertExactResource. -/
def getResourceServerInfo (node : Node) (db : Db) (resourceIndicator : String) : Option ResourceServerInfo := do
  let exactResource ← assertExactResource node resourceIndicator
  let resource ← registeredResource db exactResource
  guard (resource == exactResource)
  some ⟨join mcpScopes,exactResource⟩

end Registry

section Scopes
variable {params : List (String × JsValue)} {scopes : List String}

theorem mcpScopeText (scope : McpScope) : mcpScope scope.text = some scope := by
  cases scope <;> decide

theorem scopesRead (scopes : List McpScope) : (scopeTexts scopes).mapM mcpScope = some scopes := by
  induction scopes with
  | nil => rfl
  | cons scope rest ih =>
    unfold scopeTexts at *
    simp only [List.map_cons,List.mapM_cons,mcpScopeText,ih,bind,Option.bind,pure]

theorem ascendingPairwise {scopes : List McpScope} (sorted : scopes.Pairwise fun a b => a.order < b.order) :
    ascending scopes = true := by
  induction scopes with
  | nil => rfl
  | cons a rest ih =>
    obtain ⟨first,later⟩ := List.pairwise_cons.mp sorted
    cases rest with
    | nil => rfl
    | cons b rest =>
      simp only [ascending,Bool.and_eq_true,decide_eq_true_eq]
      exact ⟨first b List.mem_cons_self,ih later⟩

theorem chosenScopes (p : McpScope → Bool) (some_ : mcpScopeOrder.filter p ≠ []) :
    scopeSet (mcpScopeOrder.filter p) = true := by
  have order : mcpScopeOrder.Pairwise fun a b => a.order < b.order := by decide
  have once : mcpScopeOrder.Nodup := by decide
  simp only [scopeSet,Bool.and_eq_true,decide_eq_true_eq,Bool.not_eq_true',List.isEmpty_eq_false_iff]
  exact ⟨⟨⟨some_,List.length_filter_le p mcpScopeOrder⟩,once.filter p⟩,ascendingPairwise (order.filter p)⟩

theorem interactionOrdered (ok : interactionScopes params = some scopes) : ∃ text ordered,
    property params "scope" = .str text ∧ scopes = scopeTexts ordered ∧ scopeSet ordered = true ∧
    ∀ scope : McpScope, scope ∈ ordered ↔ scope.text ∈ split text := by
  unfold interactionScopes at ok
  cases asked : property params "scope" with
  | str text =>
    simp only [asked] at ok
    let parts := (split text).filter mcpScopes.contains
    let ordered := mcpScopeOrder.filter fun scope => (split text).contains scope.text
    have listed : ∀ scope : McpScope, scope ∈ mcpScopeOrder := by
      intro scope
      cases scope <;> decide
    have mem : ∀ scope, scope ∈ ordered ↔ scope.text ∈ split text := fun scope => by
      simp only [ordered,List.mem_filter,listed scope,true_and,List.contains_iff_mem]
    have sets : ∀ word, word ∈ scopeTexts ordered ↔ word ∈ parts := by
      intro word
      simp only [scopeTexts,List.mem_map,parts,List.mem_filter,List.contains_iff_mem,mcpScopes,mem]
      constructor
      · rintro ⟨scope,asked,rfl⟩
        exact ⟨asked,scope,listed scope,rfl⟩
      · rintro ⟨asked,scope,-,rfl⟩
        exact ⟨scope,asked,rfl⟩
    split at ok
    · cases ok
    · rename_i nonempty
      cases ok
      have some_ : ordered ≠ [] := by
        intro none_
        refine nonempty (List.isEmpty_iff.mpr (List.eq_nil_iff_forall_not_mem.mpr fun word mem => ?_))
        have word_ := (sets word).mpr (memInScopeOrder.mp mem)
        rw [none_] at word_
        cases word_
      have canonical := chosenScopes _ some_
      exact ⟨text,ordered,rfl,((requestedExact canonical parts).mpr sets).symm,canonical,mem⟩
  | undefined | null | bool | int | num | arr | obj => simp only [asked] at ok; cases ok

end Scopes

section Verifying
variable {Secret Public : Type} {d : Deployment Secret Public} {node : Node} {input : BootstrapInput} {drawn : DrawnId}

theorem stringItemsTexts (texts : List String) : stringItems (texts.map .str) = some texts := by
  induction texts with
  | nil => rfl
  | cons text rest ih => rw [List.map_cons,stringItems,ih,Option.map_some]

theorem headerRead (kid : String) : bootstrapHeader (protectedHeader kid) kid = true := by
  have names : String.intercalate "," (((protectedHeader kid).map (·.1)).insertionSort fun a b =>
      codeUnits a ≤ codeUnits b) = "alg,kid,typ" := by
    simp only [protectedHeader,List.map_cons,List.map_nil]
    decide
  have members : (property (protectedHeader kid) "alg").isText "RS256" = true ∧
      (property (protectedHeader kid) "typ").isText bootstrapType = true ∧
      (property (protectedHeader kid) "kid").isText kid = true := by
    simp [protectedHeader,property,List.lookup_cons,JsValue.isText]
  obtain ⟨alg,typ,kid_⟩ := members
  simp only [bootstrapHeader,names,alg,typ,kid_,Bool.and_self,beq_self_eq_true]

theorem drawnShape (drawn : DrawnId) : matchesClass opaqueChar 32 32 drawn.text = true := by
  have length : (encode drawn.1).length = 32 := by rw [encodeLength,drawn.2]
  have chars : (encode drawn.1).all opaqueChar = true :=
    List.all_eq_true.mpr fun c mem => Consent.urlOpaque c ▸ encodeChars drawn.1 c mem
  simp only [matchesClass,DrawnId.text,base64url,String.toList_ofList,length,chars,Bool.and_self,decide_true,
    Nat.le_refl]

theorem claimsHoldExact (input : BootstrapInput) (issuedAt : Int) (jti kid : String) (expected : ExpectedBootstrap)
    (now : Time) :
    claimsHold (protectedHeader kid) (bootstrapClaims input issuedAt jti)
      ⟨["RS256"],expected.issuer,expected.audience,expected.subjectId,bootstrapType,now⟩ = true ↔
    expected = ⟨input.issuer,input.audience,input.subjectId⟩ ∧ issuedAt - 5 ≤ now / seconds 1 ∧
      now / seconds 1 < issuedAt + 300 := by
  obtain ⟨issuer,audience,subject⟩ := expected
  simp [claimsHold,protectedHeader,bootstrapClaims,property,List.lookup_cons,JsValue.isText,notBefore,unexpired]
  tauto

structure Signable (d : Deployment Secret Public) (node : Node) (input : BootstrapInput) (ordered : List McpScope) :
    Prop where
  uid : matchesClass opaqueChar 8 256 input.interactionUid = true
  client : clientIdShape input.clientId = true
  resource : d.zodUrl input.resource = some input.resource
  https : httpsText input.resource = true
  canonical : canonicalResource node input.resource = true
  scopes : input.scopes = scopeTexts ordered
  ordered : scopeSet ordered = true
  account : opaqueId input.subjectId = true
  issuer : (d.zodUrl input.issuer).filter httpsText = some input.issuer

def signedClaims (input : BootstrapInput) (drawn : DrawnId) : OAuthConsentBootstrapClaims :=
  ⟨input.interactionUid,input.clientId,input.resource,input.scopes,input.subjectId,drawn.text⟩

theorem opaqueNonempty {text : String} (shape : opaqueId text = true) : text ≠ "" := by
  rintro rfl
  revert shape
  decide

theorem httpsNonempty {text : String} (https : httpsText text = true) : text ≠ "" := by
  rintro rfl
  revert https
  decide

theorem audienceNonempty (publicOrigin : String) : consentAudience publicOrigin ≠ "" := by
  unfold consentAudience
  intro empty
  exact absurd (String.append_eq_empty_iff.mp empty).2 (by decide)

theorem scopeTextShape (scope : McpScope) : scopeShape scope.text = true := by
  cases scope <;> decide

theorem scopesTaken {ordered : List McpScope} (canonical : scopeSet ordered = true) :
    (stringItems ((scopeTexts ordered).map .str)).filter (fun scopes =>
      decide (1 ≤ scopes.length) && decide (scopes.length ≤ 8) && scopes.all scopeShape) = some (scopeTexts ordered) := by
  simp only [scopeSet,Bool.and_eq_true,decide_eq_true_eq,Bool.not_eq_true',List.isEmpty_eq_false_iff] at canonical
  obtain ⟨⟨⟨some_,few⟩,-⟩,-⟩ := canonical
  have least : 1 ≤ (scopeTexts ordered).length := by
    rw [scopeTexts,List.length_map]
    exact List.length_pos_iff.mpr some_
  have most : (scopeTexts ordered).length ≤ 8 := by
    rw [scopeTexts,List.length_map]
    omega
  have shapes : (scopeTexts ordered).all scopeShape = true := by
    refine List.all_eq_true.mpr fun text mem => ?_
    obtain ⟨scope,-,rfl⟩ := List.mem_map.mp mem
    exact scopeTextShape scope
  rw [stringItemsTexts,Option.filter_some,decide_eq_true least,decide_eq_true most,shapes]
  rfl

theorem parsedBootstrap {ordered : List McpScope} (signable : Signable d node input ordered) (issuedAt : Int) :
    parseBootstrap d.zodUrl (bootstrapClaims input issuedAt drawn.text) = some (signedClaims input drawn) := by
  let members := bootstrapClaims input issuedAt drawn.text
  have read : property members "kind" = .str "oauth_consent_bootstrap" ∧
      property members "interaction_uid" = .str input.interactionUid ∧
      property members "client_id" = .str input.clientId ∧ property members "resource" = .str input.resource ∧
      property members "scope" = .arr (input.scopes.map .str) ∧ property members "iss" = .str input.issuer ∧
      property members "aud" = .str input.audience ∧ property members "sub" = .str input.subjectId ∧
      property members "iat" = .int issuedAt ∧ property members "nbf" = .int (issuedAt - 5) ∧
      property members "exp" = .int (issuedAt + 300) ∧ property members "jti" = .str drawn.text := by
    simp [members,bootstrapClaims,property,List.lookup_cons]
  obtain ⟨kind,uid,client,resource,scope,iss,aud,sub,iat,nbf,exp,jti⟩ := read
  have scopes : scopeMember members = some input.scopes := by
    rw [scopeMember,scope,signable.scopes]
    exact scopesTaken signable.ordered
  have textRead : ∀ {check : String → Bool} {name text : String}, property members name = .str text →
      check text = true → textMember check members name = some text := by
    intro check name text found shape
    simp only [textMember,found,shape,if_true]
  have kindRead : textMember (· == "oauth_consent_bootstrap") members "kind" = some "oauth_consent_bootstrap" :=
    textRead kind (beq_self_eq_true _)
  have resourceRead : httpsMember d.zodUrl members "resource" = some input.resource := by
    simp only [httpsMember,resource,signable.resource,Option.filter,signable.https,if_true]
  have issuerRead : httpsMember d.zodUrl members "iss" = some input.issuer := by
    simp only [httpsMember,iss,signable.issuer]
  have audience : audienceShape (property members "aud") = true := by
    rw [aud]
    rfl
  simp only [parseBootstrap,kindRead,textRead uid signable.uid,textRead client signable.client,
    resourceRead,scopes,textRead sub signable.account,issuerRead,audience,integerMember,iat,nbf,exp,
    textRead jti (drawnShape drawn),bind,Option.bind,guard,if_true,signedClaims,members]
  rfl

def ReadBack (d : Deployment Secret Public) (input : BootstrapInput) (clock : Time) (drawn : DrawnId) : Prop :=
  Reads d.jose d.publicKey (d.sign input clock drawn) (protectedHeader d.kid)
    (bootstrapClaims input (clock / seconds 1) drawn.text)

structure Verifies (d : Deployment Secret Public) (input : BootstrapInput) (clock : Time) (drawn : DrawnId)
    (expected : ExpectedBootstrap) (now : Time) : Prop where
  short : utf16Length (d.sign input clock drawn) ≤ 8192
  expected : expected = ⟨input.issuer,input.audience,input.subjectId⟩
  started : clock / seconds 1 - 5 ≤ now / seconds 1
  unexpired : now / seconds 1 < clock / seconds 1 + 300

theorem signedNonempty (input : BootstrapInput) (clock : Time) : 1 ≤ utf16Length (d.sign input clock drawn) := by
  unfold Deployment.sign signBootstrap signJwt
  rw [compactUnits,compactLength]
  omega

variable {ordered : List McpScope} {clock : Time}

theorem verifyExact (signable : Signable d node input ordered) (reads : ReadBack d input clock drawn)
    (expected : ExpectedBootstrap) (now : Time) (issuer : expected.issuer ≠ "") (audience : expected.audience ≠ "")
    (subject : expected.subjectId ≠ "") :
    (Verifies d input clock drawn expected now →
      d.verify (d.sign input clock drawn) expected now = some (signedClaims input drawn)) ∧
    (¬Verifies d input clock drawn expected now → d.verify (d.sign input clock drawn) expected now = none) := by
  let options : VerifyOptions := ⟨["RS256"],expected.issuer,expected.audience,expected.subjectId,bootstrapType,now⟩
  let payload := bootstrapClaims input (clock / seconds 1) drawn.text
  have verified := reads.verified options issuer audience subject (show bootstrapType ≠ "" by decide)
  have held := claimsHoldExact input (clock / seconds 1) drawn.text d.kid expected now
  have whole : d.verify (d.sign input clock drawn) expected now =
      if utf16Length (d.sign input clock drawn) ≤ 8192 ∧
        claimsHold (protectedHeader d.kid) payload options = true then some (signedClaims input drawn) else none := by
    unfold Deployment.verify verifyBootstrap textWithin
    rw [decide_eq_true (signedNonempty input clock),Bool.true_and]
    by_cases short : utf16Length (d.sign input clock drawn) ≤ 8192
    · simp only [guard,short,decide_true,if_true,bind,Option.bind,pure,reads.decoded,headerRead,true_and]
      rw [verified]
      by_cases holds : claimsHold (protectedHeader d.kid) payload options = true
      · rw [if_pos holds,if_pos holds]
        exact parsedBootstrap signable _
      · rw [if_neg holds,if_neg holds]
    · rw [if_neg fun both => short both.1,decide_eq_false short]
      rfl
  constructor
  · intro verifies
    rw [whole,if_pos ⟨verifies.short,held.mpr ⟨verifies.expected,verifies.started,verifies.unexpired⟩⟩]
  · intro fails
    rw [whole,if_neg]
    rintro ⟨short,holds⟩
    obtain ⟨same,started,unexpired⟩ := held.mp holds
    exact fails ⟨short,same,started,unexpired⟩

end Verifying

section Control
variable {Secret Public : Type} {d : Deployment Secret Public} {node : Node} {input : BootstrapInput} {drawn : DrawnId}
variable {ordered : List McpScope} {clock now : Time} {oauthIssuer authOrigin : String} {accountId : AccountId}

def consentClaims (input : BootstrapInput) (ordered : List McpScope) (drawn : DrawnId) : BootstrapClaims :=
  ⟨input.interactionUid,input.clientId,input.resource,ordered,input.subjectId,drawn.text⟩

theorem parsedConsentClaims (signable : Signable d node input ordered) :
    parseConsentClaims d node (signedClaims input drawn) = some (consentClaims input ordered drawn) := by
  have scopes : (signedClaims input drawn).scopes.mapM mcpScope = some ordered := by
    rw [signedClaims,signable.scopes]
    exact scopesRead ordered
  have schema : bootstrapClaimsSchema node (consentClaims input ordered drawn) = true := by
    simp only [bootstrapClaimsSchema,consentClaims,signable.uid,signable.client,signable.canonical,signable.ordered,
      signable.account,drawnShape,Bool.and_self]
  have resource : d.zodUrl (signedClaims input drawn).resource = some input.resource := signable.resource
  simp only [parseConsentClaims,resource,scopes,bind,Option.bind]
  exact (Option.filter_some).trans (if_pos schema)

/- The guard of the console. -/
theorem longRefused {request : String} (long : 8192 < utf16Length request) :
    consentStart d node oauthIssuer authOrigin accountId request now = none := by
  unfold consentStart textWithin
  rw [decide_eq_false (Nat.not_le_of_lt long),Bool.and_false]
  rfl

theorem consentStartExact (signable : Signable d node input ordered) (reads : ReadBack d input clock drawn)
    (https : httpsText oauthIssuer = true) (account : opaqueId accountId = true) (authOrigin : String) (now : Time) :
    (Verifies d input clock drawn ⟨oauthIssuer,consentAudience authOrigin,accountId⟩ now →
      consentStart d node oauthIssuer authOrigin accountId (d.sign input clock drawn) now =
        some (consentClaims input ordered drawn)) ∧
    (¬Verifies d input clock drawn ⟨oauthIssuer,consentAudience authOrigin,accountId⟩ now →
      consentStart d node oauthIssuer authOrigin accountId (d.sign input clock drawn) now = none) := by
  have verified := verifyExact signable reads ⟨oauthIssuer,consentAudience authOrigin,accountId⟩ now
    (httpsNonempty https) (audienceNonempty authOrigin) (opaqueNonempty account)
  constructor
  · intro verifies
    have within : textWithin 1 8192 (d.sign input clock drawn) = true := by
      rw [textWithin,decide_eq_true (signedNonempty input clock),decide_eq_true verifies.short]
      rfl
    simp only [consentStart,within,verified.1 verifies,guard,if_true,bind,Option.bind,pure]
    exact parsedConsentClaims signable
  · intro fails
    unfold consentStart
    rw [verified.2 fails]
    by_cases within : textWithin 1 8192 (d.sign input clock drawn) = true
    · simp only [within,guard,if_true,bind,Option.bind,pure]
    · simp only [guard,if_neg within,bind,Option.bind,failure]

theorem everyIndexed (a b : List String) :
    (a.length == b.length && a.zipIdx.all fun (scope,index) => b[index]? == some scope) = true ↔ a = b := by
  simp only [Bool.and_eq_true,beq_iff_eq,List.all_eq_true]
  constructor
  · rintro ⟨length,each⟩
    refine List.ext_getElem? fun i => ?_
    cases at_ : a[i]? with
    | none => exact (List.getElem?_eq_none_iff.mpr (length ▸ List.getElem?_eq_none_iff.mp at_)).symm
    | some scope => exact (each (scope,i) (List.mem_zipIdx_iff_getElem?.mpr at_)).symm
  · rintro rfl
    exact ⟨rfl,fun pair mem => List.mem_zipIdx_iff_getElem?.mp mem⟩

theorem matchesExact (claims : OAuthConsentBootstrapClaims) (expected : BootstrapBinding) :
    oauthConsentBootstrapMatches claims expected = true ↔
      expected = ⟨claims.interactionUid,claims.clientId,claims.resource,claims.scopes⟩ := by
  obtain ⟨uid,client,resource,scopes⟩ := expected
  rw [oauthConsentBootstrapMatches,Bool.and_assoc,Bool.and_eq_true,everyIndexed]
  simp only [Bool.and_eq_true,beq_iff_eq,BootstrapBinding.mk.injEq]
  constructor
  · rintro ⟨⟨⟨rfl,rfl⟩,rfl⟩,rfl⟩
    exact ⟨rfl,rfl,rfl,rfl⟩
  · rintro ⟨rfl,rfl,rfl,rfl⟩
    exact ⟨⟨⟨rfl,rfl⟩,rfl⟩,rfl⟩

end Control

section Sites
variable {service : Service} {db : Db} {site : Site}

/- What is taken of z.url() and of the URL parser: a serialized https URL is accepted as it is,
the text that comes out is accepted again, and a serialized https URL has visible characters. -/
structure UrlTexts (node : Node) (zodUrl : String → Option String) : Prop where
  serialized : ∀ text url, node.parseUrl text = some url → url.protocol = "https:" → url.href = text →
    zodUrl text = some text
  again : ∀ text out, zodUrl text = some out → zodUrl out = some out
  seen : ∀ text url, node.parseUrl text = some url → url.protocol = "https:" →
    url.href.toList.all PolicyText.visible = true

theorem httpsHref (u : HttpsUrl) : httpsText (href u.toUrlParts) = true := by
  simp only [httpsText,href,String.toList_append,List.append_assoc]
  rw [List.take_left' (by decide)]
  exact beq_self_eq_true _

theorem siteResource (whatwg : Whatwg service.node) (ms : List PlatformMove)
    (stored : site ∈ (run (platformStep service) (idle Db.empty) ms).shared.db.sites) :
    ∃ url, service.node.parseUrl site.resourceUri = some url ∧ url.protocol = "https:" ∧ url.href = site.resourceUri ∧
      httpsText site.resourceUri = true ∧ canonicalResource service.node site.resourceUri = true := by
  have inv := reachableResourced service (fun _ => True) ms fun m _ => by
    unfold asksFor
    split <;> trivial
  obtain ⟨asked,-,made⟩ := inv.named.sites site stored
  obtain ⟨u,accepted,shape,parsed,again,-⟩ := canonicalizeRecord whatwg made
  refine ⟨_,again,rfl,shape.symm,shape ▸ httpsHref u,?_⟩
  rw [shape] at again ⊢
  exact acceptedSchema whatwg again accepted

theorem registeredActive {resource row : String} (registered : registeredResource db resource = some row) :
    ∃ s ∈ db.sites, s.status = .active ∧ s.resourceUri = resource := by
  unfold registeredResource at registered
  split at registered
  · rename_i found rows
    have mem : found ∈ db.sites.filter fun s => s.resourceUri == resource && s.status == .active :=
      List.mem_of_mem_take (rows ▸ List.mem_singleton_self found)
    obtain ⟨inside,chosen⟩ := List.mem_filter.mp mem
    simp only [Bool.and_eq_true,beq_iff_eq] at chosen
    exact ⟨found,inside,chosen.2,chosen.1⟩
  · cases registered

/- A request that the provider lets through to the consent prompt names its resource as the
active site has it. -/
theorem admittedResource {G : Type} {api : GrantClass G} {node : Node} {context : GrantContext} {resource : String}
    {resolver : ExactBinding → Except Fault (Option AuthorizationGrantBinding)}
    {isActive : AccountId → Except Fault Bool} {grantFind : GrantId → Except Fault (Option G)} {found : Option G}
    (loaded : createResourceGrantLoader api node resolver isActive grantFind context = .ok found)
    (asked : requestedResource context.params = some resource)
    (served : (getResourceServerInfo node db resource).isSome = true) :
    interactionResource context.params = some resource ∧
      ∃ s ∈ db.sites, s.status = .active ∧ s.resourceUri = resource := by
  simp only [createResourceGrantLoader,bindOk] at loaded
  obtain ⟨_,_,_,_,read,exactly,_,demanded,_⟩ := loaded
  rw [asked] at exactly
  cases exactly
  have fixed : assertExactResource node resource = some resource := by
    unfold demand at demanded
    split at demanded
    · rename_i same
      exact beq_iff_eq.mp same
    · cases demanded
  constructor
  · unfold requestedResource at asked
    unfold interactionResource
    split at asked
    · rename_i text found
      cases asked
      simp [found,stringItems]
    · rename_i text found
      cases asked
      simp only [found]
    · cases asked
  · obtain ⟨info,known⟩ := Option.isSome_iff_exists.mp served
    simp only [getResourceServerInfo,fixed,bind,Option.bind] at known
    split at known
    · cases known
    · rename_i row registered
      exact registeredActive registered

end Sites

section Agreement
variable {Secret Public : Type} {d : Deployment Secret Public} {node : Node} {interaction : ConsentInteraction}
variable {form : Option BootstrapForm} {db : Db} {clock now : Time} {drawn : DrawnId} {request : String}

theorem unboundRedirects {asked : BootstrapBinding} {input : BootstrapInput}
    (bound : interactionBinding node interaction.details = some asked)
    (unbound : resolveExact ⟨interaction.accountId,asked.clientId,asked.resource,asked.scopes⟩ db = .ok none)
    (made : bootstrapInput d node interaction.accountId asked = some input) :
    consentPrompt d node interaction none db clock drawn = .redirected (d.sign input clock drawn) := by
  simp only [consentPrompt,bound,returnedRequest,Option.filter_none,Option.bind_none,unbound,made]

theorem redirectedFrom (redirected : consentPrompt d node interaction form db clock drawn = .redirected request) :
    ∃ clientId resource scopes publicOrigin,
      property interaction.details.params "client_id" = .str clientId ∧
      interactionResource interaction.details.params = some resource ∧
      interactionScopes interaction.details.params = some scopes ∧ d.origin node = some publicOrigin ∧
      interactionBinding node interaction.details = some ⟨interaction.details.uid,clientId,resource,scopes⟩ ∧
      request = d.sign ⟨d.issuer,consentAudience publicOrigin,interaction.accountId,interaction.details.uid,clientId,
        resource,scopes⟩ clock drawn := by
  unfold consentPrompt at redirected
  split at redirected
  · cases redirected
  · rename_i asked bound
    split at redirected
    · split at redirected <;> cases redirected
    · split at redirected
      · cases redirected
      · cases redirected
      · cases redirected
      · rename_i input _ made
        obtain rfl := ConsentAnswer.redirected.inj redirected
        obtain ⟨publicOrigin,known,rfl⟩ := Option.map_eq_some_iff.mp made
        have whole := bound
        unfold interactionBinding at bound
        split at bound
        · rename_i clientId resource scopes policy client res sc csp
          obtain rfl := Option.some.inj bound
          exact ⟨clientId,resource,scopes,publicOrigin,client,res,sc,known,whole,rfl⟩
        · exact nomatch bound

variable {input : BootstrapInput} {ordered : List McpScope} {publicOrigin : String} {accountId : AccountId}

theorem issuerHttps (d : Deployment Secret Public) : httpsText d.issuer = true := by
  obtain ⟨text,parsed⟩ := d.issuerParsed
  exact (Option.filter_eq_some_iff.mp parsed).2

theorem returnedExact (signable : Signable d node input ordered) (known : d.origin node = some publicOrigin)
    (reads : ReadBack d input clock drawn) (account : opaqueId accountId = true) (expected : BootstrapBinding)
    (now : Time) :
    returnedMatches d node accountId (d.sign input clock drawn) expected now = true ↔
      Verifies d input clock drawn ⟨d.issuer,consentAudience publicOrigin,accountId⟩ now ∧
        expected = ⟨input.interactionUid,input.clientId,input.resource,input.scopes⟩ := by
  have verified := verifyExact signable reads ⟨d.issuer,consentAudience publicOrigin,accountId⟩ now
    (httpsNonempty (issuerHttps d)) (audienceNonempty publicOrigin) (opaqueNonempty account)
  simp only [returnedMatches,known,Option.bind_some]
  constructor
  · intro matched
    by_cases holds : Verifies d input clock drawn ⟨d.issuer,consentAudience publicOrigin,accountId⟩ now
    · rw [verified.1 holds,Option.any_some,matchesExact] at matched
      exact ⟨holds,matched⟩
    · rw [verified.2 holds,Option.any_none] at matched
      cases matched
  · rintro ⟨holds,same⟩
    rw [verified.1 holds,Option.any_some,matchesExact]
    exact same

theorem deniedExact (signable : Signable d node input ordered) (known : d.origin node = some publicOrigin)
    (reads : ReadBack d input clock drawn) (fresh : DrawnId) :
    consentPrompt d node interaction (some ⟨some "deny",some (d.sign input clock drawn)⟩) db now fresh = .denied ↔
      interactionBinding node interaction.details =
        some ⟨input.interactionUid,input.clientId,input.resource,input.scopes⟩ ∧
      Verifies d input clock drawn ⟨d.issuer,consentAudience publicOrigin,interaction.accountId⟩ now := by
  unfold consentPrompt
  cases asked : interactionBinding node interaction.details with
  | none => exact ⟨nofun,nofun⟩
  | some expected =>
    have exactly := returnedExact signable known reads interaction.accountShape expected now
    have form : returnedRequest (some ⟨some "deny",some (d.sign input clock drawn)⟩) =
        some (d.sign input clock drawn) := rfl
    simp only [form,Option.some.injEq]
    rw [and_comm,← exactly]
    by_cases matched : returnedMatches d node interaction.accountId (d.sign input clock drawn) expected now = true
    · rw [if_pos matched]
      exact ⟨fun _ => matched,fun _ => rfl⟩
    · rw [if_neg matched]
      exact ⟨nofun,fun yes => absurd yes matched⟩

theorem redirectedSignable {service : Service} (whatwg : Whatwg service.node) (urls : UrlTexts service.node d.zodUrl)
    {ms : List PlatformMove} {site : Site} {clientId : String} {ordered : List McpScope}
    (stored : site ∈ (run (platformStep service) (idle Db.empty) ms).shared.db.sites)
    (client : property interaction.details.params "client_id" = .str clientId) (canonical : scopeSet ordered = true)
    (publicOrigin : String) :
    Signable d service.node ⟨d.issuer,consentAudience publicOrigin,interaction.accountId,interaction.details.uid,clientId,
      site.resourceUri,scopeTexts ordered⟩ ordered := by
  obtain ⟨url,parsed,scheme,serialized,https,resource⟩ := siteResource whatwg ms stored
  obtain ⟨text,issuer⟩ := d.issuerParsed
  obtain ⟨given,start⟩ := Option.filter_eq_some_iff.mp issuer
  exact {
    uid := interaction.uidShape
    client := interaction.clientShape clientId client
    resource := urls.serialized _ url parsed scheme serialized
    https := https
    canonical := resource
    scopes := rfl
    ordered := canonical
    account := interaction.accountShape
    issuer := Option.filter_eq_some_iff.mpr ⟨urls.again _ _ given,start⟩ }

theorem lifetime (issued : clock ≤ now) (alive : now < seconds (clock / seconds 1 + 300)) :
    clock / seconds 1 - 5 ≤ now / seconds 1 ∧ now / seconds 1 < clock / seconds 1 + 300 := by
  unfold seconds Time at *
  omega

theorem audienceInjective {left right : String} : consentAudience left = consentAudience right ↔ left = right := by
  unfold consentAudience
  exact ⟨fun same => String.append_left_inj _ |>.mp same,fun same => same ▸ rfl⟩

end Agreement

section Sizes
variable {Secret Public : Type} {d : Deployment Secret Public} {node : Node} {input : BootstrapInput} {drawn : DrawnId}
variable {ordered : List McpScope} {clock : Time}

theorem clientPlain {c : Char} (known : clientChar c = true) : plainChar c = true := by
  simp only [clientChar,letterOrDigit,Bool.or_eq_true,Bool.and_eq_true,decide_eq_true_eq,beq_iff_eq] at known
  rcases known with ((((((⟨low,high⟩ | ⟨low,high⟩) | ⟨low,high⟩) | rfl) | rfl) | rfl) | rfl)
  · exact betweenPlain low high (by decide)
  · exact betweenPlain low high (by decide)
  · exact betweenPlain low high (by decide)
  all_goals decide

theorem opaquePlain {c : Char} (known : opaqueChar c = true) : plainChar c = true := by
  refine clientPlain ?_
  simp only [opaqueChar,clientChar,Bool.or_eq_true] at known ⊢
  tauto

theorem classSize {ofClass : Char → Bool} {least most : Nat} {text : String}
    (plain : ∀ {c}, ofClass c = true → plainChar c = true) (shape : matchesClass ofClass least most text = true) :
    size (.str text) ≤ most + 2 := by
  simp only [matchesClass,Bool.and_eq_true,decide_eq_true_eq] at shape
  obtain ⟨⟨-,short⟩,chars⟩ := shape
  rw [plainSize (List.all_eq_true.mpr fun c mem => plain (List.all_eq_true.mp chars c mem))]
  omega

theorem headerSize (kid : String) (shape : matchesClass opaqueChar 8 128 kid = true) :
    size (.obj (protectedHeader kid)) ≤ 194 := by
  have names : size (.str "alg") = 5 ∧ size (.str "RS256") = 7 ∧ size (.str "typ") = 5 ∧ size (.str bootstrapType) = 35 ∧
      size (.str "kid") = 5 := by decide
  have own := classSize opaquePlain shape
  rw [protectedHeader,objSize (List.cons_ne_nil _ _)]
  simp only [List.map_cons,List.map_nil,List.sum_cons,List.sum_nil,names]
  omega

theorem scopesSize (canonical : scopeSet ordered = true) : size (.arr ((scopeTexts ordered).map .str)) ≤ 106 := by
  simp only [scopeSet,Bool.and_eq_true,decide_eq_true_eq,Bool.not_eq_true',List.isEmpty_eq_false_iff] at canonical
  obtain ⟨⟨⟨some_,few⟩,-⟩,-⟩ := canonical
  have each : ∀ n ∈ (ordered.map fun scope => size (.str scope.text) + 1), n ≤ 21 := by
    intro n mem
    obtain ⟨scope,-,rfl⟩ := List.mem_map.mp mem
    cases scope <;> decide
  have total := List.sum_le_card_nsmul _ 21 each
  have nonempty : (scopeTexts ordered).map JsValue.str ≠ [] := by simpa [scopeTexts] using some_
  rw [arrSize nonempty]
  simp only [scopeTexts,List.map_map,Function.comp_def]
  rw [List.length_map,nsmul_eq_mul,Nat.cast_id] at total
  omega

theorem payloadSize (signable : Signable d node input ordered) (drawn : DrawnId) (issuedAt : Int) (after : 5 ≤ issuedAt)
    (before : issuedAt + 300 < 10 ^ 13) :
    size (.obj (bootstrapClaims input issuedAt drawn.text)) ≤
      961 + (size (.str input.resource) + size (.str input.issuer) + size (.str input.audience)) := by
  have issued : size (.int issuedAt) ≤ 13 := intSize (by omega) (by decide) (by omega)
  have started : size (.int (issuedAt - 5)) ≤ 13 := intSize (by omega) (by decide) (by omega)
  have expires : size (.int (issuedAt + 300)) ≤ 13 := intSize (by omega) (by decide) before
  have names : size (.str "kind") = 6 ∧ size (.str "oauth_consent_bootstrap") = 25 ∧ size (.str "interaction_uid") = 17 ∧
      size (.str "client_id") = 11 ∧ size (.str "resource") = 10 ∧ size (.str "scope") = 7 ∧ size (.str "iss") = 5 ∧
      size (.str "aud") = 5 ∧ size (.str "sub") = 5 ∧ size (.str "iat") = 5 ∧ size (.str "nbf") = 5 ∧
      size (.str "exp") = 5 ∧ size (.str "jti") = 5 := by decide
  have uidText := classSize opaquePlain signable.uid
  have clientText := classSize clientPlain signable.client
  have account := classSize opaquePlain signable.account
  have drawnText := classSize opaquePlain (drawnShape drawn)
  have scopes := scopesSize signable.ordered
  rw [bootstrapClaims,objSize (List.cons_ne_nil _ _)]
  simp only [signable.scopes,List.map_cons,List.map_nil,List.sum_cons,List.sum_nil,names]
  linarith

/- Where a request is within the limit of the verifiers: a resource of 2048 characters, an issuer
and an audience of 377 bytes in JSON, and a key of 4096 bits. -/
theorem signedShort (signable : Signable d node input ordered) (seen : input.resource.toList.all PolicyText.visible = true)
    (resource : utf16Length input.resource ≤ 2048) (texts : size (.str input.issuer) + size (.str input.audience) ≤ 377)
    (signature : ∀ text, (d.jose.rsaSign d.privateKey text).length ≤ 512) (after : 5 ≤ clock / seconds 1)
    (before : clock / seconds 1 + 300 < 10 ^ 13) : utf16Length (d.sign input clock drawn) ≤ 8192 := by
  have header := headerSize d.kid d.kidShape
  have payload := payloadSize signable drawn (clock / seconds 1) after before
  have units := lengthUnits input.resource
  have most : size (.str input.resource) ≤ 2 * input.resource.toList.length + 2 := visibleSize fun c mem => by
    have known := List.all_eq_true.mp seen c mem
    simp only [PolicyText.visible,Bool.and_eq_true,decide_eq_true_eq] at known
    omega
  have bytes := signature (signingInput (protectedHeader d.kid) (bootstrapClaims input (clock / seconds 1) drawn.text))
  unfold Deployment.sign signBootstrap signJwt
  rw [compactUnits,compactLength]
  unfold encodedLength
  omega

end Sizes

section Outcome
variable {Secret Public : Type}

/- The console accepts a request for its account, its issuer and its origin exactly when its text
is within the limit of the verifiers, with what was signed; the request comes back to one
interaction; and it is within the limit for every resource of 2048 characters, if the issuer and
the audience take 377 bytes in JSON and the key has 4096 bits. -/
theorem bootstrapsAgree (d : Deployment Secret Public) (service : Service) (whatwg : Whatwg service.node)
    (urls : UrlTexts service.node d.zodUrl) (ms : List PlatformMove) (interaction : ConsentInteraction)
    (form : Option BootstrapForm) (clock : Time) (drawn : DrawnId) (request : String)
    (redirected : consentPrompt d service.node interaction form
      (run (platformStep service) (idle Db.empty) ms).shared.db clock drawn = .redirected request)
    (site : Site) (stored : site ∈ (run (platformStep service) (idle Db.empty) ms).shared.db.sites)
    (named : interactionResource interaction.details.params = some site.resourceUri)
    (reads : ∀ asked input, interactionBinding service.node interaction.details = some asked →
      bootstrapInput d service.node interaction.accountId asked = some input → ReadBack d input clock drawn) :
    ∃ clientId ordered text publicOrigin,
      property interaction.details.params "client_id" = .str clientId ∧
      property interaction.details.params "scope" = .str text ∧ d.origin service.node = some publicOrigin ∧
      scopeSet ordered = true ∧ (∀ scope : McpScope, scope ∈ ordered ↔ scope.text ∈ split text) ∧
      (∀ now, clock ≤ now → now < seconds (clock / seconds 1 + 300) →
        (utf16Length request ≤ 8192 →
          consentStart d service.node d.issuer publicOrigin interaction.accountId request now =
            some ⟨interaction.details.uid,clientId,site.resourceUri,ordered,interaction.accountId,drawn.text⟩) ∧
        (8192 < utf16Length request →
          consentStart d service.node d.issuer publicOrigin interaction.accountId request now = none) ∧
        (∀ expected, returnedMatches d service.node interaction.accountId request expected now = true ↔
          utf16Length request ≤ 8192 ∧
            expected = ⟨interaction.details.uid,clientId,site.resourceUri,scopeTexts ordered⟩)) ∧
      (∀ oauthIssuer authOrigin accountId now, httpsText oauthIssuer = true → opaqueId accountId = true →
        (oauthIssuer ≠ d.issuer ∨ authOrigin ≠ publicOrigin ∨ accountId ≠ interaction.accountId) →
          consentStart d service.node oauthIssuer authOrigin accountId request now = none) ∧
      (∀ accountId expected now, opaqueId accountId = true → accountId ≠ interaction.accountId →
        returnedMatches d service.node accountId request expected now = false) ∧
      (utf16Length site.resourceUri ≤ 2048 → size (.str d.issuer) + size (.str (consentAudience publicOrigin)) ≤ 377 →
        (∀ signed, (d.jose.rsaSign d.privateKey signed).length ≤ 512) → 5 ≤ clock / seconds 1 →
          clock / seconds 1 + 300 < 10 ^ 13 → utf16Length request ≤ 8192) := by
  obtain ⟨clientId,resource,scopes,publicOrigin,client,res,asked,known,bound,rfl⟩ := redirectedFrom redirected
  obtain rfl : resource = site.resourceUri := Option.some.inj (res.symm.trans named)
  obtain ⟨text,ordered,words_,rfl,canonical,listed⟩ := interactionOrdered asked
  have signable := redirectedSignable whatwg urls stored client canonical publicOrigin
  have own := reads _ _ bound (Option.map_eq_some_iff.mpr ⟨publicOrigin,known,rfl⟩)
  refine ⟨clientId,ordered,text,publicOrigin,client,words_,known,canonical,listed,?_,?_,?_,?_⟩
  · intro now issued alive
    obtain ⟨started,unexpired⟩ := lifetime issued alive
    have answers := consentStartExact signable own (issuerHttps d) interaction.accountShape publicOrigin now
    refine ⟨fun short => answers.1 ⟨short,rfl,started,unexpired⟩,?_,?_⟩
    · exact fun long => answers.2 fun verifies => Nat.not_le_of_lt long verifies.short
    · intro expected
      rw [returnedExact signable known own interaction.accountShape expected now]
      exact ⟨fun ⟨verifies,same⟩ => ⟨verifies.short,same⟩,fun ⟨short,same⟩ => ⟨⟨short,rfl,started,unexpired⟩,same⟩⟩
  · intro oauthIssuer authOrigin accountId now https account other
    refine (consentStartExact signable own https account authOrigin now).2 fun verifies => ?_
    have same := verifies.expected
    simp only [ExpectedBootstrap.mk.injEq,audienceInjective] at same
    rcases other with issuer | origin_ | account_
    · exact issuer same.1
    · exact origin_ same.2.1
    · exact account_ same.2.2
  · intro accountId expected now account other
    rw [Bool.eq_false_iff]
    intro matched
    have same := ((returnedExact signable known own account expected now).mp matched).1.expected
    simp only [ExpectedBootstrap.mk.injEq] at same
    exact other same.2.2
  · intro short texts signature after before
    obtain ⟨url,parsed,scheme,serialized,-,-⟩ := siteResource whatwg ms stored
    have seen := urls.seen _ url parsed scheme
    rw [serialized] at seen
    exact signedShort signable seen short texts signature after before

end Outcome

section Sample

theorem noPort : ∀ text, (none : Option String) = some text → text ≠ "" ∧ text ≠ "443" := by
  intro text bad
  cases bad

theorem loweredAuth : toLowerCase "auth.example" = "auth.example" := by decide
theorem loweredClient : toLowerCase "client.example" = "client.example" := by decide
theorem bareAuth : undelimited "auth.example" := by decide
theorem bareClient : undelimited "client.example" := by decide
theorem bareCallback : undelimited "/callback" := by decide
theorem barePath (n : Nat) : undelimited (String.ofList ('/' :: List.replicate n 'a')) := by simp [undelimited]

def issuerParts (n : Nat) : HttpsUrl where
  username := ""
  password := ""
  host := "auth.example"
  port := none
  path := String.ofList ('/' :: List.replicate n 'a')
  query := none
  fragment := none
  lowered := loweredAuth
  portShown := noPort
  hostMarks := bareAuth
  pathMarks := barePath n

def sampleIssuer (n : Nat) : String := href (issuerParts n).toUrlParts

def callbackParts : HttpsUrl where
  username := ""
  password := ""
  host := "client.example"
  port := none
  path := "/callback"
  query := none
  fragment := none
  lowered := loweredClient
  portShown := noPort
  hostMarks := bareClient
  pathMarks := bareCallback

def sampleUrls (n : Nat) : List (String × HttpsUrl) :=
  [(System.sampleResource,sampleParts),(callbackUri "client.example",callbackParts),(sampleIssuer n,issuerParts n)]

def bootstrapNode (n : Nat) : Node := tabled
  [(sampleVerifier,verifierDigest),(completionText "attempt_0001" System.sampleSite "thumbprint_0001",
      System.samplePairingDigest)] [] (urlTable (sampleUrls n))

theorem issuerText (n : Nat) : (sampleIssuer n).toList = "https://auth.example/".toList ++ List.replicate n 'a' := by
  simp [sampleIssuer,href,issuerParts,credentials,after]

theorem otherIssuer (n : Nat) (text : String) (other : text.toList.take 21 ≠ "https://auth.example/".toList) :
    sampleIssuer n ≠ text := by
  rintro rfl
  refine other ?_
  rw [issuerText,List.take_left' (by decide)]

theorem issuerKnown (n : Nat) :
    (bootstrapNode n).parseUrl (sampleIssuer n) = some (accessors (issuerParts n).toUrlParts) := by
  have site := beq_false_of_ne (otherIssuer n System.sampleResource (by decide))
  have client := beq_false_of_ne (otherIssuer n (callbackUri "client.example") (by decide))
  simp only [bootstrapNode,tabled,urlTable,sampleUrls,List.map_cons,List.map_nil,List.lookup_cons,site,client,beq_self_eq_true]

theorem bootstrapWhatwg (n : Nat) : Whatwg (bootstrapNode n) := by
  refine tabledWhatwg ?_ ?_
  · intro p mem
    simp only [sampleUrls,List.mem_cons,List.not_mem_nil,or_false] at mem
    rcases mem with rfl | rfl | rfl
    · decide
    · decide
    · simp [issuerParts,undelimited,issuerText]
  · intro p mem
    simp only [sampleUrls,List.mem_cons,List.not_mem_nil,or_false] at mem
    rcases mem with rfl | rfl | rfl
    · rfl
    · rfl
    · exact issuerKnown n

def pairedOnce : List PlatformMove := signedUp ++
  pairingOf "attempt_0001" System.sampleSite System.sampleResource "pair_0000000000000001" 0

def bootstrapService (n : Nat) : Service := { pairingService with node := bootstrapNode n }

def pairedDb (n : Nat) : Db := (run (platformStep (bootstrapService n)) (idle Db.empty) pairedOnce).shared.db

theorem sitePaired : ∀ n ∈ [1,6200], (pairedDb n).grants = [] ∧
    (pairedDb n).sites.map (fun s => (s.resourceUri,s.status)) = [(System.sampleResource,.active)] := by
  decide

def knownUrl (n : Nat) (text : String) : Option String :=
  if ((bootstrapNode n).parseUrl text).isSome then some text else none

theorem sampleTexts (n : Nat) : UrlTexts (bootstrapNode n) (knownUrl n) where
  serialized text url parsed _ _ := by simp [knownUrl,parsed]
  again text out known := by
    unfold knownUrl at known
    split at known
    · rename_i given
      cases known
      exact if_pos given
    · cases known
  seen text url parsed _ := by
    obtain ⟨before,later,split_,_⟩ := List.lookup_eq_some_iff.mp parsed
    have mem : (text,url) ∈ urlTable (sampleUrls n) := split_ ▸ List.mem_append_right before List.mem_cons_self
    obtain ⟨p,hp,same⟩ := List.mem_map.mp mem
    obtain rfl := congrArg Prod.snd same
    simp only [sampleUrls,List.mem_cons,List.not_mem_nil,or_false] at hp
    rcases hp with rfl | rfl | rfl
    · decide
    · decide
    · show (sampleIssuer n).toList.all PolicyText.visible = true
      rw [issuerText,List.all_append,Bool.and_eq_true,List.all_replicate]
      exact ⟨by decide,by simp [PolicyText.visible]⟩

def sampleInput (n : Nat) : BootstrapInput where
  issuer := sampleIssuer n
  audience := consentAudience "https://auth.example"
  subjectId := System.sampleAccount
  interactionUid := "interaction_0001"
  clientId := "client_0001"
  resource := System.sampleResource
  scopes := ["mcp:read","mcp:content.write"]

def sampleDrawn : DrawnId := ⟨List.replicate 24 7,rfl⟩
def sampleHeader : List (String × JsValue) := protectedHeader "rsa_key_0001"
def samplePayload (n : Nat) : List (String × JsValue) := 
  bootstrapClaims (sampleInput n) (seconds 100 / seconds 1) sampleDrawn.text

def sampleSignature : List UInt8 := List.replicate 384 1
def sampleRequest (n : Nat) : String := String.ofList (compact sampleHeader (samplePayload n) sampleSignature)

def sampleJose (n : Nat) : Jose Unit Unit where
  rsaSign _ _ := sampleSignature
  decodeProtectedHeader token := if token = sampleRequest n then some sampleHeader else none
  jwtVerify token _ options :=
    if token = sampleRequest n ∧ claimsHold sampleHeader (samplePayload n) options = true then some (samplePayload n)
    else none

def sampleDeployment (n : Nat) : Deployment Unit Unit where
  jose := sampleJose n
  zodUrl := knownUrl n
  privateKey := ()
  publicKey := ()
  kid := "rsa_key_0001"
  issuer := sampleIssuer n
  kidShape := by decide
  issuerParsed := by
    refine ⟨sampleIssuer n,Option.filter_eq_some_iff.mpr ⟨?_,httpsHref (issuerParts n)⟩⟩
    simp [knownUrl,issuerKnown]

def sampleInteraction : ConsentInteraction where
  details := ⟨"interaction_0001",.undefined,[("client_id",.str "client_0001"),("resource",.str System.sampleResource),
    ("scope",.str "openid mcp:content.write mcp:read mcp:read"),("redirect_uri",.str (callbackUri "client.example"))],[]⟩
  accountId := System.sampleAccount
  uidShape := by decide
  clientShape client given := by
    cases given
    decide
  accountShape := by decide

def sampleAsked : BootstrapBinding :=
  ⟨"interaction_0001","client_0001",System.sampleResource,["mcp:read","mcp:content.write"]⟩

theorem sampleBinding (n : Nat) : interactionBinding (bootstrapNode n) sampleInteraction.details = some sampleAsked := by
  rfl

theorem sampleOrigin (n : Nat) : (sampleDeployment n).origin (bootstrapNode n) = some "https://auth.example" := by
  show ((bootstrapNode n).parseUrl (sampleIssuer n)).map ConsentPolicy.origin = some "https://auth.example"
  rw [issuerKnown]
  rfl

theorem sampleBootstrap (n : Nat) :
    bootstrapInput (sampleDeployment n) (bootstrapNode n) System.sampleAccount sampleAsked = some (sampleInput n) := by
  unfold bootstrapInput
  rw [sampleOrigin]
  rfl

theorem sampleSigned (n : Nat) : (sampleDeployment n).sign (sampleInput n) (seconds 100) sampleDrawn = sampleRequest n := by
  rfl

theorem sampleReads (n : Nat) : Reads (sampleJose n) () (sampleRequest n) sampleHeader (samplePayload n) := by
  refine ⟨?_,fun options _ _ _ _ => ?_⟩
  · simp only [sampleJose,if_true]
  · simp only [sampleJose,true_and]

theorem unboundAccount {db : Db} (empty : db.grants = []) (asked : ExactBinding) : resolveExact asked db = .ok none := by
  unfold resolveExact
  rw [empty]
  exact ite_self _

theorem sampleRedirected {n : Nat} (known : n ∈ [1,6200]) :
    consentPrompt (sampleDeployment n) (bootstrapNode n) sampleInteraction none (pairedDb n) (seconds 100) sampleDrawn =
      .redirected (sampleRequest n) :=
  (unboundRedirects (sampleBinding n) (unboundAccount (sitePaired n known).1 _) (sampleBootstrap n)).trans
    (congrArg ConsentAnswer.redirected (sampleSigned n))

theorem sampleStored {n : Nat} (known : n ∈ [1,6200]) : ∃ s ∈ (pairedDb n).sites,
    s.resourceUri = System.sampleResource ∧ s.status = .active := by
  have pair : (System.sampleResource,SiteStatus.active) ∈ (pairedDb n).sites.map fun s => (s.resourceUri,s.status) := by
    rw [(sitePaired n known).2]
    exact List.mem_singleton_self _
  obtain ⟨s,hs,same⟩ := List.mem_map.mp pair
  exact ⟨s,hs,congrArg Prod.fst same,congrArg Prod.snd same⟩

theorem sampleAccepts : ∃ ordered,
    McpScope.read ∈ ordered ∧ McpScope.contentWrite ∈ ordered ∧ McpScope.seoWrite ∉ ordered ∧
    consentStart (sampleDeployment 1) (bootstrapNode 1) (sampleIssuer 1) "https://auth.example" System.sampleAccount
      (sampleRequest 1) (seconds 160) =
      some ⟨"interaction_0001","client_0001",System.sampleResource,ordered,System.sampleAccount,sampleDrawn.text⟩ ∧
    consentStart (sampleDeployment 1) (bootstrapNode 1) (sampleIssuer 1) "https://auth.example" "account_other"
      (sampleRequest 1) (seconds 160) = none := by
  obtain ⟨s,stored,resource,-⟩ := sampleStored (n := 1) (by decide)
  have reads : ∀ asked input, interactionBinding (bootstrapNode 1) sampleInteraction.details = some asked →
      bootstrapInput (sampleDeployment 1) (bootstrapNode 1) System.sampleAccount asked = some input →
        ReadBack (sampleDeployment 1) input (seconds 100) sampleDrawn := by
    intro asked input bound made
    obtain rfl := Option.some.inj ((sampleBinding 1).symm.trans bound)
    obtain rfl := Option.some.inj ((sampleBootstrap 1).symm.trans made)
    exact sampleReads 1
  obtain ⟨clientId,ordered,text,publicOrigin,client,words_,known,-,listed,answers,others,-,short⟩ :=
    bootstrapsAgree (sampleDeployment 1) (bootstrapService 1) (bootstrapWhatwg 1) (sampleTexts 1) pairedOnce
      sampleInteraction none (seconds 100) sampleDrawn (sampleRequest 1) (sampleRedirected (by decide)) s stored
      (resource ▸ rfl) reads
  obtain rfl : "client_0001" = clientId := JsValue.str.inj client
  obtain rfl : "openid mcp:content.write mcp:read mcp:read" = text := JsValue.str.inj words_
  obtain rfl : "https://auth.example" = publicOrigin := Option.some.inj ((sampleOrigin 1).symm.trans known)
  have signature : sampleSignature.length ≤ 512 := by
    rw [sampleSignature,List.length_replicate]
    decide
  have within : utf16Length (sampleRequest 1) ≤ 8192 := by
    refine short (resource ▸ by decide) ?_ (fun _ => signature) (by decide) (by decide)
    decide
  have accepted := (answers (seconds 160) (by decide) (by decide)).1 within
  rw [resource] at accepted
  have refused := others (sampleIssuer 1) "https://auth.example" "account_other" (seconds 160) (httpsHref (issuerParts 1))
    (by decide) (.inr (.inr (by decide)))
  exact ⟨ordered,(listed _).mpr (by decide),(listed _).mpr (by decide),
    fun mem => absurd ((listed _).mp mem) (by decide),accepted,refused⟩

theorem longRequest {n : Nat} (many : 6200 ≤ n) : 8192 < utf16Length (sampleRequest n) := by
  have issuer := leastSize (sampleIssuer n)
  have mem : ("iss",.str (sampleIssuer n)) ∈ samplePayload n := by simp [samplePayload,bootstrapClaims,sampleInput]
  have payload := memberSize mem
  have fixed : "https://auth.example/".toList.length = 21 := by decide
  rw [issuerText,List.length_append,List.length_replicate,fixed] at issuer
  rw [sampleRequest,compactUnits,compactLength]
  unfold encodedLength
  omega

theorem longIssuer : ∃ request,
    consentPrompt (sampleDeployment 6200) (bootstrapNode 6200) sampleInteraction none (pairedDb 6200) (seconds 100)
      sampleDrawn = .redirected request ∧
    (∃ s ∈ (pairedDb 6200).sites, s.status = .active ∧ utf16Length s.resourceUri ≤ 2048 ∧
      interactionResource sampleInteraction.details.params = some s.resourceUri) ∧
    Reads (sampleDeployment 6200).jose () request sampleHeader (samplePayload 6200) ∧
    consentStart (sampleDeployment 6200) (bootstrapNode 6200) (sampleIssuer 6200) "https://auth.example"
      System.sampleAccount request (seconds 100) = none := by
  obtain ⟨s,stored,resource,active⟩ := sampleStored (n := 6200) (by decide)
  refine ⟨sampleRequest 6200,sampleRedirected (by decide),⟨s,stored,active,resource ▸ by decide,resource ▸ rfl⟩,
    sampleReads 6200,?_⟩
  exact longRefused (longRequest (Nat.le_refl 6200))

end Sample

end Wepuu.ConsentBootstrap
