import Wepuu.Artifacts
import Wepuu.JsValues
import Wepuu.Words
import Mathlib.Data.Set.Basic
import Mathlib.Data.List.Sort

/-! The Grants of the authorization provider: what the consent page adds to the Grant it
saves under the id of a platform grant, and which Grant the authorization endpoint loads.
The methods of the provider's Grant class are a parameter. -/
namespace Wepuu.ConsentPlan
open Artifacts Grants JsValues NodeApi Relational Schema Words

inductive GrantDiagnosticStage where | interaction | binding | grantLoad | consentPlan | grantSave | interactionFinish
  deriving DecidableEq, Repr

def GrantDiagnosticStage.text : GrantDiagnosticStage → String
  | .interaction => "interaction" | .binding => "binding" | .grantLoad => "grant_load"
  | .consentPlan => "consent_plan" | .grantSave => "grant_save" | .interactionFinish => "interaction_finish"

inductive GrantDiagnosticCode where
  | bindingMismatch | accountMismatch | clientMismatch | resourceMismatch | scopeMismatch | providerMissing
  | lookupFailed | saveFailed | finishFailed | unknown
  deriving DecidableEq, Repr

def GrantDiagnosticCode.text : GrantDiagnosticCode → String
  | .bindingMismatch => "grant.binding_mismatch" | .accountMismatch => "grant.account_mismatch"
  | .clientMismatch => "grant.client_mismatch" | .resourceMismatch => "grant.resource_mismatch"
  | .scopeMismatch => "grant.scope_mismatch" | .providerMissing => "grant.provider_missing"
  | .lookupFailed => "grant.lookup_failed" | .saveFailed => "grant.save_failed"
  | .finishFailed => "interaction.finish_failed" | .unknown => "unknown"

structure GrantDiagnosticError where
  stage : GrantDiagnosticStage
  category : GrantDiagnosticCode
  deriving DecidableEq, Repr

def refuse {α : Type} (stage : GrantDiagnosticStage) (category : GrantDiagnosticCode) : Except GrantDiagnosticError α :=
  .error ⟨stage,category⟩

section Resolver

def mcpScopeOrder : List McpScope := [.read,.contentWrite,.mediaWrite,.taxonomyWrite,.seoWrite]
def mcpScopes : List String := mcpScopeOrder.map McpScope.text

def scopeIndex (text : String) : Int := match mcpScopes.findIdx? (· == text) with
  | some index => index
  | none => -1

def inScopeOrder (scopes : List String) : List String :=
  scopes.insertionSort fun left right => scopeIndex left - scopeIndex right ≤ 0

structure ExactBinding where
  subjectId : AccountId
  clientId : ClientId
  resource : String
  scopes : List String
  deriving DecidableEq, Repr

structure AuthorizationGrantBinding where
  tenantId : TenantId
  siteId : SiteId
  grantId : GrantId
  subjectId : AccountId
  clientId : ClientId
  resource : String
  scopes : List McpScope
  deriving DecidableEq, Repr

def scopeTexts (scopes : List McpScope) : List String := scopes.map McpScope.text

def exactRow (input : ExactBinding) (requested : List String) (g : Grant) (s : Site) : Bool :=
  s.tenantId == g.tenantId && s.id == g.siteId && g.subjectId == input.subjectId && g.clientId == input.clientId &&
  s.resourceUri == input.resource && scopeTexts g.scopes == requested && g.status == .active && s.status == .active

def resolveExact (input : ExactBinding) (db : Db) : Except Fault (Option AuthorizationGrantBinding) :=
  let requested := inScopeOrder (distinct input.scopes)
  if requested.isEmpty then .ok none
  else match (db.grants.flatMap fun g => (db.sites.filter (exactRow input requested g)).map fun s => (g,s)).take 2 with
    | [] => .ok none
    | [(g,s)] =>
      if scopeSet g.scopes then
        .ok (some ⟨g.tenantId,g.siteId,g.id,g.subjectId,g.clientId,s.resourceUri,g.scopes⟩)
      else .error (.thrown "ZodError")
    | _ => .error (.thrown "authorization_grant_ambiguous")

end Resolver

section Provider
variable {G : Type}

/- The provider's Grant: its constructor with an account and a client, its methods, and what
save writes and find reads through the adapter. -/
structure GrantClass (G : Type) where
  create : String → String → G
  assignJti : String → G → G
  addOIDCScope : String → G → G
  addOIDCClaims : List String → G → G
  addResourceScope : String → String → G → G
  jti : G → Option String
  accountId : G → Option String
  clientId : G → Option String
  resources : G → List String
  getResourceScope : G → String → String
  getOIDCScope : G → String
  getOIDCClaims : G → List String
  hasRar : G → Bool
  payload : G → ProviderPayload
  restore : ProviderPayload → Option G
  expiresIn : G → Option Int

variable (api : GrantClass G)

structure GrantContents where
  resources : Set String
  resourceScope : String → Set String
  oidcScope : Set String
  oidcClaims : Set String
  rar : Bool

def contents (grant : G) : GrantContents where
  resources := fun resource => resource ∈ api.resources grant
  resourceScope resource := fun word => word ∈ words (api.getResourceScope grant resource)
  oidcScope := fun word => word ∈ words (api.getOIDCScope grant)
  oidcClaims := fun claim => claim ∈ api.getOIDCClaims grant
  rar := api.hasRar grant

def listed (items : List String) : Set String := fun item => item ∈ items

/- What is taken from the provider: a Grant starts empty, the add methods accumulate sets and
touch nothing else, and a saved Grant is read back with what it had. -/
structure Accumulates : Prop where
  created : ∀ account client, contents api (api.create account client) = ⟨∅,fun _ => ∅,∅,∅,false⟩
  named : ∀ id grant, api.jti (api.assignJti id grant) = some id ∧
    contents api (api.assignJti id grant) = contents api grant
  oidcScope : ∀ scope grant, api.jti (api.addOIDCScope scope grant) = api.jti grant ∧
    contents api (api.addOIDCScope scope grant) =
      { contents api grant with oidcScope := (contents api grant).oidcScope ∪ listed (words scope) }
  oidcClaims : ∀ claims grant, api.jti (api.addOIDCClaims claims grant) = api.jti grant ∧
    contents api (api.addOIDCClaims claims grant) =
      { contents api grant with oidcClaims := (contents api grant).oidcClaims ∪ listed claims }
  resourceScope : ∀ resource scope grant, api.jti (api.addResourceScope resource scope grant) = api.jti grant ∧
    contents api (api.addResourceScope resource scope grant) =
      { contents api grant with
        resources := insert resource (contents api grant).resources
        resourceScope := Function.update (contents api grant).resourceScope resource
          ((contents api grant).resourceScope resource ∪ listed (words scope)) }
  restored : ∀ grant, ∃ read, api.restore (api.payload grant) = some read ∧ api.jti read = api.jti grant ∧
    contents api read = contents api grant

end Provider

section Plan

structure ConsentGrantUpdatePlan where
  existingGrantId : Option GrantId
  oidcScopes : List String
  oidcClaims : List String
  resourceScopes : List (String × List String)
  deriving DecidableEq, Repr

def boundedText (text : String) : Bool := decide (1 ≤ utf16Length text) && decide (utf16Length text ≤ 128)

def boundedStringArray : JsValue → Except GrantDiagnosticError (Option (List String))
  | .undefined => .ok none
  | .arr items => match stringItems items with
    | some texts =>
      if texts.isEmpty || decide (32 < texts.length) || !texts.all boundedText then refuse .consentPlan .scopeMismatch
      else .ok (some (distinct texts))
    | none => refuse .consentPlan .scopeMismatch
  | _ => refuse .consentPlan .scopeMismatch

def require (holds : Bool) (category : GrantDiagnosticCode) : Except GrantDiagnosticError Unit :=
  if holds then .ok () else refuse .consentPlan category

def existingGrant (providerGrantId : JsValue) (platformGrantId : GrantId) :
    Except GrantDiagnosticError (Option GrantId) := match providerGrantId with
  | .undefined => .ok none
  | .str id => if id = platformGrantId then .ok (some id) else refuse .consentPlan .bindingMismatch
  | _ => refuse .consentPlan .bindingMismatch

def missingResourceScopes (value : JsValue) (resource : String) (scopes : List String) :
    Except GrantDiagnosticError (List (String × List String)) := match value with
  | .undefined => .ok []
  | .obj [(name,value)] =>
    if name = resource then do
      let missing ← boundedStringArray value
      match missing with
      | none => refuse .consentPlan .scopeMismatch
      | some missing => do
        require (missing.all scopes.contains) .scopeMismatch
        .ok [(resource,missing)]
    else refuse .consentPlan .resourceMismatch
  | _ => refuse .consentPlan .resourceMismatch

def consentGrantUpdatePlan (providerGrantId : JsValue) (platformGrantId : GrantId) (resource : String)
    (scopes : List String) (promptDetails : List (String × JsValue)) :
    Except GrantDiagnosticError ConsentGrantUpdatePlan := do
  let existing ← existingGrant providerGrantId platformGrantId
  require (property promptDetails "rar").isUndefined .scopeMismatch
  let oidcScopes ← boundedStringArray (property promptDetails "missingOIDCScope")
  require ((oidcScopes.getD []).all ["openid","offline_access"].contains) .scopeMismatch
  let oidcClaims ← boundedStringArray (property promptDetails "missingOIDCClaims")
  require ((oidcClaims.getD []).all ["sub"].contains) .scopeMismatch
  let resourceScopes ← missingResourceScopes (property promptDetails "missingResourceScopes") resource scopes
  .ok ⟨existing,oidcScopes.getD [],oidcClaims.getD [],resourceScopes⟩

end Plan

section Interaction
variable {G : Type}

def interactionResource (params : List (String × JsValue)) : Option String := match property params "resource" with
  | .str resource => some resource
  | .arr items => match stringItems items with
    | some (first :: rest) => if rest.length < 4 && rest.all (· == first) then some first else none
    | _ => none
  | _ => none

def interactionScopes (params : List (String × JsValue)) : Option (List String) := match property params "scope" with
  | .str text =>
    let scopes := inScopeOrder (distinct ((split text).filter mcpScopes.contains))
    if scopes.isEmpty then none else some scopes
  | _ => none

structure InteractionDetails where
  uid : String
  grantId : JsValue
  params : List (String × JsValue)
  promptDetails : List (String × JsValue)

structure InteractionCsrf where
  uid : String
  accountId : AccountId
  grantId : GrantId
  deriving DecidableEq, Repr

structure SubmittedForm where
  csrf : Option InteractionCsrf
  decision : Option String
  deriving DecidableEq, Repr

structure ApprovedPlan where
  binding : AuthorizationGrantBinding
  accountId : AccountId
  clientId : ClientId
  update : ConsentGrantUpdatePlan
  deriving DecidableEq, Repr

/- The consent prompt from the binding on, for the account of the session; none is an answer
without a Grant: an error page, the redirect to the console, the page itself or a denial. -/
def approvedPlan (details : InteractionDetails) (accountId : AccountId) (form : Option SubmittedForm) (db : Db) :
    Except GrantDiagnosticError (Option ApprovedPlan) :=
  match property details.params "client_id", interactionResource details.params, interactionScopes details.params with
  | .str clientId, some resource, some scopes =>
    match resolveExact ⟨accountId,clientId,resource,scopes⟩ db, form with
    | .error _, _ => refuse .binding .lookupFailed
    | .ok (some binding), some form =>
      if form.csrf ≠ some ⟨details.uid,accountId,binding.grantId⟩ then .ok none
      else if form.decision ≠ some "approve" then .ok none
      else do
        let update ← consentGrantUpdatePlan details.grantId binding.grantId resource scopes details.promptDetails
        .ok (some ⟨binding,accountId,clientId,update⟩)
    | .ok _, _ => .ok none
  | _, _, _ => .ok none

variable (api : GrantClass G)

def startedGrant (plan : ApprovedPlan) (found : Option G) : Except GrantDiagnosticError G :=
  match plan.update.existingGrantId, found with
  | none, _ => .ok (api.assignJti plan.binding.grantId (api.create plan.accountId plan.clientId))
  | some _, some grant => .ok grant
  | some _, none => refuse .grantLoad .providerMissing

def addOidc (update : ConsentGrantUpdatePlan) (grant : G) : G :=
  let withScopes := if update.oidcScopes.isEmpty then grant else api.addOIDCScope (join update.oidcScopes) grant
  if update.oidcClaims.isEmpty then withScopes else api.addOIDCClaims update.oidcClaims withScopes

def addResources (missing : List (String × List String)) (grant : G) : G :=
  missing.foldl (fun grant entry => api.addResourceScope entry.1 (join entry.2) grant) grant

def updatedGrant (plan : ApprovedPlan) (found : Option G) : Except GrantDiagnosticError G :=
  (startedGrant api plan found).map fun grant =>
    addResources api plan.update.resourceScopes (addOidc api plan.update grant)

def grantAdapter (codec : SecretArtifactCodec) : OidcAdapter := ⟨"Grant",codec,none⟩

def findGrant (node : Node) (codec : SecretArtifactCodec) (id : String) (now : Time) (db : Db) : Option G :=
  (find node (grantAdapter codec) id now db).bind api.restore

/- grant.save(): a Grant without an id is given a generated one. -/
def saveGrant (node : Node) (codec : SecretArtifactCodec) (grant : G) (generated : String) (dateNow : Time) (db : Db) :
    Except Fault (Db × String) := do
  let id := (api.jti grant).getD generated
  let next ← upsert node (grantAdapter codec) id (api.payload grant) (api.expiresIn grant) dateNow db
  .ok (next,id)

end Interaction

section Loader
variable {G : Type}

/- What loadExistingGrant reads of its context; the session keeps its own grant of the client. -/
structure GrantContext where
  accountId : Option AccountId
  clientId : Option ClientId
  params : List (String × JsValue)
  submittedId : Option String
  sessionGrantId : Option String

def assertExactResource (node : Node) (value : String) : Option String := match node.parseUrl value with
  | none => none
  | some parsed =>
    if parsed.protocol ≠ "https:" ∨ parsed.username ≠ "" ∨ parsed.password ≠ "" ∨ parsed.hash ≠ "" ∨
        parsed.search ≠ "" ∨ (parsed.port ≠ "" ∧ parsed.port ≠ "443") then none
    else some parsed.href

def requestedResource (params : List (String × JsValue)) : Option String := match property params "resource" with
  | .arr [.str resource] | .str resource => some resource
  | _ => none

def requestedScopes (params : List (String × JsValue)) : Option (List String) := match property params "scope" with
  | .str text =>
    if (words text).all (mcpScopes ++ ["openid","offline_access"]).contains then
      let scopes := (words text).filter mcpScopes.contains
      if scopes.isEmpty then none else some scopes
    else none
  | _ => none

def orRefuse {α : Type} (category : GrantDiagnosticCode) : Option α → Except GrantDiagnosticError α
  | some a => .ok a
  | none => refuse .grantLoad category

def demand (holds : Bool) (category : GrantDiagnosticCode) : Except GrantDiagnosticError Unit :=
  if holds then .ok () else refuse .grantLoad category

def lookup {α : Type} : Except Fault α → Except GrantDiagnosticError α
  | .ok a => .ok a
  | .error _ => refuse .grantLoad .lookupFailed

def createResourceGrantLoader (api : GrantClass G) (node : Node)
    (resolver : ExactBinding → Except Fault (Option AuthorizationGrantBinding))
    (isActive : AccountId → Except Fault Bool) (grantFind : GrantId → Except Fault (Option G))
    (context : GrantContext) : Except GrantDiagnosticError (Option G) := do
  let clientId ← orRefuse .clientMismatch context.clientId
  let accountId ← orRefuse .accountMismatch context.accountId
  let resource ← orRefuse .resourceMismatch (requestedResource context.params)
  demand (assertExactResource node resource == some resource) .resourceMismatch
  let scopes ← orRefuse .scopeMismatch (requestedScopes context.params)
  let active ← lookup (isActive accountId)
  demand active .accountMismatch
  let found ← lookup (resolver ⟨accountId,clientId,resource,distinct scopes⟩)
  demand (context.submittedId.all fun id => found.any fun binding => id == binding.grantId) .bindingMismatch
  match found with
  | none => .ok none
  | some binding => do
    demand (binding.subjectId == accountId) .accountMismatch
    demand (binding.clientId == clientId) .clientMismatch
    demand (binding.resource == resource) .resourceMismatch
    demand (canonical (scopeTexts binding.scopes) == canonical scopes) .scopeMismatch
    let stored ← lookup (grantFind binding.grantId)
    match stored with
    | none => if context.submittedId.isSome then refuse .grantLoad .providerMissing else .ok none
    | some grant => do
      demand (api.jti grant == some binding.grantId) .bindingMismatch
      demand (api.accountId grant == some accountId) .accountMismatch
      demand (api.clientId grant == some clientId) .clientMismatch
      demand (api.resources grant == [resource]) .resourceMismatch
      demand (canonical (words (api.getResourceScope grant resource)) == canonical (scopeTexts binding.scopes) &&
        (words (api.getOIDCScope grant)).all ["openid","offline_access"].contains &&
        (api.getOIDCClaims grant).all (· == "sub") && !api.hasRar grant) .scopeMismatch
      .ok (some grant)

end Loader

end Wepuu.ConsentPlan
