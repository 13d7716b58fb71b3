import Wepuu.AccountLinks
import Wepuu.ConsentBootstrap
import Wepuu.Interleaving

/-! The interaction handler of the authorization service: the session and its account, the
consent page with its token, and the form that comes back. Requests are calls in flight, with
every other operation of the system between their turns. -/
namespace Wepuu.ConsentPages
open Base64Url CompactTokens ConsentBootstrap ConsentPlan ConsentPolicy GrantCeiling Interleaving JsValues NodeApi
open Resources Runs Schema
open Wepuu.AccountLinks AccountReferences Relational Statements Tenancy
open LiveSites (Asked exactRowAsked)
open Wepuu.Artifacts (SecretArtifactCodec)
open Wepuu.AuditedRequests (Identified reachedIdentified stepIdentified textWithin)

section Tokens

structure CsrfPayload where
  uid : String
  accountId : AccountId
  grantId : GrantId
  expiresAt : Int
  nonce : String
  deriving DecidableEq, Repr

def CsrfPayload.members (p : CsrfPayload) : List (String × JsValue) :=
  [("uid",.str p.uid),("accountId",.str p.accountId),("grantId",.str p.grantId),("expiresAt",.int p.expiresAt),
    ("nonce",.str p.nonce)]

def csrfPayloadSchema : JsValue → Option CsrfPayload
  | .obj members => do
    guard (onlyMembers ["uid","accountId","grantId","expiresAt","nonce"] members)
    let uid ← textMember (textWithin 8 256) members "uid"
    let accountId ← textMember (textWithin 8 128) members "accountId"
    let grantId ← textMember (textWithin 8 128) members "grantId"
    let expiresAt ← (integerMember members "expiresAt").filter fun at_ => decide (0 < at_)
    let nonce ← textMember (matchesClass opaqueChar 32 32) members "nonce"
    some ⟨uid,accountId,grantId,expiresAt,nonce⟩
  | _ => none

structure Decoding where
  bytes : String → List UInt8
  parsed : String → Option JsValue

variable (node : Node) (decoding : Decoding) (key : Key)

def encoded (p : CsrfPayload) : String := String.ofList (segment p.members)

def signCsrf (p : CsrfPayload) : String := encoded p ++ "." ++ base64url (node.hmacSha256 key (encoded p))

def verifyCsrf (value : String) (now : Time) : Option CsrfPayload := match value.toList.splitOn '.' with
  | [front,signature] =>
    if node.hmacSha256 key (String.ofList front) = decoding.bytes (String.ofList signature) then
      ((decoding.parsed (String.ofList front)).bind csrfPayloadSchema).filter fun p => decide (now / seconds 1 < p.expiresAt)
    else none
  | _ => none

structure ReadBack (p : CsrfPayload) : Prop where
  bytes : decoding.bytes (base64url (node.hmacSha256 key (encoded p))) = node.hmacSha256 key (encoded p)
  parsed : (decoding.parsed (encoded p)).bind csrfPayloadSchema = csrfPayloadSchema (.obj p.members)

end Tokens

section Handler
variable {Secret Public G : Type}

structure Service (Secret Public G : Type) where
  deployment : Deployment Secret Public
  node : Node
  decoding : Decoding
  cookieKey : Key
  codec : SecretArtifactCodec
  grants : GrantClass G

structure SessionView where
  userId : String
  createdAt : Time
  expiresAt : Time
  deriving DecidableEq, Repr

structure Form where
  csrf : Option String
  decision : Option String
  localConsentRequest : Option String
  deriving DecidableEq, Repr

structure Interaction where
  details : InteractionDetails
  prompt : String
  session : Option SessionView
  method : String
  contentType : Option String
  origin : Option String
  form : Option Form

inductive Answer where
  | loginRedirect
  | rejected (status : Nat) (reason : String)
  | login (accountId : AccountId) (ts : Int)
  | denied
  | redirected (bootstrapRequest : String)
  | page (csrf csp hostname : String) (scopes : List String)
  /- thrown, with what grantFailureDiagnostic logs -/
  | failed (stage : GrantDiagnosticStage) (category : GrantDiagnosticCode)
  deriving DecidableEq, Repr

/- consented is where interactionFinished is given the saved Grant. -/
inductive Stage (G : Type) where
  | opened
  | signedIn (accountId : AccountId) (binding : BootstrapBinding)
  | planned (plan : ApprovedPlan) (checkedAt : Time)
  | updated (plan : ApprovedPlan) (checkedAt : Time) (grant : G)
  | consented (plan : ApprovedPlan) (checkedAt : Time) (result : Option GrantId)
  | answered (answer : Answer)

structure Page where
  uid : String
  accountId : AccountId
  grantId : GrantId
  shownAt : Time
  nonce : String
  deriving DecidableEq, Repr

def Page.payload (p : Page) : CsrfPayload := ⟨p.uid,p.accountId,p.grantId,p.shownAt / seconds 1 + 300,p.nonce⟩

structure Shared where
  db : Db
  pages : List Page

structure Turn where
  now : Time
  drawn : DrawnId
  generated : String

variable (svc : Service Secret Public G)

/- PostgresAccountAuthLinkStore.resolve -/
def resolveLink (authUserId : String) (db : Db) : Option Account :=
  if textWithin 1 255 authUserId then
    db.authLinks.findSome? fun link =>
      if link.authUserId == authUserId && db.homeTenants.any (fun home => home.accountId == link.accountId) then
        db.accounts.find? fun a => a.id == link.accountId
      else none
  else none

def interactionSubmissionHeaderRejection (asked : Interaction) (expectedOrigin : String) : Option (Nat × String) :=
  let form := asked.contentType.any fun text => (text.toList.splitOn ';').head? == some "application/x-www-form-urlencoded".toList
  if asked.method ≠ "POST" ∨ form = false then some (405,"method_or_content_type")
  else match asked.origin with
    | none => some (403,"origin_missing")
    | some origin =>
      if origin = "null" then some (403,"origin_null")
      else if origin ≠ expectedOrigin then some (403,"origin_unexpected") else none

def submitted (accountId : AccountId) (binding : BootstrapBinding) (asked : Interaction) (now : Time) : Stage G :=
  match svc.deployment.origin svc.node with
  | none => .answered (.failed .interaction .unknown)
  | some expected => match interactionSubmissionHeaderRejection asked expected with
    | some (status,reason) => .answered (.rejected status reason)
    | none => match asked.form with
      | none => .answered (.failed .interaction .unknown)
      | some form => match returnedRequest (some ⟨form.decision,form.localConsentRequest⟩) with
        | none => .signedIn accountId binding
        | some token =>
          if returnedMatches svc.deployment svc.node accountId token binding now then .answered .denied
          else .answered (.rejected 400 "oauth_consent_bootstrap_invalid")

def openedTurn (asked : Interaction) (now : Time) (db : Db) : Stage G :=
  match asked.session.filter fun s => decide (now < s.expiresAt) with
  | none => .answered .loginRedirect
  | some session => match resolveLink session.userId db with
    | none => .answered .loginRedirect
    | some account =>
      if account.status ≠ .active then .answered (.rejected 403 "account_inactive")
      else if asked.prompt = "login" then .answered (.login account.id (asDate session.createdAt / seconds 1))
      else if asked.prompt ≠ "consent" then .answered (.rejected 400 "unsupported_prompt")
      else match interactionBinding svc.node asked.details with
        | none => .answered (.rejected 400 "invalid_parameters")
        | some binding =>
          if asked.method = "POST" then submitted svc account.id binding asked now else .signedIn account.id binding

/- GET: the page with its token. -/
def shown (asked : Interaction) (accountId : AccountId) (binding : BootstrapBinding) (grantId : GrantId) (t : Turn) (s : Shared) :
    Shared × Stage G :=
  match svc.node.parseUrl binding.resource, consentInteractionCsp svc.node (property asked.details.params "redirect_uri") with
  | some url, some csp =>
    let page : Page := ⟨asked.details.uid,accountId,grantId,t.now,t.drawn.text⟩
    ({ s with pages := s.pages ++ [page] },
      .answered (.page (signCsrf svc.node svc.cookieKey page.payload) csp url.hostname binding.scopes))
  | _, _ => (s,.answered (.failed .binding .lookupFailed))

def approved (asked : Interaction) (accountId : AccountId) (binding : BootstrapBinding) (found : AuthorizationGrantBinding)
    (form : Form) (now : Time) : Stage G :=
  match verifyCsrf svc.node svc.decoding svc.cookieKey (form.csrf.getD "") now with
  | none => .answered (.rejected 400 "csrf_binding_mismatch")
  | some csrf =>
    if csrf.uid ≠ asked.details.uid ∨ csrf.accountId ≠ accountId ∨ csrf.grantId ≠ found.grantId then
      .answered (.rejected 400 "csrf_binding_mismatch")
    else if form.decision ≠ some "approve" then .answered .denied
    else match consentGrantUpdatePlan asked.details.grantId found.grantId binding.resource binding.scopes
        asked.details.promptDetails with
      | .error e => .answered (.failed e.stage e.category)
      | .ok update => .planned ⟨found,accountId,binding.clientId,update⟩ now

def boundTurn (asked : Interaction) (accountId : AccountId) (binding : BootstrapBinding) (t : Turn) (s : Shared) :
    Shared × Stage G :=
  match resolveExact ⟨accountId,binding.clientId,binding.resource,binding.scopes⟩ s.db with
  | .error _ => (s,.answered (.failed .binding .lookupFailed))
  | .ok none => match bootstrapInput svc.deployment svc.node accountId binding with
    | none => (s,.answered (.failed .binding .lookupFailed))
    | some input => (s,.answered (.redirected (svc.deployment.sign input t.now t.drawn)))
  | .ok (some found) =>
    if asked.method = "GET" then shown svc asked accountId binding found.grantId t s
    else match asked.form.filter fun _ => asked.method == "POST" with
      | none => (s,.answered (.rejected 405 "method_or_content_type"))
      | some form => (s,approved svc asked accountId binding found form t.now)

def plannedTurn (plan : ApprovedPlan) (checkedAt now : Time) (db : Db) : Stage G :=
  let found := plan.update.existingGrantId.bind fun id => findGrant svc.grants svc.node svc.codec id now db
  match updatedGrant svc.grants plan found with
  | .error e => .answered (.failed e.stage e.category)
  | .ok grant => .updated plan checkedAt grant

def consentInteractionResult (existingGrantId : Option GrantId) (savedGrantId : GrantId) : Option GrantId :=
  match existingGrantId with
  | none => some savedGrantId
  | some _ => none

def updatedTurn (plan : ApprovedPlan) (checkedAt : Time) (grant : G) (t : Turn) (s : Shared) : Shared × Stage G :=
  match saveGrant svc.grants svc.node svc.codec grant t.generated t.now s.db with
  | .error _ => (s,.answered (.failed .grantSave .saveFailed))
  | .ok (next,saved) =>
    ({ s with db := next },
      if saved ≠ plan.binding.grantId then .answered (.failed .grantSave .bindingMismatch)
      else .consented plan checkedAt (consentInteractionResult plan.update.existingGrantId saved))

def stageTurn (asked : Interaction) (s : Shared) (t : Turn) : Stage G → Shared × Stage G
  | .opened => (s,openedTurn svc asked t.now s.db)
  | .signedIn accountId binding => boundTurn svc asked accountId binding t s
  | .planned plan checkedAt => (s,plannedTurn svc plan checkedAt t.now s.db)
  | .updated plan checkedAt grant => updatedTurn svc plan checkedAt grant t s
  | stage => (s,stage)

inductive Request where
  | http (asked : Interaction)
  | other (event : System.Event)

inductive Call (G : Type) where
  | http (asked : Interaction) (stage : Stage G)
  | other (event : System.Event) (done : Bool)

def opening : Request → Call G
  | .http asked => .http asked .opened
  | .other event => .other event false

def turn (s : Shared) (c : Call G) (t : Turn) : Shared × Call G := match c with
  | .http asked stage => ((stageTurn svc asked s t stage).1,.http asked (stageTurn svc asked s t stage).2)
  | .other event false => ({ s with db := System.step svc.node s.db event },.other event true)
  | .other event true => (s,.other event true)

def started (history : List System.Event) : World Shared (Call G) :=
  ⟨⟨run (System.step svc.node) Db.empty history,[]⟩,[]⟩

/- What a form can carry: whoever has not the key has the signature of no text that was not
signed; and the texts of the pages are read back. -/
structure Unforged (s : Shared) (value : String) : Prop where
  signed : ∀ front signature, value.toList.splitOn '.' = [front,signature] →
    svc.node.hmacSha256 svc.cookieKey (String.ofList front) = svc.decoding.bytes (String.ofList signature) →
      String.ofList front ∈ s.pages.map fun p => encoded p.payload

def Honest (s : Shared) (c : Call G) (_ : Turn) : Prop := match c with
  | .http asked (.signedIn _ _) => (∀ p ∈ s.pages, ReadBack svc.node svc.decoding svc.cookieKey p.payload) ∧
    ∀ form ∈ asked.form, Unforged svc s (form.csrf.getD "")
  | _ => True

structure Shown (pages : List Page) (asked : Interaction) (plan : ApprovedPlan) (checkedAt : Time) : Prop where
  sent : asked.method = "POST" ∧ asked.origin.isSome = true ∧ asked.origin = svc.deployment.origin svc.node
  decided : asked.form.bind (·.decision) = some "approve"
  requested : ∃ binding, interactionBinding svc.node asked.details = some binding ∧ plan.clientId = binding.clientId ∧
    plan.binding.clientId = binding.clientId ∧ plan.binding.resource = binding.resource ∧
    plan.binding.subjectId = plan.accountId ∧ ∀ scope, scope ∈ scopeTexts plan.binding.scopes ↔ scope ∈ binding.scopes
  page : ∃ p ∈ pages, p.uid = asked.details.uid ∧ p.accountId = plan.accountId ∧ p.grantId = plan.binding.grantId ∧
    checkedAt / seconds 1 < p.shownAt / seconds 1 + 300

/- Over the calls of a world: whose account an interaction goes on with; what stands behind
each Grant given to interactionFinished; the grant and the site as an approval is planned; and
that the token of a page is good for its interaction for five minutes. -/
structure PagesBind (w : World Shared (Call G)) : Prop where
  signedIn : ∀ asked (t : Turn) accountId binding, .http asked .opened ∈ w.calls →
    openedTurn (G := G) svc asked t.now w.shared.db = .signedIn accountId binding → ∃ session, asked.session = some session ∧
      t.now < session.expiresAt ∧ ∃ link ∈ w.shared.db.authLinks, ∃ account ∈ w.shared.db.accounts,
        link.authUserId = session.userId ∧ link.accountId = account.id ∧ account.id = accountId ∧ account.status = .active
  consented : ∀ asked plan checkedAt result, .http asked (.consented plan checkedAt result) ∈ w.calls →
    Shown svc w.shared.pages asked plan checkedAt
  active : ∀ asked accountId binding t plan checkedAt, .http asked (.signedIn accountId binding) ∈ w.calls →
    (boundTurn svc asked accountId binding t w.shared).2 = .planned plan checkedAt → checkedAt = t.now ∧
      ∃ g ∈ w.shared.db.grants, ∃ site ∈ w.shared.db.sites, g.id = plan.binding.grantId ∧
        Asked ⟨accountId,binding.clientId,binding.resource,binding.scopes⟩ g site
  ownToken : ∀ asked accountId binding found form t, .http asked (.signedIn accountId binding) ∈ w.calls →
    textWithin 8 256 asked.details.uid = true → asked.method = "POST" → asked.form = some form →
    form.decision = some "approve" →
    resolveExact ⟨accountId,binding.clientId,binding.resource,binding.scopes⟩ w.shared.db = .ok (some found) →
    (∃ p ∈ w.shared.pages, ReadBack svc.node svc.decoding svc.cookieKey p.payload ∧ p.uid = asked.details.uid ∧
      p.accountId = accountId ∧ p.grantId = found.grantId ∧ 0 ≤ p.shownAt ∧ t.now / seconds 1 < p.shownAt / seconds 1 + 300 ∧
      form.csrf = some (signCsrf svc.node svc.cookieKey p.payload)) →
    boundTurn svc asked accountId binding t w.shared = (w.shared,
      match consentGrantUpdatePlan asked.details.grantId found.grantId binding.resource binding.scopes
        asked.details.promptDetails with
      | .error e => .answered (.failed e.stage e.category)
      | .ok update => .planned ⟨found,accountId,binding.clientId,update⟩ t.now)

end Handler

section Reading
variable {node : Node} {decoding : Decoding} {key : Key} {p q : CsrfPayload} {now : Time}

theorem textMemberOwn {check : String → Bool} {members : List (String × JsValue)} {name own text : String}
    (at_ : property members name = .str own) (ok : textMember check members name = some text) : text = own := by
  simp only [textMember,at_] at ok
  split at ok <;> cases ok
  rfl

theorem schemaSame (ok : csrfPayloadSchema (.obj p.members) = some q) : q = p := by
  simp only [csrfPayloadSchema,bind,Option.bind_eq_some_iff,Option.filter_eq_some_iff] at ok
  obtain ⟨_,_,uid,readUid,account,readAccount,grant,readGrant,at_,⟨readAt,_⟩,nonce,readNonce,last⟩ := ok
  have named : at_ = p.expiresAt := by cases readAt; rfl
  cases last
  rw [textMemberOwn (by rfl) readUid,textMemberOwn (by rfl) readAccount,textMemberOwn (by rfl) readGrant,named,
    textMemberOwn (by rfl) readNonce]

theorem urlNotDot {c : Char} (url : urlChar c = true) : c ≠ '.' := by
  rintro rfl
  revert url
  decide

theorem encodedPlain (bytes : List UInt8) : '.' ∉ encode bytes := fun mem => urlNotDot (encodeChars bytes _ mem) rfl

theorem signedParts (p : CsrfPayload) : (signCsrf node key p).toList.splitOn '.' =
    [(encoded p).toList,(base64url (node.hmacSha256 key (encoded p))).toList] := by
  have front : '.' ∉ (encoded p).toList := by
    rw [encoded,String.toList_ofList]
    exact encodedPlain _
  have back : '.' ∉ (base64url (node.hmacSha256 key (encoded p))).toList := by
    rw [base64url,String.toList_ofList]
    exact encodedPlain _
  have parts : (signCsrf node key p).toList = (encoded p).toList ++ '.' :: (base64url (node.hmacSha256 key (encoded p))).toList := by
    simp [signCsrf]
  rw [parts,List.splitOn_append_cons_self_of_not_mem front,List.splitOn_eq_singleton back]

theorem ownVerified (read : ReadBack node decoding key p) (shaped : csrfPayloadSchema (.obj p.members) = some p)
    (fresh : now / seconds 1 < p.expiresAt) : verifyCsrf node decoding key (signCsrf node key p) now = some p := by
  unfold verifyCsrf
  simp only [signedParts,String.ofList_toList,read.bytes,if_true,read.parsed,shaped,Option.filter_some,
    decide_eq_true fresh]

end Reading

section Identifiers
variable {node : Node} {e : System.Event} {db : Db}

theorem linkedAccountIds {next : Db} {authUser : String} {account : AccountId} {tenant : TenantId} {out : AccountId × TenantId}
    (ids : ∀ a ∈ db.accounts, opaqueId a.id = true) (ok : ensureAccountAuthLink authUser account tenant db = .ok (next,out)) :
    ∀ a ∈ next.accounts, opaqueId a.id = true := by
  simp only [ensureAccountAuthLink,bindOk,ensureOk] at ok
  obtain ⟨_,_,_,_,_,_,ok⟩ := ok
  split at ok
  · cases ok
    exact ids
  · simp only [bindOk,ensureOk,orFailOk] at ok
    obtain ⟨_,shape,_,inserted,opened,home,_,_,last⟩ := ok
    cases last
    obtain ⟨_,_,_,rfl⟩ := openHomeExact home
    obtain ⟨_,rfl⟩ := insertRowExact.mp inserted
    intro a mem
    rcases List.mem_append.mp mem with old | new
    · exact ids a old
    · rw [List.mem_singleton.mp new]
      exact shape

theorem sessionAccountIds {next : Db} {input : NewSession} {out : Option AccountId}
    (ids : ∀ a ∈ db.accounts, opaqueId a.id = true) (ok : createSession input db = .ok (next,out)) :
    ∀ a ∈ next.accounts, opaqueId a.id = true := by
  simp only [createSession,bindOk,ensureOk] at ok
  obtain ⟨_,shape,ok⟩ := ok
  have grown : ∀ a ∈ (insertRow accountClash ⟨input.candidateAccountId,.active,some input.identityIssuer,
      some input.identitySubjectHash⟩ db.accounts).getD db.accounts, opaqueId a.id = true := by
    intro a mem
    cases made : insertRow accountClash ⟨input.candidateAccountId,.active,some input.identityIssuer,
        some input.identitySubjectHash⟩ db.accounts with
    | none =>
      rw [made] at mem
      exact ids a mem
    | some rows =>
      obtain ⟨_,rfl⟩ := insertRowExact.mp made
      rw [made] at mem
      rcases List.mem_append.mp mem with old | new
      · exact ids a old
      · rw [List.mem_singleton.mp new]
        exact shape
  split at ok
  · cases ok
    exact grown
  · simp only [bindOk,ensureOk,orFailOk] at ok
    obtain ⟨_,_,_,_,last⟩ := ok
    cases last
    exact grown

theorem stepAccountIds (wf : WellFormed db) (ids : ∀ a ∈ db.accounts, opaqueId a.id = true) :
    ∀ a ∈ (System.step node db e).accounts, opaqueId a.id = true := by
  intro a mem
  rcases settleCases db (System.exec node e db) with same | ⟨next,reply,ok,done⟩
  · rw [System.step,same] at mem
    exact ids a mem
  have moved := @bootstrapStep node e db wf
  rw [System.step,done] at moved mem
  obtain ⟨now,op⟩ := e
  cases moved with
  | untouched accounts _ | opened _ _ accounts _ _ _ | seeded _ accounts _ _ _ | purgedTenant accounts _ _ _ =>
    exact ids a (accounts ▸ mem)
  | linked named _ _ _ _ _ _ _ =>
    simp only at named
    subst named
    simp only [System.exec] at ok
    obtain ⟨_,made,_⟩ := System.answeredOk ok
    exact linkedAccountIds ids made a mem
  | signedIn named _ _ _ _ =>
    simp only at named
    subst named
    simp only [System.exec] at ok
    obtain ⟨_,made,_⟩ := System.answeredOk ok
    exact sessionAccountIds ids made a mem
  | closed accounts _ _ _ =>
    rw [accounts] at mem
    obtain ⟨o,ho,rfl⟩ := memUpdateWhere.mp mem
    split <;> exact ids o ho
  | purgedAccount accounts _ _ _ =>
    rw [accounts] at mem
    exact ids a (memDeleteWhere.mp mem).1

end Identifiers

section Runs
variable {Secret Public G : Type} {svc : Service Secret Public G} {s : Shared} {asked : Interaction} {now : Time}

theorem verifiedShown {value : String} {q : CsrfPayload}
    (readable : ∀ p ∈ s.pages, ReadBack svc.node svc.decoding svc.cookieKey p.payload) (unforged : Unforged svc s value)
    (ok : verifyCsrf svc.node svc.decoding svc.cookieKey value now = some q) :
    ∃ p ∈ s.pages, q = p.payload ∧ now / seconds 1 < p.payload.expiresAt := by
  unfold verifyCsrf at ok
  split at ok
  · rename_i front signature parts
    split at ok
    · rename_i signed
      obtain ⟨p,sent,same⟩ := List.mem_map.mp (unforged.signed front signature parts signed)
      rw [← same,(readable p sent).parsed,Option.filter_eq_some_iff,decide_eq_true_eq] at ok
      obtain ⟨read,fresh⟩ := ok
      obtain rfl := schemaSame read
      exact ⟨p,sent,rfl,fresh⟩
    · cases ok
  · cases ok

structure Issued (s : Shared) : Prop where
  identified : Identified s.db
  accounts : ∀ a ∈ s.db.accounts, opaqueId a.id = true
  pages : ∀ p ∈ s.pages, opaqueId p.accountId = true ∧ opaqueId p.grantId = true ∧ matchesClass opaqueChar 32 32 p.nonce = true

theorem stepIssued {e : System.Event} (issued : Issued s) : Issued { s with db := System.step svc.node s.db e } :=
  ⟨stepIdentified issued.identified,stepAccountIds issued.identified.wellFormed issued.accounts,issued.pages⟩

theorem reachedAccounts (node : Node) (history : List System.Event) :
    ∀ a ∈ (run (System.step node) Db.empty history).accounts, opaqueId a.id = true := by
  have keeps : ∀ db e, (Identified db ∧ ∀ a ∈ db.accounts, opaqueId a.id = true) →
      Identified (System.step node db e) ∧ ∀ a ∈ (System.step node db e).accounts, opaqueId a.id = true :=
    fun db e inv => ⟨stepIdentified inv.1,stepAccountIds inv.1.wellFormed inv.2⟩
  exact (invariantAlways keeps ⟨@reachedIdentified node [],fun _ mem => absurd mem List.not_mem_nil⟩ history).2

theorem startIssued (node : Node) (history : List System.Event) : Issued ⟨run (System.step node) Db.empty history,[]⟩ :=
  ⟨reachedIdentified history,reachedAccounts node history,fun _ mem => absurd mem List.not_mem_nil⟩

theorem ownUnforged {p : Page} (sent : p ∈ s.pages) : Unforged svc s (signCsrf svc.node svc.cookieKey p.payload) := by
  refine ⟨fun front signature parts _ => ?_⟩
  rw [signedParts] at parts
  rw [← (List.cons.inj parts).1,String.ofList_toList]
  exact List.mem_map_of_mem sent

def holds (svc : Service Secret Public G) (s : Shared) (asked : Interaction) : Stage G → Prop
  | .signedIn accountId binding => opaqueId accountId = true ∧ interactionBinding svc.node asked.details = some binding ∧
    (asked.method = "POST" → asked.origin.isSome = true ∧ asked.origin = svc.deployment.origin svc.node)
  | .planned plan checkedAt | .updated plan checkedAt _ | .consented plan checkedAt _ =>
    Shown svc s.pages asked plan checkedAt
  | _ => True

theorem headersPassed {expected : String} (ok : interactionSubmissionHeaderRejection asked expected = none) :
    asked.origin = some expected := by
  unfold interactionSubmissionHeaderRejection at ok
  simp only at ok
  split at ok
  · cases ok
  · split at ok
    · cases ok
    · rename_i origin sent
      split at ok
      · cases ok
      · split at ok
        · cases ok
        · rename_i same
          rw [sent,not_not.mp same]

theorem submittedHolds {accountId : AccountId} {binding : BootstrapBinding}
    (account : opaqueId accountId = true) (bound : interactionBinding svc.node asked.details = some binding) :
    holds svc s asked (submitted svc accountId binding asked now) := by
  unfold submitted
  split
  · trivial
  · rename_i expected issued
    split
    · trivial
    · rename_i passed
      have sent := headersPassed passed
      split
      · trivial
      · split
        · exact ⟨account,bound,fun _ => ⟨by rw [sent]; rfl,by rw [sent,issued]⟩⟩
        · split <;> trivial

theorem linkedRow {authUserId : String} {account : Account} {db : Db} (ok : resolveLink authUserId db = some account) :
    account ∈ db.accounts ∧ ∃ link ∈ db.authLinks, link.authUserId = authUserId ∧ link.accountId = account.id := by
  unfold resolveLink at ok
  split at ok
  · obtain ⟨link,mem,found⟩ := List.exists_of_findSome?_eq_some ok
    split at found
    · rename_i named
      simp only [Bool.and_eq_true,beq_iff_eq] at named
      have same := List.find?_some found
      exact ⟨List.mem_of_find?_eq_some found,link,mem,named.1,(eq_of_beq same).symm⟩
    · cases found
  · cases ok

theorem openedHolds (issued : Issued s) : holds svc s asked (openedTurn svc asked now s.db) := by
  unfold openedTurn
  split
  · trivial
  split
  · trivial
  rename_i account linked
  have shape := issued.accounts account (linkedRow linked).1
  split
  · trivial
  split
  · trivial
  split
  · trivial
  split
  · trivial
  · rename_i binding bound
    split
    · exact submittedHolds shape bound
    · rename_i get
      exact ⟨shape,bound,fun post => absurd post get⟩

section Bound
variable {accountId : AccountId} {binding : BootstrapBinding} {t : Turn}

structure Approval (svc : Service Secret Public G) (asked : Interaction) (accountId : AccountId) (binding : BootstrapBinding)
    (now : Time) (db : Db) (form : Form) (found : AuthorizationGrantBinding) (update : ConsentGrantUpdatePlan) : Prop where
  posted : asked.method = "POST"
  read : asked.form = some form
  resolved : resolveExact ⟨accountId,binding.clientId,binding.resource,binding.scopes⟩ db = .ok (some found)
  verified : ∃ csrf, verifyCsrf svc.node svc.decoding svc.cookieKey (form.csrf.getD "") now = some csrf ∧
    csrf.uid = asked.details.uid ∧ csrf.accountId = accountId ∧ csrf.grantId = found.grantId
  approves : form.decision = some "approve"
  planned : consentGrantUpdatePlan asked.details.grantId found.grantId binding.resource binding.scopes
    asked.details.promptDetails = .ok update

theorem approvedCases {found : AuthorizationGrantBinding} {form : Form} (posted : asked.method = "POST")
    (read : asked.form = some form)
    (resolved : resolveExact ⟨accountId,binding.clientId,binding.resource,binding.scopes⟩ s.db = .ok (some found)) :
    (∃ answer, approved (G := G) svc asked accountId binding found form now = .answered answer) ∨
    ∃ update, Approval svc asked accountId binding now s.db form found update ∧
      approved (G := G) svc asked accountId binding found form now = .planned ⟨found,accountId,binding.clientId,update⟩ now := by
  unfold approved
  split
  · exact .inl ⟨_,rfl⟩
  · rename_i csrf verified
    split
    · exact .inl ⟨_,rfl⟩
    · rename_i same
      simp only [not_or,not_not] at same
      split
      · exact .inl ⟨_,rfl⟩
      · rename_i approves
        split
        · exact .inl ⟨_,rfl⟩
        · rename_i update planned
          exact .inr ⟨update,⟨posted,read,resolved,⟨csrf,verified,same⟩,not_not.mp approves,planned⟩,rfl⟩

theorem boundCases : (∃ answer, (boundTurn svc asked accountId binding t s).2 = .answered answer) ∨
    ∃ form found update, Approval svc asked accountId binding t.now s.db form found update ∧
      (boundTurn svc asked accountId binding t s).2 = .planned ⟨found,accountId,binding.clientId,update⟩ t.now := by
  unfold boundTurn
  split
  · exact .inl ⟨_,rfl⟩
  · split
    · exact .inl ⟨_,rfl⟩
    · exact .inl ⟨_,rfl⟩
  · rename_i found resolved
    split
    · unfold shown
      simp only
      split
      · exact .inl ⟨_,rfl⟩
      · exact .inl ⟨_,rfl⟩
    · split
      · exact .inl ⟨_,rfl⟩
      · rename_i form submitted
        obtain ⟨read,posted⟩ := Option.filter_eq_some_iff.mp submitted
        rcases approvedCases (eq_of_beq posted) read resolved with answered | ⟨update,approval,out⟩
        · exact .inl answered
        · exact .inr ⟨form,found,update,approval,out⟩

theorem boundGrows : (boundTurn svc asked accountId binding t s).1.db = s.db ∧
    s.pages ⊆ (boundTurn svc asked accountId binding t s).1.pages := by
  unfold boundTurn
  split
  · exact ⟨rfl,List.Subset.refl _⟩
  · split
    · exact ⟨rfl,List.Subset.refl _⟩
    · exact ⟨rfl,List.Subset.refl _⟩
  · split
    · unfold shown
      simp only
      split
      · exact ⟨rfl,List.subset_append_left _ _⟩
      · exact ⟨rfl,List.Subset.refl _⟩
    · split
      · exact ⟨rfl,List.Subset.refl _⟩
      · exact ⟨rfl,List.Subset.refl _⟩

theorem boundHolds (held : holds (G := G) svc s asked (.signedIn accountId binding))
    (honest : Honest (G := G) svc s (.http asked (.signedIn accountId binding)) t) :
    holds svc s asked (boundTurn svc asked accountId binding t s).2 := by
  obtain ⟨_,bound,headers⟩ := held
  obtain ⟨readable,unforged⟩ := honest
  rcases @boundCases _ _ _ svc s asked accountId binding t with ⟨answer,out⟩ | ⟨form,found,update,approval,out⟩
  · rw [out]
    trivial
  · rw [out]
    obtain ⟨_,subject,client,resource,scopes⟩ := resolveExactRow approval.resolved
    obtain ⟨csrf,verified,uid,account,grant⟩ := approval.verified
    obtain ⟨p,sent,rfl,fresh⟩ := verifiedShown readable (unforged form approval.read) verified
    obtain ⟨some_,origin⟩ := headers approval.posted
    exact
      { sent := ⟨approval.posted,some_,origin⟩
        decided := by rw [approval.read,Option.bind_some,approval.approves]
        requested := ⟨binding,bound,rfl,client,resource,subject,scopes⟩
        page := ⟨p,sent,uid,account,grant,fresh⟩ }

end Bound

theorem shownGrows {pages more : List Page} {plan : ApprovedPlan} {checkedAt : Time} (grows : pages ⊆ more)
    (shown : Shown svc pages asked plan checkedAt) : Shown svc more asked plan checkedAt := by
  obtain ⟨p,sent,facts⟩ := shown.page
  exact { shown with page := ⟨p,grows sent,facts⟩ }

theorem holdsGrows {next : Shared} {stage : Stage G} (grows : s.pages ⊆ next.pages) (held : holds svc s asked stage) :
    holds svc next asked stage := by
  cases stage with
  | opened => trivial
  | signedIn accountId binding => exact held
  | planned plan checkedAt => exact shownGrows grows held
  | updated plan checkedAt grant => exact shownGrows grows held
  | consented plan checkedAt result => exact shownGrows grows held
  | answered answer => trivial

theorem stageHolds {stage : Stage G} {t : Turn} (issued : Issued s) (held : holds svc s asked stage)
    (honest : Honest svc s (.http asked stage) t) : holds svc s asked (stageTurn svc asked s t stage).2 := by
  cases stage with
  | opened => exact openedHolds issued
  | signedIn accountId binding => exact boundHolds held honest
  | planned plan checkedAt =>
    simp only [stageTurn,plannedTurn]
    split
    · trivial
    · exact held
  | updated plan checkedAt grant =>
    simp only [stageTurn,updatedTurn]
    split
    · trivial
    · split
      · trivial
      · exact held
  | consented plan checkedAt result => exact held
  | answered answer => trivial

theorem boundIssued {accountId : AccountId} {binding : BootstrapBinding} {t : Turn} (issued : Issued s)
    (account : opaqueId accountId = true) : Issued (boundTurn svc asked accountId binding t s).1 := by
  unfold boundTurn
  split
  · exact issued
  · split
    · exact issued
    · exact issued
  · rename_i found resolved
    obtain ⟨⟨g,hg,_,_,named,_⟩,_⟩ := resolveExactRow resolved
    split
    · unfold shown
      simp only
      split
      · refine ⟨issued.identified,issued.accounts,fun p mem => ?_⟩
        rcases List.mem_append.mp mem with old | new
        · exact issued.pages p old
        · rw [List.mem_singleton.mp new]
          exact ⟨account,named ▸ issued.identified.grants g hg,drawnShape t.drawn⟩
      · exact issued
    · split
      · exact issued
      · exact issued

theorem stageIssued {stage : Stage G} {t : Turn} (issued : Issued s) (held : holds svc s asked stage) :
    Issued (stageTurn svc asked s t stage).1 := by
  cases stage with
  | signedIn accountId binding => exact boundIssued issued held.1
  | updated plan checkedAt grant =>
    simp only [stageTurn,updatedTurn]
    split
    · exact issued
    · rename_i next saved ok
      obtain ⟨_,upserted⟩ := saveUpserts ok
      have stepped : System.step svc.node s.db ⟨t.now,.upsert (grantAdapter svc.codec) saved
          (svc.grants.payload grant) (svc.grants.expiresIn grant) t.now⟩ = next := by
        simp only [System.step,System.exec,upserted]
        rfl
      exact stepped ▸ stepIssued issued
  | opened => exact issued
  | planned plan checkedAt => exact issued
  | consented plan checkedAt result => exact issued
  | answered answer => exact issued

theorem stageGrows {stage : Stage G} {t : Turn} : s.pages ⊆ (stageTurn svc asked s t stage).1.pages := by
  cases stage with
  | signedIn accountId binding => exact boundGrows.2
  | updated plan checkedAt grant =>
    simp only [stageTurn,updatedTurn]
    split
    · exact List.Subset.refl _
    · exact List.Subset.refl _
  | opened => exact List.Subset.refl _
  | planned plan checkedAt => exact List.Subset.refl _
  | consented plan checkedAt result => exact List.Subset.refl _
  | answered answer => exact List.Subset.refl _

theorem turnGrows {c : Call G} {t : Turn} : s.pages ⊆ (turn svc s c t).1.pages := by
  cases c with
  | http asked stage => exact stageGrows
  | other event done =>
    cases done with
    | false => exact List.Subset.refl _
    | true => exact List.Subset.refl _

def callHolds (svc : Service Secret Public G) (s : Shared) : Call G → Prop
  | .http asked stage => holds svc s asked stage
  | .other _ _ => True

theorem pageRules (svc : Service Secret Public G) : Discipline (opening (G := G)) (turn svc) Issued (callHolds svc)
    (fun _ _ => True) (Honest svc) where
  symmetric _ _ _ := trivial
  opens s request _ := by
    refine ⟨?_,fun _ _ => trivial⟩
    cases request with
    | http asked => trivial
    | other event => trivial
  keeps s c t issued held honest := by
    cases c with
    | http asked stage => exact ⟨stageIssued issued held,holdsGrows stageGrows (stageHolds issued held honest)⟩
    | other event done =>
      cases done with
      | false => exact ⟨stepIssued issued,trivial⟩
      | true => exact ⟨issued,trivial⟩
  frames s c t d _ _ _ held _ := by
    refine ⟨?_,trivial⟩
    cases d with
    | http asked stage => exact holdsGrows turnGrows held
    | other event done => trivial

theorem resolvedAsked {input : ExactBinding} {found : AuthorizationGrantBinding} {db : Db}
    (ok : resolveExact input db = .ok (some found)) :
    ∃ g ∈ db.grants, ∃ site ∈ db.sites, g.id = found.grantId ∧ Asked input g site := by
  unfold resolveExact at ok
  simp only at ok
  split at ok
  · cases ok
  split at ok
  · cases ok
  · rename_i g site rows
    split at ok
    · rename_i canonical
      cases ok
      have mem := List.mem_of_mem_take (rows ▸ List.mem_singleton.mpr rfl : (g,site) ∈ List.take 2 _)
      obtain ⟨g',hg,mem⟩ := List.mem_flatMap.mp mem
      obtain ⟨site',mem,same⟩ := List.mem_map.mp mem
      cases same
      obtain ⟨hs,row⟩ := List.mem_filter.mp mem
      exact ⟨g,hg,site,hs,rfl,(exactRowAsked canonical).mp row⟩
    · cases ok
  · cases ok

theorem openedAccount {db : Db} {accountId : AccountId} {binding : BootstrapBinding}
    (ok : openedTurn (G := G) svc asked now db = .signedIn accountId binding) : ∃ session, asked.session = some session ∧
      now < session.expiresAt ∧ ∃ link ∈ db.authLinks, ∃ account ∈ db.accounts,
        link.authUserId = session.userId ∧ link.accountId = account.id ∧ account.id = accountId ∧ account.status = .active := by
  unfold openedTurn at ok
  split at ok
  · cases ok
  rename_i session live
  obtain ⟨read,unexpired⟩ := Option.filter_eq_some_iff.mp live
  split at ok
  · cases ok
  rename_i account linked
  obtain ⟨row,link,mem,user,own⟩ := linkedRow linked
  split at ok
  · cases ok
  rename_i active
  refine ⟨session,read,of_decide_eq_true unexpired,link,mem,account,row,user,own,?_,not_not.mp active⟩
  split at ok
  · cases ok
  split at ok
  · cases ok
  split at ok
  · cases ok
  split at ok
  · unfold submitted at ok
    split at ok
    · cases ok
    split at ok
    · cases ok
    split at ok
    · cases ok
    split at ok
    · cases ok
      rfl
    · split at ok <;> cases ok
  · cases ok
    rfl

theorem opaqueWithin {text : String} {least most : Nat} (shape : matchesClass opaqueChar least most text = true) :
    textWithin least most text = true := by
  simp only [matchesClass,Bool.and_eq_true,decide_eq_true_eq,List.all_eq_true] at shape
  obtain ⟨⟨low,high⟩,chars⟩ := shape
  have ones : ∀ c ∈ text.toList, utf16Units c = 1 := fun c mem => by
    have plain := chars c mem
    simp only [opaqueChar,letterOrDigit,Bool.or_eq_true,Bool.and_eq_true,decide_eq_true_eq,beq_iff_eq] at plain
    refine asciiUnits ?_
    rcases plain with (((⟨-,most⟩ | ⟨-,most⟩) | ⟨-,most⟩) | rfl) | rfl
    · exact Nat.lt_of_le_of_lt most (by decide)
    · exact Nat.lt_of_le_of_lt most (by decide)
    · exact Nat.lt_of_le_of_lt most (by decide)
    · decide
    · decide
  have length : utf16Length text = text.toList.length := by
    rw [utf16Length,List.map_congr_left ones,List.map_const',List.sum_replicate]
    exact nsmul_one _
  simp only [textWithin,length,Bool.and_eq_true,decide_eq_true_eq]
  exact ⟨low,high⟩

theorem pageShaped {p : Page} (issued : Issued s) (sent : p ∈ s.pages) (uid : textWithin 8 256 p.uid = true)
    (dated : 0 ≤ p.shownAt) : csrfPayloadSchema (.obj p.payload.members) = some p.payload := by
  obtain ⟨account,grant,nonce⟩ := issued.pages p sent
  have positive : 0 < p.shownAt / seconds 1 + 300 := by
    have whole : 0 ≤ p.shownAt / seconds 1 := Int.ediv_nonneg dated (by decide)
    exact Int.add_pos_of_nonneg_of_pos whole (by decide)
  simp [csrfPayloadSchema,Page.payload,CsrfPayload.members,onlyMembers,textMember,integerMember,property,List.lookup_cons,
    uid,opaqueWithin account,opaqueWithin grant,nonce]
  rw [Option.filter_some,decide_eq_true positive]
  rfl

theorem ownApproved {accountId : AccountId} {binding : BootstrapBinding} {found : AuthorizationGrantBinding} {form : Form}
    {t : Turn} {p : Page} (issued : Issued s) (uid : textWithin 8 256 asked.details.uid = true)
    (posted : asked.method = "POST") (read : asked.form = some form) (approves : form.decision = some "approve")
    (resolved : resolveExact ⟨accountId,binding.clientId,binding.resource,binding.scopes⟩ s.db = .ok (some found))
    (sent : p ∈ s.pages) (back : ReadBack svc.node svc.decoding svc.cookieKey p.payload) (same : p.uid = asked.details.uid)
    (account : p.accountId = accountId) (grant : p.grantId = found.grantId) (dated : 0 ≤ p.shownAt)
    (fresh : t.now / seconds 1 < p.shownAt / seconds 1 + 300)
    (token : form.csrf = some (signCsrf svc.node svc.cookieKey p.payload)) :
    boundTurn svc asked accountId binding t s = (s,
      match consentGrantUpdatePlan asked.details.grantId found.grantId binding.resource binding.scopes
        asked.details.promptDetails with
      | .error e => .answered (.failed e.stage e.category)
      | .ok update => .planned ⟨found,accountId,binding.clientId,update⟩ t.now) := by
  have verified : verifyCsrf svc.node svc.decoding svc.cookieKey (form.csrf.getD "") t.now = some p.payload := by
    rw [token,Option.getD_some]
    exact ownVerified back (pageShaped issued sent (same ▸ uid) dated) fresh
  have notGet : asked.method ≠ "GET" := by
    rw [posted]
    decide
  have accepted : asked.form.filter (fun _ => asked.method == "POST") = some form := by
    rw [read,Option.filter_some,posted]
    rfl
  simp only [boundTurn,resolved,if_neg notGet,accepted]
  simp only [approved,verified]
  rw [if_neg (by simp [Page.payload,same,account,grant]),if_neg (by simp [approves])]

/- Whatever the interleaving, and whoever sends the forms without the key. -/
theorem consentShown (svc : Service Secret Public G) (history : List System.Event) (moves : List (Move Request Turn))
    (honest : Guarded (step (opening (G := G)) (turn svc)) (Allowed (Honest svc)) (started svc history) moves) :
    PagesBind svc (run (step (opening (G := G)) (turn svc)) (started svc history) moves) := by
  have start : Safe Issued (callHolds svc) (fun _ _ => True) (started (G := G) svc history) :=
    ⟨startIssued svc.node history,fun _ _ at_ => by simp [started] at at_,fun _ _ _ _ _ _ _ => trivial⟩
  have safe := runSafe (pageRules svc) start honest
  have each : ∀ c ∈ (run (step (opening (G := G)) (turn svc)) (started svc history) moves).calls,
      callHolds svc (run (step (opening (G := G)) (turn svc)) (started svc history) moves).shared c := by
    intro c mem
    obtain ⟨i,at_⟩ := List.mem_iff_getElem?.mp mem
    exact safe.each i c at_
  exact
    { signedIn := fun asked t accountId binding _ => openedAccount
      consented := fun asked plan checkedAt result mem => each _ mem
      active := fun asked accountId binding t plan checkedAt mem out => by
        rcases @boundCases _ _ _ svc _ asked accountId binding t with ⟨answer,other⟩ | ⟨form,found,update,approval,other⟩
        · rw [out] at other
          cases other
        · rw [out] at other
          cases other
          exact ⟨rfl,resolvedAsked approval.resolved⟩
      ownToken := fun asked accountId binding found form t mem uid posted read approves resolved own => by
        obtain ⟨p,sent,back,same,account,grant,dated,fresh,token⟩ := own
        exact ownApproved safe.whole uid posted read approves resolved sent back same account grant dated fresh token }

end Runs
section Sample

def pageKey : Key := List.replicate 32 97

/- HMAC-SHA256 of the page's payload. -/
def pageMac : List UInt8 := [5,181,67,11,84,201,98,233,152,203,58,231,80,25,116,106,163,90,52,214,69,172,50,137,107,5,123,52,210,217,204,231]

def samplePage : Page := ⟨"interaction_0001",System.sampleAccount,"grant_0001",seconds 100,sampleDrawn.text⟩

def pageNode : Node := tabled [("attempt_0001\x00site_0001\x00thumbprint_0001",System.samplePairingDigest)]
  [((pageKey,encoded samplePage.payload),pageMac)] (urlTable (sampleUrls 1))

def pageDecoding : Decoding where
  bytes text := if text = base64url pageMac then pageMac else []
  parsed text := if text = encoded samplePage.payload then some (.obj samplePage.payload.members) else none

def pageService : Service Unit Unit LoggedGrant :=
  ⟨sampleDeployment 1,pageNode,pageDecoding,pageKey,consentCodec,loggedGrants⟩

def pageDetails : InteractionDetails := ⟨"interaction_0001",.undefined,
  [("client_id",.str "client_0001"),("resource",.str System.sampleResource),("scope",.str "openid mcp:read"),
    ("redirect_uri",.str (callbackUri "client.example"))],
  [("missingOIDCScope",.arr [.str "openid"]),
    ("missingResourceScopes",.obj [(System.sampleResource,.arr [.str "mcp:read"])])]⟩

def askedPage : Interaction :=
  ⟨pageDetails,"consent",some ⟨"user_0001",seconds 30,hours 1⟩,"GET",none,none,none⟩

def sentPage (csrf : String) : Interaction :=
  ⟨pageDetails,"consent",some ⟨"user_0001",seconds 30,hours 1⟩,"POST",some "application/x-www-form-urlencoded",
    some "https://auth.example",some ⟨some csrf,some "approve",none⟩⟩

def pageTurn (n : Int) : Turn := ⟨seconds n,sampleDrawn,"generated_0001"⟩

def pageToken : String := signCsrf pageService.node pageService.cookieKey samplePage.payload

def sentMoves : List (Move Request Turn) :=
  [.start (.http askedPage),.turn 0 (pageTurn 100),.turn 0 (pageTurn 100),.start (.http (sentPage pageToken)),
    .turn 1 (pageTurn 160)]

def formTurn : Move Request Turn := .turn 1 (pageTurn 160)

def approvedDb : Db := run (System.step pageNode) Db.empty System.approvedHistory

def pageBinding : BootstrapBinding := ⟨"interaction_0001","client_0001",System.sampleResource,["mcp:read"]⟩

def pageWorld (first : Call LoggedGrant) (stage : Stage LoggedGrant) : World Shared (Call LoggedGrant) :=
  ⟨⟨approvedDb,[samplePage]⟩,[first,.http (sentPage pageToken) stage]⟩

def pageStep : World Shared (Call LoggedGrant) → Move Request Turn → World Shared (Call LoggedGrant) :=
  step opening (turn pageService)

theorem sentWorld : ∃ answer, run pageStep (started pageService System.approvedHistory) sentMoves =
    pageWorld (.http askedPage (.answered answer)) (.signedIn System.sampleAccount pageBinding) :=
  ⟨_,rfl⟩

theorem firstMac {digests : List (String × Digest)} {macs : List ((Key × String) × Digest)} {urls : List (String × Url)}
    {key : Key} {text : String} {mac : Digest} (whole : mac.length = 32) :
    (tabled digests (((key,text),mac) :: macs) urls).hmacSha256 key text = mac := by
  simp [tabled,List.lookup_cons,Option.filter,whole]

theorem pageSigned : pageNode.hmacSha256 pageKey (encoded samplePage.payload) = pageMac := firstMac rfl

theorem pageReadBack : ReadBack pageNode pageDecoding pageKey samplePage.payload := by
  refine ⟨?_,?_⟩
  · rw [pageSigned]
    simp only [pageDecoding,if_true]
  · simp only [pageDecoding,if_true,Option.bind_some]

theorem sentHonest : Guarded pageStep (Allowed (Honest pageService)) (started pageService System.approvedHistory)
    sentMoves := by
  refine ⟨trivial,fun c at_ => ?_,fun c at_ => ?_,trivial,fun c at_ => ?_,trivial⟩
  · obtain rfl : c = .http askedPage .opened := (Option.some.inj at_).symm
    trivial
  · obtain rfl : c = .http askedPage (.signedIn System.sampleAccount pageBinding) := (Option.some.inj at_).symm
    exact ⟨fun p mem => absurd mem List.not_mem_nil,fun form mem => by cases mem⟩
  · obtain rfl : c = .http (sentPage pageToken) .opened := (Option.some.inj at_).symm
    trivial

def pageFound : AuthorizationGrantBinding :=
  ⟨System.sampleTenant,System.sampleSite,"grant_0001",System.sampleAccount,"client_0001",System.sampleResource,[.read]⟩

def pagePlan : ApprovedPlan :=
  ⟨pageFound,System.sampleAccount,"client_0001",⟨none,["openid"],[],[(System.sampleResource,["mcp:read"])]⟩⟩

theorem sentIssued : Issued ⟨approvedDb,[samplePage]⟩ := by
  refine ⟨reachedIdentified _,reachedAccounts _ _,fun p mem => ?_⟩
  rw [List.mem_singleton.mp mem]
  exact ⟨by decide,by decide,drawnShape sampleDrawn⟩

theorem formPlanned : boundTurn pageService (sentPage pageToken) System.sampleAccount pageBinding (pageTurn 160)
    ⟨approvedDb,[samplePage]⟩ = (⟨approvedDb,[samplePage]⟩,.planned pagePlan (seconds 160)) := by
  have resolved : resolveExact ⟨System.sampleAccount,pageBinding.clientId,pageBinding.resource,pageBinding.scopes⟩
      approvedDb = .ok (some pageFound) := by rfl
  rw [ownApproved sentIssued (by decide) rfl rfl rfl resolved (List.mem_singleton_self _) pageReadBack rfl rfl rfl
    (by decide) (by decide) rfl]
  rfl

theorem sentUnforged : Unforged pageService ⟨approvedDb,[samplePage]⟩ pageToken :=
  ownUnforged (p := samplePage) (List.mem_singleton_self _)

theorem formHonest (first : Call LoggedGrant) : Allowed (Honest pageService)
    (pageWorld first (.signedIn System.sampleAccount pageBinding)) formTurn := by
  intro c at_
  obtain rfl : c = .http (sentPage pageToken) (.signedIn System.sampleAccount pageBinding) := (Option.some.inj at_).symm
  refine ⟨fun p mem => ?_,fun form mem => ?_⟩
  · rw [List.mem_singleton.mp mem]
    exact pageReadBack
  · obtain rfl := Option.some.inj mem
    exact sentUnforged

theorem plannedWorld (first : Call LoggedGrant) : pageStep (pageWorld first (.signedIn System.sampleAccount pageBinding))
    formTurn = pageWorld first (.planned pagePlan (seconds 160)) := by
  have planned : turn pageService ⟨approvedDb,[samplePage]⟩
      (.http (sentPage pageToken) (.signedIn System.sampleAccount pageBinding)) (pageTurn 160) =
        (⟨approvedDb,[samplePage]⟩,.http (sentPage pageToken) (.planned pagePlan (seconds 160))) := by
    simp only [turn,stageTurn,formPlanned]
  simp only [pageStep,step,formTurn,pageWorld,List.getElem?_cons_succ,List.getElem?_cons_zero,planned,List.set_cons_succ,
    List.set_cons_zero]

theorem updatedWorld (first : Call LoggedGrant) : ∃ grant, pageStep (pageWorld first (.planned pagePlan (seconds 160)))
    formTurn = pageWorld first (.updated pagePlan (seconds 160) grant) :=
  ⟨_,rfl⟩

theorem savedWorld (first : Call LoggedGrant) : ∃ saved, run pageStep (pageWorld first (.planned pagePlan (seconds 160)))
    [formTurn,formTurn] = ⟨⟨saved,[samplePage]⟩,
      [first,.http (sentPage pageToken) (.consented pagePlan (seconds 160) (some "grant_0001"))]⟩ :=
  ⟨_,rfl⟩

theorem savedHonest (first : Call LoggedGrant) : Guarded pageStep (Allowed (Honest pageService))
    (pageWorld first (.signedIn System.sampleAccount pageBinding)) [formTurn,formTurn,formTurn] := by
  obtain ⟨grant,updated⟩ := updatedWorld first
  refine ⟨formHonest first,?_,?_,trivial⟩
  · rw [plannedWorld]
    intro c at_
    obtain rfl : c = .http (sentPage pageToken) (.planned pagePlan (seconds 160)) := (Option.some.inj at_).symm
    trivial
  · rw [plannedWorld,updated]
    intro c at_
    obtain rfl : c = .http (sentPage pageToken) (.updated pagePlan (seconds 160) grant) := (Option.some.inj at_).symm
    trivial

theorem formApproved : ∃ saved first, Shown pageService [samplePage] (sentPage pageToken) pagePlan (seconds 160) ∧
    run pageStep (started pageService System.approvedHistory) (sentMoves ++ [formTurn,formTurn,formTurn]) =
      ⟨⟨saved,[samplePage]⟩,[first,.http (sentPage pageToken) (.consented pagePlan (seconds 160) (some "grant_0001"))]⟩ := by
  obtain ⟨answer,sent⟩ := sentWorld
  obtain ⟨saved,last⟩ := savedWorld (.http askedPage (.answered answer))
  have honest : Guarded pageStep (Allowed (Honest pageService)) (started pageService System.approvedHistory)
      (sentMoves ++ [formTurn,formTurn,formTurn]) :=
    (guardedAppend _ _ _ _ _).mpr ⟨sentHonest,sent ▸ savedHonest _⟩
  have world : run pageStep (started pageService System.approvedHistory) (sentMoves ++ [formTurn,formTurn,formTurn]) =
      ⟨⟨saved,[samplePage]⟩,[.http askedPage (.answered answer),
        .http (sentPage pageToken) (.consented pagePlan (seconds 160) (some "grant_0001"))]⟩ := by
    rw [runAppend,sent,runCons,plannedWorld,last]
  have binds := consentShown pageService System.approvedHistory _ honest
  refine ⟨saved,_,?_,world⟩
  have shown := binds.consented (sentPage pageToken) pagePlan (seconds 160) (some "grant_0001")
  rw [show run (step opening (turn pageService)) _ _ = _ from world] at shown
  exact shown (List.mem_cons_of_mem _ (List.mem_singleton_self _))

end Sample
end Wepuu.ConsentPages
