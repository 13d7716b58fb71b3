import Wepuu.DeletionClosure
import Wepuu.EventSources
import Wepuu.GrantLifecycle
import Wepuu.PairedResources
import Wepuu.SigningWindow

/-! From a row of the outbox to the request that carries it: what the signer of key custody
asks of an event, where revocation-worker.ts sends it, and which rows can be sent at all. -/
namespace Wepuu.RevocationDelivery
open EventSources Footprint Frames GrantLifecycle Grants Interleaving NodeApi Outbox PairedResources Pairing PairingRuns
open PairingService Relational Resources Runs Schema SigningKeys SigningWindow SiteProofs SiteRows Statements Tenancy
open Consent (canonicalizeResource)

section Signing
variable {K : Type}

structure RevocationEvent where
  issuer : String
  resource : String
  tenantId : String
  siteId : String
  sequence : Nat
  eventType : EventType
  grantId : Option String
  tokenJtiHash : Option String
  keyId : Option String
  reason : String

def lowerLetter (c : Char) : Bool := 'a' ≤ c && c ≤ 'z'
def reasonChar (c : Char) : Bool := lowerLetter c || digitChar c || c == '_' || c == '.' || c == '-'

/- The pattern [a-z][a-z0-9_.-]{2,63} -/
def reasonText (text : String) : Bool := match text.toList with
  | [] => false
  | first :: rest => lowerLetter first && decide (2 ≤ rest.length) && decide (rest.length ≤ 63) && rest.all reasonChar

def maxSafeInteger : Nat := 9007199254740991

def revocationEventSchema (api : ProofApi K) (event : RevocationEvent) : Bool :=
  api.isUrl event.issuer && httpsText event.issuer && api.isUrl event.resource && httpsText event.resource &&
  api.isUuid event.tenantId && opaqueId event.siteId &&
  decide (0 < event.sequence) && decide (event.sequence ≤ maxSafeInteger) &&
  event.grantId.all opaqueId && event.tokenJtiHash.all (matchesClass opaqueChar 43 43) && event.keyId.all opaqueId &&
  reasonText event.reason && (event.eventType != .grant || event.grantId.isSome) &&
  (event.eventType != .token || event.tokenJtiHash.isSome) && (event.eventType != .key || event.keyId.isSome)

def signInput (issuer : String) (r : OutboxRow) : RevocationEvent where
  issuer := issuer
  resource := r.resourceUri
  tenantId := r.tenantId
  siteId := r.siteId
  sequence := r.eventSequence
  eventType := r.eventType
  grantId := r.grantId
  tokenJtiHash := none
  keyId := r.keyId
  reason := r.reason

end Signing

section Sending
variable {node : Node} {resource : String}

def mcpPath : String := "/wp-json/wp-auto/mcp"
def revocationsPath : String := "/wp-json/wp-auto/v1/revocations"

def origin (url : Url) : String :=
  url.protocol ++ "//" ++ url.hostname ++ (if url.port = "" then "" else ":" ++ url.port)

/- new URL(path, url.origin) of an absolute path. -/
def atOrigin (path : String) (url : Url) : Url where
  protocol := url.protocol
  username := ""
  password := ""
  hostname := url.hostname
  port := url.port
  pathname := path
  search := ""
  hash := ""
  href := origin url ++ path

def revocationEndpoint (node : Node) (resource : String) : Except Fault Url := do
  let canonical ← canonicalizeResource node resource
  let parsed ← orFail (.thrown "Invalid URL") (node.parseUrl canonical)
  ensure (parsed.pathname == mcpPath) (.thrown "resource_path_not_supported")
  .ok (atOrigin revocationsPath parsed)

structure PinnedRequest where
  endpoint : Url
  body : String
  pinnedAddress : String

def send (node : Node) (resolve : String → Except Fault (List String)) (isPublicAddress : String → Bool)
    (resource compactJws : String) : Except Fault PinnedRequest := do
  ensure (decide (compactJws.utf8ByteSize ≤ 16 * 1024)) (.thrown "revocation_event_too_large")
  let endpoint ← revocationEndpoint node resource
  let addresses ← resolve endpoint.hostname
  let pinned ← orFail (.thrown "unsafe_destination") addresses.head?
  ensure (isPublicAddress pinned) (.thrown "unsafe_destination")
  .ok ⟨endpoint,compactJws,pinned⟩

def Addressed (node : Node) (resource : String) : Prop := ∃ own url, node.parseUrl resource = some own ∧
  revocationEndpoint node resource = .ok url ∧ origin url = origin own ∧ url.pathname = revocationsPath

def pathOf (node : Node) (resource : String) : Option String := (node.parseUrl resource).map (·.pathname)

theorem addressedExactly (whatwg : Whatwg node) {input : String} (ok : canonicalizeResource node input = .ok resource) :
    Addressed node resource ↔ pathOf node input = some mcpPath := by
  obtain ⟨u,accepted,shape,parsed,again,_⟩ := canonicalizeRecord whatwg ok
  have fixed := canonicalizeFixed whatwg ok
  unfold Addressed pathOf
  rw [parsed,again,Option.map_some,Option.some.injEq]
  constructor
  · rintro ⟨own,url,same,made,_⟩
    simp only [revocationEndpoint,bindOk,orFailOk,ensureOk,beq_iff_eq] at made
    obtain ⟨canonical,first,found,at_,_,path,_⟩ := made
    rw [fixed] at first
    cases first
    rw [again] at at_
    cases at_
    exact path
  · intro path
    refine ⟨_,atOrigin revocationsPath (accessors u.toUrlParts),rfl,?_,rfl,rfl⟩
    simp only [revocationEndpoint,bindOk,orFailOk,ensureOk,beq_iff_eq]
    exact ⟨resource,fixed,_,again,(),path,rfl⟩

/- Where the endpoint is found, what is left to fail is the size, the resolver and the address. -/
theorem sendReaches {resolve : String → Except Fault (List String)} {isPublicAddress : String → Bool}
    {compactJws pinned : String} {rest : List String} {url : Url} (small : compactJws.utf8ByteSize ≤ 16 * 1024)
    (endpoint : revocationEndpoint node resource = .ok url) (addresses : resolve url.hostname = .ok (pinned :: rest))
    (public_ : isPublicAddress pinned = true) :
    send node resolve isPublicAddress resource compactJws = .ok ⟨url,compactJws,pinned⟩ := by
  simp only [send,bindOk,orFailOk,ensureOk,decide_eq_true_eq]
  exact ⟨(),small,url,endpoint,_,addresses,pinned,rfl,(),public_,rfl⟩

end Sending
section Fitting
variable {K : Type} {api : ProofApi K} {R : String → Prop} {node : Node} {e : System.Event} {db next : Db}

structure Signable (api : ProofApi K) (r : OutboxRow) : Prop where
  tenant : api.isUuid r.tenantId = true
  site : opaqueId r.siteId = true
  numbered : 0 < r.eventSequence
  grant : r.grantId.all opaqueId = true ∧ (r.eventType = .grant → r.grantId.isSome = true)
  key : r.keyId.all opaqueId = true ∧ (r.eventType = .key → r.keyId.isSome = true)
  token : r.eventType ≠ .token
  reason : r.reason ∈ reasons

structure Fit (R : String → Prop) (api : ProofApi K) (db : Db) : Prop where
  sites : ∀ s ∈ db.sites, R s.resourceUri ∧ api.isUuid s.tenantId = true ∧ opaqueId s.id = true
  grants : ∀ g ∈ db.grants, opaqueId g.id = true
  families : ∀ f ∈ db.refreshFamilies, opaqueId f.grantId = true
  keys : ∀ k ∈ db.signingKeys, opaqueId k.kid = true
  events : ∀ r ∈ db.revocationOutbox, R r.resourceUri ∧ Signable api r

def gives (R : String → Prop) (api : ProofApi K) : System.Op → Prop
  | .completePairing context record _ _ _ => R record.resource ∧ api.isUuid context.tenantId = true
  | .createFamily input => opaqueId input.grantId = true
  | op => knownReason op

theorem givesReason {op : System.Op} (given : gives R api op) : knownReason op := by
  cases op <;> trivial

theorem reasonsAllowed : ∀ reason ∈ reasons, reasonText reason = true := by decide

theorem completedSite {context : TenantContext} {record : PairedAttempt} {proof : VerifiedKey} {site : SiteId} {key : String}
    {now : Time} (ok : complete node context record proof site key now db = .ok next) : next.sites = db.sites ∨
      ∃ row, next.sites = db.sites ++ [row] ∧ row.resourceUri = record.resource ∧ row.tenantId = context.tenantId ∧
        opaqueId row.id = true := by
  simp only [complete] at ok
  split at ok
  · split at ok <;> cases ok
    exact .inl rfl
  · simp only [bindOk,ensureOk,orFailOk] at ok
    obtain ⟨url,_,_,access,_,checks,sites,inserted,_,_,_,_,recorded⟩ := ok
    obtain ⟨_,rfl⟩ := insertRowExact.mp inserted
    obtain ⟨_,_,_,_,rfl⟩ := insertIdempotencyExact recorded
    simp only [siteTenantInsert,Bool.and_eq_true,beq_iff_eq] at access
    simp only [siteCheck,Bool.and_eq_true] at checks
    exact .inr ⟨_,rfl,rfl,access.1,checks.1.1.1⟩

theorem createdGrant {context : TenantContext} {record : NewPendingGrant} {out : CreatedGrant}
    (ok : createPending context record db = .ok (next,out)) : next.grants = db.grants ∨
      ∃ g, next.grants = db.grants ++ [g] ∧ opaqueId g.id = true := by
  unfold createPending at ok
  split at ok
  · split at ok <;> cases ok
    exact .inl rfl
  · simp only [bindOk,ensureOk,orFailOk] at ok
    obtain ⟨_,_,_,_,_,checks,grants,inserted,_,_,recorded,kept,last⟩ := ok
    cases last
    obtain ⟨_,rfl⟩ := insertRowExact.mp inserted
    obtain ⟨_,_,_,_,rfl⟩ := insertIdempotencyExact kept
    simp only [Grant.check,Bool.and_eq_true] at checks
    exact .inr ⟨_,rfl,checks.1.1.1.1.1.1⟩

theorem publishedKey {input : NewKey} (ok : publish input db = .ok next) :
    ∃ k, next.signingKeys = db.signingKeys ++ [k] ∧ opaqueId k.kid = true := by
  simp only [publish,bindOk,ensureOk,orFailOk] at ok
  obtain ⟨_,checks,keys,inserted,last⟩ := ok
  cases last
  obtain ⟨_,rfl⟩ := insertRowExact.mp inserted
  exact ⟨_,rfl,(Bool.and_eq_true_iff.mp checks).1⟩

theorem placedSite (wf : WellFormed db) {s : Site} (mem : s ∈ (System.step node db e).sites) :
    (∃ o ∈ db.sites, o.tenantId = s.tenantId ∧ o.id = s.id ∧ o.resourceUri = s.resourceUri) ∨
    ∃ context record proof site key, e.op = .completePairing context record proof site key ∧
      s.resourceUri = record.resource ∧ s.tenantId = context.tenantId ∧ opaqueId s.id = true := by
  rcases stepSites wf mem with ⟨o,ho,tenant,id,resource,_⟩ | ⟨⟨context,record,proof,key,op,_⟩,_⟩
  · exact .inl ⟨o,ho,tenant,id,resource⟩
  · obtain ⟨now,_⟩ := e
    cases op
    rcases settleCases db (System.exec node ⟨now,.completePairing context record proof s.id key⟩ db) with
      same | ⟨next,reply,ok,done⟩
    · rw [System.step,same] at mem
      exact .inl ⟨s,mem,rfl,rfl,rfl⟩
    rw [System.step,done] at mem
    rcases completedSite (System.silentOk ok) with same | ⟨row,rows,resource,tenant,id⟩
    · exact .inl ⟨s,same ▸ mem,rfl,rfl,rfl⟩
    · rw [rows] at mem
      rcases List.mem_append.mp mem with old | new
      · exact .inl ⟨s,old,rfl,rfl,rfl⟩
      · rw [List.mem_singleton.mp new] at *
        exact .inr ⟨context,record,proof,_,key,rfl,resource,tenant,id⟩

theorem stepSiteIds (wf : WellFormed db) (ids : ∀ s ∈ db.sites, opaqueId s.id = true) :
    ∀ s ∈ (System.step node db e).sites, opaqueId s.id = true := by
  intro s mem
  rcases placedSite wf mem with ⟨o,ho,_,id,_⟩ | ⟨_,_,_,_,_,_,_,_,id⟩
  · rw [← id]
    exact ids o ho
  · exact id

theorem stepFitSites (wf : WellFormed db) (fit : Fit R api db) (given : gives R api e.op) :
    ∀ s ∈ (System.step node db e).sites, R s.resourceUri ∧ api.isUuid s.tenantId = true ∧ opaqueId s.id = true := by
  intro s mem
  have id := stepSiteIds wf (fun o ho => (fit.sites o ho).2.2) s mem
  rcases placedSite wf mem with ⟨o,ho,tenant,_,resource⟩ | ⟨_,_,_,_,_,op,resource,tenant,_⟩
  · obtain ⟨allowed,uuid,_⟩ := fit.sites o ho
    exact ⟨resource ▸ allowed,tenant ▸ uuid,id⟩
  · rw [op] at given
    exact ⟨resource ▸ given.1,tenant ▸ given.2,id⟩

theorem stepGrantIds (wf : WellFormed db) (ids : ∀ g ∈ db.grants, opaqueId g.id = true) :
    ∀ g ∈ (System.step node db e).grants, opaqueId g.id = true := by
  intro g mem
  rcases stepGrants wf mem with ⟨o,ho,moved⟩ | proposed
  · rw [(advancesKeeps moved).id]
    exact ids o ho
  · obtain ⟨now,op⟩ := e
    cases op <;> simp only [proposedGrant] at proposed <;> try contradiction
    rename_i context record
    rcases settleCases db (System.exec node ⟨now,.createPending context record⟩ db) with same | ⟨next,reply,ok,done⟩
    · rw [System.step,same] at mem
      exact ids g mem
    rw [System.step,done] at mem
    obtain ⟨_,made,_⟩ := System.answeredOk ok
    rcases createdGrant made with same | ⟨row,rows,id⟩
    · exact ids g (same ▸ mem)
    · rw [rows] at mem
      rcases List.mem_append.mp mem with old | new
      · exact ids g old
      · rw [List.mem_singleton.mp new]
        exact id

theorem stepFitKeys (fit : Fit R api db) : ∀ k ∈ (System.step node db e).signingKeys, opaqueId k.kid = true := by
  by_cases untouched : Table.signingKeys ∈ touches e.op
  · rcases settleCases db (System.exec node e db) with same | ⟨next,reply,ok,done⟩
    · rw [System.step,same]
      exact fit.keys
    rw [System.step,done]
    obtain ⟨now,op⟩ := e
    cases op <;> try (simp [touches,deletionTables] at untouched; done)
    case publishKey input =>
      obtain ⟨row,rows,id⟩ := publishedKey (System.silentOk ok)
      intro k mem
      rw [rows] at mem
      rcases List.mem_append.mp mem with old | new
      · exact fit.keys k old
      · rw [List.mem_singleton.mp new]
        exact id
    case activateSigningKey target observedAt =>
      obtain ⟨_,made,_⟩ := System.answeredOk ok
      rw [← show (activateSigningKey target observedAt db).1 = next from congrArg Prod.fst (Except.ok.inj made)]
      unfold activateSigningKey
      dsimp only
      split
      · exact fit.keys
      · exact columnAll SigningKey.kid (opaqueId · = true) (fun _ => rfl)
          (columnAll SigningKey.kid (opaqueId · = true) (fun _ => rfl) fit.keys)
    case revokeSigningKey target observedAt =>
      obtain ⟨_,made,_⟩ := System.answeredOk ok
      unfold revokeSigningKey at made
      dsimp only at made
      split at made
      · simp only [bindOk] at made
        obtain ⟨announced,events,last⟩ := made
        cases last
        rw [announceKeys events]
        exact columnAll SigningKey.kid (opaqueId · = true) (fun _ => rfl) fit.keys
      · cases made
        exact fit.keys
    case retireKey target observedAt =>
      cases ok
      exact columnAll SigningKey.kid (opaqueId · = true) (fun _ => rfl) fit.keys
  · have same : (System.step node db e).signingKeys = db.signingKeys := stepOnly .signingKeys untouched
    rw [same]
    exact fit.keys

theorem namesFit {kind : EventType} {grantId : Option GrantId} {keyId : Option KeyId} (fit : Fit R api db)
    (names : Names db kind grantId keyId) :
    (grantId.all opaqueId = true ∧ (kind = .grant → grantId.isSome = true)) ∧
    (keyId.all opaqueId = true ∧ (kind = .key → keyId.isSome = true)) ∧ kind ≠ .token := by
  cases names with
  | grant stored => simp [fit.grants _ stored]
  | family stored => simp [fit.families _ stored]
  | site => simp
  | key stored => simp [fit.keys _ stored]

theorem stepFitEvents (wf : WellFormed db) (fit : Fit R api db) (known : knownReason e.op) :
    ∀ r ∈ (System.step node db e).revocationOutbox, R r.resourceUri ∧ Signable api r := by
  intro r mem
  rcases stepTold wf known r mem with ⟨o,ho,same⟩ | ⟨event,source,made⟩
  · obtain ⟨resource,signable⟩ := fit.events o ho
    refine ⟨same.resourceUri ▸ resource,?_,?_,?_,?_,?_,?_,?_⟩
    · exact same.tenantId ▸ signable.tenant
    · exact same.siteId ▸ signable.site
    · exact same.eventSequence ▸ signable.numbered
    · rw [same.grantId,same.eventType]
      exact signable.grant
    · rw [same.keyId,same.eventType]
      exact signable.key
    · rw [same.eventType]
      exact signable.token
    · exact same.reason ▸ signable.reason
  · obtain ⟨s,stored,tenant,site,resource⟩ := source.site
    obtain ⟨allowed,uuid,opaque_⟩ := fit.sites s stored
    obtain ⟨grant,key,token⟩ := namesFit fit source.names
    refine ⟨?_,?_,?_,made.numbered,?_,?_,?_,made.reason ▸ source.reason⟩
    · rw [made.resourceUri,resource]
      exact allowed
    · rw [made.tenantId,tenant]
      exact uuid
    · rw [made.siteId,site]
      exact opaque_
    · rw [made.grantId,made.eventType]
      exact grant
    · rw [made.keyId,made.eventType]
      exact key
    · rw [made.eventType]
      exact token

theorem stepFit (wf : WellFormed db) (fit : Fit R api db) (given : gives R api e.op) :
    Fit R api (System.step node db e) where
  sites := stepFitSites wf fit given
  grants := stepGrantIds wf fit.grants
  families f mem := by
    rcases DeletionClosure.stepFamilies wf mem with ⟨o,ho,_,_,grant,_⟩ | ⟨input,op,grant⟩
    · rw [← grant]
      exact fit.families o ho
    · rw [grant]
      rw [op] at given
      exact given
  keys := stepFitKeys fit
  events := stepFitEvents wf fit (givesReason given)

theorem schemaExactly {issuer : String} {r : OutboxRow} (issued : api.isUrl issuer = true ∧ httpsText issuer = true)
    (resource : api.isUrl r.resourceUri = true ∧ httpsText r.resourceUri = true) (signable : Signable api r) :
    revocationEventSchema api (signInput issuer r) = true ↔ r.eventSequence ≤ maxSafeInteger := by
  have grant : (r.eventType != .grant || r.grantId.isSome) = true := by
    by_cases kind : r.eventType = .grant
    · simp [signable.grant.2 kind]
    · simp [kind]
  have key : (r.eventType != .key || r.keyId.isSome) = true := by
    by_cases kind : r.eventType = .key
    · simp [signable.key.2 kind]
    · simp [kind]
  have token : (r.eventType != .token) = true := by simpa using signable.token
  simp [revocationEventSchema,signInput,issued,resource,signable.tenant,signable.site,signable.numbered,
    signable.grant.1,signable.key.1,reasonsAllowed r.reason signable.reason,grant,key,token]
  exact decide_eq_true_iff

end Fitting

section Runs
variable {K : Type} {api : ProofApi K} {service : Service} {w : Pairings} {m : PlatformMove}

def requestContext : Request → TenantContext
  | .begin context _ | .verify context _ => context

def callContext : Call → TenantContext
  | .begin context _ _ | .verify context _ _ => context

/- The constructor of the repository parses the context, a family names a grant, and a reason
is one of those that the services pass. -/
def promised (api : ProofApi K) : PlatformMove → Prop
  | .pairing (.start request) => api.isUuid (requestContext request).tenantId = true
  | .pairing (.turn _ _) => True
  | .other e => gives (fun _ => True) api e.event.op

def Known (node : Node) : String → Prop := Begun node fun _ => True

structure Fitted (service : Service) (api : ProofApi K) (w : Pairings) : Prop where
  resourced : Resourced service (fun _ => True) w
  fit : Fit (Known service.node) api w.shared.db
  contexts : ∀ c ∈ w.calls, api.isUuid (callContext c).tenantId = true

theorem callGives {c : Call} {op : System.Op} (inv : Fitted service api w) (mem : c ∈ w.calls) (made : CallOp service c op) :
    gives (Known service.node) api op := by
  cases made with
  | create _ | mark | fail => trivial
  | complete => exact ⟨inv.resourced.carried _ mem _ rfl,inv.contexts _ mem⟩

theorem otherGives {R : String → Prop} {op : System.Op} (other : ofPairing op = false)
    (given : gives (fun _ => True) api op) : gives R api op := by
  cases op <;> first | exact given | cases other

theorem turnContext {s : Shared} {c : Call} {t : Turn} : callContext (turn service s c t).2 = callContext c := by
  cases c with
  | begin _ _ outcome => cases outcome <;> rfl
  | verify _ _ _ => rfl

theorem turnFit {i : Nat} {c : Call} {t : Turn} (inv : Fitted service api w) (at_ : w.calls[i]? = some c) :
    Fit (Known service.node) api (turn service w.shared c t).1.db := by
  rcases turnStep service w.shared c t with same | ⟨op,made,stepped⟩
  · rw [same]
    exact inv.fit
  · rw [stepped]
    exact stepFit inv.resourced.wellFormed inv.fit (callGives inv (List.mem_of_getElem? at_) made)

theorem stepFitted (inv : Fitted service api w) (given : promised api m) : Fitted service api (platformStep service w m) := by
  have resourced : Resourced service (fun _ => True) (platformStep service w m) := by
    refine stepResourced inv.resourced ?_
    unfold asksFor
    split <;> trivial
  cases m with
  | pairing move =>
    cases move with
    | start request =>
      refine ⟨resourced,inv.fit,fun c hc => ?_⟩
      rcases List.mem_append.mp hc with old | new
      · exact inv.contexts c old
      · rw [List.mem_singleton.mp new]
        cases request <;> exact given
    | turn i t =>
      simp only [platformStep,pairingStep,step] at resourced ⊢
      split
      · exact inv
      · rename_i c at_
        rw [at_] at resourced
        refine ⟨resourced,turnFit inv at_,fun d hd => ?_⟩
        rcases List.mem_or_eq_of_mem_set hd with old | new
        · exact inv.contexts d old
        · rw [new,turnContext]
          exact inv.contexts c (List.mem_of_getElem? at_)
  | other e => exact ⟨resourced,stepFit inv.resourced.wellFormed inv.fit (otherGives e.other given),inv.contexts⟩

theorem emptyFitted (service : Service) (api : ProofApi K) : Fitted service api (idle Db.empty) where
  resourced := emptyResourced service _
  fit := ⟨fun _ mem => absurd mem List.not_mem_nil,fun _ mem => absurd mem List.not_mem_nil,
    fun _ mem => absurd mem List.not_mem_nil,fun _ mem => absurd mem List.not_mem_nil,
    fun _ mem => absurd mem List.not_mem_nil⟩
  contexts _ mem := absurd mem List.not_mem_nil

theorem runFitted {ms : List PlatformMove} (inv : Fitted service api w) (given : ∀ m ∈ ms, promised api m) :
    Fitted service api (run (platformStep service) w ms) := by
  induction ms generalizing w with
  | nil => exact inv
  | cons m ms ih =>
    exact ih (stepFitted inv (given m List.mem_cons_self)) fun o mem => given o (List.mem_cons_of_mem _ mem)

theorem acceptedHttps {node : Node} {input resource : String} (whatwg : Whatwg node)
    (ok : canonicalizeResource node input = .ok resource) : httpsText resource = true := by
  obtain ⟨u,accepted,shape,_⟩ := canonicalizeRecord whatwg ok
  rw [shape,acceptedHref accepted]
  simp [httpsText,String.toList_append]

/- Every row of the outbox, in every state, can be signed and sent exactly when the path of
its resource is the one that the worker knows and its number is a safe integer. -/
theorem eventsDeliverable (service : Service) (api : ProofApi K) (issuer : String) (whatwg : Whatwg service.node)
    (zodUrl : ∀ text, api.isUrl text = (service.node.parseUrl text).isSome)
    (issued : api.isUrl issuer = true ∧ httpsText issuer = true) :
    (∀ input resource, canonicalizeResource service.node input = .ok resource →
      (Addressed service.node resource ↔ pathOf service.node input = some mcpPath)) ∧
    ∀ ms : List PlatformMove, (∀ m ∈ ms, promised api m) →
      ∀ r ∈ (run (platformStep service) (idle Db.empty) ms).shared.db.revocationOutbox,
        (Addressed service.node r.resourceUri ∧ revocationEventSchema api (signInput issuer r) = true ↔
          pathOf service.node r.resourceUri = some mcpPath ∧ r.eventSequence ≤ maxSafeInteger) := by
  refine ⟨fun input resource ok => addressedExactly whatwg ok,fun ms given r mem => ?_⟩
  obtain ⟨⟨input,_,ok⟩,signable⟩ := (runFitted (emptyFitted service api) given).fit.events r mem
  obtain ⟨u,_,_,_,parsed,_⟩ := canonicalizeRecord whatwg ok
  have resource : api.isUrl r.resourceUri = true ∧ httpsText r.resourceUri = true := by
    rw [zodUrl,parsed]
    exact ⟨rfl,acceptedHttps whatwg ok⟩
  rw [addressedExactly whatwg (canonicalizeFixed whatwg ok),schemaExactly issued resource signable]

end Runs

/- The path of a WordPress in a directory. -/
def blogResource : String := "https://site.example/blog/wp-json/wp-auto/mcp"
def blogParts : HttpsUrl := { sampleParts with
  path := "/blog/wp-json/wp-auto/mcp"
  pathMarks := by decide }

def sampleIssuer : String := "https://auth.example"
def issuerParts : HttpsUrl := { sampleParts with
  host := "auth.example"
  path := "/"
  lowered := by decide
  hostMarks := by decide
  pathMarks := by decide }

def deliveryNode : Node := tabled
  [(sampleVerifier,verifierDigest),(completionText "attempt_0001" System.sampleSite "thumbprint_0001",
    System.samplePairingDigest)] []
  (urlTable [(System.sampleResource,sampleParts),(blogResource,blogParts),(sampleIssuer,issuerParts),
    (href issuerParts.toUrlParts,issuerParts)])

def deliveryService : Service := { pairingService with node := deliveryNode }
def deliveryApi : ProofApi String := { sampleProofApi with isUrl := fun text => (deliveryNode.parseUrl text).isSome }

def disconnected (resource : String) : List PlatformMove := signedUp ++
  pairingOf "attempt_0001" System.sampleSite resource "pair_0000000000000001" 0 ++
  [.other ⟨⟨seconds 30,.disconnectSiteWithEvent System.sampleContext System.sampleTenant System.sampleSite⟩,rfl⟩]

def outboxAfter (resource : String) : List OutboxRow :=
  (run (platformStep deliveryService) (idle Db.empty) (disconnected resource)).shared.db.revocationOutbox

theorem disconnectedPromised (resource : String) : ∀ m ∈ disconnected resource, promised deliveryApi m := by
  have uuid : deliveryApi.isUuid System.sampleContext.tenantId = true := by decide
  simp [disconnected,signedUp,pairingOf,promised,requestContext,gives,knownReason,uuid]

theorem sampleDelivered : (outboxAfter System.sampleResource).length = 1 ∧ ∀ r ∈ outboxAfter System.sampleResource,
    Addressed deliveryNode r.resourceUri ∧ revocationEventSchema deliveryApi (signInput sampleIssuer r) = true := by
  refine ⟨by decide,fun r mem => ?_⟩
  refine ((eventsDeliverable deliveryService deliveryApi sampleIssuer (tabledWhatwg (by decide) (by decide)) (fun _ => rfl)
    (by decide)).2 (disconnected System.sampleResource) (disconnectedPromised _) r mem).mpr ?_
  have known : ∀ r ∈ outboxAfter System.sampleResource,
      pathOf deliveryNode r.resourceUri = some mcpPath ∧ r.eventSequence ≤ maxSafeInteger := by decide
  exact known r mem

theorem blogUnaddressed : canonicalizeResource deliveryNode blogResource = .ok blogResource ∧
    (outboxAfter blogResource).map (fun r => (r.siteId,r.resourceUri,r.reason)) =
      [(System.sampleSite,blogResource,"site_disconnected")] ∧
    revocationEndpoint deliveryNode blogResource = .error (.thrown "resource_path_not_supported") ∧
    ¬Addressed deliveryNode blogResource := by
  have refused : revocationEndpoint deliveryNode blogResource = .error (.thrown "resource_path_not_supported") := by rfl
  refine ⟨by rfl,by decide,refused,?_⟩
  rintro ⟨own,url,_,made,_⟩
  rw [refused] at made
  cases made

end Wepuu.RevocationDelivery
