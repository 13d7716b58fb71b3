import Wepuu.ConsentPlan
import Wepuu.GrantLifecycle
import Wepuu.SiteRows
import Mathlib.Data.List.Induction

/-! Whatever the consent page adds over many interactions, the provider Grant under the id of
a platform grant stays within that grant; and the loader returns none beside it. -/
namespace Wepuu.GrantCeiling
open Artifacts ConsentPlan Deletion DeletionCompletes Footprint Frames GrantLifecycle Grants JsValues NodeApi Relational Runs Schema SiteRows
open Statements
open Wepuu.System Words

section Plan

theorem requireOk {holds : Bool} {category : GrantDiagnosticCode} {u : Unit} :
    require holds category = .ok u ↔ holds = true :=
  holdsOk

theorem demandOk {holds : Bool} {category : GrantDiagnosticCode} {u : Unit} :
    demand holds category = .ok u ↔ holds = true :=
  holdsOk

theorem orRefuseOk {α : Type} {category : GrantDiagnosticCode} {x : Option α} {a : α} :
    orRefuse category x = .ok a ↔ x = some a :=
  presentOk (orRefuse category) rfl fun _ => rfl

theorem lookupOk {α : Type} {x : Except Fault α} {a : α} : lookup x = .ok a ↔ x = .ok a := by
  cases x with
  | error _ => exact ⟨fun bad => (by cases bad),fun bad => (by cases bad)⟩
  | ok b => exact ⟨fun ok => (by cases ok; rfl),fun ok => (by cases ok; rfl)⟩

structure PlanWithin (grantId : GrantId) (resource : String) (scopes : List String) (plan : ConsentGrantUpdatePlan) :
    Prop where
  existing : ∀ id, plan.existingGrantId = some id → id = grantId
  oidcScopes : ∀ scope ∈ plan.oidcScopes, scope ∈ ["openid","offline_access"]
  oidcClaims : ∀ claim ∈ plan.oidcClaims, claim ∈ ["sub"]
  resourceScopes : ∀ missing ∈ plan.resourceScopes, missing.1 = resource ∧ ∀ scope ∈ missing.2, scope ∈ scopes

theorem existingNamed {providerGrantId : JsValue} {grantId : GrantId} {existing : Option GrantId}
    (ok : existingGrant providerGrantId grantId = .ok existing) : ∀ id, existing = some id → id = grantId := by
  unfold existingGrant at ok
  split at ok
  · cases ok
    exact fun id bad => nomatch bad
  · split at ok
    · rename_i same
      cases ok
      intro id named
      cases named
      exact same
    · cases ok
  · cases ok

theorem missingWithin {value : JsValue} {resource : String} {scopes : List String} {out : List (String × List String)}
    (ok : missingResourceScopes value resource scopes = .ok out) :
    ∀ missing ∈ out, missing.1 = resource ∧ ∀ scope ∈ missing.2, scope ∈ scopes := by
  unfold missingResourceScopes at ok
  split at ok
  · cases ok
    exact fun missing mem => absurd mem List.not_mem_nil
  · split at ok
    · simp only [bindOk] at ok
      obtain ⟨bounded,_,ok⟩ := ok
      split at ok
      · cases ok
      · rename_i missing
        simp only [bindOk,requireOk] at ok
        obtain ⟨_,covered,last⟩ := ok
        cases last
        intro entry mem
        rw [List.mem_singleton.mp mem]
        refine ⟨rfl,fun scope listed => ?_⟩
        simpa using List.all_eq_true.mp covered scope listed
    · cases ok
  · cases ok

theorem planWithin {providerGrantId : JsValue} {grantId : GrantId} {resource : String} {scopes : List String}
    {details : List (String × JsValue)} {plan : ConsentGrantUpdatePlan}
    (ok : consentGrantUpdatePlan providerGrantId grantId resource scopes details = .ok plan) :
    PlanWithin grantId resource scopes plan := by
  simp only [consentGrantUpdatePlan,bindOk,requireOk] at ok
  obtain ⟨existing,named,_,_,oidcScopes,_,_,scopesIn,oidcClaims,_,_,claimsIn,resourceScopes,missing,last⟩ := ok
  cases last
  exact
    { existing := existingNamed named
      oidcScopes := fun scope mem => by simpa using List.all_eq_true.mp scopesIn scope mem
      oidcClaims := fun claim mem => by simpa using List.all_eq_true.mp claimsIn claim mem
      resourceScopes := missingWithin missing }

end Plan

section Resolver
variable {db : Db} {input : ExactBinding} {binding : AuthorizationGrantBinding}

def Granted (db : Db) (grantId : GrantId) (resource : String) (scopes : List McpScope) : Prop :=
  ∃ g ∈ db.grants, ∃ s ∈ db.sites, g.id = grantId ∧ s.tenantId = g.tenantId ∧ s.id = g.siteId ∧
    s.resourceUri = resource ∧ g.scopes = scopes

theorem memInScopeOrder {scopes : List String} {scope : String} :
    scope ∈ inScopeOrder (distinct scopes) ↔ scope ∈ scopes := by
  unfold inScopeOrder
  rw [List.mem_insertionSort,memDistinct]

theorem resolveExactRow (ok : resolveExact input db = .ok (some binding)) :
    Granted db binding.grantId binding.resource binding.scopes ∧ binding.subjectId = input.subjectId ∧
    binding.clientId = input.clientId ∧ binding.resource = input.resource ∧
    ∀ scope, scope ∈ scopeTexts binding.scopes ↔ scope ∈ input.scopes := by
  unfold resolveExact at ok
  simp only at ok
  split at ok
  · cases ok
  split at ok
  · cases ok
  · rename_i g s rows
    split at ok
    · cases ok
      have mem := List.mem_of_mem_take (rows ▸ List.mem_singleton.mpr rfl : (g,s) ∈ List.take 2 _)
      obtain ⟨g',hg,mem⟩ := List.mem_flatMap.mp mem
      obtain ⟨s',mem,same⟩ := List.mem_map.mp mem
      cases same
      obtain ⟨hs,exact_⟩ := List.mem_filter.mp mem
      simp only [exactRow,Bool.and_eq_true,beq_iff_eq] at exact_
      obtain ⟨⟨⟨⟨⟨⟨⟨tenant,site⟩,subject⟩,client⟩,resource⟩,scopes⟩,_⟩,_⟩ := exact_
      refine ⟨⟨g,hg,s,hs,rfl,tenant,site,rfl,rfl⟩,subject,client,resource,fun scope => ?_⟩
      rw [scopes]
      exact memInScopeOrder
    · cases ok
  · cases ok

end Resolver

section Ceiling
variable {G : Type} {api : GrantClass G}

/- The ceiling: the resource of the grant's site, the approved scopes, openid and
offline_access, the claim sub, and no rich authorization data. -/
structure Within (resource : String) (scopes : List McpScope) (c : GrantContents) : Prop where
  resources : ∀ r, c.resources r → r = resource
  resourceScope : ∀ r scope, c.resourceScope r scope → scope ∈ scopeTexts scopes
  oidcScope : ∀ scope, c.oidcScope scope → scope ∈ ["openid","offline_access"]
  oidcClaims : ∀ claim, c.oidcClaims claim → claim ∈ ["sub"]
  rar : c.rar = false

theorem plainScope {scopes : List McpScope} {scope : String} (mem : scope ∈ scopeTexts scopes) : Plain scope := by
  obtain ⟨s,_,rfl⟩ := List.mem_map.mp mem
  cases s <;> exact ⟨by decide,by decide⟩

theorem plainOidc {scope : String} (mem : scope ∈ ["openid","offline_access"]) : Plain scope := by
  rcases List.mem_cons.mp mem with rfl | mem
  · exact ⟨by decide,by decide⟩
  · rw [List.mem_singleton.mp mem]
    exact ⟨by decide,by decide⟩

variable {resource : String} {scopes : List McpScope}

theorem createdWithin (accumulates : Accumulates api) (id account client : String) :
    Within resource scopes (contents api (api.assignJti id (api.create account client))) := by
  rw [(accumulates.named id _).2,accumulates.created]
  exact ⟨fun _ bad => bad.elim,fun _ _ bad => bad.elim,fun _ bad => bad.elim,fun _ bad => bad.elim,rfl⟩

theorem addsOidcScope (accumulates : Accumulates api) {grant : G} {added : List String}
    (within : Within resource scopes (contents api grant)) (allowed : ∀ scope ∈ added, scope ∈ ["openid","offline_access"]) :
    Within resource scopes (contents api (api.addOIDCScope (join added) grant)) := by
  rw [(accumulates.oidcScope _ grant).2]
  refine { within with oidcScope := fun scope mem => ?_ }
  rcases mem with old | new
  · exact within.oidcScope scope old
  · have listed : scope ∈ words (join added) := new
    rw [wordsJoin fun word mem => plainOidc (allowed word mem)] at listed
    exact allowed scope listed

theorem addsOidcClaims (accumulates : Accumulates api) {grant : G} {added : List String}
    (within : Within resource scopes (contents api grant)) (allowed : ∀ claim ∈ added, claim ∈ ["sub"]) :
    Within resource scopes (contents api (api.addOIDCClaims added grant)) := by
  rw [(accumulates.oidcClaims _ grant).2]
  refine { within with oidcClaims := fun claim mem => ?_ }
  rcases mem with old | new
  · exact within.oidcClaims claim old
  · exact allowed claim new

theorem addsResourceScope (accumulates : Accumulates api) {grant : G} {added : List String}
    (within : Within resource scopes (contents api grant)) (allowed : ∀ scope ∈ added, scope ∈ scopeTexts scopes) :
    Within resource scopes (contents api (api.addResourceScope resource (join added) grant)) := by
  rw [(accumulates.resourceScope _ _ grant).2]
  refine { within with resources := fun r mem => ?_, resourceScope := fun r scope mem => ?_ }
  · rcases mem with rfl | old
    · rfl
    · exact within.resources r old
  · simp only [Function.update_apply] at mem
    split at mem
    · rcases mem with old | new
      · exact within.resourceScope resource scope old
      · have listed : scope ∈ words (join added) := new
        rw [wordsJoin fun word mem => plainScope (allowed word mem)] at listed
        exact allowed scope listed
    · exact within.resourceScope r scope mem

def Planned (plan : ApprovedPlan) : Prop :=
  PlanWithin plan.binding.grantId plan.binding.resource (scopeTexts plan.binding.scopes) plan.update

theorem approvedPlanned {details : InteractionDetails} {accountId : AccountId} {form : Option SubmittedForm} {db : Db}
    {plan : ApprovedPlan} (ok : approvedPlan details accountId form db = .ok (some plan)) :
    Granted db plan.binding.grantId plan.binding.resource plan.binding.scopes ∧ Planned plan := by
  unfold approvedPlan at ok
  split at ok
  · split at ok
    · cases ok
    · rename_i binding form resolved
      split at ok
      · cases ok
      split at ok
      · cases ok
      simp only [bindOk] at ok
      obtain ⟨update,planned,last⟩ := ok
      cases last
      obtain ⟨granted,_,_,resource,scopes⟩ := resolveExactRow resolved
      have inside := planWithin planned
      refine ⟨granted,inside.existing,inside.oidcScopes,inside.oidcClaims,fun missing mem => ?_⟩
      obtain ⟨named,covered⟩ := inside.resourceScopes missing mem
      exact ⟨named.trans resource.symm,fun scope listed => (scopes scope).mpr (covered scope listed)⟩
    · cases ok
  · cases ok

/- A Grant under the id of a binding that stays within it. -/
def Holds (api : GrantClass G) (binding : AuthorizationGrantBinding) (grant : G) : Prop :=
  api.jti grant = some binding.grantId ∧ Within binding.resource binding.scopes (contents api grant)

theorem addOidcHolds (accumulates : Accumulates api) {plan : ApprovedPlan} {grant : G} (planned : Planned plan)
    (holds : Holds api plan.binding grant) : Holds api plan.binding (addOidc api plan.update grant) := by
  have withScopes : Holds api plan.binding (if plan.update.oidcScopes.isEmpty then grant
      else api.addOIDCScope (join plan.update.oidcScopes) grant) := by
    split
    · exact holds
    · exact ⟨(accumulates.oidcScope _ _).1.trans holds.1,addsOidcScope accumulates holds.2 planned.oidcScopes⟩
  unfold addOidc
  simp only
  generalize (if plan.update.oidcScopes.isEmpty then grant
    else api.addOIDCScope (join plan.update.oidcScopes) grant) = before at withScopes ⊢
  split
  · exact withScopes
  · exact ⟨(accumulates.oidcClaims _ _).1.trans withScopes.1,
      addsOidcClaims accumulates withScopes.2 planned.oidcClaims⟩

theorem addResourcesHolds (accumulates : Accumulates api) {binding : AuthorizationGrantBinding}
    {missing : List (String × List String)} {grant : G}
    (covered : ∀ entry ∈ missing, entry.1 = binding.resource ∧ ∀ scope ∈ entry.2, scope ∈ scopeTexts binding.scopes)
    (holds : Holds api binding grant) : Holds api binding (addResources api missing grant) := by
  unfold addResources
  induction missing generalizing grant with
  | nil => exact holds
  | cons entry rest ih =>
    refine ih (fun other mem => covered other (List.mem_cons_of_mem _ mem)) ?_
    obtain ⟨named,scopes⟩ := covered entry List.mem_cons_self
    show Holds api binding (api.addResourceScope entry.1 (join entry.2) grant)
    rw [named]
    exact ⟨(accumulates.resourceScope _ _ _).1.trans holds.1,addsResourceScope accumulates holds.2 scopes⟩

theorem updatedHolds (accumulates : Accumulates api) {plan : ApprovedPlan} {found : Option G} {grant : G}
    (planned : Planned plan) (stored : ∀ g, found = some g → Holds api plan.binding g)
    (ok : updatedGrant api plan found = .ok grant) : Holds api plan.binding grant := by
  cases started : startedGrant api plan found with
  | error fault =>
    rw [updatedGrant,started] at ok
    cases ok
  | ok start =>
    rw [updatedGrant,started] at ok
    cases ok
    refine addResourcesHolds accumulates planned.resourceScopes (addOidcHolds accumulates planned ?_)
    unfold startedGrant at started
    split at started
    · cases started
      exact ⟨(accumulates.named _ _).1,createdWithin accumulates _ _ _⟩
    · cases started
      exact stored _ rfl
    · cases started

end Ceiling

section Stored
variable {node : Node} {db next : Db} {e : Event} {now : Time}

/- Only grant.save() writes a Grant: the operations of the platform that the provider never
makes for this model. -/
def savesGrant : Op → Bool
  | .upsert adapter _ _ _ _ | .consume adapter _ _ => adapter.model == "Grant"
  | _ => false

theorem upsertGrants {adapter : OidcAdapter} {id : String} {payload : ProviderPayload} {expiresIn : Option Int}
    {dateNow : Time} (ok : upsert node adapter id payload expiresIn dateNow db = .ok next) {a : ProviderArtifact}
    (mem : a ∈ next.providerArtifacts) (model : a.model = "Grant") :
    a ∈ db.providerArtifacts ∨ (adapter.model = "Grant" ∧ a.artifactId = id ∧ a.payload = payload) := by
  unfold upsert at ok
  split at ok
  · simp only [bindOk] at ok
    obtain ⟨_,_,_,_,_,_,last⟩ := ok
    cases last
    exact .inl mem
  · obtain ⟨_,_,last⟩ := bindOk.mp ok
    cases last
    dsimp only at mem
    rcases memUpsertRow mem with old | rfl | ⟨_,_,_,rfl⟩
    · exact .inl old
    · exact .inr ⟨model,rfl,rfl⟩
    · exact .inr ⟨model,rfl,rfl⟩

theorem consumeGrants {adapter : OidcAdapter} {id : String} {dateNow : Time} {outcome : ConsumeOutcome}
    (ok : consume node adapter id dateNow now db = .ok (next,outcome)) (other : adapter.model ≠ "Grant")
    {a : ProviderArtifact} (mem : a ∈ next.providerArtifacts) (model : a.model = "Grant") : a ∈ db.providerArtifacts := by
  simp only [consume] at ok
  split at ok
  · simp only [bindOk] at ok
    obtain ⟨⟨tried,out⟩,ht,ok⟩ := ok
    have first : tried.providerArtifacts = db.providerArtifacts := consumeLookupsOnly ht .providerArtifacts (by decide)
    split at ok
    · cases ok
      exact first ▸ mem
    · split at ok
      · have second : next.providerArtifacts = tried.providerArtifacts :=
          replayLookupsOnly ok .providerArtifacts (by decide)
        exact first ▸ second ▸ mem
      · cases ok
        exact first ▸ mem
  · cases ok
    obtain ⟨o,ho,rfl⟩ := memUpdateWhere.mp mem
    by_cases chosen : (providerAt adapter.model id o && (member o.payload "consumed").isNone) = true
    · rw [if_pos chosen] at model
      simp only [providerAt,Bool.and_eq_true,beq_iff_eq] at chosen
      exact absurd (chosen.1.1.symm.trans model) other
    · rw [if_neg chosen]
      exact ho

theorem effectProviders {jobId : JobId} {observedAt : Time} (effect : Effect jobId observedAt now db next) :
    ∀ a ∈ next.providerArtifacts, a ∈ db.providerArtifacts := by
  cases effect with
  | idle _ => exact fun a mem => mem
  | revoked _ _ ok =>
    unfold revokeScope at ok
    split at ok
    · have same := revokeAccountOnly ok .providerArtifacts (by decide)
      exact fun a mem => same ▸ mem
    · have same := revokeTenantScopeOnly ok .providerArtifacts (by decide)
      exact fun a mem => same ▸ mem
  | purged _ _ ok =>
    unfold purgeScope at ok
    split at ok
    · simp only [purgeAccount,bindOk,ensureOk] at ok
      obtain ⟨_,_,last⟩ := ok
      cases last
      exact fun a mem => (memDeleteWhere.mp mem).1
    · cases ok
      exact fun a mem => (memDeleteWhere.mp mem).1

theorem stepGrantArtifacts (wf : WellFormed db) (other : savesGrant e.op = false) {a : ProviderArtifact}
    (mem : a ∈ (step node db e).providerArtifacts) (model : a.model = "Grant") : a ∈ db.providerArtifacts := by
  by_cases untouched : Table.providerArtifacts ∈ touches e.op
  · rcases settleCases db (exec node e db) with same | ⟨next,reply,ok,done⟩
    · rw [step,same] at mem
      exact mem
    obtain ⟨now,op⟩ := e
    cases op <;> try (simp [touches] at untouched; done)
    case upsert adapter id payload expiresIn dateNow =>
      rw [step,done] at mem
      rcases upsertGrants (silentOk ok) mem model with old | ⟨saves,_⟩
      · exact old
      · simp [savesGrant,saves] at other
    case destroy adapter id =>
      cases ok
      rw [step,done] at mem
      unfold destroy at mem
      split at mem
      · exact mem
      · exact (memDeleteWhere.mp mem).1
    case consume adapter id dateNow =>
      rw [step,done] at mem
      obtain ⟨_,made,_⟩ := answeredOk ok
      exact consumeGrants made (by simpa [savesGrant] using other) mem model
    case revokeByGrantId adapter reason grantId =>
      rw [step,done] at mem
      have made := silentOk ok
      simp only [revokeByGrantId,bindOk] at made
      obtain ⟨⟨revoked,out⟩,hr,last⟩ := made
      cases last
      have same : revoked.providerArtifacts = db.providerArtifacts := by
        unfold revokePlatformGrant at hr
        split at hr
        · exact revokeRefreshGrantOnly hr .providerArtifacts (by decide)
        · cases hr
          rfl
      exact same ▸ (memDeleteWhere.mp mem).1
    case advanceDeletionJob jobId observedAt =>
      exact effectProviders (advanceEffect jobId observedAt now wf) a mem
  · have same : (step node db e).providerArtifacts = db.providerArtifacts := stepOnly .providerArtifacts untouched
    exact same ▸ mem

end Stored

section Service
variable {G : Type}

/- The authorization service: the plans that consent pages approved, and the Grants that are
updated but not yet saved. Each of the three database calls of a page is a step. -/
structure Service (G : Type) where
  db : Db
  approved : List ApprovedPlan
  updated : List (ApprovedPlan × G)

inductive ConsentEvent where
  | platform (e : Event) (other : savesGrant e.op = false)
  | approve (details : InteractionDetails) (accountId : AccountId) (form : Option SubmittedForm)
  | update (plan : Nat) (now : Time)
  | save (grant : Nat) (generated : String) (dateNow : Time)

variable (api : GrantClass G) (node : Node) (codec : SecretArtifactCodec)

def consentStep (s : Service G) : ConsentEvent → Service G
  | .platform e _ => { s with db := step node s.db e }
  | .approve details accountId form => match approvedPlan details accountId form s.db with
    | .ok (some plan) => { s with approved := s.approved ++ [plan] }
    | _ => s
  | .update index now => match s.approved[index]? with
    | none => s
    | some plan =>
      match updatedGrant api plan (plan.update.existingGrantId.bind fun id => findGrant api node codec id now s.db) with
      | .ok grant => { s with updated := s.updated ++ [(plan,grant)] }
      | .error _ => s
  | .save index generated dateNow => match s.updated[index]? with
    | none => s
    | some (_,grant) => match saveGrant api node codec grant generated dateNow s.db with
      | .ok (next,_) => { s with db := next }
      | .error _ => s

def Service.empty : Service G := ⟨Db.empty,[],[]⟩

def platformEvent : ConsentEvent → Option Event
  | .platform e _ => some e
  | _ => none

def platformEvents (es : List ConsentEvent) : List Event := es.filterMap platformEvent

variable {api : GrantClass G} {node : Node} {codec : SecretArtifactCodec} {s : Service G} {e : ConsentEvent}

theorem saveUpserts {grant : G} {generated id : String} {dateNow : Time} {db next : Db}
    (ok : saveGrant api node codec grant generated dateNow db = .ok (next,id)) :
    id = (api.jti grant).getD generated ∧
    upsert node (grantAdapter codec) id (api.payload grant) (api.expiresIn grant) dateNow db = .ok next := by
  simp only [saveGrant,bindOk] at ok
  obtain ⟨_,upserted,last⟩ := ok
  cases last
  exact ⟨rfl,upserted⟩

theorem consentDb : (consentStep api node codec s e).db = s.db ∨
    ∃ event, (consentStep api node codec s e).db = step node s.db event ∧
      (platformEvent e = some event ∨ proposedGrant event = none) := by
  cases e with
  | platform event other => exact .inr ⟨event,rfl,.inl rfl⟩
  | approve details accountId form =>
    refine .inl ?_
    simp only [consentStep]
    split <;> rfl
  | update index now =>
    refine .inl ?_
    simp only [consentStep]
    split
    · rfl
    · split <;> rfl
  | save index generated dateNow =>
    simp only [consentStep]
    split
    · exact .inl rfl
    · rename_i plan grant _
      split
      · rename_i next id saved
        obtain ⟨_,upserted⟩ := saveUpserts saved
        refine .inr ⟨⟨dateNow,.upsert (grantAdapter codec) id (api.payload grant) (api.expiresIn grant) dateNow⟩,?_,
          .inr rfl⟩
        simp only [step,exec,upserted]
        rfl
      · exact .inl rfl

theorem consentWellFormed (wf : WellFormed s.db) : WellFormed (consentStep api node codec s e).db := by
  rcases @consentDb G api node codec s e with same | ⟨event,same,_⟩
  · rw [same]
    exact wf
  · rw [same]
    exact stepWellFormed wf

theorem consentGranted (wf : WellFormed s.db) {grantId : GrantId} {resource : String} {scopes : List McpScope}
    (fresh : (platformEvent e).bind proposedGrant ≠ some grantId)
    (granted : Granted (consentStep api node codec s e).db grantId resource scopes) :
    Granted s.db grantId resource scopes := by
  rcases @consentDb G api node codec s e with same | ⟨event,same,own⟩
  · rw [same] at granted
    exact granted
  · rw [same] at granted
    obtain ⟨r,hr,site,hs,named,tenant,id,ofResource,ofScopes⟩ := granted
    rcases stepGrants wf hr with ⟨g,hg,moved⟩ | proposed
    · have kept := advancesKeeps moved
      obtain ⟨o,ho,oTenant,oId⟩ := hasSiteIff.mp (wf.grantSite g hg)
      rcases stepSites wf hs with ⟨before,hb,bTenant,bId,bResource,_⟩ | ⟨_,free⟩
      · refine ⟨g,hg,before,hb,kept.id.symm.trans named,?_,?_,bResource.trans ofResource,?_⟩
        · rw [bTenant,tenant,kept.tenantId]
        · rw [bId,id,kept.siteId]
        · rw [← ofScopes,kept.scopes]
      · refine absurd ?_ (free o ho ?_)
        · rw [oId,id,kept.siteId]
        · rw [oTenant,tenant,kept.tenantId]
    · rw [named] at proposed
      rcases own with platform | none
      · rw [platform] at fresh
        exact absurd proposed fresh
      · rw [none] at proposed
        cases proposed

theorem runGranted {es : List ConsentEvent} (wf : WellFormed s.db) {grantId : GrantId} {resource : String}
    {scopes : List McpScope} (fresh : grantId ∉ proposals (platformEvents es))
    (granted : Granted (run (consentStep api node codec) s es).db grantId resource scopes) :
    Granted s.db grantId resource scopes := by
  induction es generalizing s with
  | nil => exact granted
  | cons e es ih =>
    have now : (platformEvent e).bind proposedGrant ≠ some grantId := by
      intro proposed
      obtain ⟨event,platform,proposes⟩ := Option.bind_eq_some_iff.mp proposed
      exact fresh (List.mem_filterMap.mpr ⟨event,List.mem_filterMap.mpr ⟨e,List.mem_cons_self,platform⟩,proposes⟩)
    have later : grantId ∉ proposals (platformEvents es) := by
      intro mem
      obtain ⟨event,listed,proposes⟩ := List.mem_filterMap.mp mem
      obtain ⟨o,ho,platform⟩ := List.mem_filterMap.mp listed
      exact fresh (List.mem_filterMap.mpr
        ⟨event,List.mem_filterMap.mpr ⟨o,List.mem_cons_of_mem _ ho,platform⟩,proposes⟩)
    exact consentGranted wf now (ih (consentWellFormed wf) later granted)

theorem grantedOnce {db : Db} (wf : WellFormed db) {grantId : GrantId} {resource other : String}
    {scopes otherScopes : List McpScope} (left : Granted db grantId resource scopes)
    (right : Granted db grantId other otherScopes) : resource = other ∧ scopes = otherScopes := by
  obtain ⟨g,hg,s,hs,named,tenant,id,rfl,rfl⟩ := left
  obtain ⟨r,hr,t,ht,rNamed,rTenant,rId,rfl,rfl⟩ := right
  have sameRow : g = r := sameGrant wf hg hr (named.trans rNamed.symm)
  subst sameRow
  have sameSite : s = t := indexedEq wf.siteIndex siteClashSymm hs ht (by simp [siteClash,tenant,id,rTenant,rId])
  subst sameSite
  exact ⟨rfl,rfl⟩

end Service

section Run
variable {G : Type} {api : GrantClass G} {node : Node} {codec : SecretArtifactCodec}

def Owner (api : GrantClass G) (node : Node) (codec : SecretArtifactCodec) (es : List ConsentEvent)
    (grantId : GrantId) (resource : String) (scopes : List McpScope) : Prop :=
  ∃ n, Granted (run (consentStep api node codec) Service.empty (es.take n)).db grantId resource scopes

theorem reachableConsent (es : List ConsentEvent) :
    WellFormed (run (consentStep api node codec) Service.empty es).db :=
  @invariantAlways _ _ _ (fun s : Service G => WellFormed s.db) _ (fun _ _ => consentWellFormed) wellFormedEmpty es

theorem platformAppend (es fs : List ConsentEvent) : platformEvents (es ++ fs) = platformEvents es ++ platformEvents fs :=
  List.filterMap_append

theorem grantedProposed {es : List ConsentEvent} {grantId : GrantId} {resource : String} {scopes : List McpScope}
    (granted : Granted (run (consentStep api node codec) Service.empty es).db grantId resource scopes) :
    grantId ∈ proposals (platformEvents es) := by
  by_contra unknown
  obtain ⟨g,hg,_⟩ := runGranted wellFormedEmpty unknown granted
  exact absurd hg List.not_mem_nil

theorem ownerOnce {es : List ConsentEvent} (fresh : (proposals (platformEvents es)).Nodup) {grantId : GrantId}
    {resource other : String} {scopes otherScopes : List McpScope}
    (left : Owner api node codec es grantId resource scopes)
    (right : Owner api node codec es grantId other otherScopes) : resource = other ∧ scopes = otherScopes := by
  -- the later of the two states is followed back to the earlier one
  have ordered : ∀ n k r r' sc sc', n ≤ k →
      Granted (run (consentStep api node codec) Service.empty (es.take n)).db grantId r sc →
      Granted (run (consentStep api node codec) Service.empty (es.take k)).db grantId r' sc' → r = r' ∧ sc = sc' := by
    intro n k r r' sc sc' before early late
    have parts : es.take k = es.take n ++ (es.take k).drop n := by
      conv_lhs => rw [← List.take_append_drop n (es.take k),List.take_take,Nat.min_eq_left before]
    have known := grantedProposed early
    have unproposed : grantId ∉ proposals (platformEvents ((es.take k).drop n)) := by
      intro again
      have whole : es = es.take n ++ ((es.take k).drop n ++ es.drop k) := by
        rw [← List.append_assoc,← parts,List.take_append_drop]
      rw [whole,platformAppend,platformAppend,proposals,List.filterMap_append,List.filterMap_append] at fresh
      exact (List.nodup_append.mp fresh).2.2 _ known _ (List.mem_append_left _ again) rfl
    rw [parts,runAppend] at late
    exact grantedOnce (reachableConsent _) early (runGranted (reachableConsent _) unproposed late)
  obtain ⟨n,early⟩ := left
  obtain ⟨k,late⟩ := right
  rcases Nat.le_total n k with before | before
  · exact ordered n k _ _ _ _ before early late
  · obtain ⟨sameResource,sameScopes⟩ := ordered k n _ _ _ _ before late early
    exact ⟨sameResource.symm,sameScopes.symm⟩

def Covered (api : GrantClass G) (owner : GrantId → String → List McpScope → Prop) (a : ProviderArtifact) : Prop :=
  ∃ grant resource scopes, api.restore a.payload = some grant ∧ api.jti grant = some a.artifactId ∧
    owner a.artifactId resource scopes ∧ Within resource scopes (contents api grant)

structure Ceiled (api : GrantClass G) (owner : GrantId → String → List McpScope → Prop) (s : Service G) : Prop where
  wellFormed : WellFormed s.db
  stored : ∀ a ∈ s.db.providerArtifacts, a.model = "Grant" → Covered api owner a
  approved : ∀ plan ∈ s.approved,
    owner plan.binding.grantId plan.binding.resource plan.binding.scopes ∧ Planned plan
  updated : ∀ entry ∈ s.updated,
    owner entry.1.binding.grantId entry.1.binding.resource entry.1.binding.scopes ∧ Holds api entry.1.binding entry.2

theorem findGrantStored {id : String} {now : Time} {db : Db} {grant : G}
    (found : findGrant api node codec id now db = some grant) :
    ∃ a ∈ db.providerArtifacts, a.model = "Grant" ∧ a.artifactId = id ∧ api.restore a.payload = some grant := by
  obtain ⟨payload,read,restored⟩ := Option.bind_eq_some_iff.mp found
  have plain : secretModel (grantAdapter codec) = false := rfl
  rw [find,if_neg (by rw [plain]; decide)] at read
  obtain ⟨a,ha,rfl⟩ := Option.map_eq_some_iff.mp read
  have hit := List.find?_some ha
  simp only [providerAt,Bool.and_eq_true,beq_iff_eq] at hit
  exact ⟨a,List.mem_of_find?_eq_some ha,hit.1.1,hit.1.2,restored⟩

variable {owner : GrantId → String → List McpScope → Prop} {s : Service G} {e : ConsentEvent}

theorem stepCeiled (accumulates : Accumulates api)
    (once : ∀ {id r r' sc sc'}, owner id r sc → owner id r' sc' → r = r' ∧ sc = sc')
    (ceiled : Ceiled api owner s) (knows : ∀ id r sc, Granted s.db id r sc → owner id r sc) :
    Ceiled api owner (consentStep api node codec s e) := by
  have wf : WellFormed (consentStep api node codec s e).db := consentWellFormed ceiled.wellFormed
  cases e with
  | platform event other =>
    exact ⟨wf,fun a mem model => ceiled.stored a (stepGrantArtifacts ceiled.wellFormed other mem model) model,
      ceiled.approved,ceiled.updated⟩
  | approve details accountId form =>
    simp only [consentStep] at wf ⊢
    split
    · rename_i plan approved
      refine ⟨ceiled.wellFormed,ceiled.stored,fun entry mem => ?_,ceiled.updated⟩
      rcases List.mem_append.mp mem with old | new
      · exact ceiled.approved entry old
      · rw [List.mem_singleton.mp new]
        obtain ⟨granted,planned⟩ := approvedPlanned approved
        exact ⟨knows _ _ _ granted,planned⟩
    · exact ceiled
  | update index now =>
    simp only [consentStep] at wf ⊢
    split
    · exact ceiled
    · rename_i plan listed
      obtain ⟨own,planned⟩ := ceiled.approved plan (List.mem_of_getElem? listed)
      split
      · rename_i grant made
        refine ⟨ceiled.wellFormed,ceiled.stored,ceiled.approved,fun entry mem => ?_⟩
        rcases List.mem_append.mp mem with old | new
        · exact ceiled.updated entry old
        rw [List.mem_singleton.mp new]
        refine ⟨own,updatedHolds accumulates planned (fun g found => ?_) made⟩
        obtain ⟨id,named,found⟩ := Option.bind_eq_some_iff.mp found
        obtain ⟨a,ha,model,artifact,restored⟩ := findGrantStored found
        obtain ⟨read,resource,scopes,readRestored,jti,owns,within⟩ := ceiled.stored a ha model
        rw [restored] at readRestored
        cases readRestored
        rw [artifact,planned.existing id named] at jti owns
        obtain ⟨rfl,rfl⟩ := once owns own
        exact ⟨jti,within⟩
      · exact ceiled
  | save index generated dateNow =>
    simp only [consentStep] at wf ⊢
    split
    · exact ceiled
    · rename_i plan grant listed
      obtain ⟨own,named,within⟩ := ceiled.updated (plan,grant) (List.mem_of_getElem? listed)
      split
      · rename_i next id saved
        simp only [listed,saved] at wf
        refine ⟨wf,fun a mem model => ?_,ceiled.approved,ceiled.updated⟩
        obtain ⟨idIs,upserted⟩ := saveUpserts saved
        rcases upsertGrants upserted mem model with old | ⟨_,artifact,payload⟩
        · exact ceiled.stored a old model
        · rw [named] at idIs
          simp only [Option.getD_some] at idIs
          obtain ⟨read,restored,jti,same⟩ := accumulates.restored grant
          refine ⟨read,plan.binding.resource,plan.binding.scopes,payload ▸ restored,?_,?_,?_⟩
          · rw [jti,named,artifact,idIs]
          · rw [artifact,idIs]
            exact own
          · rw [same]
            exact within
      · exact ceiled

theorem runCeiled (accumulates : Accumulates api) {es : List ConsentEvent}
    (fresh : (proposals (platformEvents es)).Nodup) (before : List ConsentEvent) :
    ∀ after, es = before ++ after →
      Ceiled api (Owner api node codec es) (run (consentStep api node codec) Service.empty before) := by
  induction before using List.reverseRecOn with
  | nil =>
    intro _ _
    exact ⟨wellFormedEmpty,fun a mem => absurd mem List.not_mem_nil,fun plan mem => absurd mem List.not_mem_nil,
      fun entry mem => absurd mem List.not_mem_nil⟩
  | append_singleton before e ih =>
    intro after whole
    rw [List.append_assoc] at whole
    rw [runAppend]
    refine stepCeiled accumulates (ownerOnce fresh) (ih _ whole) fun id r sc granted => ⟨before.length,?_⟩
    rw [whole,List.take_left]
    exact granted

theorem ownerOf {es before after : List ConsentEvent} (whole : es = before ++ after) {grantId : GrantId}
    {resource : String} {scopes : List McpScope}
    (granted : Granted (run (consentStep api node codec) Service.empty before).db grantId resource scopes) :
    Owner api node codec es grantId resource scopes := by
  refine ⟨before.length,?_⟩
  rw [whole,List.take_left]
  exact granted

end Run

section Loader
variable {G : Type} {api : GrantClass G} {node : Node}

structure Exactly (api : GrantClass G) (binding : AuthorizationGrantBinding) (grant : G) : Prop where
  jti : api.jti grant = some binding.grantId
  accountId : api.accountId grant = some binding.subjectId
  clientId : api.clientId grant = some binding.clientId
  resources : api.resources grant = [binding.resource]
  scopes : ∀ scope, scope ∈ words (api.getResourceScope grant binding.resource) ↔ scope ∈ scopeTexts binding.scopes

theorem requestedPlain {params : List (String × JsValue)} {scopes : List String}
    (requested : requestedScopes params = some scopes) : ∀ scope ∈ scopes, Plain scope := by
  unfold requestedScopes at requested
  split at requested
  · split at requested
    · simp only at requested
      split at requested
      · cases requested
      · cases requested
        exact fun scope mem => wordsPlain (List.mem_filter.mp mem).1
    · cases requested
  · cases requested

theorem loadedExactly {resolver : ExactBinding → Except Fault (Option AuthorizationGrantBinding)}
    {isActive : AccountId → Except Fault Bool} {grantFind : GrantId → Except Fault (Option G)} {context : GrantContext}
    {grant : G} (ok : createResourceGrantLoader api node resolver isActive grantFind context = .ok (some grant)) :
    ∃ accountId clientId resource scopes binding, context.accountId = some accountId ∧
      context.clientId = some clientId ∧ requestedResource context.params = some resource ∧
      requestedScopes context.params = some scopes ∧
      resolver ⟨accountId,clientId,resource,distinct scopes⟩ = .ok (some binding) ∧
      binding.subjectId = accountId ∧ binding.clientId = clientId ∧ binding.resource = resource ∧
      (∀ scope, scope ∈ scopeTexts binding.scopes ↔ scope ∈ scopes) ∧
      grantFind binding.grantId = .ok (some grant) ∧ Exactly api binding grant := by
  simp only [createResourceGrantLoader,bindOk,orRefuseOk,demandOk,lookupOk,beq_iff_eq] at ok
  obtain ⟨clientId,client,accountId,account,resource,asked,_,_,scopes,requested,_,_,_,_,found,resolved,_,_,ok⟩ := ok
  split at ok
  · cases ok
  · rename_i binding _
    simp only [bindOk,demandOk,lookupOk,beq_iff_eq] at ok
    obtain ⟨_,subject,_,ofClient,_,ofResource,_,sameScopes,stored,read,ok⟩ := ok
    split at ok
    · split at ok <;> cases ok
    · rename_i stored
      simp only [bindOk,demandOk,beq_iff_eq,Bool.and_eq_true] at ok
      obtain ⟨_,jti,_,ofAccount,_,storedClient,_,resources,_,⟨⟨⟨granted,_⟩,_⟩,_⟩,last⟩ := ok
      cases last
      refine ⟨accountId,clientId,resource,scopes,binding,account,client,asked,requested,resolved,subject,ofClient,
        ofResource,?_,read,jti,?_,?_,?_,?_⟩
      · exact canonicalSame (fun scope mem => plainScope mem) (requestedPlain requested) sameScopes
      · rw [ofAccount,subject]
      · rw [storedClient,ofClient]
      · rw [resources,ofResource]
      · rw [ofResource]
        exact canonicalSame (fun scope mem => wordsPlain mem) (fun scope mem => plainScope mem) granted

end Loader

section Claim
variable {G : Type}

/- The provider Grants stored in one state, against the platform grants of another. -/
def Capped (api : GrantClass G) (s t : Service G) : Prop :=
  ∀ a ∈ s.db.providerArtifacts, a.model = "Grant" → ∃ grant, api.restore a.payload = some grant ∧
    api.jti grant = some a.artifactId ∧
    ∀ resource scopes, Granted t.db a.artifactId resource scopes → Within resource scopes (contents api grant)

theorem cappedBy {api : GrantClass G} {node : Node} {codec : SecretArtifactCodec} {es : List ConsentEvent}
    {s t : Service G} (fresh : (proposals (platformEvents es)).Nodup) (ceiled : Ceiled api (Owner api node codec es) s)
    (knows : ∀ grantId resource scopes, Granted t.db grantId resource scopes →
      Owner api node codec es grantId resource scopes) : Capped api s t := by
  intro a mem model
  obtain ⟨grant,resource,scopes,restored,jti,own,within⟩ := ceiled.stored a mem model
  refine ⟨grant,restored,jti,fun other otherScopes granted => ?_⟩
  obtain ⟨rfl,rfl⟩ := ownerOnce fresh own (knows _ _ _ granted)
  exact within

theorem grantCeiling (api : GrantClass G) (accumulates : Accumulates api) (node : Node) (codec : SecretArtifactCodec)
    (before after : List ConsentEvent) (fresh : (proposals (platformEvents (before ++ after))).Nodup) :
    let s := run (consentStep api node codec) Service.empty before
    let t := run (consentStep api node codec) s after
    (Capped api s t ∧ Capped api t s) ∧
    ∀ db isActive grantFind context,
      let loader := createResourceGrantLoader api node (fun input => resolveExact input db) isActive grantFind
      (∀ grant, loader context = .ok (some grant) → ∃ accountId clientId resource scopes binding,
        context.accountId = some accountId ∧ context.clientId = some clientId ∧
        requestedResource context.params = some resource ∧ requestedScopes context.params = some scopes ∧
        resolveExact ⟨accountId,clientId,resource,distinct scopes⟩ db = .ok (some binding) ∧
        grantFind binding.grantId = .ok (some grant) ∧ Exactly api binding grant) ∧
      ∀ pointer, loader { context with sessionGrantId := pointer } = loader context := by
  intro s t
  have reached : t = run (consentStep api node codec) Service.empty (before ++ after) := (runAppend _ _ _ _).symm
  have whole : before ++ after = (before ++ after) ++ [] := (List.append_nil _).symm
  refine ⟨⟨?_,?_⟩,fun db isActive grantFind context => ⟨fun grant ok => ?_,fun _ => rfl⟩⟩
  · refine cappedBy fresh (runCeiled accumulates fresh before after rfl) fun id r sc granted => ?_
    rw [reached] at granted
    exact ownerOf whole granted
  · rw [reached]
    exact cappedBy fresh (runCeiled accumulates fresh _ [] whole) fun id r sc granted => ownerOf rfl granted
  · obtain ⟨accountId,clientId,resource,scopes,binding,account,client,asked,requested,resolved,_,_,_,_,read,exact_⟩ :=
      loadedExactly ok
    exact ⟨accountId,clientId,resource,scopes,binding,account,client,asked,requested,resolved,read,exact_⟩

end Claim

section Sample

structure LoggedGrant where
  members : ProviderPayload
  deriving DecidableEq, Repr

def loggedTexts (key : String) (grant : LoggedGrant) : List String := grant.members.filterMap fun entry =>
  match entry.2 with
  | .str text => if entry.1 = key then some text else none
  | _ => none

def loggedScopes (grant : LoggedGrant) : List (String × String) := grant.members.filterMap fun entry =>
  match entry.2 with
  | .composite text => some (entry.1,text)
  | _ => none

def scopesOf (resource : String) (grant : LoggedGrant) : List String :=
  ((loggedScopes grant).filter fun entry => entry.1 == resource).map (·.2)

def claimMembers (claims : List String) : ProviderPayload := claims.map fun claim => ("openid.claims",.str claim)

def loggedGrants : GrantClass LoggedGrant where
  create account client := ⟨[("accountId",.str account),("clientId",.str client)]⟩
  assignJti id grant := ⟨("jti",.str id) :: grant.members⟩
  addOIDCScope scope grant := ⟨grant.members ++ [("openid.scope",.str scope)]⟩
  addOIDCClaims claims grant := ⟨grant.members ++ claimMembers claims⟩
  addResourceScope resource scope grant := ⟨grant.members ++ [(resource,.composite scope)]⟩
  jti grant := (loggedTexts "jti" grant).head?
  accountId grant := (loggedTexts "accountId" grant).head?
  clientId grant := (loggedTexts "clientId" grant).head?
  resources grant := distinct ((loggedScopes grant).map (·.1))
  getResourceScope grant resource := join (scopesOf resource grant)
  getOIDCScope grant := join (loggedTexts "openid.scope" grant)
  getOIDCClaims grant := loggedTexts "openid.claims" grant
  hasRar _ := false
  payload := LoggedGrant.members
  restore payload := some ⟨payload⟩
  expiresIn _ := none

theorem loggedTextsAppend {key : String} {grant : LoggedGrant} {more : ProviderPayload} :
    loggedTexts key ⟨grant.members ++ more⟩ = loggedTexts key grant ++ loggedTexts key ⟨more⟩ := List.filterMap_append

theorem loggedScopesAppend {grant : LoggedGrant} {more : ProviderPayload} :
    loggedScopes ⟨grant.members ++ more⟩ = loggedScopes grant ++ loggedScopes ⟨more⟩ := List.filterMap_append

theorem loggedClaims {claims : List String} : loggedTexts "openid.claims" ⟨claimMembers claims⟩ = claims ∧
    loggedTexts "openid.scope" ⟨claimMembers claims⟩ = [] ∧ loggedTexts "jti" ⟨claimMembers claims⟩ = [] ∧
    loggedScopes ⟨claimMembers claims⟩ = [] := by
  induction claims with
  | nil => exact ⟨rfl,rfl,rfl,rfl⟩
  | cons claim rest ih =>
    obtain ⟨own,scope,jti,scopes⟩ := ih
    refine ⟨?_,scope,jti,scopes⟩
    exact congrArg (claim :: ·) own

theorem sameContents {a b : GrantContents} (resources : ∀ r, a.resources r ↔ b.resources r)
    (resourceScope : ∀ r scope, a.resourceScope r scope ↔ b.resourceScope r scope)
    (oidcScope : ∀ scope, a.oidcScope scope ↔ b.oidcScope scope)
    (oidcClaims : ∀ claim, a.oidcClaims claim ↔ b.oidcClaims claim) (rar : a.rar = b.rar) : a = b := by
  obtain ⟨ar,as,ao,ac,_⟩ := a
  obtain ⟨br,bs,bo,bc,_⟩ := b
  have sameResources : ar = br := funext fun r => propext (resources r)
  have sameScopes : as = bs := funext fun r => funext fun scope => propext (resourceScope r scope)
  have sameOidc : ao = bo := funext fun scope => propext (oidcScope scope)
  have sameClaims : ac = bc := funext fun claim => propext (oidcClaims claim)
  have sameRar : _ = _ := rar
  subst sameResources sameScopes sameOidc sameClaims
  exact congrArg _ sameRar

variable {grant : LoggedGrant}

theorem loggedResource {r : String} :
    (contents loggedGrants grant).resources r ↔ r ∈ (loggedScopes grant).map (·.1) := memDistinct

theorem loggedResourceScope {r scope : String} :
    (contents loggedGrants grant).resourceScope r scope ↔ ∃ text, (r,text) ∈ loggedScopes grant ∧ scope ∈ words text := by
  refine memWordsJoin.trans ⟨?_,?_⟩
  · rintro ⟨text,mem,listed⟩
    obtain ⟨⟨other,text⟩,entry,rfl⟩ := List.mem_map.mp mem
    obtain ⟨entry,own⟩ := List.mem_filter.mp entry
    rw [beq_iff_eq] at own
    exact ⟨text,own ▸ entry,listed⟩
  · rintro ⟨text,entry,listed⟩
    exact ⟨text,List.mem_map.mpr ⟨(r,text),List.mem_filter.mpr ⟨entry,beq_self_eq_true r⟩,rfl⟩,listed⟩

theorem loggedOidcScope {scope : String} :
    (contents loggedGrants grant).oidcScope scope ↔ ∃ text ∈ loggedTexts "openid.scope" grant, scope ∈ words text :=
  memWordsJoin

section Unchanged
variable {changed : LoggedGrant}

theorem sameResource (scopes : loggedScopes changed = loggedScopes grant) {r : String} :
    (contents loggedGrants changed).resources r ↔ (contents loggedGrants grant).resources r := by
  rw [loggedResource,loggedResource,scopes]

theorem sameResourceScope (scopes : loggedScopes changed = loggedScopes grant) {r scope : String} :
    (contents loggedGrants changed).resourceScope r scope ↔ (contents loggedGrants grant).resourceScope r scope := by
  rw [loggedResourceScope,loggedResourceScope,scopes]

theorem sameOidcScope (texts : loggedTexts "openid.scope" changed = loggedTexts "openid.scope" grant) {scope : String} :
    (contents loggedGrants changed).oidcScope scope ↔ (contents loggedGrants grant).oidcScope scope := by
  rw [loggedOidcScope,loggedOidcScope,texts]

end Unchanged

theorem loggedAccumulate : Accumulates loggedGrants where
  created account client := by
    refine sameContents (fun r => ?_) (fun r scope => ?_) (fun scope => ?_) (fun claim => ?_) rfl
    · exact loggedResource.trans ⟨fun mem => absurd mem List.not_mem_nil,fun mem => mem.elim⟩
    · exact loggedResourceScope.trans ⟨fun ⟨_,mem,_⟩ => absurd mem List.not_mem_nil,fun mem => mem.elim⟩
    · exact loggedOidcScope.trans ⟨fun ⟨_,mem,_⟩ => absurd mem List.not_mem_nil,fun mem => mem.elim⟩
    · exact ⟨fun mem => absurd mem List.not_mem_nil,fun mem => mem.elim⟩
  named id grant := ⟨rfl,rfl⟩
  oidcScope scope grant := by
    have texts : loggedTexts "openid.scope" (loggedGrants.addOIDCScope scope grant) =
        loggedTexts "openid.scope" grant ++ [scope] := loggedTextsAppend
    have claims : loggedTexts "openid.claims" (loggedGrants.addOIDCScope scope grant) =
        loggedTexts "openid.claims" grant := loggedTextsAppend.trans (List.append_nil _)
    have jti : loggedGrants.jti (loggedGrants.addOIDCScope scope grant) = loggedGrants.jti grant :=
      congrArg List.head? (loggedTextsAppend.trans (List.append_nil _))
    have scopes : loggedScopes (loggedGrants.addOIDCScope scope grant) = loggedScopes grant :=
      loggedScopesAppend.trans (List.append_nil _)
    refine ⟨jti,sameContents (fun r => ?_) (fun r word => ?_) (fun word => ?_) (fun claim => ?_) rfl⟩
    · exact sameResource scopes
    · exact sameResourceScope scopes
    · refine loggedOidcScope.trans ?_
      rw [texts]
      refine (?_ : _ ↔ (contents loggedGrants grant).oidcScope word ∨ word ∈ words scope)
      rw [loggedOidcScope]
      simp [or_and_right,exists_or]
    · show claim ∈ loggedTexts "openid.claims" _ ↔ _
      rw [claims]
      rfl
  oidcClaims added grant := by
    obtain ⟨own,noScope,noJti,noScopes⟩ := @loggedClaims added
    have texts : loggedTexts "openid.scope" (loggedGrants.addOIDCClaims added grant) =
        loggedTexts "openid.scope" grant := loggedTextsAppend.trans (by rw [noScope,List.append_nil])
    have claims : loggedTexts "openid.claims" (loggedGrants.addOIDCClaims added grant) =
        loggedTexts "openid.claims" grant ++ added := loggedTextsAppend.trans (by rw [own])
    have jti : loggedGrants.jti (loggedGrants.addOIDCClaims added grant) = loggedGrants.jti grant :=
      congrArg List.head? (loggedTextsAppend.trans (by rw [noJti,List.append_nil]))
    have scopes : loggedScopes (loggedGrants.addOIDCClaims added grant) = loggedScopes grant :=
      loggedScopesAppend.trans (by rw [noScopes,List.append_nil])
    refine ⟨jti,sameContents (fun r => ?_) (fun r word => ?_) (fun word => ?_) (fun claim => ?_) rfl⟩
    · exact sameResource scopes
    · exact sameResourceScope scopes
    · exact sameOidcScope texts
    · show claim ∈ loggedTexts "openid.claims" _ ↔ _
      rw [claims]
      exact List.mem_append
  resourceScope resource scope grant := by
    have texts : ∀ key, loggedTexts key (loggedGrants.addResourceScope resource scope grant) = loggedTexts key grant :=
      fun key => loggedTextsAppend.trans (List.append_nil _)
    have scopes : loggedScopes (loggedGrants.addResourceScope resource scope grant) =
        loggedScopes grant ++ [(resource,scope)] := loggedScopesAppend
    have jti : loggedGrants.jti (loggedGrants.addResourceScope resource scope grant) = loggedGrants.jti grant :=
      congrArg List.head? (texts "jti")
    refine ⟨jti,sameContents (fun r => ?_) (fun r word => ?_) (fun word => ?_) (fun claim => ?_) rfl⟩
    · refine loggedResource.trans ?_
      refine (?_ : _ ↔ r = resource ∨ (contents loggedGrants grant).resources r)
      rw [scopes,loggedResource,List.map_append,List.mem_append,or_comm]
      simp
    · refine loggedResourceScope.trans ?_
      show _ ↔ word ∈ Function.update (contents loggedGrants grant).resourceScope resource
        ((contents loggedGrants grant).resourceScope resource ∪ listed (words scope)) r
      rw [scopes]
      by_cases own : r = resource
      · subst own
        rw [Function.update_self]
        refine (?_ : _ ↔ (contents loggedGrants grant).resourceScope r word ∨ word ∈ words scope)
        rw [loggedResourceScope]
        simp [or_and_right,exists_or]
      · rw [Function.update_of_ne own]
        show _ ↔ (contents loggedGrants grant).resourceScope r word
        rw [loggedResourceScope]
        simp [own]
    · exact sameOidcScope (texts "openid.scope")
    · show claim ∈ loggedTexts "openid.claims" _ ↔ _
      rw [texts]
      rfl
  restored grant := ⟨grant,rfl,rfl,rfl⟩

def consentCodec : SecretArtifactCodec := ⟨[List.replicate 32 3],by decide⟩

def platforms (es : List Event) : List ConsentEvent :=
  es.filterMap fun e => if other : savesGrant e.op = false then some (.platform e other) else none

def consents (index : Nat) (providerGrantId : JsValue) (promptDetails : List (String × JsValue)) : List ConsentEvent :=
  [.approve ⟨"interaction_0001",providerGrantId,
      [("client_id",.str "client_0001"),("resource",.str sampleResource),("scope",.str "openid mcp:read")],promptDetails⟩
      sampleAccount (some ⟨some ⟨"interaction_0001",sampleAccount,"grant_0001"⟩,some "approve"⟩),
    .update index (seconds 30),.save index "generated_0001" (seconds 31)]

def firstConsent : List ConsentEvent := platforms approvedHistory ++ consents 0 .undefined
  [("missingOIDCScope",.arr [.str "openid"]),("missingResourceScopes",.obj [(sampleResource,.arr [.str "mcp:read"])])]

def secondConsent : List ConsentEvent := consents 1 (.str "grant_0001")
  [("missingOIDCScope",.arr [.str "offline_access"]),("missingOIDCClaims",.arr [.str "sub"])]

theorem consentsAccumulate :
    let s := run (consentStep loggedGrants (sampleNode [] []) consentCodec) Service.empty firstConsent
    let t := run (consentStep loggedGrants (sampleNode [] []) consentCodec) s secondConsent
    (t.db.providerArtifacts.map fun a => (a.artifactId,(loggedGrants.restore a.payload).map fun grant =>
        (words (loggedGrants.getOIDCScope grant),loggedGrants.getOIDCClaims grant,
          loggedGrants.getResourceScope grant sampleResource))) =
      [("grant_0001",some (["openid","offline_access"],["sub"],"mcp:read"))] ∧
    (Capped loggedGrants s t ∧ Capped loggedGrants t s) := by
  intro s t
  exact ⟨by decide,(grantCeiling loggedGrants loggedAccumulate (sampleNode [] []) consentCodec firstConsent
    secondConsent (by decide)).1⟩

end Sample

end Wepuu.GrantCeiling
