import Wepuu.Footprint

/-! Which tables each operation writes. A result about one table looks only at the
operations that name it here. -/
namespace Wepuu.Frames
open Artifacts Deletion Families Footprint Grants NodeApi Outbox Pairing Relational Runs Schema SigningKeys
open Tenancy Wepuu.System

inductive Table where
  | accounts | tenants | memberships | homeTenants | authUsers | authLinks | accountSessions | sites
  | pairingAttempts | grants | idempotencyRecords | providerArtifacts | secretArtifacts | refreshFamilies
  | revocationOutbox | rateLimitBuckets | signingKeys | deletionJobs | deletionTombstones | securityEvents
  deriving DecidableEq, Repr

def SameTable (db next : Db) : Table → Prop
  | .accounts => next.accounts = db.accounts
  | .tenants => next.tenants = db.tenants
  | .memberships => next.memberships = db.memberships
  | .homeTenants => next.homeTenants = db.homeTenants
  | .authUsers => next.authUsers = db.authUsers
  | .authLinks => next.authLinks = db.authLinks
  | .accountSessions => next.accountSessions = db.accountSessions
  | .sites => next.sites = db.sites
  | .pairingAttempts => next.pairingAttempts = db.pairingAttempts
  | .grants => next.grants = db.grants
  | .idempotencyRecords => next.idempotencyRecords = db.idempotencyRecords
  | .providerArtifacts => next.providerArtifacts = db.providerArtifacts
  | .secretArtifacts => next.secretArtifacts = db.secretArtifacts
  | .refreshFamilies => next.refreshFamilies = db.refreshFamilies
  | .revocationOutbox => next.revocationOutbox = db.revocationOutbox ∧ next.outboxNextId = db.outboxNextId
  | .rateLimitBuckets => next.rateLimitBuckets = db.rateLimitBuckets
  | .signingKeys => next.signingKeys = db.signingKeys
  | .deletionJobs => next.deletionJobs = db.deletionJobs
  | .deletionTombstones => next.deletionTombstones = db.deletionTombstones
  | .securityEvents => next.securityEvents = db.securityEvents

/- Only the named tables differ. -/
def Only (tables : List Table) (db next : Db) : Prop := ∀ t, t ∉ tables → SameTable db next t

theorem onlyRefl (tables : List Table) (db : Db) : Only tables db db := by
  intro t _
  cases t <;> first | rfl | exact ⟨rfl,rfl⟩

theorem onlyTrans {tables : List Table} {a b c : Db} (left : Only tables a b) (right : Only tables b c) :
    Only tables a c := by
  intro t other
  have l := left t other
  have r := right t other
  cases t <;> simp only [SameTable] at l r ⊢
  case revocationOutbox => exact ⟨r.1.trans l.1,r.2.trans l.2⟩
  all_goals exact r.trans l

theorem onlyMono {tables more : List Table} {db next : Db} (within : ∀ t ∈ tables, t ∈ more)
    (only : Only tables db next) : Only more db next := fun t other => only t fun mem => other (within t mem)

def deletionTables : List Table :=
  [.accounts,.tenants,.memberships,.homeTenants,.authLinks,.accountSessions,.sites,.pairingAttempts,.grants,
    .idempotencyRecords,.providerArtifacts,.secretArtifacts,.refreshFamilies,.revocationOutbox,.deletionJobs,
    .securityEvents]

def touches : Op → List Table
  | .signUp _ => [.authUsers]
  | .ensureAccountAuthLink _ _ _ => [.accounts,.tenants,.memberships,.homeTenants,.authLinks]
  | .ensurePersonalWorkspace _ _ => [.tenants,.memberships,.homeTenants]
  | .seedMembership _ _ _ => [.memberships]
  | .createSession _ => [.accounts,.accountSessions]
  | .createAttempt _ _ | .markVerifying _ _ _ | .failAttempt _ _ _ _ => [.pairingAttempts]
  | .completePairing _ _ _ _ _ => [.sites,.pairingAttempts,.idempotencyRecords]
  | .createPending _ _ | .activate _ _ _ _ _ | .deny _ _ _ _ _ => [.grants,.idempotencyRecords]
  | .revoke _ _ _ _ => [.grants]
  | .revokeGrantWithEvent _ _ _ => [.grants,.revocationOutbox]
  | .disconnectSiteWithEvent _ _ _ => [.sites,.grants,.revocationOutbox]
  | .revokeRefreshGrant _ _ _ => [.grants,.secretArtifacts,.revocationOutbox]
  | .createFamily _ => [.refreshFamilies]
  | .rotate _ _ _ => [.grants,.refreshFamilies,.revocationOutbox]
  | .publishKey _ | .activateSigningKey _ _ | .retireKey _ _ => [.signingKeys]
  | .revokeSigningKey _ _ => [.signingKeys,.revocationOutbox]
  | .upsert _ _ _ _ _ | .destroy _ _ => [.providerArtifacts,.secretArtifacts]
  | .consume _ _ _ =>
    [.grants,.providerArtifacts,.secretArtifacts,.revocationOutbox,.rateLimitBuckets]
  | .revokeByGrantId _ _ _ => [.grants,.providerArtifacts,.secretArtifacts,.revocationOutbox]
  | .consumeRateLimit _ _ _ _ _ => [.rateLimitBuckets]
  | .claim _ _ | .markDelivered _ | .reschedule _ _ _ => [.revocationOutbox]
  | .beginDeletionJob _ _ _ _ _ => [.deletionJobs,.deletionTombstones]
  | .advanceDeletionJob _ _ => deletionTables

section Statements
variable {db next : Db}

theorem insertEventOnly {onConflict event now} (ok : insertEvent onConflict event now db = .ok next) :
    Only [.revocationOutbox] db next := by
  unfold insertEvent at ok
  split at ok <;> try contradiction
  split at ok <;> cases ok
  all_goals
    intro t other
    cases t <;> first | rfl | exact absurd (by decide) other

theorem settleConsentOnly {outcome context tenant grantId key digest now}
    (ok : settleConsent outcome context tenant grantId key digest now db = .ok next) :
    Only [.grants,.idempotencyRecords] db next := by
  unfold settleConsent at ok
  split at ok
  · split at ok <;> cases ok
    exact onlyRefl _ _
  · simp only [bindOk,ensureOk] at ok
    obtain ⟨_,_,recorded⟩ := ok
    obtain ⟨_,_,_,_,rfl⟩ := insertIdempotencyExact recorded
    intro t other
    cases t <;> first | rfl | exact ⟨rfl,rfl⟩ | exact absurd (by decide) other

theorem createPendingOnly {context record out} (ok : createPending context record db = .ok (next,out)) :
    Only [.grants,.idempotencyRecords] db next := by
  rcases createPendingCases ok with ⟨_,_,_,_,rfl,_⟩ | ⟨_,_,rfl,_⟩
  · exact onlyRefl _ _
  · intro t other
    cases t <;> first | rfl | exact ⟨rfl,rfl⟩ | exact absurd (by decide) other

theorem revokeRefreshGrantOnly {grantId observedAt reason now out}
    (ok : revokeRefreshGrant grantId observedAt reason now db = .ok (next,out)) :
    Only [.grants,.secretArtifacts,.revocationOutbox] db next := by
  have updates : ∀ bound, Only [.grants,.secretArtifacts,.revocationOutbox] db
      (refreshRevoked bound grantId observedAt reason db) := by
    intro bound t other
    cases t <;> first | rfl | exact ⟨rfl,rfl⟩ | exact absurd (by decide) other
  unfold revokeRefreshGrant at ok
  split at ok
  · cases ok
    exact onlyRefl _ _
  · split at ok
    · simp only [bindOk,orFailOk] at ok
      obtain ⟨site,_,emitted,he,last⟩ := ok
      cases last
      exact onlyTrans (updates _) (onlyMono (by decide) (insertEventOnly he))
    · cases ok
      exact updates _

theorem rotateOnly {target expectedGeneration observedAt now out}
    (ok : rotate target expectedGeneration observedAt now db = .ok (next,out)) :
    Only [.grants,.refreshFamilies,.revocationOutbox] db next := by
  obtain ⟨rfl,_⟩ | ⟨target,_,_,_,ok⟩ := rotateOk ok
  · exact onlyRefl _ _
  · unfold rotateRefreshFamily at ok
    split at ok
    · cases ok
      exact onlyRefl _ _
    · rename_i family _
      split at ok
      · split at ok
        · cases ok
          intro t other
          cases t <;> first | rfl | exact ⟨rfl,rfl⟩ | exact absurd (by decide) other
        · split at ok
          · simp only [bindOk,orFailOk] at ok
            obtain ⟨site,_,emitted,he,last⟩ := ok
            cases last
            refine onlyTrans ?_ (onlyMono (by decide) (insertEventOnly he))
            intro t other
            cases t <;> first | rfl | exact ⟨rfl,rfl⟩ | exact absurd (by decide) other
          · cases ok
            exact onlyRefl _ _
      · cases ok
        exact onlyRefl _ _

theorem activateSigningKeyOnly {target observedAt} :
    Only [.signingKeys] db (activateSigningKey target observedAt db).1 := by
  unfold activateSigningKey
  dsimp only
  split
  · exact onlyRefl _ _
  · intro t other
    cases t <;> first | rfl | exact ⟨rfl,rfl⟩ | exact absurd (by decide) other

theorem destroyOnly {node adapter id} :
    Only [.providerArtifacts,.secretArtifacts] db (destroy node adapter id db) := by
  unfold destroy
  split
  all_goals
    intro t other
    cases t <;> first | rfl | exact ⟨rfl,rfl⟩ | exact absurd (by decide) other

theorem announceKeyOnly {target now sites} (ok : announceKey target now sites db = .ok next) :
    Only [.revocationOutbox] db next := by
  induction sites generalizing db with
  | nil =>
    cases ok
    exact onlyRefl _ _
  | cons s rest ih =>
    simp only [announceKey,bindOk] at ok
    obtain ⟨emitted,he,ok⟩ := ok
    exact onlyTrans (insertEventOnly he) (ih ok)

theorem revokeSigningKeyOnly {target observedAt now out}
    (ok : revokeSigningKey target observedAt now db = .ok (next,out)) :
    Only [.signingKeys,.revocationOutbox] db next := by
  simp only [revokeSigningKey] at ok
  split at ok
  · simp only [bindOk] at ok
    obtain ⟨announced,ha,last⟩ := ok
    cases last
    refine onlyTrans ?_ (onlyMono (by decide) (announceKeyOnly ha))
    intro t other
    cases t <;> first | rfl | exact ⟨rfl,rfl⟩ | exact absurd (by decide) other
  · cases ok
    exact onlyRefl _ _

theorem consumeRateLimitOnly {policy subject limit windowSeconds observedAt} :
    Only [.rateLimitBuckets] db (consumeRateLimit policy subject limit windowSeconds observedAt db).1 := by
  unfold consumeRateLimit
  dsimp only
  split
  · split
    · intro t other
      cases t <;> first | rfl | exact ⟨rfl,rfl⟩ | exact absurd (by decide) other
    · split
      · intro t other
        cases t <;> first | rfl | exact ⟨rfl,rfl⟩ | exact absurd (by decide) other
      · exact onlyRefl _ _
  · exact onlyRefl _ _

theorem consumeAtOnly {model lookup now} : Only [.secretArtifacts] db (consumeAt model lookup now db) := by
  intro t other
  cases t <;> first | rfl | exact ⟨rfl,rfl⟩ | exact absurd (by decide) other

theorem consumeLookupsOnly {node adapter now lookups out}
    (ok : consumeLookups node adapter now lookups db = .ok (next,out)) :
    Only [.secretArtifacts,.rateLimitBuckets] db next := by
  induction lookups with
  | nil =>
    cases ok
    exact onlyRefl _ _
  | cons lookup rest ih =>
    simp only [consumeLookups] at ok
    split at ok
    · exact ih ok
    · split at ok
      · split at ok
        · simp only [bindOk] at ok
          obtain ⟨subject,_,ok⟩ := ok
          split at ok <;> cases ok
          · exact onlyTrans (onlyMono (by decide) consumeRateLimitOnly) (onlyMono (by decide) consumeAtOnly)
          · exact onlyMono (by decide) consumeRateLimitOnly
        · cases ok
          exact onlyRefl _ _
      · cases ok
        exact onlyMono (by decide) consumeAtOnly

theorem replayLookupsOnly {adapter now lookups out} (ok : replayLookups adapter now lookups db = .ok (next,out)) :
    Only [.grants,.secretArtifacts,.revocationOutbox] db next := by
  induction lookups with
  | nil =>
    cases ok
    exact onlyRefl _ _
  | cons lookup rest ih =>
    simp only [replayLookups] at ok
    split at ok
    · simp only [bindOk] at ok
      obtain ⟨⟨revoked,_⟩,hr,last⟩ := ok
      cases last
      exact revokeRefreshGrantOnly hr
    · exact ih ok

theorem consumeOnly {node adapter id dateNow now out}
    (ok : consume node adapter id dateNow now db = .ok (next,out)) :
    Only [.grants,.providerArtifacts,.secretArtifacts,.revocationOutbox,.rateLimitBuckets] db next := by
  simp only [consume] at ok
  split at ok
  · simp only [bindOk] at ok
    obtain ⟨⟨tried,outcome⟩,ht,ok⟩ := ok
    have first := consumeLookupsOnly ht
    split at ok
    · cases ok
      exact onlyMono (by decide) first
    · split at ok
      · exact onlyTrans (onlyMono (by decide) first) (onlyMono (by decide) (replayLookupsOnly ok))
      · cases ok
        exact onlyMono (by decide) first
  · cases ok
    intro t other
    cases t <;> first | rfl | exact ⟨rfl,rfl⟩ | exact absurd (by decide) other

theorem revokeByGrantIdOnly {adapter reason grantId now}
    (ok : revokeByGrantId adapter reason grantId now db = .ok next) :
    Only [.grants,.providerArtifacts,.secretArtifacts,.revocationOutbox] db next := by
  simp only [revokeByGrantId,bindOk] at ok
  obtain ⟨⟨revoked,out⟩,hr,last⟩ := ok
  cases last
  have first : Only [.grants,.secretArtifacts,.revocationOutbox] db revoked := by
    unfold revokePlatformGrant at hr
    split at hr
    · exact revokeRefreshGrantOnly hr
    · cases hr
      exact onlyRefl _ _
  refine onlyTrans (onlyMono (by decide) first) ?_
  intro t other
  cases t <;> first | rfl | exact ⟨rfl,rfl⟩ | exact absurd (by decide) other

theorem completePairingOnly {node context record proof site key now}
    (ok : complete node context record proof site key now db = .ok next) :
    Only [.sites,.pairingAttempts,.idempotencyRecords] db next := by
  simp only [complete] at ok
  split at ok
  · split at ok <;> cases ok
    exact onlyRefl _ _
  · simp only [bindOk,ensureOk,orFailOk] at ok
    obtain ⟨_,_,_,_,_,_,_,_,_,_,_,_,recorded⟩ := ok
    obtain ⟨_,_,_,_,rfl⟩ := insertIdempotencyExact recorded
    intro t other
    cases t <;> first | rfl | exact ⟨rfl,rfl⟩ | exact absurd (by decide) other

theorem revokeSubjectGrantsOnly {observedAt now rest events out}
    (ok : revokeSubjectGrants observedAt now rest db events = .ok (next,out)) :
    Only [.grants,.revocationOutbox] db next := by
  induction rest generalizing db events with
  | nil =>
    cases ok
    exact onlyRefl _ _
  | cons g rest ih =>
    have first : Only [.grants,.revocationOutbox] db { db with
        grants := updateWhere (grantAt g.tenantId g.id) (revokedGrant "account_deleted" observedAt) db.grants } := by
      intro t other
      cases t <;> first | rfl | exact ⟨rfl,rfl⟩ | exact absurd (by decide) other
    simp only [revokeSubjectGrants] at ok
    split at ok
    · exact onlyTrans first (ih ok)
    · simp only [bindOk] at ok
      obtain ⟨emitted,he,ok⟩ := ok
      exact onlyTrans first (onlyTrans (onlyMono (by decide) (insertEventOnly he)) (ih ok))

theorem revokeSitesOnly {observedAt now rest events out}
    (ok : revokeSites observedAt now rest db events = .ok (next,out)) :
    Only [.sites,.grants,.revocationOutbox] db next := by
  induction rest generalizing db events with
  | nil =>
    cases ok
    exact onlyRefl _ _
  | cons s rest ih =>
    simp only [revokeSites,bindOk] at ok
    obtain ⟨emitted,he,ok⟩ := ok
    refine onlyTrans (onlyTrans (onlyTrans ?_ (onlyMono (by decide) (insertEventOnly he))) ?_) (ih ok)
    all_goals
      intro t other
      cases t <;> first | rfl | exact ⟨rfl,rfl⟩ | exact absurd (by decide) other

theorem setJobOnly {jobId change} : Only [.deletionJobs] db (setJob jobId change db) := by
  intro t other
  cases t <;> first | rfl | exact ⟨rfl,rfl⟩ | exact absurd (by decide) other

theorem revokeAccountOnly {job observedAt now sessions events}
    (ok : revokeAccount job observedAt now db = .ok (next,sessions,events)) :
    Only [.accounts,.memberships,.accountSessions,.grants,.revocationOutbox] db next := by
  simp only [revokeAccount,bindOk] at ok
  obtain ⟨⟨revoked,count⟩,hr,last⟩ := ok
  cases last
  refine onlyTrans ?_ (onlyMono (by decide) (revokeSubjectGrantsOnly hr))
  intro t other
  cases t <;> first | rfl | exact ⟨rfl,rfl⟩ | exact absurd (by decide) other

theorem revokeTenantScopeOnly {job observedAt now sessions events}
    (ok : revokeTenantScope job observedAt now db = .ok (next,sessions,events)) :
    Only [.tenants,.sites,.grants,.refreshFamilies,.revocationOutbox] db next := by
  simp only [revokeTenantScope,bindOk] at ok
  obtain ⟨⟨revoked,count⟩,hr,last⟩ := ok
  cases last
  refine onlyTrans (onlyMono (by decide) (revokeSitesOnly hr)) ?_
  intro t other
  cases t <;> first | rfl | exact ⟨rfl,rfl⟩ | exact absurd (by decide) other

theorem purgeScopeOnly {job} (ok : purgeScope job db = .ok next) : Only deletionTables db next := by
  unfold purgeScope at ok
  split at ok
  · simp only [purgeAccount,bindOk,ensureOk] at ok
    obtain ⟨_,_,last⟩ := ok
    cases last
    intro t other
    cases t <;> first | rfl | exact ⟨rfl,rfl⟩ | exact absurd (by decide) other
  · cases ok
    intro t other
    cases t <;> first | rfl | exact ⟨rfl,rfl⟩ | exact absurd (by decide) other

theorem advanceDeletionJobOnly {jobId observedAt now} :
    Only deletionTables db (advanceDeletionJob jobId observedAt now db).1 := by
  unfold advanceDeletionJob
  split
  · rename_i done ok
    obtain ⟨after,out⟩ := done
    simp only [advanceBody,bindOk,orFailOk] at ok
    obtain ⟨job,_,ok⟩ := ok
    split at ok
    · cases ok
      exact onlyRefl _ _
    · cases ok
      exact onlyRefl _ _
    · simp only [firstPhase,bindOk] at ok
      obtain ⟨⟨revoked,sessions,events⟩,hr,last⟩ := ok
      cases last
      refine onlyTrans ?_ (onlyMono (by decide) setJobOnly)
      unfold revokeScope at hr
      split at hr
      · exact onlyMono (by decide) (revokeAccountOnly hr)
      · exact onlyMono (by decide) (revokeTenantScopeOnly hr)
    · split at ok
      · cases ok
        exact onlyRefl _ _
      · simp only [purgePhase,bindOk] at ok
        obtain ⟨purged,hp,last⟩ := ok
        cases last
        exact onlyTrans (purgeScopeOnly hp) (onlyMono (by decide) setJobOnly)
  · exact onlyMono (by decide) setJobOnly

end Statements

section Operations
variable {node : Node} {e : Event} {db : Db}

theorem execOnly {next reply} (ok : exec node e db = .ok (next,reply)) : Only (touches e.op) db next := by
  obtain ⟨now,op⟩ := e
  cases op with
  | signUp authUser =>
    show Only [.authUsers] db next
    simp only [exec] at ok
    have made := silentOk ok
    simp only [signUp,bindOk,orFailOk] at made
    obtain ⟨_,_,last⟩ := made
    cases last
    intro t other
    cases t <;> first | rfl | exact ⟨rfl,rfl⟩ | exact absurd (by decide) other
  | ensureAccountAuthLink authUser account tenant =>
    show Only [.accounts,.tenants,.memberships,.homeTenants,.authLinks] db next
    simp only [exec] at ok
    obtain ⟨_,made,_⟩ := answeredOk ok
    simp only [ensureAccountAuthLink,bindOk,ensureOk] at made
    obtain ⟨_,_,_,_,_,_,made⟩ := made
    split at made
    · cases made
      exact onlyRefl _ _
    · simp only [bindOk,ensureOk,orFailOk,openHome] at made
      obtain ⟨_,_,_,_,_,⟨_,_,_,_,_,_,opened⟩,_,_,last⟩ := made
      cases opened
      cases last
      intro t other
      cases t <;> first | rfl | exact ⟨rfl,rfl⟩ | exact absurd (by decide) other
  | ensurePersonalWorkspace account tenant =>
    show Only [.tenants,.memberships,.homeTenants] db next
    simp only [exec] at ok
    obtain ⟨_,made,_⟩ := answeredOk ok
    simp only [ensurePersonalWorkspace,bindOk,ensureOk,homeOrOpen] at made
    obtain ⟨_,_,_,_,⟨opened,home⟩,ho,_,_,last⟩ := made
    cases last
    split at ho
    · cases ho
      exact onlyRefl _ _
    · simp only [bindOk,orFailOk,openHome] at ho
      obtain ⟨_,⟨_,_,_,_,_,_,opened⟩,last⟩ := ho
      cases opened
      cases last
      intro t other
      cases t <;> first | rfl | exact ⟨rfl,rfl⟩ | exact absurd (by decide) other
  | seedMembership tenant account role =>
    show Only [.memberships] db next
    simp only [exec] at ok
    have made := silentOk ok
    simp only [seedMembership,bindOk,ensureOk] at made
    obtain ⟨_,_,last⟩ := made
    cases last
    intro t other
    cases t <;> first | rfl | exact ⟨rfl,rfl⟩ | exact absurd (by decide) other
  | createSession input =>
    show Only [.accounts,.accountSessions] db next
    simp only [exec] at ok
    obtain ⟨_,made,_⟩ := answeredOk ok
    simp only [createSession,bindOk,ensureOk] at made
    obtain ⟨_,_,made⟩ := made
    split at made
    · cases made
      intro t other
      cases t <;> first | rfl | exact ⟨rfl,rfl⟩ | exact absurd (by decide) other
    · simp only [bindOk,ensureOk,orFailOk] at made
      obtain ⟨_,_,_,_,last⟩ := made
      cases last
      intro t other
      cases t <;> first | rfl | exact ⟨rfl,rfl⟩ | exact absurd (by decide) other
  | createAttempt context record =>
    show Only [.pairingAttempts] db next
    simp only [exec] at ok
    have made := silentOk ok
    simp only [createAttempt,bindOk,ensureOk,orFailOk] at made
    obtain ⟨_,_,_,_,_,_,_,_,last⟩ := made
    cases last
    intro t other
    cases t <;> first | rfl | exact ⟨rfl,rfl⟩ | exact absurd (by decide) other
  | markVerifying context tenant attempt =>
    show Only [.pairingAttempts] db next
    cases ok
    intro t other
    cases t <;> first | rfl | exact ⟨rfl,rfl⟩ | exact absurd (by decide) other
  | failAttempt context tenant attempt reason =>
    show Only [.pairingAttempts] db next
    cases ok
    intro t other
    cases t <;> first | rfl | exact ⟨rfl,rfl⟩ | exact absurd (by decide) other
  | completePairing context record proof site key => exact completePairingOnly (silentOk ok)
  | createPending context record =>
    obtain ⟨_,made,_⟩ := answeredOk ok
    exact createPendingOnly made
  | activate context tenant grantId key proof => exact settleConsentOnly (silentOk ok)
  | deny context tenant grantId key proof => exact settleConsentOnly (silentOk ok)
  | revoke context tenant grantId reason =>
    show Only [.grants] db next
    cases ok
    intro t other
    cases t <;> first | rfl | exact ⟨rfl,rfl⟩ | exact absurd (by decide) other
  | revokeGrantWithEvent context tenant grantId =>
    show Only [.grants,.revocationOutbox] db next
    simp only [exec] at ok
    obtain ⟨_,made,_⟩ := answeredOk ok
    unfold revokeGrantWithEvent at made
    split at made
    · split at made
      · cases made
        exact onlyRefl _ _
      · simp only [bindOk,orFailOk] at made
        obtain ⟨_,_,_,he,last⟩ := made
        cases last
        refine onlyTrans ?_ (onlyMono (by decide) (insertEventOnly he))
        intro t other
        cases t <;> first | rfl | exact ⟨rfl,rfl⟩ | exact absurd (by decide) other
    · cases made
      exact onlyRefl _ _
  | disconnectSiteWithEvent context tenant site =>
    show Only [.sites,.grants,.revocationOutbox] db next
    simp only [exec] at ok
    obtain ⟨_,made,_⟩ := answeredOk ok
    unfold disconnectSiteWithEvent at made
    split at made
    · split at made
      · cases made
        exact onlyRefl _ _
      · simp only [bindOk] at made
        obtain ⟨_,he,last⟩ := made
        cases last
        refine onlyTrans ?_ (onlyMono (by decide) (insertEventOnly he))
        intro t other
        cases t <;> first | rfl | exact ⟨rfl,rfl⟩ | exact absurd (by decide) other
    · cases made
      exact onlyRefl _ _
  | revokeRefreshGrant grantId observedAt reason =>
    obtain ⟨_,made,_⟩ := answeredOk ok
    exact revokeRefreshGrantOnly made
  | createFamily input =>
    show Only [.refreshFamilies] db next
    simp only [exec] at ok
    have made := silentOk ok
    simp only [Families.create,bindOk,ensureOk,orFailOk] at made
    obtain ⟨_,_,_,_,_,_,_,_,last⟩ := made
    cases last
    intro t other
    cases t <;> first | rfl | exact ⟨rfl,rfl⟩ | exact absurd (by decide) other
  | rotate target expectedGeneration observedAt =>
    obtain ⟨_,made,_⟩ := answeredOk ok
    exact rotateOnly made
  | publishKey input =>
    show Only [.signingKeys] db next
    simp only [exec] at ok
    have made := silentOk ok
    simp only [publish,bindOk,ensureOk,orFailOk] at made
    obtain ⟨_,_,_,_,last⟩ := made
    cases last
    intro t other
    cases t <;> first | rfl | exact ⟨rfl,rfl⟩ | exact absurd (by decide) other
  | activateSigningKey target observedAt =>
    cases ok
    exact activateSigningKeyOnly
  | revokeSigningKey target observedAt =>
    obtain ⟨_,made,_⟩ := answeredOk ok
    exact revokeSigningKeyOnly made
  | retireKey target observedAt =>
    show Only [.signingKeys] db next
    cases ok
    intro t other
    cases t <;> first | rfl | exact ⟨rfl,rfl⟩ | exact absurd (by decide) other
  | upsert adapter id payload expiresIn dateNow =>
    show Only [.providerArtifacts,.secretArtifacts] db next
    simp only [exec] at ok
    have made := silentOk ok
    simp only [upsert] at made
    split at made
    · simp only [bindOk,ensureOk] at made
      obtain ⟨_,_,_,_,_,_,last⟩ := made
      cases last
      intro t other
      cases t <;> first | rfl | exact ⟨rfl,rfl⟩ | exact absurd (by decide) other
    · obtain ⟨_,_,last⟩ := bindOk.mp made
      cases last
      intro t other
      cases t <;> first | rfl | exact ⟨rfl,rfl⟩ | exact absurd (by decide) other
  | destroy adapter id =>
    cases ok
    exact destroyOnly
  | consume adapter id dateNow =>
    obtain ⟨_,made,_⟩ := answeredOk ok
    exact consumeOnly made
  | revokeByGrantId adapter reason grantId => exact revokeByGrantIdOnly (silentOk ok)
  | consumeRateLimit policy subject limit windowSeconds observedAt =>
    cases ok
    exact consumeRateLimitOnly
  | claim limit skipped =>
    show Only [.revocationOutbox] db next
    cases ok
    intro t other
    cases t <;> first | rfl | exact ⟨rfl,rfl⟩ | exact absurd (by decide) other
  | markDelivered id =>
    show Only [.revocationOutbox] db next
    cases ok
    intro t other
    cases t <;> first | rfl | exact ⟨rfl,rfl⟩ | exact absurd (by decide) other
  | reschedule id errorCode delaySeconds =>
    show Only [.revocationOutbox] db next
    cases ok
    intro t other
    cases t <;> first | rfl | exact ⟨rfl,rfl⟩ | exact absurd (by decide) other
  | beginDeletionJob jobId kind scopeId tenantId requestedBy =>
    show Only [.deletionJobs,.deletionTombstones] db next
    simp only [exec] at ok
    obtain ⟨_,made,_⟩ := answeredOk ok
    simp only [beginDeletionJob,bindOk,ensureOk] at made
    obtain ⟨_,_,_,_,made⟩ := made
    split at made
    · cases made
      exact onlyRefl _ _
    · simp only [bindOk] at made
      obtain ⟨_,_,last⟩ := made
      cases last
      intro t other
      cases t <;> first | rfl | exact ⟨rfl,rfl⟩ | exact absurd (by decide) other
  | advanceDeletionJob jobId observedAt =>
    cases ok
    exact advanceDeletionJobOnly

theorem stepOnly : Only (touches e.op) db (step node db e) := by
  rcases settleCases db (exec node e db) with same | ⟨next,reply,ok,done⟩
  · rw [step,same]
    exact onlyRefl _ _
  · rw [step,done]
    exact execOnly ok

end Operations

end Wepuu.Frames
