import Wepuu.RevocationCoverage
import Wepuu.SiteRows

/-! What the rows of the revocation outbox are made of. Every emitter reads the tenant, the id
and the resource from a row of sites, a grant id from a grant or a refresh family, a key id
from the signing keys, and writes one of seven reasons. -/
namespace Wepuu.EventSources
open Artifacts Deletion DeletionCompletes Families Footprint Frames Grants NodeApi Outbox Relational Runs Schema SigningKeys
open SiteRows Statements Tenancy Wepuu.System

variable {node : Node} {e : Event} {start db mid next : Db} {observedAt now : Time}

def reasons : List String :=
  ["platform_user_revoked","site_disconnected","refresh_replay","token_revoked","key_revoked","account_deleted",
    "deletion_requested"]

inductive Names (db : Db) : EventType → Option GrantId → Option KeyId → Prop
  | grant {g : Grant} (stored : g ∈ db.grants) : Names db .grant (some g.id) none
  | family {f : RefreshFamily} (stored : f ∈ db.refreshFamilies) : Names db .grant (some f.grantId) none
  | site : Names db .site none none
  | key {k : SigningKey} (stored : k ∈ db.signingKeys) : Names db .key none (some k.kid)

structure Source (db : Db) (event : NewEvent) : Prop where
  site : ∃ s ∈ db.sites, event.tenantId = s.tenantId ∧ event.siteId = s.id ∧ event.resourceUri = s.resourceUri
  names : Names db event.eventType event.grantId event.keyId
  reason : event.reason ∈ reasons

/- The columns of a row that the worker signs. -/
structure SameText (o r : OutboxRow) : Prop where
  tenantId : r.tenantId = o.tenantId
  siteId : r.siteId = o.siteId
  resourceUri : r.resourceUri = o.resourceUri
  eventSequence : r.eventSequence = o.eventSequence
  eventType : r.eventType = o.eventType
  grantId : r.grantId = o.grantId
  keyId : r.keyId = o.keyId
  reason : r.reason = o.reason

structure Made (event : NewEvent) (r : OutboxRow) : Prop where
  tenantId : r.tenantId = event.tenantId
  siteId : r.siteId = event.siteId
  resourceUri : r.resourceUri = event.resourceUri
  eventType : r.eventType = event.eventType
  grantId : r.grantId = event.grantId
  keyId : r.keyId = event.keyId
  reason : r.reason = event.reason
  numbered : 0 < r.eventSequence

def Told (start next : Db) : Prop := ∀ r ∈ next.revocationOutbox,
  (∃ o ∈ start.revocationOutbox, SameText o r) ∨ ∃ event, Source start event ∧ Made event r

section Statements

theorem toldSame (same : next.revocationOutbox = start.revocationOutbox) : Told start next :=
  fun r mem => .inl ⟨r,same ▸ mem,rfl,rfl,rfl,rfl,rfl,rfl,rfl,rfl⟩

theorem toldKeeps (told : Told start db) (same : next.revocationOutbox = db.revocationOutbox) : Told start next :=
  fun r mem => told r (same ▸ mem)

theorem toldInsert {onConflict : OnConflict} {event : NewEvent} (ok : insertEvent onConflict event now db = .ok next)
    (told : Told start db) (source : Source start event) : Told start next := by
  unfold insertEvent at ok
  split at ok <;> try contradiction
  split at ok
  · rename_i rows made
    cases ok
    obtain ⟨_,rfl⟩ := insertRowExact.mp made
    intro r mem
    rcases List.mem_append.mp mem with old | new
    · exact told r old
    · rw [List.mem_singleton.mp new]
      exact .inr ⟨event,source,rfl,rfl,rfl,rfl,rfl,rfl,rfl,Nat.succ_pos _⟩
  · cases ok
    exact told
  · cases ok

theorem toldUpdate {p : OutboxRow → Bool} {f : OutboxRow → OutboxRow}
    (shape : next.revocationOutbox = updateWhere p f start.revocationOutbox) (keeps : ∀ r, SameText r (f r)) :
    Told start next := by
  intro r mem
  rw [shape] at mem
  obtain ⟨o,ho,rfl⟩ := memUpdateWhere.mp mem
  refine .inl ⟨o,ho,?_⟩
  split
  · exact keeps o
  · exact ⟨rfl,rfl,rfl,rfl,rfl,rfl,rfl,rfl⟩

theorem toldDelete {p : OutboxRow → Bool} (shape : next.revocationOutbox = deleteWhere p start.revocationOutbox) :
    Told start next := by
  intro r mem
  rw [shape] at mem
  exact .inl ⟨r,(memDeleteWhere.mp mem).1,rfl,rfl,rfl,rfl,rfl,rfl,rfl,rfl⟩

theorem siteAtSource {tenant : TenantId} {site : SiteId} {s : Site} (found : db.siteAt tenant site = some s) :
    ∃ o ∈ db.sites, tenant = o.tenantId ∧ site = o.id ∧ s.resourceUri = o.resourceUri := by
  have chosen := List.find?_some found
  simp only [Bool.and_eq_true,beq_iff_eq] at chosen
  exact ⟨s,List.mem_of_find?_eq_some found,chosen.1.symm,chosen.2.symm,rfl⟩

end Statements

section Emitters

theorem userRevocationTold {context : TenantContext} {tenant : TenantId} {grantId : GrantId} {out : Bool}
    (ok : revokeGrantWithEvent context tenant grantId now db = .ok (next,out)) : Told db next := by
  unfold revokeGrantWithEvent at ok
  split at ok
  · split at ok
    · cases ok
      exact toldSame rfl
    · rename_i bound found
      have target := List.find?_some found
      simp only [userTarget,Bool.and_eq_true,beq_iff_eq] at target
      simp only [bindOk,orFailOk] at ok
      obtain ⟨site,at_,emitted,inserted,last⟩ := ok
      cases last
      refine toldInsert inserted (toldSame rfl) ⟨siteAtSource at_,?_,by simp [reasons]⟩
      have names := Names.grant (List.mem_of_find?_eq_some found)
      rw [target.1.1.2] at names
      exact names
  · cases ok
    exact toldSame rfl

theorem disconnectTold {context : TenantContext} {tenant : TenantId} {site : SiteId} {out : Bool}
    (ok : disconnectSiteWithEvent context tenant site now db = .ok (next,out)) : Told db next := by
  unfold disconnectSiteWithEvent at ok
  split at ok
  · split at ok
    · cases ok
      exact toldSame rfl
    · rename_i bound found
      have target := List.find?_some found
      simp only [siteTarget,Bool.and_eq_true,beq_iff_eq] at target
      simp only [bindOk] at ok
      obtain ⟨emitted,inserted,last⟩ := ok
      cases last
      exact toldInsert inserted (toldSame rfl)
        ⟨⟨bound,List.mem_of_find?_eq_some found,target.1.1.symm,target.1.2.symm,rfl⟩,.site,by simp [reasons]⟩
  · cases ok
    exact toldSame rfl

theorem refreshRevocationTold {grantId : GrantId} {reason : String} {out : Bool} (known : reason ∈ reasons)
    (ok : revokeRefreshGrant grantId observedAt reason now db = .ok (next,out)) : Told db next := by
  unfold revokeRefreshGrant at ok
  split at ok
  · cases ok
    exact toldSame rfl
  · rename_i bound found
    split at ok
    · simp only [bindOk,orFailOk] at ok
      obtain ⟨site,at_,emitted,inserted,last⟩ := ok
      cases last
      exact toldInsert inserted (toldSame rfl) ⟨siteAtSource at_,.grant (List.mem_of_find?_eq_some found),known⟩
    · cases ok
      exact toldSame rfl

theorem replayTold {adapter : OidcAdapter} {lookups : List SecretArtifactLookup} {out : ConsumeOutcome}
    (ok : replayLookups adapter now lookups db = .ok (next,out)) : Told db next := by
  induction lookups with
  | nil =>
    cases ok
    exact toldSame rfl
  | cons lookup rest ih =>
    unfold replayLookups at ok
    split at ok
    · simp only [bindOk] at ok
      obtain ⟨⟨revoked,flag⟩,revokes,last⟩ := ok
      cases last
      exact refreshRevocationTold (by decide) revokes
    · exact ih ok

theorem consumeTold {adapter : OidcAdapter} {id : String} {dateNow : Time} {out : ConsumeOutcome}
    (ok : consume node adapter id dateNow now db = .ok (next,out)) : Told db next := by
  unfold consume at ok
  split at ok
  · simp only [bindOk] at ok
    obtain ⟨⟨tried,outcome⟩,lookups,ok⟩ := ok
    have quiet : tried.revocationOutbox = db.revocationOutbox := (consumeLookupsOnly lookups .revocationOutbox (by decide)).1
    cases outcome with
    | some outcome =>
      cases ok
      exact toldSame quiet
    | none =>
      simp only at ok
      split at ok
      · rw [consumeLookupsNone lookups] at ok
        exact replayTold ok
      · cases ok
        exact toldSame quiet
  · cases ok
    exact toldSame rfl

theorem revokeByGrantIdTold {adapter : OidcAdapter} {reason : GrantRevocationReason} {grantId : GrantId}
    (ok : revokeByGrantId adapter reason grantId now db = .ok next) : Told db next := by
  simp only [revokeByGrantId,bindOk] at ok
  obtain ⟨⟨revoked,flag⟩,revokes,last⟩ := ok
  cases last
  unfold revokePlatformGrant at revokes
  split at revokes
  · exact toldKeeps (refreshRevocationTold (by cases reason <;> decide) revokes) rfl
  · cases revokes
    exact toldSame rfl

theorem rotateTold {target : FamilyId} {expectedGeneration : Int} {out : RefreshRotationResult}
    (ok : rotate target expectedGeneration observedAt now db = .ok (next,out)) : Told db next := by
  obtain ⟨rfl,_⟩ | ⟨target,_,_,_,ok⟩ := rotateOk ok
  · exact toldSame rfl
  unfold rotateRefreshFamily at ok
  split at ok
  · cases ok
    exact toldSame rfl
  rename_i family found
  split at ok
  · split at ok
    · cases ok
      exact toldSame rfl
    · split at ok
      · simp only [bindOk,orFailOk] at ok
        obtain ⟨site,at_,emitted,inserted,last⟩ := ok
        cases last
        exact toldInsert inserted (toldSame rfl)
          ⟨siteAtSource at_,.family (List.mem_of_find?_eq_some found),by simp [reasons]⟩
      · cases ok
        exact toldSame rfl
  · cases ok
    exact toldSame rfl

theorem announceTold {k : SigningKey} {sites : List Site} (ok : announceKey k.kid now sites db = .ok next)
    (told : Told start db) (key : k ∈ start.signingKeys) (listed : ∀ s ∈ sites, s ∈ start.sites) : Told start next := by
  induction sites generalizing db with
  | nil =>
    cases ok
    exact told
  | cons s rest ih =>
    simp only [announceKey,bindOk] at ok
    obtain ⟨emitted,inserted,later⟩ := ok
    refine ih later (toldInsert inserted told ⟨?_,.key key,by simp [reasons]⟩) fun o mem => listed o (List.mem_cons_of_mem _ mem)
    exact ⟨s,listed s List.mem_cons_self,rfl,rfl,rfl⟩

theorem revokeSigningKeyTold {target : KeyId} {out : Bool}
    (ok : revokeSigningKey target observedAt now db = .ok (next,out)) : Told db next := by
  unfold revokeSigningKey at ok
  dsimp only at ok
  split at ok
  · rename_i some_
    obtain ⟨k,stored,chosen⟩ := List.any_eq_true.mp some_
    simp only [Bool.and_eq_true,beq_iff_eq] at chosen
    simp only [bindOk] at ok
    obtain ⟨announced,events,last⟩ := ok
    cases last
    rw [← chosen.1] at events
    exact announceTold events (toldSame rfl) stored fun s mem => (List.mem_filter.mp mem).1
  · cases ok
    exact toldSame rfl

theorem subjectGrantsTold {rest : List Grant} {events out : Nat}
    (ok : revokeSubjectGrants observedAt now rest db events = .ok (next,out)) (told : Told start db)
    (listed : ∀ g ∈ rest, g ∈ start.grants) (sites : db.sites = start.sites) : Told start next := by
  induction rest generalizing db events with
  | nil =>
    cases ok
    exact told
  | cons g rest ih =>
    have tail : ∀ o ∈ rest, o ∈ start.grants := fun o mem => listed o (List.mem_cons_of_mem _ mem)
    simp only [revokeSubjectGrants] at ok
    split at ok
    · exact ih ok told tail sites
    · rename_i site at_
      simp only [bindOk] at ok
      obtain ⟨emitted,inserted,ok⟩ := ok
      obtain ⟨s,stored,from_⟩ := siteAtSource at_
      rw [show _ = start.sites from sites] at stored
      refine ih ok (toldInsert inserted told ⟨⟨s,stored,from_⟩,.grant (listed g List.mem_cons_self),by simp [reasons]⟩) tail ?_
      exact (insertEventSites inserted).trans sites

theorem revokeSitesTold {rest : List Site} {events out : Nat}
    (ok : revokeSites observedAt now rest db events = .ok (next,out)) (told : Told start db)
    (listed : ∀ s ∈ rest, s ∈ start.sites) : Told start next := by
  induction rest generalizing db events with
  | nil =>
    cases ok
    exact told
  | cons s rest ih =>
    simp only [revokeSites,bindOk] at ok
    obtain ⟨emitted,inserted,ok⟩ := ok
    have emits : Told start emitted :=
      toldInsert inserted told ⟨⟨s,listed s List.mem_cons_self,rfl,rfl,rfl⟩,.site,by simp [reasons]⟩
    exact ih ok (toldKeeps emits rfl) fun o mem => listed o (List.mem_cons_of_mem _ mem)

theorem effectTold {jobId : JobId} (effect : Effect jobId observedAt now db next) : Told db next := by
  cases effect with
  | idle _ => exact toldSame rfl
  | revoked _ _ ok =>
    unfold revokeScope at ok
    split at ok
    · simp only [revokeAccount,bindOk] at ok
      obtain ⟨⟨revoked,count⟩,loop,last⟩ := ok
      cases last
      exact toldKeeps (subjectGrantsTold loop (toldSame rfl) (fun g mem => (List.mem_filter.mp mem).1) rfl) rfl
    · simp only [revokeTenantScope,bindOk] at ok
      obtain ⟨⟨revoked,count⟩,loop,last⟩ := ok
      cases last
      exact toldKeeps (revokeSitesTold loop (toldSame rfl) fun s mem => (List.mem_filter.mp mem).1) rfl
  | purged _ _ ok =>
    unfold purgeScope at ok
    split at ok
    · simp only [purgeAccount,bindOk,ensureOk] at ok
      obtain ⟨_,_,last⟩ := ok
      cases last
      exact toldDelete rfl
    · cases ok
      exact toldDelete rfl

def knownReason : Op → Prop
  | .revokeRefreshGrant _ _ reason => reason ∈ reasons
  | _ => True

theorem stepTold (wf : WellFormed db) (known : knownReason e.op) : Told db (step node db e) := by
  by_cases untouched : Table.revocationOutbox ∈ touches e.op
  · rcases settleCases db (exec node e db) with same | ⟨next,reply,ok,done⟩
    · rw [step,same]
      exact toldSame rfl
    rw [step,done]
    obtain ⟨now,op⟩ := e
    cases op <;> try (simp [touches] at untouched; done)
    case revokeGrantWithEvent context tenant grantId =>
      obtain ⟨_,made,_⟩ := answeredOk ok
      exact userRevocationTold made
    case disconnectSiteWithEvent context tenant site =>
      obtain ⟨_,made,_⟩ := answeredOk ok
      exact disconnectTold made
    case revokeRefreshGrant grantId observedAt reason =>
      obtain ⟨_,made,_⟩ := answeredOk ok
      exact refreshRevocationTold known made
    case rotate target expectedGeneration observedAt =>
      obtain ⟨_,made,_⟩ := answeredOk ok
      exact rotateTold made
    case revokeSigningKey target observedAt =>
      obtain ⟨_,made,_⟩ := answeredOk ok
      exact revokeSigningKeyTold made
    case consume adapter id dateNow =>
      obtain ⟨_,made,_⟩ := answeredOk ok
      exact consumeTold made
    case revokeByGrantId adapter reason grantId => exact revokeByGrantIdTold (silentOk ok)
    case claim limit skipped =>
      cases ok
      refine toldUpdate rfl ?_
      exact fun _ => ⟨rfl,rfl,rfl,rfl,rfl,rfl,rfl,rfl⟩
    case markDelivered id =>
      cases ok
      refine toldUpdate rfl ?_
      exact fun _ => ⟨rfl,rfl,rfl,rfl,rfl,rfl,rfl,rfl⟩
    case reschedule id errorCode delaySeconds =>
      cases ok
      refine toldUpdate rfl ?_
      exact fun _ => ⟨rfl,rfl,rfl,rfl,rfl,rfl,rfl,rfl⟩
    case advanceDeletionJob jobId observedAt =>
      cases ok
      exact effectTold (advanceEffect jobId observedAt now wf)
  · exact toldSame (stepOnly .revocationOutbox untouched).1

end Emitters
end Wepuu.EventSources
