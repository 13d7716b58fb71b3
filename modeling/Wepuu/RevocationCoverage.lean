import Wepuu.Footprint

/-! Whether a revocation is announced: the transaction that turns an active grant into a
revoked one also appends an event of the grant or of its site. -/
namespace Wepuu.RevocationCoverage
open Artifacts Deletion Families Footprint Grants NodeApi Outbox Relational Runs Schema Statements Tenancy
open Wepuu.System

def Covers (row : OutboxRow) (g : Grant) : Prop :=
  row.tenantId = g.tenantId ∧ row.siteId = g.siteId ∧
  ((row.eventType = .grant ∧ row.grantId = some g.id) ∨ row.eventType = .site)

def Announced (db next : Db) (g : Grant) : Prop := ∃ row ∈ newEvents db next, Covers row g

def Revokes (db next : Db) (g : Grant) : Prop :=
  g ∈ db.grants ∧ g.status = .active ∧ ∃ r ∈ next.grants, r.id = g.id ∧ r.status = .revoked

def RevocationsAnnounced (db next : Db) : Prop := ∀ g, Revokes db next g → Announced db next g

theorem activeLive {g : Grant} (active : g.status = .active) : g.live = true := by simp [Grant.live,active]

theorem sameGrantsRevoke {db next : Db} (wf : WellFormed db) (same : next.grants = db.grants) {g : Grant}
    (revokes : Revokes db next g) : False := by
  obtain ⟨mem,active,r,after,named,revoked⟩ := revokes
  rw [same] at after
  rw [sameGrant wf after mem named,active] at revoked
  cases revoked

theorem revokesEnds {ends : Grant → Prop} {db next : Db} (wf : WellFormed db)
    (writes : Writes (ending ends) db next) {g : Grant} (revokes : Revokes db next g) :
    ∃ o, Advances g o ∧ ends o := by
  obtain ⟨mem,active,r,after,named,revoked⟩ := revokes
  exact revokedInScope wf mem (activeLive active) writes (fun _ opened => opened) after named revoked

theorem emittedAnnounces {onConflict event now} {db mid next : Db} {g : Grant}
    (ok : insertEvent onConflict event now mid = .ok next) (numbered : Numbered mid)
    (count : mid.outboxNextId = db.outboxNextId)
    (tenant : event.tenantId = g.tenantId) (site : event.siteId = g.siteId)
    (covers : (event.eventType = .grant ∧ event.grantId = some g.id) ∨ event.eventType = .site) :
    Announced db next g := by
  obtain ⟨_,rfl⟩ := insertEventExact numbered ok
  refine ⟨newRow event now mid,memNewEvents.mpr ⟨List.mem_append_right _ (List.mem_singleton_self _),?_⟩,?_⟩
  · rw [← count]
    exact Nat.le_refl _
  · exact ⟨tenant,site,covers⟩

theorem harmless {scope : Scope} {db next : Db} (wf : WellFormed db) (writes : Writes scope db next)
    (opens : ∀ o, ¬scope.opens o) (ends : ∀ o, ¬scope.ends o) : RevocationsAnnounced db next := by
  intro g revokes
  obtain ⟨mem,active,r,after,named,revoked⟩ := revokes
  obtain ⟨o,_,ended⟩ := revokedInScope wf mem (activeLive active) writes opens after named revoked
  exact absurd ended (ends o)

section Revocations
variable {db next : Db} (wf : WellFormed db)
include wf

theorem userRevocationAnnounced {context tenant grantId now out}
    (ok : revokeGrantWithEvent context tenant grantId now db = .ok (next,out)) : RevocationsAnnounced db next := by
  intro g revokes
  have writes : Writes (ending fun o => userTarget context tenant grantId db o = true) db next :=
    revokeGrantWithEventWrites (fun _ _ _ hit => hit) ok
  obtain ⟨o,moved,hit⟩ := revokesEnds wf writes revokes
  simp only [userTarget,Bool.and_eq_true,beq_iff_eq] at hit
  have same := advancesKeeps moved
  unfold revokeGrantWithEvent at ok
  split at ok
  · split at ok
    · cases ok
      exact (sameGrantsRevoke wf rfl revokes).elim
    · rename_i bound found
      have target := List.find?_some found
      simp only [userTarget,Bool.and_eq_true,beq_iff_eq] at target
      have bound_ : bound = g := sameGrant wf (List.mem_of_find?_eq_some found) revokes.1
        (by rw [target.1.1.2,← hit.1.1.2,same.id])
      subst bound_
      simp only [bindOk,orFailOk] at ok
      obtain ⟨site,_,emitted,he,last⟩ := ok
      cases last
      refine emittedAnnounces he wf.numbered rfl ?_ rfl (.inl ⟨rfl,?_⟩)
      · exact target.1.1.1.symm
      · rw [target.1.1.2]
  · cases ok
    exact (sameGrantsRevoke wf rfl revokes).elim

theorem disconnectAnnounced {context tenant site now out}
    (ok : disconnectSiteWithEvent context tenant site now db = .ok (next,out)) : RevocationsAnnounced db next := by
  intro g revokes
  have writes : Writes (ending fun o => liveAtSite tenant site o = true) db next :=
    disconnectSiteWithEventWrites (fun _ _ _ _ hit => hit) ok
  obtain ⟨o,moved,hit⟩ := revokesEnds wf writes revokes
  simp only [liveAtSite,Bool.and_eq_true,beq_iff_eq] at hit
  have same := advancesKeeps moved
  unfold disconnectSiteWithEvent at ok
  split at ok
  · split at ok
    · cases ok
      exact (sameGrantsRevoke wf rfl revokes).elim
    · simp only [bindOk] at ok
      obtain ⟨emitted,he,last⟩ := ok
      cases last
      refine emittedAnnounces he wf.numbered rfl ?_ ?_ (.inr rfl)
      · exact hit.1.1.symm.trans same.tenantId
      · exact hit.1.2.symm.trans same.siteId
  · cases ok
    exact (sameGrantsRevoke wf rfl revokes).elim

theorem refreshRevocationAnnounced {grantId observedAt reason now out}
    (ok : revokeRefreshGrant grantId observedAt reason now db = .ok (next,out)) :
    RevocationsAnnounced db next := by
  intro g revokes
  have writes : Writes (ending fun o => o.id = grantId) db next :=
    revokeRefreshGrantWrites (fun _ named => named) trivial ok
  obtain ⟨o,moved,named⟩ := revokesEnds wf writes revokes
  have id := (advancesKeeps moved).id
  unfold revokeRefreshGrant at ok
  split at ok
  · cases ok
    exact (sameGrantsRevoke wf rfl revokes).elim
  · rename_i bound found
    have target : bound.id = grantId := by simpa using List.find?_some found
    have bound_ : bound = g := sameGrant wf (List.mem_of_find?_eq_some found) revokes.1
      (by rw [target,← named,id])
    subst bound_
    have chosen : db.grants.any (liveGrant bound.tenantId bound.id) = true :=
      List.any_eq_true.mpr ⟨bound,revokes.1,by simp [liveGrant,activeLive revokes.2.1]⟩
    rw [if_pos chosen] at ok
    simp only [bindOk,orFailOk] at ok
    obtain ⟨site,_,emitted,he,last⟩ := ok
    cases last
    exact emittedAnnounces he wf.numbered rfl rfl rfl (.inl ⟨rfl,rfl⟩)

theorem replayAnnounced {adapter now lookups out} (ok : replayLookups adapter now lookups db = .ok (next,out)) :
    RevocationsAnnounced db next := by
  induction lookups with
  | nil =>
    cases ok
    exact fun g revokes => (sameGrantsRevoke wf rfl revokes).elim
  | cons lookup rest ih =>
    unfold replayLookups at ok
    split at ok
    · simp only [bindOk] at ok
      obtain ⟨⟨revoked,flag⟩,hr,last⟩ := ok
      cases last
      exact refreshRevocationAnnounced wf hr
    · exact ih ok

theorem consumeAnnounced {node adapter id dateNow now out}
    (ok : consume node adapter id dateNow now db = .ok (next,out)) : RevocationsAnnounced db next := by
  unfold consume at ok
  split at ok
  · simp only [bindOk] at ok
    obtain ⟨⟨tried,outcome⟩,hc,ok⟩ := ok
    have quiet : Writes (ending fun _ => False) db tried := consumeLookupsWrites hc
    cases outcome with
    | some outcome =>
      cases ok
      exact harmless wf quiet (fun _ opened => opened) fun _ ended => ended
    | none =>
      simp only at ok
      split at ok
      · rw [consumeLookupsNone hc] at ok
        exact replayAnnounced wf ok
      · cases ok
        exact harmless wf quiet (fun _ opened => opened) fun _ ended => ended
  · cases ok
    exact fun g revokes => (sameGrantsRevoke wf rfl revokes).elim

theorem revokeByGrantIdAnnounced {adapter reason grantId now}
    (ok : revokeByGrantId adapter reason grantId now db = .ok next) : RevocationsAnnounced db next := by
  simp only [revokeByGrantId,bindOk] at ok
  obtain ⟨⟨revoked,flag⟩,hr,last⟩ := ok
  cases last
  unfold revokePlatformGrant at hr
  split at hr
  · have announced := refreshRevocationAnnounced wf hr
    exact fun g revokes => announced g revokes
  · cases hr
    exact fun g revokes => (sameGrantsRevoke wf rfl revokes).elim

end Revocations

section Deletions

theorem subjectGrantsAnnounced {observedAt now rest db next events out} (numbered : Numbered db)
    (sites : ∀ r ∈ rest, db.hasSite r.tenantId r.siteId = true)
    (ok : revokeSubjectGrants observedAt now rest db events = .ok (next,out)) :
    (∀ row ∈ db.revocationOutbox, row ∈ next.revocationOutbox) ∧
    ∀ g ∈ rest, ∃ row ∈ next.revocationOutbox, db.outboxNextId ≤ row.id ∧ Covers row g := by
  induction rest generalizing db events with
  | nil =>
    cases ok
    exact ⟨fun _ mem => mem,fun g mem => by simp at mem⟩
  | cons r rest ih =>
    have site := sites r List.mem_cons_self
    simp only [revokeSubjectGrants] at ok
    split at ok
    · rename_i missing
      simp only [Db.hasSite] at site
      rw [show db.siteAt r.tenantId r.siteId = none from missing] at site
      cases site
    · simp only [bindOk] at ok
      obtain ⟨emitted,he,ok⟩ := ok
      have later := numberedInsert (by exact numbered) he
      obtain ⟨_,rfl⟩ := insertEventExact (by exact numbered) he
      obtain ⟨kept,covered⟩ := ih (by exact later)
        (by exact fun o mem => sites o (List.mem_cons_of_mem _ mem)) ok
      refine ⟨fun row mem => kept row (List.mem_append_left _ mem),?_⟩
      intro g mem
      rcases List.mem_cons.mp mem with rfl | mem
      · refine ⟨_,kept _ (List.mem_append_right _ (List.mem_singleton_self _)),Nat.le_refl _,rfl,rfl,?_⟩
        exact .inl ⟨rfl,rfl⟩
      · obtain ⟨row,hr,above,covers⟩ := covered g mem
        exact ⟨row,hr,Nat.le_of_succ_le above,covers⟩

theorem sitesAnnounced {observedAt now rest db next events out} (numbered : Numbered db)
    (ok : revokeSites observedAt now rest db events = .ok (next,out)) :
    (∀ row ∈ db.revocationOutbox, row ∈ next.revocationOutbox) ∧
    ∀ s ∈ rest, ∃ row ∈ next.revocationOutbox, db.outboxNextId ≤ row.id ∧
      row.tenantId = s.tenantId ∧ row.siteId = s.id ∧ row.eventType = .site := by
  induction rest generalizing db events with
  | nil =>
    cases ok
    exact ⟨fun _ mem => mem,fun s mem => by simp at mem⟩
  | cons s rest ih =>
    simp only [revokeSites,bindOk] at ok
    obtain ⟨emitted,he,ok⟩ := ok
    have later := numberedInsert (by exact numbered) he
    obtain ⟨_,rfl⟩ := insertEventExact (by exact numbered) he
    obtain ⟨kept,covered⟩ := ih (by exact later) ok
    refine ⟨fun row mem => kept row (List.mem_append_left _ mem),?_⟩
    intro o mem
    rcases List.mem_cons.mp mem with rfl | mem
    · exact ⟨_,kept _ (List.mem_append_right _ (List.mem_singleton_self _)),Nat.le_refl _,rfl,rfl,rfl⟩
    · obtain ⟨row,hr,above,key⟩ := covered o mem
      exact ⟨row,hr,Nat.le_of_succ_le above,key⟩

theorem revokeScopeAnnounced {job observedAt now db next counts} (wf : WellFormed db)
    (ok : revokeScope job observedAt now db = .ok (next,counts)) : RevocationsAnnounced db next := by
  intro g revokes
  unfold revokeScope at ok
  split at ok
  · have writes : Writes (ending fun o => o.subjectId = job.scopeId) db next :=
      revokeAccountWrites wf (fun _ subject => subject) ok
    obtain ⟨o,moved,subject⟩ := revokesEnds wf writes revokes
    simp only [revokeAccount,bindOk] at ok
    obtain ⟨⟨revoked,n⟩,hr,last⟩ := ok
    cases last
    have listed : g ∈ db.grants.filter fun g => g.subjectId == job.scopeId && g.status != .revoked := by
      refine List.mem_filter.mpr ⟨revokes.1,?_⟩
      rw [← (advancesKeeps moved).subjectId,subject,revokes.2.1]
      simp
    obtain ⟨row,hr,above,covers⟩ := (subjectGrantsAnnounced (by exact wf.numbered)
      (by exact fun r mem => wf.grantSite r (List.mem_filter.mp mem).1) hr).2 g listed
    exact ⟨row,memNewEvents.mpr ⟨hr,above⟩,covers⟩
  · simp only [revokeTenantScope,bindOk] at ok
    obtain ⟨⟨revoked,n⟩,hr,last⟩ := ok
    cases last
    have writes : Writes (ending fun o => ∃ s ∈ db.sites.filter fun s =>
        inTenantScope job s.tenantId (some s.id) && s.status != .deleted,
        siteGrant s.tenantId s.id o = true) db revoked :=
      revokeSitesWrites (fun s mem o hit => ⟨s,mem,hit⟩) hr
    have reached : Revokes db revoked g := revokes
    obtain ⟨o,moved,s,listed,hit⟩ := revokesEnds wf writes reached
    simp only [siteGrant,Bool.and_eq_true,beq_iff_eq] at hit
    have same := advancesKeeps moved
    obtain ⟨row,mem,above,tenant,site,type⟩ := (sitesAnnounced (by exact wf.numbered) hr).2 s listed
    refine ⟨row,memNewEvents.mpr ⟨mem,above⟩,?_,?_,.inr type⟩
    · rw [tenant,← hit.1.1,same.tenantId]
    · rw [site,← hit.1.2,same.siteId]

theorem purgeAnnounced {job db next} (wf : WellFormed db) (ok : purgeScope job db = .ok next) :
    RevocationsAnnounced db next := by
  intro g revokes
  -- A purge removes rows and changes none.
  have kept : ∀ r ∈ next.grants, r ∈ db.grants := by
    unfold purgeScope at ok
    split at ok
    · simp only [purgeAccount,bindOk] at ok
      obtain ⟨_,_,last⟩ := ok
      cases last
      exact fun r mem => (memDeleteWhere.mp mem).1
    · cases ok
      exact fun r mem => (memDeleteWhere.mp mem).1
  obtain ⟨mem,active,r,after,named,revoked⟩ := revokes
  rw [sameGrant wf (kept r after) mem named,active] at revoked
  cases revoked

theorem advanceAnnounced {jobId observedAt now db} (wf : WellFormed db) :
    RevocationsAnnounced db (advanceDeletionJob jobId observedAt now db).1 := by
  have quiet : ∀ next : Db, next.grants = db.grants → RevocationsAnnounced db next :=
    fun next same g revokes => (sameGrantsRevoke wf same revokes).elim
  unfold advanceDeletionJob
  split
  · rename_i done ok
    obtain ⟨next,out⟩ := done
    simp only [advanceBody,bindOk,orFailOk] at ok
    obtain ⟨job,_,ok⟩ := ok
    split at ok
    · cases ok
      exact quiet _ rfl
    · cases ok
      exact quiet _ rfl
    · simp only [firstPhase,bindOk] at ok
      obtain ⟨⟨revoked,counts⟩,hr,last⟩ := ok
      cases last
      have announced := revokeScopeAnnounced wf hr
      exact fun g revokes => announced g revokes
    · split at ok
      · cases ok
        exact quiet _ rfl
      · simp only [purgePhase,bindOk] at ok
        obtain ⟨purged,hp,last⟩ := ok
        cases last
        have announced := purgeAnnounced wf hp
        exact fun g revokes => announced g revokes
  · exact quiet _ rfl

end Deletions

/- An operation announces what it revokes: the repository's own revoke selects no active
grant, and a replayed family names the site of its grant. -/
def announces (db : Db) (e : Event) : Prop := match e.op with
  | .revoke context tenant grantId _ =>
    ∀ g ∈ db.grants, g.status = .active → repositoryTarget context tenant grantId db g = false
  | .rotate target expectedGeneration observedAt =>
    ∀ family ∈ replayedFamily target expectedGeneration observedAt db,
      db.hasSite family.tenantId family.siteId = true →
        ∀ g ∈ db.grants, g.status = .active → liveGrant family.tenantId family.grantId g = true →
          g.siteId = family.siteId
  | _ => True

theorem rotateStuck {target expectedGeneration observedAt now db family}
    (replayed : replayedFamily target expectedGeneration observedAt db = some family)
    (missing : db.siteAt family.tenantId family.siteId = none) :
    rotate target expectedGeneration observedAt now db = .error (raiseException "refresh_family_site_missing") := by
  obtain ⟨listed,conditions⟩ := Option.filter_eq_some_iff.mp replayed
  simp only [Bool.and_eq_true,decide_eq_true_eq] at conditions
  obtain ⟨⟨⟨live,least⟩,fits⟩,older⟩ := conditions
  obtain ⟨read,spelled,found⟩ := Option.bind_eq_some_iff.mp listed
  rw [rotateRuns spelled least fits]
  unfold rotateRefreshFamily
  rw [found]
  simp only [live,if_true]
  rw [if_neg (by omega),if_pos older,missing]
  rfl

section Exceptions
variable {db : Db} (wf : WellFormed db)
include wf

theorem repositoryRevokeAnnounced {context tenant grantId reason now} :
    RevocationsAnnounced db (Grants.revoke context tenant grantId reason now db).1 ↔
      ∀ g ∈ db.grants, g.status = .active → repositoryTarget context tenant grantId db g = false := by
  constructor
  · intro announced g mem active
    by_contra chosen
    have hit : repositoryTarget context tenant grantId db g = true := by simpa using chosen
    obtain ⟨row,new,_⟩ := announced g ⟨mem,active,_,updatedRow mem hit,rfl,rfl⟩
    obtain ⟨old,above⟩ := memNewEvents.mp new
    have bound := wf.numbered row old
    omega
  · intro none g revokes
    obtain ⟨mem,active,r,after,named,revoked⟩ := revokes
    obtain ⟨o,ho,rfl⟩ := memUpdateWhere.mp after
    have same : o = g := by
      refine sameGrant wf ho mem ?_
      rw [← named]
      split <;> rfl
    subst same
    rw [if_neg (by rw [none o mem active]; decide),active] at revoked
    cases revoked

def replayEvent (family : RefreshFamily) (site : Site) : NewEvent :=
  ⟨family.tenantId,family.siteId,site.resourceUri,.grant,some family.grantId,none,"refresh_replay"⟩

theorem rotateReplays (now : Time) {target expectedGeneration observedAt family site}
    (replayed : replayedFamily target expectedGeneration observedAt db = some family)
    (known : db.siteAt family.tenantId family.siteId = some site) :
    ∃ next, rotate target expectedGeneration observedAt now db = .ok (next,.replay) ∧
      insertEvent .raise (replayEvent family site) now (replayRevoked family family.familyId observedAt db) = .ok next := by
  obtain ⟨listed,conditions⟩ := Option.filter_eq_some_iff.mp replayed
  simp only [Bool.and_eq_true,decide_eq_true_eq] at conditions
  obtain ⟨⟨⟨live,least⟩,fits⟩,older⟩ := conditions
  obtain ⟨read,spelled,found⟩ := Option.bind_eq_some_iff.mp listed
  have named : family.familyId = read := by simpa using List.find?_some found
  have tenant : db.hasTenant family.tenantId = true := by
    obtain ⟨mem,same,_⟩ := siteAtSome known
    rw [← same]
    exact wf.siteTenant site mem
  have numbered : Numbered (replayRevoked family family.familyId observedAt db) := wf.numbered
  have emitted := @insertEventOk .raise (replayEvent family site) now _ numbered tenant
  refine ⟨_,?_,emitted⟩
  rw [rotateRuns spelled least fits]
  unfold rotateRefreshFamily
  rw [found]
  simp only [live,if_true]
  rw [if_neg (by omega),if_pos older,known,← named]
  simp only [orFail,bind,Except.bind]
  rw [show (⟨family.tenantId,family.siteId,site.resourceUri,.grant,some family.grantId,none,"refresh_replay"⟩ :
    NewEvent) = replayEvent family site from rfl,emitted]

theorem rotateAnnounced {target expectedGeneration observedAt now} :
    RevocationsAnnounced db (settle db (rotate target expectedGeneration observedAt now db)) ↔
      ∀ family ∈ replayedFamily target expectedGeneration observedAt db,
        db.hasSite family.tenantId family.siteId = true →
          ∀ g ∈ db.grants, g.status = .active → liveGrant family.tenantId family.grantId g = true →
            g.siteId = family.siteId := by
  constructor
  · intro announced family replayed known g mem active chosen
    obtain ⟨site,hs⟩ := Option.isSome_iff_exists.mp known
    obtain ⟨next,ok,emitted⟩ := rotateReplays wf now replayed hs
    rw [ok] at announced
    have numbered : Numbered (replayRevoked family family.familyId observedAt db) := wf.numbered
    obtain ⟨_,rfl⟩ := insertEventExact numbered emitted
    obtain ⟨row,new,_,covers,_⟩ := announced g ⟨mem,active,_,updatedRow mem chosen,rfl,rfl⟩
    obtain ⟨old,above⟩ := memNewEvents.mp new
    rcases List.mem_append.mp old with old | fresh
    · have bound := wf.numbered row old
      omega
    · rw [List.mem_singleton.mp fresh] at covers
      exact covers.symm
  · intro sites g revokes
    rcases settleCases db (rotate target expectedGeneration observedAt now db) with same | ⟨next,out,ok,done⟩
    · rw [same] at revokes
      exact (sameGrantsRevoke wf rfl revokes).elim
    · rw [done] at revokes ⊢
      have writes : Writes (ending fun o => ∃ family, replayedFamily target expectedGeneration observedAt db =
          some family ∧ liveGrant family.tenantId family.grantId o = true) db next :=
        rotateWrites (fun family o replayed chosen => ⟨family,replayed,chosen⟩) ok
      obtain ⟨o,moved,family,replayed,chosen⟩ := revokesEnds wf writes revokes
      simp only [liveGrant,Bool.and_eq_true,beq_iff_eq] at chosen
      have same := advancesKeeps moved
      cases known : db.siteAt family.tenantId family.siteId with
      | none =>
        rw [rotateStuck replayed known] at ok
        cases ok
      | some site =>
        obtain ⟨after,run,emitted⟩ := rotateReplays wf now replayed known
        rw [ok] at run
        cases run
        have at_ : g.siteId = family.siteId := by
          refine sites family replayed (by simp [Db.hasSite,known]) g revokes.1 revokes.2.1 ?_
          simp [liveGrant,activeLive revokes.2.1,← chosen.1.1,← chosen.1.2,same.tenantId,same.id]
        refine emittedAnnounces emitted wf.numbered rfl ?_ at_.symm (.inl ⟨rfl,?_⟩)
        · exact chosen.1.1.symm.trans same.tenantId
        · exact congrArg some (chosen.1.2.symm.trans same.id)

end Exceptions

theorem revocationsAnnounced (node : Node) (es : List Event) (e : Event) :
    RevocationsAnnounced (run (step node) Db.empty es) (step node (run (step node) Db.empty es) e) ↔
      announces (run (step node) Db.empty es) e := by
  have wf := reachableWellFormed node es
  generalize run (step node) Db.empty es = db at wf ⊢
  have quiet : (∀ o, ¬(footprint node e db).opens o) → (∀ o, ¬endsGrant node e db o) →
      RevocationsAnnounced db (step node db e) :=
    fun opens ends => harmless wf (stepWrites wf) opens ends
  have settled : (∀ next reply, exec node e db = .ok (next,reply) → RevocationsAnnounced db next) →
      RevocationsAnnounced db (step node db e) := by
    intro each
    rcases settleCases db (exec node e db) with same | ⟨next,reply,ok,done⟩
    · rw [step,same]
      exact fun g revokes => (sameGrantsRevoke wf rfl revokes).elim
    · rw [step,done]
      exact each next reply ok
  obtain ⟨now,op⟩ := e
  cases op with
  | createPending context record =>
    refine iff_of_true (settled ?_) trivial
    intro next reply ok g revokes
    obtain ⟨out,created,_⟩ := answeredOk ok
    rcases createPendingCases created with ⟨_,_,_,_,rfl,_⟩ | ⟨_,_,rfl,_⟩
    · exact (sameGrantsRevoke wf rfl revokes).elim
    · obtain ⟨mem,active,r,after,named,revoked⟩ := revokes
      rcases List.mem_append.mp after with old | new
      · rw [sameGrant wf old mem named,active] at revoked
        cases revoked
      · rw [List.mem_singleton.mp new] at revoked
        cases revoked
  | deny context tenant grantId key proof =>
    refine iff_of_true (settled ?_) trivial
    intro next reply ok g revokes
    have writes : Writes (ending fun o => o.status = .pending) db next :=
      denyWrites (fun o _ chosen => by
        simp only [pendingTarget,Bool.and_eq_true,beq_iff_eq] at chosen
        exact chosen.1.1.2) trivial (silentOk ok)
    obtain ⟨o,moved,pending⟩ := revokesEnds wf writes revokes
    cases moved with
    | same => rw [revokes.2.1] at pending; cases pending
    | approve => cases pending
    | revoke => cases pending
  | revoke context tenant grantId reason => exact repositoryRevokeAnnounced wf
  | revokeGrantWithEvent context tenant grantId =>
    refine iff_of_true (settled fun next reply ok => ?_) trivial
    obtain ⟨_,run,_⟩ := answeredOk ok
    exact userRevocationAnnounced wf run
  | disconnectSiteWithEvent context tenant site =>
    refine iff_of_true (settled fun next reply ok => ?_) trivial
    obtain ⟨_,run,_⟩ := answeredOk ok
    exact disconnectAnnounced wf run
  | revokeRefreshGrant grantId observedAt reason =>
    refine iff_of_true (settled fun next reply ok => ?_) trivial
    obtain ⟨_,run,_⟩ := answeredOk ok
    exact refreshRevocationAnnounced wf run
  | rotate target expectedGeneration observedAt =>
    have same : step node db ⟨now,.rotate target expectedGeneration observedAt⟩ =
        settle db (rotate target expectedGeneration observedAt now db) := by
      simp only [step,exec]
      cases rotate target expectedGeneration observedAt now db <;> rfl
    rw [same]
    exact rotateAnnounced wf
  | consume adapter id dateNow =>
    refine iff_of_true (settled fun next reply ok => ?_) trivial
    obtain ⟨_,run,_⟩ := answeredOk ok
    exact consumeAnnounced wf run
  | revokeByGrantId adapter reason grantId =>
    refine iff_of_true (settled fun next reply ok => ?_) trivial
    exact revokeByGrantIdAnnounced wf (silentOk ok)
  | advanceDeletionJob jobId observedAt =>
    refine iff_of_true (settled fun next reply ok => ?_) trivial
    cases ok
    exact advanceAnnounced wf
  | _ => exact iff_of_true (quiet (fun _ opened => opened) fun _ ended => ended) trivial

/- The repository's revoke of an active grant emits nothing. -/
theorem repositoryRevokeSilent : ¬RevocationsAnnounced (run (step (sampleNode [] [])) Db.empty approvedHistory)
    (step (sampleNode [] []) (run (step (sampleNode [] [])) Db.empty approvedHistory)
      ⟨seconds 30,.revoke sampleContext sampleTenant "grant_0001" "user_request"⟩) := by
  intro announced
  obtain ⟨row,new,_⟩ := announced approvedSample ⟨by decide,rfl,by decide⟩
  have none : newEvents (run (step (sampleNode [] [])) Db.empty approvedHistory)
      (step (sampleNode [] []) (run (step (sampleNode [] [])) Db.empty approvedHistory)
        ⟨seconds 30,.revoke sampleContext sampleTenant "grant_0001" "user_request"⟩) = [] := by decide
  rw [none] at new
  cases new

end Wepuu.RevocationCoverage
