import Wepuu.DeletionCompletes

/-! Where the sites of the next state come from: each was there, as it is or not yet revoked,
or a pairing opens it. -/
namespace Wepuu.SiteRows
open AccountReferences Deletion DeletionCompletes Footprint Frames Grants NodeApi Outbox Pairing Relational Runs Schema
open Statements Tenancy Wepuu.System

variable {node : Node} {e : Event} {db next : Db} {observedAt now : Time}

def SiteKept (db : Db) (s : Site) : Prop :=
  ∃ o ∈ db.sites, o.tenantId = s.tenantId ∧ o.id = s.id ∧ o.resourceUri = s.resourceUri ∧ (s = o ∨ s.status = .revoked)

theorem siteSame {s : Site} (mem : s ∈ db.sites) : SiteKept db s := ⟨s,mem,rfl,rfl,rfl,.inl rfl⟩

theorem siteKeptTrans {mid : Db} {s : Site} (later : SiteKept mid s) (earlier : ∀ o ∈ mid.sites, SiteKept db o) :
    SiteKept db s := by
  obtain ⟨o,ho,tenant,id,resource,same⟩ := later
  obtain ⟨p,hp,tenantBefore,idBefore,resourceBefore,before⟩ := earlier o ho
  refine ⟨p,hp,tenantBefore.trans tenant,idBefore.trans id,resourceBefore.trans resource,?_⟩
  rcases same with rfl | revoked
  · exact before
  · exact .inr revoked

theorem siteRevoked {p : Site → Bool} {at_ : Time} {s : Site} (mem : s ∈ updateWhere p (revokedSite at_) db.sites) :
    SiteKept db s := by
  obtain ⟨o,ho,rfl⟩ := memUpdateWhere.mp mem
  by_cases chosen : p o = true
  · rw [if_pos chosen]
    exact ⟨o,ho,rfl,rfl,rfl,.inr rfl⟩
  · rw [if_neg chosen]
    exact siteSame ho

theorem insertEventSites {onConflict : OnConflict} {event : NewEvent} (ok : insertEvent onConflict event now db = .ok next) :
    next.sites = db.sites := insertEventOnly ok .sites (by decide)

theorem insertEventGrants {onConflict : OnConflict} {event : NewEvent} (ok : insertEvent onConflict event now db = .ok next) :
    next.grants = db.grants := insertEventOnly ok .grants (by decide)

/- Once every row of a key is revoked it stays so, and each turn of the loop revokes its key. -/
def SiteDown (db : Db) (tenant : TenantId) (site : SiteId) : Prop :=
  ∀ s ∈ db.sites, s.tenantId = tenant → s.id = site → s.status = .revoked
def SiteGrantsDown (db : Db) (tenant : TenantId) (site : SiteId) : Prop :=
  ∀ g ∈ db.grants, g.tenantId = tenant → g.siteId = site → g.status = .revoked

theorem revokeSitesDown {rest : List Site} {events out : Nat} {tenant : TenantId} {site : SiteId}
    (ok : revokeSites observedAt now rest db events = .ok (next,out)) :
    (∀ s ∈ next.sites, SiteKept db s) ∧
    ((∃ s ∈ rest, s.tenantId = tenant ∧ s.id = site) ∨ (SiteDown db tenant site ∧ SiteGrantsDown db tenant site) →
      SiteDown next tenant site ∧ SiteGrantsDown next tenant site) := by
  induction rest generalizing db events with
  | nil =>
    cases ok
    refine ⟨fun s mem => siteSame mem,?_⟩
    rintro (⟨s,mem,_⟩ | down)
    · exact absurd mem List.not_mem_nil
    · exact down
  | cons head rest ih =>
    simp only [revokeSites,bindOk] at ok
    obtain ⟨emitted,inserted,ok⟩ := ok
    have sites : emitted.sites = updateWhere (siteIn head.tenantId head.id) (revokedSite observedAt) db.sites :=
      insertEventSites inserted
    have grants : emitted.grants = db.grants := by
      have same := insertEventGrants inserted
      exact same
    obtain ⟨kept,down⟩ := ih ok
    refine ⟨fun s mem => siteKeptTrans (kept s mem) fun o ho => ?_,fun before => down ?_⟩
    · exact @siteRevoked db _ _ _ (sites ▸ ho)
    · -- the key is still to come, is the one of this turn, or was down before it
      by_cases ahead : ∃ s ∈ rest, s.tenantId = tenant ∧ s.id = site
      · exact .inl ahead
      refine .inr ⟨?_,?_⟩
      · intro s mem ownTenant ownId
        have stored : s ∈ updateWhere (siteIn head.tenantId head.id) (revokedSite observedAt) db.sites := sites ▸ mem
        obtain ⟨o,ho,rfl⟩ := memUpdateWhere.mp stored
        by_cases chosen : siteIn head.tenantId head.id o = true
        · rw [if_pos chosen]
          rfl
        · rw [if_neg chosen] at ownTenant ownId ⊢
          rcases before with ⟨s,listed,sameTenant,sameId⟩ | ⟨siteDown,_⟩
          · rcases List.mem_cons.mp listed with rfl | later
            · exact absurd (by simp [siteIn,ownTenant,ownId,sameTenant,sameId]) chosen
            · exact absurd ⟨s,later,sameTenant,sameId⟩ ahead
          · exact siteDown o ho ownTenant ownId
      · intro g mem ownTenant ownSite
        obtain ⟨o,ho,rfl⟩ := memUpdateWhere.mp mem
        rw [grants] at ho
        by_cases chosen : siteGrant head.tenantId head.id o = true
        · rw [if_pos chosen]
          rfl
        · rw [if_neg chosen] at ownTenant ownSite ⊢
          rcases before with ⟨s,listed,sameTenant,sameId⟩ | ⟨_,grantsDown⟩
          · rcases List.mem_cons.mp listed with rfl | later
            · simpa [siteGrant,ownTenant,ownSite,sameTenant,sameId] using chosen
            · exact absurd ⟨s,later,sameTenant,sameId⟩ ahead
          · exact grantsDown o ho ownTenant ownSite

def opensSite (e : Event) (s : Site) : Prop :=
  ∃ context record proof key, e.op = .completePairing context record proof s.id key ∧ s.tenantId = record.tenantId ∧
    s.status = .active

theorem effectSites {jobId : JobId} (effect : Effect jobId observedAt now db next) :
    ∀ s ∈ next.sites, SiteKept db s := by
  cases effect with
  | idle _ => exact fun s mem => siteSame mem
  | revoked _ _ ok =>
    unfold revokeScope at ok
    split at ok
    · have same := revokeAccountOnly ok .sites (by decide)
      intro s mem
      exact siteSame (same ▸ mem)
    · simp only [revokeTenantScope,bindOk] at ok
      obtain ⟨⟨revoked,count⟩,loop,last⟩ := ok
      cases last
      exact (@revokeSitesDown _ _ _ _ _ _ _ "" "" loop).1
  | purged _ _ ok =>
    unfold purgeScope at ok
    split at ok
    · simp only [purgeAccount,bindOk,ensureOk] at ok
      obtain ⟨_,_,last⟩ := ok
      cases last
      exact fun s mem => siteSame mem
    · cases ok
      exact fun s mem => siteSame (memDeleteWhere.mp mem).1

theorem stepSites (wf : WellFormed db) {s : Site} (mem : s ∈ (step node db e).sites) :
    SiteKept db s ∨ (opensSite e s ∧ ∀ o ∈ db.sites, o.tenantId = s.tenantId → o.id ≠ s.id) := by
  by_cases untouched : Table.sites ∈ touches e.op
  · rcases settleCases db (exec node e db) with same | ⟨next,reply,ok,done⟩
    · rw [step,same] at mem
      exact .inl (siteSame mem)
    obtain ⟨now,op⟩ := e
    cases op <;> try (simp [touches] at untouched; done)
    case completePairing context record proof site key =>
      rw [step,done] at mem
      have made := silentOk ok
      simp only [complete] at made
      split at made
      · split at made <;> cases made
        exact .inl (siteSame mem)
      · simp only [bindOk,ensureOk,orFailOk] at made
        obtain ⟨url,_,_,_,_,_,sites,inserted,_,_,_,_,recorded⟩ := made
        obtain ⟨free,rfl⟩ := insertRowExact.mp inserted
        obtain ⟨_,_,_,_,rfl⟩ := insertIdempotencyExact recorded
        rcases List.mem_append.mp mem with old | new
        · exact .inl (siteSame old)
        · rw [List.mem_singleton.mp new]
          refine .inr ⟨⟨context,record,proof,key,rfl,rfl,rfl⟩,fun o ho tenant id => ?_⟩
          have apart := free o ho
          simp [siteClash,pairedSite,tenant,id] at apart
    case disconnectSiteWithEvent context tenant site =>
      rw [step,done] at mem
      obtain ⟨_,made,_⟩ := answeredOk ok
      unfold disconnectSiteWithEvent at made
      split at made
      · split at made
        · cases made
          exact .inl (siteSame mem)
        · simp only [bindOk] at made
          obtain ⟨emitted,inserted,last⟩ := made
          cases last
          rw [insertEventSites inserted] at mem
          exact .inl (@siteRevoked db _ _ _ mem)
      · cases made
        exact .inl (siteSame mem)
    case advanceDeletionJob jobId observedAt =>
      exact .inl (effectSites (advanceEffect jobId observedAt now wf) s mem)
  · have same : (step node db e).sites = db.sites := stepOnly .sites untouched
    exact .inl (siteSame (same ▸ mem))

theorem reachableSites (node : Node) (es : List Event) :
    ∀ s ∈ (run (step node) Db.empty es).sites, s.status ≠ .deleted := by
  refine (@invariantAlways _ _ _ (fun db => WellFormed db ∧ ∀ s ∈ db.sites, s.status ≠ .deleted) _ ?_
    ⟨wellFormedEmpty,fun s mem => absurd mem List.not_mem_nil⟩ es).2
  rintro db e ⟨wf,known⟩
  refine ⟨stepWellFormed wf,fun s mem => ?_⟩
  rcases stepSites wf mem with ⟨o,ho,_,_,_,rfl | revoked⟩ | ⟨⟨_,_,_,_,_,_,active⟩,_⟩
  · exact known s ho
  · rw [revoked]
    decide
  · rw [active]
    decide

end Wepuu.SiteRows
