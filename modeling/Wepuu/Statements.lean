import Mathlib.Logic.Relation
import Wepuu.Outbox

/-! What single statements do to the tables that the results are about, with the
constraints the schema enforces on each. An operation is a chain of them; its scope says
which rows it may insert, end or delete. -/
namespace Wepuu.Statements
open Outbox Relational Schema

/- pending → active, or any live status → revoked with its time and reason. A revoked row
is never written again. -/
inductive Advances : Grant → Grant → Prop
  | same (g : Grant) : Advances g g
  | approve {g : Grant} (pending : g.status = .pending) : Advances g { g with status := .active }
  | revoke {g : Grant} (notRevoked : g.status ≠ .revoked) (at_ : Time) (reason : String) :
      Advances g { g with status := .revoked, revokedAt := some at_, revocationReason := some reason }

theorem advancesTrans {a b c : Grant} (left : Advances a b) (right : Advances b c) : Advances a c := by
  cases left with
  | same => exact right
  | approve pending =>
    cases right with
    | same => exact .approve pending
    | approve active => cases active
    | revoke _ at_ reason => exact .revoke (by rw [pending]; decide) at_ reason
  | revoke notRevoked at_ reason =>
    cases right with
    | same => exact .revoke notRevoked at_ reason
    | approve pending => cases pending
    | revoke again => exact absurd rfl again

structure SameGrant (g r : Grant) : Prop where
  tenantId : r.tenantId = g.tenantId
  id : r.id = g.id
  siteId : r.siteId = g.siteId
  subjectId : r.subjectId = g.subjectId
  clientId : r.clientId = g.clientId
  scopes : r.scopes = g.scopes
  consentChallengeHash : r.consentChallengeHash = g.consentChallengeHash
  consentExpiresAt : r.consentExpiresAt = g.consentExpiresAt
  consentVersion : r.consentVersion = g.consentVersion
  createdAt : r.createdAt = g.createdAt

theorem advancesKeeps {g r : Grant} (moved : Advances g r) : SameGrant g r := by
  cases moved <;> exact ⟨rfl,rfl,rfl,rfl,rfl,rfl,rfl,rfl,rfl,rfl⟩

theorem revokedStays {g r : Grant} (moved : Advances g r) (revoked : g.status = .revoked) : r = g := by
  cases moved with
  | same => rfl
  | approve pending => rw [revoked] at pending; cases pending
  | revoke notRevoked => exact absurd revoked notRevoked

theorem advancesLive {g r : Grant} (moved : Advances g r) (live : r.live = true) : g.live = true := by
  cases moved with
  | same => exact live
  | approve pending => simp [Grant.live,pending]
  | revoke => simp [Grant.live] at live

structure SameSecret (a b : SecretArtifact) : Prop where
  model : b.model = a.model
  lookupVersion : b.lookupVersion = a.lookupVersion
  artifactHash : b.artifactHash = a.artifactHash
  tenantId : b.tenantId = a.tenantId
  payload : b.payload = a.payload
  consumed : a.consumedAt.isSome = true → b.consumedAt = a.consumedAt

structure SameEvent (a b : OutboxRow) : Prop where
  id : b.id = a.id
  tenantId : b.tenantId = a.tenantId
  siteId : b.siteId = a.siteId
  eventSequence : b.eventSequence = a.eventSequence
  eventType : b.eventType = a.eventType
  grantId : b.grantId = a.grantId

structure Elsewhere (db next : Db) : Prop where
  grants : next.grants = db.grants
  sites : next.sites = db.sites
  outbox : next.revocationOutbox = db.revocationOutbox
  outboxNextId : next.outboxNextId = db.outboxNextId
  records : next.idempotencyRecords = db.idempotencyRecords
  secrets : next.secretArtifacts = db.secretArtifacts
  tenants : ∀ t, db.hasTenant t = true → next.hasTenant t = true

structure Scope where
  opens : Grant → Prop
  ends : Grant → Prop
  records : IdempotencyRecord → Prop
  forgets : IdempotencyRecord → Prop
  stores : SecretArtifact → Prop
  expires : Time → Prop
  purges : OutboxRow → Prop

inductive Write (scope : Scope) : Db → Db → Prop
  | elsewhere {db next : Db} (same : Elsewhere db next) : Write scope db next
  | openGrant {db : Db} {g : Grant} (allowed : scope.opens g) (pending : g.status = .pending)
      (free : ∀ r ∈ db.grants, grantClash g r = false) (site : db.hasSite g.tenantId g.siteId = true) :
      Write scope db { db with grants := db.grants ++ [g] }
  | moveGrants {db : Db} (p : Grant → Bool) (f : Grant → Grant)
      (moves : ∀ g ∈ db.grants, p g = true → Advances g (f g))
      (allowed : ∀ g ∈ db.grants, p g = true → g.live = true → (f g).live = false → scope.ends g) :
      Write scope db { db with grants := updateWhere p f db.grants }
  | dropGrants {db : Db} (p : Grant → Bool)
      (allowed : ∀ g ∈ db.grants, p g = true → g.live = true → scope.ends g) :
      Write scope db { db with grants := deleteWhere p db.grants }
  | openSite {db : Db} {s : Site} (free : ∀ r ∈ db.sites, siteClash s r = false)
      (tenant : db.hasTenant s.tenantId = true) : Write scope db { db with sites := db.sites ++ [s] }
  | closeSites {db : Db} (p : Site → Bool) (at_ : Site → Time) :
      Write scope db { db with
        sites := updateWhere p (fun s => { s with status := .revoked, revokedAt := some (at_ s) }) db.sites }
  | dropSites {db : Db} (p : Site → Bool)
      (unused : ∀ g ∈ db.grants, ∀ s ∈ db.sites, p s = true → ¬(s.tenantId = g.tenantId ∧ s.id = g.siteId)) :
      Write scope db { db with sites := deleteWhere p db.sites }
  | dropTenants {db : Db} (p : Tenant → Bool)
      (unused : ∀ s ∈ db.sites, ∀ t ∈ db.tenants, p t = true → t.id ≠ s.tenantId) :
      Write scope db { db with tenants := deleteWhere p db.tenants }
  | emit {db next : Db} {onConflict : OnConflict} {event : NewEvent} {now : Time}
      (ok : insertEvent onConflict event now db = .ok next) : Write scope db next
  | moveEvents {db : Db} (p : OutboxRow → Bool) (f : OutboxRow → OutboxRow) (keeps : ∀ r, SameEvent r (f r)) :
      Write scope db { db with revocationOutbox := updateWhere p f db.revocationOutbox }
  | dropEvents {db : Db} (p : OutboxRow → Bool) (allowed : ∀ r ∈ db.revocationOutbox, p r = true → scope.purges r) :
      Write scope db { db with revocationOutbox := deleteWhere p db.revocationOutbox }
  | record {db : Db} {r : IdempotencyRecord} (allowed : scope.records r)
      (free : ∀ o ∈ db.idempotencyRecords, idempotencyClash r o = false) :
      Write scope db { db with idempotencyRecords := db.idempotencyRecords ++ [r] }
  | dropRecords {db : Db} (p : IdempotencyRecord → Bool)
      (allowed : ∀ r ∈ db.idempotencyRecords, p r = true → scope.forgets r) :
      Write scope db { db with idempotencyRecords := deleteWhere p db.idempotencyRecords }
  | store {db : Db} {row : SecretArtifact} (allowed : scope.stores row) :
      Write scope db { db with
        secretArtifacts := upsertRow secretClash row (fun _ => row) db.secretArtifacts }
  | moveSecrets {db : Db} (p : SecretArtifact → Bool) (f : SecretArtifact → SecretArtifact)
      (keeps : ∀ a ∈ db.secretArtifacts, p a = true → SameSecret a (f a))
      (allowed : ∀ a ∈ db.secretArtifacts, p a = true →
        (f a).expiresAt = a.expiresAt ∨ ∃ t, (f a).expiresAt = some t ∧ scope.expires t) :
      Write scope db { db with secretArtifacts := updateWhere p f db.secretArtifacts }
  | dropSecrets {db : Db} (p : SecretArtifact → Bool) :
      Write scope db { db with secretArtifacts := deleteWhere p db.secretArtifacts }

abbrev Writes (scope : Scope) : Db → Db → Prop := Relation.ReflTransGen (Write scope)

/- What the constraints of the schema and the code of the writers keep true of the tables. -/
structure WellFormed (db : Db) : Prop where
  grantIndex : Indexed grantClash db.grants
  grantSite : ∀ g ∈ db.grants, db.hasSite g.tenantId g.siteId = true
  neverSuspended : ∀ g ∈ db.grants, g.status ≠ .suspended
  siteIndex : Indexed siteClash db.sites
  siteTenant : ∀ s ∈ db.sites, db.hasTenant s.tenantId = true
  outboxIndex : Indexed outboxClash db.revocationOutbox
  numbered : Numbered db
  recordIndex : Indexed idempotencyClash db.idempotencyRecords
  secretIndex : Indexed secretClash db.secretArtifacts

theorem wellFormedEmpty : WellFormed Db.empty where
  grantIndex := indexedNil _
  grantSite := by simp [Db.empty]
  neverSuspended := by simp [Db.empty]
  siteIndex := indexedNil _
  siteTenant := by simp [Db.empty]
  outboxIndex := indexedNil _
  numbered := by simp [Numbered,Db.empty]
  recordIndex := indexedNil _
  secretIndex := indexedNil _

theorem grantClashSymm (a b : Grant) : grantClash a b = grantClash b a := by
  simp only [grantClash,Bool.beq_comm (a := a.id),Bool.beq_comm (a := a.tenantId),
    Bool.beq_comm (a := a.siteId),Bool.beq_comm (a := a.subjectId),Bool.beq_comm (a := a.clientId),
    Bool.and_comm a.live b.live]

theorem sameGrant {db : Db} (wf : WellFormed db) {a b : Grant} (left : a ∈ db.grants) (right : b ∈ db.grants)
    (named : a.id = b.id) : a = b :=
  indexedEq wf.grantIndex grantClashSymm left right (by simp [grantClash,named])

theorem siteClashSymm (a b : Site) : siteClash a b = siteClash b a := by
  simp only [siteClash,Bool.beq_comm (a := a.id),Bool.beq_comm (a := a.tenantId),
    Bool.beq_comm (a := a.resourceUri),Bool.and_comm (siteLive a) (siteLive b)]

theorem outboxClashSymm (a b : OutboxRow) : outboxClash a b = outboxClash b a := by
  simp only [outboxClash,Bool.beq_comm (a := a.id),Bool.beq_comm (a := a.tenantId),
    Bool.beq_comm (a := a.siteId),Bool.beq_comm (a := a.eventSequence)]

theorem idempotencyClashSymm (a b : IdempotencyRecord) : idempotencyClash a b = idempotencyClash b a := by
  simp only [idempotencyClash,Bool.beq_comm (a := a.tenantId),Bool.beq_comm (a := a.operation),
    Bool.beq_comm (a := a.idempotencyKey)]

theorem secretClashSymm (a b : SecretArtifact) : secretClash a b = secretClash b a := by
  simp only [secretClash,Bool.beq_comm (a := a.model),Bool.beq_comm (a := a.lookupVersion),
    Bool.beq_comm (a := a.artifactHash)]

theorem hasTenantIff {db : Db} {tenant : TenantId} :
    db.hasTenant tenant = true ↔ ∃ t ∈ db.tenants, t.id = tenant := by
  simp only [Db.hasTenant,List.any_eq_true,beq_iff_eq]

theorem hasSiteIff {db : Db} {tenant : TenantId} {site : SiteId} :
    db.hasSite tenant site = true ↔ ∃ s ∈ db.sites, s.tenantId = tenant ∧ s.id = site := by
  simp only [Db.hasSite,Db.siteAt,List.find?_isSome,Bool.and_eq_true,beq_iff_eq]

theorem siteAtSome {db : Db} {tenant : TenantId} {site : SiteId} {s : Site}
    (found : db.siteAt tenant site = some s) : s ∈ db.sites ∧ s.tenantId = tenant ∧ s.id = site := by
  have key := List.find?_some found
  simp only [Bool.and_eq_true,beq_iff_eq] at key
  exact ⟨List.mem_of_find?_eq_some found,key⟩

theorem advancesClash {a a' b b' : Grant} (left : Advances a a') (right : Advances b b')
    (hit : grantClash a' b' = true) : grantClash a b = true := by
  have l := advancesKeeps left
  have r := advancesKeeps right
  simp only [grantClash,l.id,l.tenantId,l.siteId,l.subjectId,l.clientId,r.id,r.tenantId,r.siteId,
    r.subjectId,r.clientId,Bool.or_eq_true,Bool.and_eq_true] at hit ⊢
  rcases hit with id | ⟨⟨⟨⟨⟨la,lb⟩,t⟩,s⟩,u⟩,c⟩
  · exact .inl id
  · exact .inr ⟨⟨⟨⟨⟨advancesLive left la,advancesLive right lb⟩,t⟩,s⟩,u⟩,c⟩

theorem movedGrantIndex {rows : List Grant} {p : Grant → Bool} {f : Grant → Grant}
    (indexed : Indexed grantClash rows) (moves : ∀ g ∈ rows, p g = true → Advances g (f g)) :
    Indexed grantClash (updateWhere p f rows) := by
  refine List.pairwise_map.mpr (List.Pairwise.imp_of_mem ?_ indexed)
  intro a b ha hb free
  have moved : ∀ g ∈ rows, Advances g (if p g then f g else g) := by
    intro g hg
    split
    · exact moves g hg ‹_›
    · exact .same g
  by_contra hit
  have back := advancesClash (moved a ha) (moved b hb) (by simpa using hit)
  rw [free] at back
  contradiction

theorem notSuspended {g r : Grant} (moved : Advances g r) (before : g.status ≠ .suspended) :
    r.status ≠ .suspended := by
  cases moved with
  | same => exact before
  | approve => simp
  | revoke => simp

theorem sameSecretClash {a a' b b' : SecretArtifact} (left : SameSecret a a') (right : SameSecret b b') :
    secretClash a' b' = secretClash a b := by
  simp only [secretClash,left.model,left.lookupVersion,left.artifactHash,right.model,right.lookupVersion,
    right.artifactHash]

theorem sameSecretRefl (a : SecretArtifact) : SameSecret a a := ⟨rfl,rfl,rfl,rfl,rfl,fun _ => rfl⟩

theorem movedSecretIndex {rows : List SecretArtifact} {p : SecretArtifact → Bool}
    {f : SecretArtifact → SecretArtifact} (indexed : Indexed secretClash rows)
    (keeps : ∀ a ∈ rows, p a = true → SameSecret a (f a)) : Indexed secretClash (updateWhere p f rows) := by
  refine List.pairwise_map.mpr (List.Pairwise.imp_of_mem ?_ indexed)
  intro a b ha hb free
  have moved : ∀ r ∈ rows, SameSecret r (if p r then f r else r) := by
    intro r hr
    split
    · exact keeps r hr ‹_›
    · exact sameSecretRefl r
  rw [sameSecretClash (moved a ha) (moved b hb)]
  exact free

theorem storedSecretIndex {rows : List SecretArtifact} {row : SecretArtifact}
    (indexed : Indexed secretClash rows) :
    Indexed secretClash (upsertRow secretClash row (fun _ => row) rows) := by
  unfold upsertRow
  split
  · refine List.pairwise_map.mpr (List.Pairwise.imp ?_ indexed)
    intro a b free
    split <;> rename_i hitA <;> split <;> rename_i hitB
    · have same : secretClash a b = true := by
        simp only [secretClash,Bool.and_eq_true,beq_iff_eq] at hitA hitB ⊢
        obtain ⟨⟨m,v⟩,h⟩ := hitA
        obtain ⟨⟨m',v'⟩,h'⟩ := hitB
        exact ⟨⟨m.symm.trans m',v.symm.trans v'⟩,h.symm.trans h'⟩
      rw [free] at same
      contradiction
    · simpa using hitB
    · rw [secretClashSymm]
      simpa using hitA
    · exact free
  · rename_i none
    refine indexedAppend indexed secretClashSymm ?_
    intro r mem
    by_contra hit
    exact none (List.any_eq_true.mpr ⟨r,mem,by simpa using hit⟩)

theorem closedSiteIndex {rows : List Site} {p : Site → Bool} {at_ : Site → Time}
    (indexed : Indexed siteClash rows) : Indexed siteClash (updateWhere p
      (fun s => { s with status := .revoked, revokedAt := some (at_ s) }) rows) := by
  refine indexedUpdate indexed ?_
  intro a b hit
  have key : ∀ s : Site,
      let s' := if p s = true then { s with status := .revoked, revokedAt := some (at_ s) } else s
      s'.tenantId = s.tenantId ∧ s'.id = s.id ∧ s'.resourceUri = s.resourceUri ∧
        (siteLive s' = true → siteLive s = true) := by
    intro s
    by_cases chosen : p s = true
    · simp [chosen,siteLive]
    · simp [chosen]
  obtain ⟨ta,ia,ra,la⟩ := key a
  obtain ⟨tb,ib,rb,lb⟩ := key b
  simp only [siteClash,ta,ia,ra,tb,ib,rb,Bool.or_eq_true,Bool.and_eq_true] at hit ⊢
  rcases hit with same | ⟨⟨liveA,liveB⟩,resource⟩
  · exact .inl same
  · exact .inr ⟨⟨la liveA,lb liveB⟩,resource⟩

theorem sameEventRefl (a : OutboxRow) : SameEvent a a := ⟨rfl,rfl,rfl,rfl,rfl,rfl⟩

theorem movedOutboxIndex {rows : List OutboxRow} {p : OutboxRow → Bool} {f : OutboxRow → OutboxRow}
    (indexed : Indexed outboxClash rows) (keeps : ∀ r, SameEvent r (f r)) :
    Indexed outboxClash (updateWhere p f rows) := by
  refine indexedUpdate indexed ?_
  intro a b hit
  have moved : ∀ r, SameEvent r (if p r then f r else r) := by
    intro r
    split
    · exact keeps r
    · exact sameEventRefl r
  have l := moved a
  have r := moved b
  simpa only [outboxClash,l.id,l.tenantId,l.siteId,l.eventSequence,r.id,r.tenantId,r.siteId,
    r.eventSequence] using hit

theorem closedSiteKey {rows : List Site} {p : Site → Bool} {at_ : Site → Time} {tenant : TenantId}
    {site : SiteId} :
    (∃ s ∈ updateWhere p (fun s => { s with status := .revoked, revokedAt := some (at_ s) }) rows,
      s.tenantId = tenant ∧ s.id = site) ↔ ∃ s ∈ rows, s.tenantId = tenant ∧ s.id = site := by
  constructor
  · rintro ⟨s,mem,key⟩
    obtain ⟨o,ho,rfl⟩ := memUpdateWhere.mp mem
    refine ⟨o,ho,?_⟩
    split at key <;> exact key
  · rintro ⟨s,mem,key⟩
    refine ⟨_,memUpdateWhere.mpr ⟨s,mem,rfl⟩,?_⟩
    split <;> exact key

theorem writeKeeps {scope : Scope} {db next : Db} (wf : WellFormed db) (write : Write scope db next) :
    WellFormed next := by
  cases write with
  | elsewhere same =>
    have sites : ∀ t s, next.hasSite t s = db.hasSite t s := by
      intro t s
      simp only [Db.hasSite,Db.siteAt,same.sites]
    exact {
      grantIndex := by rw [same.grants]; exact wf.grantIndex
      grantSite := by
        intro g mem
        rw [same.grants] at mem
        rw [sites]
        exact wf.grantSite g mem
      neverSuspended := by rw [same.grants]; exact wf.neverSuspended
      siteIndex := by rw [same.sites]; exact wf.siteIndex
      siteTenant := by
        intro s mem
        rw [same.sites] at mem
        exact same.tenants _ (wf.siteTenant s mem)
      outboxIndex := by rw [same.outbox]; exact wf.outboxIndex
      numbered := by
        intro r mem
        rw [same.outbox] at mem
        rw [same.outboxNextId]
        exact wf.numbered r mem
      recordIndex := by rw [same.records]; exact wf.recordIndex
      secretIndex := by rw [same.secrets]; exact wf.secretIndex }
  | @openGrant g _ pending free site =>
    exact { wf with
      grantIndex := indexedAppend wf.grantIndex grantClashSymm free
      grantSite := by
        intro r mem
        rcases List.mem_append.mp mem with old | new
        · exact wf.grantSite r old
        · rw [List.mem_singleton.mp new]
          exact site
      neverSuspended := by
        intro r mem
        rcases List.mem_append.mp mem with old | new
        · exact wf.neverSuspended r old
        · rw [List.mem_singleton.mp new,pending]
          decide }
  | moveGrants p f moves _ =>
    have moved : ∀ g ∈ db.grants, Advances g (if p g then f g else g) := by
      intro g mem
      split
      · exact moves g mem ‹_›
      · exact .same g
    exact { wf with
      grantIndex := movedGrantIndex wf.grantIndex moves
      grantSite := by
        intro r mem
        obtain ⟨g,hg,rfl⟩ := memUpdateWhere.mp mem
        have same := advancesKeeps (moved g hg)
        rw [same.tenantId,same.siteId]
        exact wf.grantSite g hg
      neverSuspended := by
        intro r mem
        obtain ⟨g,hg,rfl⟩ := memUpdateWhere.mp mem
        exact notSuspended (moved g hg) (wf.neverSuspended g hg) }
  | dropGrants p _ =>
    exact { wf with
      grantIndex := indexedDelete wf.grantIndex
      grantSite := fun g mem => wf.grantSite g (memDeleteWhere.mp mem).1
      neverSuspended := fun g mem => wf.neverSuspended g (memDeleteWhere.mp mem).1 }
  | @openSite s free tenant =>
    exact { wf with
      siteIndex := indexedAppend wf.siteIndex siteClashSymm free
      grantSite := by
        intro g mem
        obtain ⟨o,ho,key⟩ := hasSiteIff.mp (wf.grantSite g mem)
        exact hasSiteIff.mpr ⟨o,List.mem_append_left _ ho,key⟩
      siteTenant := by
        intro r mem
        rcases List.mem_append.mp mem with old | new
        · exact wf.siteTenant r old
        · rw [List.mem_singleton.mp new]
          exact tenant }
  | closeSites p at_ =>
    exact { wf with
      siteIndex := closedSiteIndex wf.siteIndex
      grantSite := fun g mem => hasSiteIff.mpr (closedSiteKey.mpr (hasSiteIff.mp (wf.grantSite g mem)))
      siteTenant := by
        intro r mem
        obtain ⟨s,hs,rfl⟩ := memUpdateWhere.mp mem
        have known := wf.siteTenant s hs
        split <;> exact known }
  | dropSites p unused =>
    exact { wf with
      siteIndex := indexedDelete wf.siteIndex
      grantSite := by
        intro g mem
        obtain ⟨s,hs,key⟩ := hasSiteIff.mp (wf.grantSite g mem)
        refine hasSiteIff.mpr ⟨s,memDeleteWhere.mpr ⟨hs,?_⟩,key⟩
        by_contra chosen
        exact unused g mem s hs (by simpa using chosen) key
      siteTenant := fun s mem => wf.siteTenant s (memDeleteWhere.mp mem).1 }
  | dropTenants p unused =>
    exact { wf with
      siteTenant := by
        intro s mem
        obtain ⟨t,ht,key⟩ := hasTenantIff.mp (wf.siteTenant s mem)
        refine hasTenantIff.mpr ⟨t,memDeleteWhere.mpr ⟨ht,?_⟩,key⟩
        by_contra chosen
        exact unused s mem t ht (by simpa using chosen) key }
  | emit ok =>
    have numbered := numberedInsert wf.numbered ok
    obtain ⟨_,rfl⟩ := insertEventExact wf.numbered ok
    exact { wf with
      outboxIndex := indexedAppend wf.outboxIndex outboxClashSymm (newRowFree wf.numbered)
      numbered := numbered }
  | moveEvents p f keeps =>
    exact { wf with
      outboxIndex := movedOutboxIndex wf.outboxIndex keeps
      numbered := by
        intro r mem
        obtain ⟨o,ho,rfl⟩ := memUpdateWhere.mp mem
        have known := wf.numbered o ho
        split
        · rw [(keeps o).id]
          exact known
        · exact known }
  | dropEvents p _ =>
    exact { wf with
      outboxIndex := indexedDelete wf.outboxIndex
      numbered := fun r mem => wf.numbered r (memDeleteWhere.mp mem).1 }
  | record _ free =>
    exact { wf with recordIndex := indexedAppend wf.recordIndex idempotencyClashSymm free }
  | dropRecords p _ => exact { wf with recordIndex := indexedDelete wf.recordIndex }
  | store _ => exact { wf with secretIndex := storedSecretIndex wf.secretIndex }
  | moveSecrets p f keeps _ => exact { wf with secretIndex := movedSecretIndex wf.secretIndex keeps }
  | dropSecrets p => exact { wf with secretIndex := indexedDelete wf.secretIndex }

theorem writesKeep {scope : Scope} {db next : Db} (wf : WellFormed db) (writes : Writes scope db next) :
    WellFormed next := by
  induction writes with
  | refl => exact wf
  | tail _ last ih => exact writeKeeps ih last

theorem emitGrants {db next : Db} {onConflict : OnConflict} {event : NewEvent} {now : Time}
    (ok : insertEvent onConflict event now db = .ok next) : next.grants = db.grants := by
  unfold insertEvent at ok
  split at ok <;> try contradiction
  split at ok <;> cases ok <;> rfl

theorem writeGrants {scope : Scope} {db next : Db} (write : Write scope db next) :
    ∀ r ∈ next.grants, (∃ g ∈ db.grants, Advances g r) ∨ (scope.opens r ∧ r.status = .pending) := by
  have kept : ∀ r ∈ db.grants, (∃ g ∈ db.grants, Advances g r) ∨ (scope.opens r ∧ r.status = .pending) :=
    fun r mem => .inl ⟨r,mem,.same r⟩
  cases write with
  | elsewhere same =>
    rw [same.grants]
    exact kept
  | openGrant allowed pending _ _ =>
    intro r mem
    rcases List.mem_append.mp mem with old | new
    · exact kept r old
    · rw [List.mem_singleton.mp new]
      exact .inr ⟨allowed,pending⟩
  | moveGrants p f moves _ =>
    intro r mem
    obtain ⟨g,hg,rfl⟩ := memUpdateWhere.mp mem
    refine .inl ⟨g,hg,?_⟩
    split
    · exact moves g hg ‹_›
    · exact .same g
  | dropGrants p _ => exact fun r mem => kept r (memDeleteWhere.mp mem).1
  | emit ok =>
    rw [emitGrants ok]
    exact kept
  | _ => exact kept

theorem writesGrants {scope : Scope} {db next : Db} (writes : Writes scope db next) :
    ∀ r ∈ next.grants, (∃ g ∈ db.grants, Advances g r) ∨ ∃ g, scope.opens g ∧ Advances g r := by
  induction writes with
  | refl => exact fun r mem => .inl ⟨r,mem,.same r⟩
  | tail _ last ih =>
    intro r mem
    rcases writeGrants last r mem with ⟨g,hg,moved⟩ | ⟨opened,_⟩
    · rcases ih g hg with ⟨o,ho,before⟩ | ⟨o,ho,before⟩
      · exact .inl ⟨o,ho,advancesTrans before moved⟩
      · exact .inr ⟨o,ho,advancesTrans before moved⟩
    · exact .inr ⟨r,opened,.same r⟩

theorem writesRecords {scope : Scope} {db next : Db} (writes : Writes scope db next) :
    ∀ r ∈ next.idempotencyRecords, r ∈ db.idempotencyRecords ∨ scope.records r := by
  induction writes with
  | refl => exact fun r mem => .inl mem
  | @tail mid next _ last ih =>
    intro r mem
    have step : r ∈ mid.idempotencyRecords ∨ scope.records r := by
      cases last with
      | elsewhere same => exact .inl (same.records ▸ mem)
      | emit ok =>
        unfold insertEvent at ok
        split at ok <;> try contradiction
        split at ok <;> cases ok <;> exact .inl mem
      | record allowed _ =>
        rcases List.mem_append.mp mem with old | new
        · exact .inl old
        · rw [List.mem_singleton.mp new]
          exact .inr allowed
      | dropRecords p _ => exact .inl (memDeleteWhere.mp mem).1
      | _ => exact .inl mem
    exact step.elim (ih r) .inr

def Followed (scope : Scope) (g : Grant) (db : Db) : Prop :=
  ∀ r ∈ db.grants, r.id = g.id →
    (Advances g r ∧ (r.live = true ∨ ∃ o, Advances g o ∧ scope.ends o)) ∨ ∃ o, scope.opens o ∧ o.id = g.id

theorem writeFollowed {scope : Scope} {g : Grant} {db next : Db} (write : Write scope db next)
    (before : Followed scope g db) : Followed scope g next := by
  cases write with
  | elsewhere same =>
    unfold Followed
    rw [same.grants]
    exact before
  | openGrant allowed _ _ _ =>
    intro r mem named
    rcases List.mem_append.mp mem with old | new
    · exact before r old named
    · rw [List.mem_singleton.mp new] at named
      exact .inr ⟨_,allowed,named⟩
  | moveGrants p f moves allowed =>
    intro r mem named
    obtain ⟨o,ho,rfl⟩ := memUpdateWhere.mp mem
    by_cases chosen : p o = true
    · simp only [if_pos chosen] at named ⊢
      have moved := moves o ho chosen
      rw [(advancesKeeps moved).id] at named
      rcases before o ho named with ⟨reached,fate⟩ | opened
      · refine .inl ⟨advancesTrans reached moved,?_⟩
        rcases fate with live | ended
        · by_cases still : (f o).live = true
          · exact .inl still
          · exact .inr ⟨o,reached,allowed o ho chosen live (by simpa using still)⟩
        · exact .inr ended
      · exact .inr opened
    · simp only [if_neg chosen] at named ⊢
      exact before o ho named
  | dropGrants p _ => exact fun r mem => before r (memDeleteWhere.mp mem).1
  | emit ok =>
    unfold Followed
    rw [emitGrants ok]
    exact before
  | _ => exact before

theorem writesFollowed {scope : Scope} {g : Grant} {db next : Db} (wf : WellFormed db)
    (mem : g ∈ db.grants) (live : g.live = true) (writes : Writes scope db next) : Followed scope g next := by
  induction writes with
  | refl =>
    intro r hr named
    rw [sameGrant wf hr mem named]
    exact .inl ⟨.same g,.inl live⟩
  | tail _ last ih => exact writeFollowed last ih

theorem revokedInScope {scope : Scope} {g r : Grant} {db next : Db} (wf : WellFormed db)
    (mem : g ∈ db.grants) (live : g.live = true) (writes : Writes scope db next)
    (closed : ∀ o, ¬scope.opens o) (after : r ∈ next.grants) (named : r.id = g.id)
    (revoked : r.status = .revoked) : ∃ o, Advances g o ∧ scope.ends o := by
  rcases writesFollowed wf mem live writes r after named with ⟨_,still | ended⟩ | ⟨o,opened,_⟩
  · simp [Grant.live,revoked] at still
  · exact ended
  · exact absurd opened (closed o)

def ending (ends : Grant → Prop) : Scope :=
  ⟨fun _ => False,ends,fun _ => True,fun _ => True,fun _ => True,fun _ => True,fun _ => True⟩

end Wepuu.Statements
