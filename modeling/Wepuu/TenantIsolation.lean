import Wepuu.AccountLinks
import Wepuu.Noninterference
import Wepuu.Outsiders

/-! Tenants do not interfere with each other. In any interleaving of the operations under
tenant contexts with the writers that have none, as far as those write no row of the tenant,
what one tenant reads and is answered is what it would have read and been answered alone, but
for the two unique indexes that do not begin with a tenant: the grant id and the resource of a
live site. -/
namespace Wepuu.TenantIsolation
open AccountLinks (MembersKnown reachableMembersKnown stepMembersKnown)
open AccountReferences (ensureAccountAuthLinkCases hasAccountIff openHomeExact)
open Artifacts ControlReads Deletion Families Footprint Frames Grants NodeApi Noninterference Outbox Outsiders Pairing
open Relational RowSecurity Runs Schema SigningKeys Statements Tenancy Wepuu.System

/- What a site is told by an event. The columns left out are those of its delivery. -/
structure EventContent where
  siteId : SiteId
  resourceUri : String
  eventSequence : Nat
  eventType : EventType
  grantId : Option GrantId
  keyId : Option KeyId
  reason : String
  deriving DecidableEq, Repr

def content (r : OutboxRow) : EventContent :=
  ⟨r.siteId,r.resourceUri,r.eventSequence,r.eventType,r.grantId,r.keyId,r.reason⟩

def ofTenant {α : Type} (column : α → TenantId) (tenant : TenantId) (r : α) : Bool := column r == tenant

def told (tenant : TenantId) (db : Db) : List EventContent :=
  (db.revocationOutbox.filter (ofTenant (·.tenantId) tenant)).map content

structure Alike (tenant : TenantId) (a b : Db) : Prop where
  tenants : SameIn (ofTenant (·.id) tenant) a.tenants b.tenants
  memberships : SameIn (ofTenant (·.tenantId) tenant) a.memberships b.memberships
  sites : SameIn (ofTenant (·.tenantId) tenant) a.sites b.sites
  pairingAttempts : SameIn (ofTenant (·.tenantId) tenant) a.pairingAttempts b.pairingAttempts
  grants : SameIn (ofTenant (·.tenantId) tenant) a.grants b.grants
  idempotencyRecords : SameIn (ofTenant (·.tenantId) tenant) a.idempotencyRecords b.idempotencyRecords
  securityEvents : SameIn (ofTenant (·.tenantId) tenant) a.securityEvents b.securityEvents
  events : told tenant a = told tenant b

theorem alikeRefl (tenant : TenantId) (db : Db) : Alike tenant db db :=
  ⟨rfl,rfl,rfl,rfl,rfl,rfl,rfl,rfl⟩

theorem alikeTrans {tenant : TenantId} {a b c : Db} (left : Alike tenant a b) (right : Alike tenant b c) : Alike tenant a c :=
  ⟨left.tenants.trans right.tenants,left.memberships.trans right.memberships,left.sites.trans right.sites,
    left.pairingAttempts.trans right.pairingAttempts,left.grants.trans right.grants,
    left.idempotencyRecords.trans right.idempotencyRecords,left.securityEvents.trans right.securityEvents,
    left.events.trans right.events⟩

section Answers
variable {σ τ : Type} {alike : σ → τ → Prop}

theorem pairedEnsure {left right : Bool} {fault : Fault} {x : Except Fault σ} {y : Except Fault τ} (same : left = right)
    (rest : left = true → Paired alike x y) :
    Paired alike (ensure left fault >>= fun _ => x) (ensure right fault >>= fun _ => y) := by
  subst same
  cases holds : left with
  | true => exact rest holds
  | false => exact .raised fault

theorem pairedFound {α : Type} {found other : Option α} {fault : Fault} {f : α → Except Fault σ} {g : α → Except Fault τ}
    (same : found = other) (rest : ∀ r, found = some r → Paired alike (f r) (g r)) :
    Paired alike (orFail fault found >>= f) (orFail fault other >>= g) := by
  subst same
  cases found with
  | none => exact .raised fault
  | some r => exact rest r rfl

theorem pairedInsert {α : Type} {p : α → Bool} {clash : α → α → Bool} {row : α} {rows others : List α} {fault : Fault}
    {f : List α → Except Fault σ} {g : List α → Except Fault τ} (same : SameIn p rows others)
    (free : ∀ r ∈ rows, p r = false → clash row r = false) (freeOther : ∀ r ∈ others, p r = false → clash row r = false)
    (rest : ∀ next other, SameIn p next other → Paired alike (f next) (g other)) :
    Paired alike (orFail fault (insertRow clash row rows) >>= f) (orFail fault (insertRow clash row others) >>= g) := by
  have both := insertSame same free freeOther
  cases left : insertRow clash row rows with
  | none =>
    rw [left,Option.isSome_none] at both
    have refused : insertRow clash row others = none := Option.not_isSome_iff_eq_none.mp (by rw [← both]; decide)
    rw [refused]
    exact .raised fault
  | some next =>
    rw [left,Option.isSome_some] at both
    obtain ⟨other,right⟩ := Option.isSome_iff_exists.mp both.symm
    rw [right]
    refine rest next other ?_
    rw [(insertRowExact.mp left).2,(insertRowExact.mp right).2]
    exact sameAppend same [row]

end Answers

section Policies
variable {context : TenantContext} {a b : Db} (same : Alike context.tenantId a b)
include same

theorem memberAlike (account : AccountId) :
    hasActiveMembership a context.tenantId account = hasActiveMembership b context.tenantId account := by
  refine sameAny same.memberships fun m hit => ?_
  simp only [Bool.and_eq_true] at hit
  exact hit.1.1

theorem administersAlike (account : AccountId) :
    administers a context.tenantId account = administers b context.tenantId account := by
  refine sameAny same.memberships fun m hit => ?_
  simp only [Bool.and_eq_true] at hit
  exact hit.1.1.1

theorem siteInsertAlike : siteTenantInsert context a = siteTenantInsert context b :=
  funext fun _ => ownTenant (fun t => administers a t context.accountId) (fun t => administers b t context.accountId)
    (administersAlike same _)

theorem siteSelectAlike : siteTenantSelect context a = siteTenantSelect context b :=
  funext fun _ => ownTenant (fun t => hasActiveMembership a t context.accountId)
    (fun t => hasActiveMembership b t context.accountId) (memberAlike same _)

theorem recordAccessAlike : idempotencyTenantAccess context a = idempotencyTenantAccess context b :=
  funext fun _ => ownTenant (fun t => hasActiveMembership a t context.accountId)
    (fun t => hasActiveMembership b t context.accountId) (memberAlike same _)

theorem grantAccessAlike : grantTenantAccess context a = grantTenantAccess context b := by
  funext g
  refine ownTenant (fun t => g.subjectId == context.accountId || administers a t context.accountId)
    (fun t => g.subjectId == context.accountId || administers b t context.accountId) ?_
  rw [administersAlike same]

theorem attemptAccessAlike : pairingTenantAccess context a = pairingTenantAccess context b := by
  funext r
  unfold pairingTenantAccess
  rw [Bool.and_assoc,Bool.and_assoc]
  refine ownTenant (fun t => r.initiatorAccountId == context.accountId && administers a t context.accountId)
    (fun t => r.initiatorAccountId == context.accountId && administers b t context.accountId) ?_
  rw [administersAlike same]

theorem hasTenantAlike : a.hasTenant context.tenantId = b.hasTenant context.tenantId :=
  sameAny same.tenants fun _ hit => hit

theorem siteAtAlike (site : SiteId) : a.siteAt context.tenantId site = b.siteAt context.tenantId site := by
  refine sameFind same.sites fun s hit => ?_
  simp only [Bool.and_eq_true] at hit
  exact hit.1

end Policies

section Inside
variable {context : TenantContext} {db : Db}

theorem recordInside {r : IdempotencyRecord} (seen : idempotencyTenantAccess context db r = true) :
    ofTenant (·.tenantId) context.tenantId r = true := (Bool.and_eq_true_iff.mp seen).1

theorem grantOwn {g : Grant} (seen : grantTenantAccess context db g = true) :
    ofTenant (·.tenantId) context.tenantId g = true := (Bool.and_eq_true_iff.mp seen).1

theorem siteOwn {s : Site} (seen : siteTenantSelect context db s = true) :
    ofTenant (·.tenantId) context.tenantId s = true := (Bool.and_eq_true_iff.mp seen).1

theorem insertedOwn {s : Site} (seen : siteTenantInsert context db s = true) :
    ofTenant (·.tenantId) context.tenantId s = true := (Bool.and_eq_true_iff.mp seen).1

theorem attemptOwn {r : PairingAttempt} (seen : pairingTenantAccess context db r = true) :
    ofTenant (·.tenantId) context.tenantId r = true :=
  (Bool.and_eq_true_iff.mp (Bool.and_eq_true_iff.mp seen).1).1

end Inside

theorem columnApart {α : Type} {column : α → TenantId} {tenant : TenantId} {row r : α} (own : column row = tenant)
    (outside : ofTenant column tenant r = false) : (column row == column r) = false := by
  rw [own]
  exact beq_eq_false_iff_ne.mpr (Ne.symm (beq_eq_false_iff_ne.mp outside))

theorem administeringKnown {db : Db} {tenant : TenantId} {account : AccountId} (known : MembersKnown db)
    (manages : administers db tenant account = true) : db.hasAccount account = true := by
  obtain ⟨m,mem,hit⟩ := List.any_eq_true.mp manages
  simp only [Bool.and_eq_true,beq_iff_eq] at hit
  rw [← hit.1.1.2]
  exact known m mem

/- The two unique indexes that a row of another tenant could hold. -/
def uncontended (tenant : TenantId) (db : Db) (e : Event) : Bool := match e.op with
  | .createPending _ record => db.grants.all fun g => g.tenantId == tenant || g.id != record.id
  | .completePairing _ record _ _ _ =>
    db.sites.all fun s => s.tenantId == tenant || !siteLive s || s.resourceUri != record.resource
  | _ => true

abbrev AnsweredAlike {α : Type} (tenant : TenantId) : Except Fault (Db × α) → Except Fault (Db × α) → Prop :=
  Paired fun x y => Alike tenant x.1 y.1 ∧ x.2 = y.2

section Own
variable {node : Node} {context : TenantContext} {a b : Db} (same : Alike context.tenantId a b)
include same

theorem insertIdempotencyAlike (row : IdempotencyRecord) :
    Paired (Alike context.tenantId) (insertIdempotency context row a) (insertIdempotency context row b) := by
  unfold insertIdempotency
  refine pairedEnsure (by rw [recordAccessAlike same]) fun access => ?_
  refine pairedEnsure rfl fun _ => ?_
  have own : row.tenantId = context.tenantId := beq_iff_eq.mp (recordInside access)
  have apart : ∀ r : IdempotencyRecord, ofTenant (·.tenantId) context.tenantId r = false → idempotencyClash row r = false := by
    intro r outside
    rw [idempotencyClash,@columnApart IdempotencyRecord (·.tenantId) _ _ _ own outside,Bool.false_and,Bool.false_and]
  refine pairedInsert same.idempotencyRecords (fun r _ => apart r) (fun r _ => apart r) fun rows others kept => ?_
  refine pairedEnsure (by rw [own]; exact hasTenantAlike same) fun _ => ?_
  exact .ended { same with idempotencyRecords := kept }

theorem createAttemptAlike (known : MembersKnown a) (knownOther : MembersKnown b) (record : NewAttempt) (now : Time) :
    Paired (Alike context.tenantId) (createAttempt context record now a) (createAttempt context record now b) := by
  unfold createAttempt
  refine pairedEnsure (by rw [attemptAccessAlike same]) fun access => ?_
  refine pairedEnsure rfl fun _ => ?_
  have own : record.tenantId = context.tenantId := beq_iff_eq.mp (attemptOwn access)
  have apart : ∀ r : PairingAttempt, ofTenant (·.tenantId) context.tenantId r = false → attemptClash ⟨record.tenantId,record.id,
      record.initiatorAccountId,record.resource,record.verifierHash,.pending,record.expiresAt,none,none,none⟩ r = false := by
    intro r outside
    rw [attemptClash,@columnApart PairingAttempt (·.tenantId) _ _ _ own outside,Bool.false_and]
  refine pairedInsert same.pairingAttempts (fun r _ => apart r) (fun r _ => apart r) fun rows others kept => ?_
  refine pairedEnsure ?_ fun _ => .ended { same with pairingAttempts := kept }
  have manages : administers a record.tenantId context.accountId = true := (Bool.and_eq_true_iff.mp access).2
  have caller : record.initiatorAccountId = context.accountId :=
    beq_iff_eq.mp (Bool.and_eq_true_iff.mp (Bool.and_eq_true_iff.mp access).1).2
  rw [own] at manages ⊢
  rw [caller,administeringKnown known manages,administeringKnown knownOther ((administersAlike same _).symm.trans manages),
    hasTenantAlike same]

theorem attemptTargetAlike (tenant : TenantId) (attempt : String) (status : AttemptStatus) :
    attemptTarget context tenant attempt status a = attemptTarget context tenant attempt status b := by
  funext r
  rw [attemptTarget,attemptTarget,attemptAccessAlike same]

theorem markVerifyingAlike (tenant : TenantId) (attempt : String) (now : Time) :
    Alike context.tenantId (markVerifying context tenant attempt now a).1 (markVerifying context tenant attempt now b).1 ∧
    (markVerifying context tenant attempt now a).2 = (markVerifying context tenant attempt now b).2 := by
  unfold markVerifying
  rw [attemptTargetAlike same]
  refine ⟨{ same with pairingAttempts := sameUpdate same.pairingAttempts fun _ => rfl },?_⟩
  refine congrArg (· == 1) (sameCount same.pairingAttempts fun r hit => ?_)
  simp only [attemptTarget,Bool.and_eq_true] at hit
  exact attemptOwn hit.1.2

theorem failAlike (tenant : TenantId) (attempt reason : String) :
    Alike context.tenantId (fail context tenant attempt reason a) (fail context tenant attempt reason b) := by
  unfold fail
  rw [attemptTargetAlike same]
  exact { same with pairingAttempts := sameUpdate same.pairingAttempts fun _ => rfl }

theorem completeAlike (record : PairedAttempt) (proof : VerifiedKey) (site : SiteId) (key : String) (now : Time)
    (free : (a.sites.all fun s => s.tenantId == context.tenantId || !siteLive s || s.resourceUri != record.resource) = true)
    (freeOther : (b.sites.all fun s => s.tenantId == context.tenantId || !siteLive s || s.resourceUri != record.resource) = true) :
    Paired (Alike context.tenantId) (complete node context record proof site key now a)
      (complete node context record proof site key now b) := by
  have prior : pairingRecord context record.tenantId key a = pairingRecord context record.tenantId key b := by
    unfold pairingRecord
    rw [recordAccessAlike same]
    exact sameFind same.idempotencyRecords fun r hit => recordInside (Bool.and_eq_true_iff.mp hit).2
  unfold complete
  rw [prior]
  split
  · dsimp only
    split
    · exact .ended same
    · exact .raised _
  · refine pairedFound rfl fun url _ => ?_
    refine pairedEnsure (by rw [siteInsertAlike same]) fun access => ?_
    refine pairedEnsure rfl fun _ => ?_
    have own : record.tenantId = context.tenantId := beq_iff_eq.mp (insertedOwn access)
    have apart : ∀ s : Site, ofTenant (·.tenantId) context.tenantId s = false →
        (s.tenantId == context.tenantId || !siteLive s || s.resourceUri != record.resource) = true →
        siteClash (pairedSite record proof site url.hostname) s = false := by
      intro s outside clear
      have named : ((pairedSite record proof site url.hostname).tenantId == s.tenantId) = false :=
        @columnApart Site (·.tenantId) _ _ _ own outside
      rw [siteClash,named,Bool.false_and,Bool.false_or,Bool.and_assoc]
      rw [ofTenant] at outside
      rw [outside,Bool.false_or,Bool.or_eq_true,Bool.not_eq_true'] at clear
      rcases clear with ended | elsewhere
      · rw [ended,Bool.false_and,Bool.and_false]
      · have resource : ((pairedSite record proof site url.hostname).resourceUri == s.resourceUri) = false :=
          beq_eq_false_iff_ne.mpr (Ne.symm (bne_iff_ne.mp elsewhere))
        rw [resource,Bool.and_false,Bool.and_false]
    refine pairedInsert same.sites (fun s mem outside => apart s outside (List.all_eq_true.mp free s mem))
      (fun s mem outside => apart s outside (List.all_eq_true.mp freeOther s mem)) fun rows others kept => ?_
    refine pairedEnsure ?_ fun _ => ?_
    · show a.hasTenant record.tenantId = b.hasTenant record.tenantId
      rw [own]
      exact hasTenantAlike same
    rw [attemptTargetAlike same]
    refine pairedEnsure ?_ fun _ => ?_
    · refine congrArg (· == 1) (sameCount same.pairingAttempts fun r hit => ?_)
      simp only [attemptTarget,Bool.and_eq_true] at hit
      exact attemptOwn hit.1.2
    have paired : ∀ chosen f, (∀ r : PairingAttempt, (f r).tenantId = r.tenantId) → Alike context.tenantId
        { a with sites := rows, pairingAttempts := updateWhere chosen f a.pairingAttempts }
        { b with sites := others, pairingAttempts := updateWhere chosen f b.pairingAttempts } :=
      fun chosen f keeps => { same with
        sites := kept
        pairingAttempts := sameUpdate same.pairingAttempts fun r => by rw [ofTenant,ofTenant,keeps] }
    refine insertIdempotencyAlike (paired _ _ ?_) _
    exact fun _ => rfl

theorem createPendingAlike (record : NewPendingGrant)
    (free : (a.grants.all fun g => g.tenantId == context.tenantId || g.id != record.id) = true)
    (freeOther : (b.grants.all fun g => g.tenantId == context.tenantId || g.id != record.id) = true) :
    AnsweredAlike context.tenantId (createPending context record a) (createPending context record b) := by
  have prior : priorCreation context record.tenantId record.idempotencyKey a =
      priorCreation context record.tenantId record.idempotencyKey b := by
    have named : ∀ r : IdempotencyRecord, (a.grants.find? fun g => g.tenantId == r.tenantId && g.id == r.resultReference &&
        grantTenantAccess context b g) = b.grants.find? fun g => g.tenantId == r.tenantId && g.id == r.resultReference &&
        grantTenantAccess context b g :=
      fun r => sameFind same.grants fun g hit => grantOwn (Bool.and_eq_true_iff.mp hit).2
    unfold priorCreation
    simp only [recordAccessAlike same,grantAccessAlike same,named]
    refine sameFindSome same.idempotencyRecords fun r some_ => ?_
    split at some_
    · rename_i hit
      exact recordInside (Bool.and_eq_true_iff.mp hit).2
    · cases some_
  have active : activeSiteFor context record a = activeSiteFor context record b := by
    unfold activeSiteFor
    rw [siteSelectAlike same]
    exact sameAny same.sites fun s hit => siteOwn (Bool.and_eq_true_iff.mp hit).2
  unfold createPending
  rw [prior]
  split
  · split
    · exact .ended ⟨same,rfl⟩
    · exact .raised _
  · refine pairedEnsure active fun _ => ?_
    refine pairedEnsure (by rw [grantAccessAlike same]) fun access => ?_
    refine pairedEnsure rfl fun _ => ?_
    have own : record.tenantId = context.tenantId := beq_iff_eq.mp (grantOwn access)
    have apart : ∀ g : Grant, ofTenant (·.tenantId) context.tenantId g = false →
        (g.tenantId == context.tenantId || g.id != record.id) = true → grantClash (pendingGrant record) g = false := by
      intro g outside clear
      have named : ((pendingGrant record).tenantId == g.tenantId) = false :=
        @columnApart Grant (·.tenantId) _ _ _ own outside
      rw [ofTenant] at outside
      rw [outside,Bool.false_or] at clear
      have numbered : ((pendingGrant record).id == g.id) = false := beq_eq_false_iff_ne.mpr (Ne.symm (bne_iff_ne.mp clear))
      rw [grantClash,numbered,named,Bool.and_false,Bool.false_and,Bool.false_and,Bool.false_and,Bool.or_false]
    refine pairedInsert same.grants (fun g mem outside => apart g outside (List.all_eq_true.mp free g mem))
      (fun g mem outside => apart g outside (List.all_eq_true.mp freeOther g mem)) fun rows others kept => ?_
    refine pairedEnsure (by rw [own]; exact hasTenantAlike same) fun _ => ?_
    have opened : Alike context.tenantId { a with grants := rows } { b with grants := others } := { same with grants := kept }
    refine pairedBind (insertIdempotencyAlike opened (creationRecord record)) fun x y ended => ?_
    exact .ended ⟨ended,rfl⟩

theorem completionRecordAlike (tenant : TenantId) (key : String) :
    completionRecord context tenant key a = completionRecord context tenant key b := by
  unfold completionRecord
  rw [recordAccessAlike same]
  exact sameFind same.idempotencyRecords fun r hit => recordInside (Bool.and_eq_true_iff.mp hit).2

theorem pendingTargetAlike (tenant : TenantId) (grantId : GrantId) (now : Time) :
    pendingTarget context tenant grantId now a = pendingTarget context tenant grantId now b := by
  funext g
  rw [pendingTarget,pendingTarget,grantAccessAlike same]

theorem settleConsentAlike {outcome : Grant → Grant} (keeps : ∀ g, (outcome g).tenantId = g.tenantId) (tenant : TenantId)
    (grantId : GrantId) (key : String) (digest : Digest) (now : Time) :
    Paired (Alike context.tenantId) (settleConsent outcome context tenant grantId key digest now a)
      (settleConsent outcome context tenant grantId key digest now b) := by
  unfold settleConsent
  rw [completionRecordAlike same,pendingTargetAlike same]
  split
  · split
    · exact .ended same
    · exact .raised _
  · refine pairedEnsure ?_ fun _ => ?_
    · exact congrArg (· == 1) (sameCount same.grants fun g hit => grantOwn (Bool.and_eq_true_iff.mp hit).2)
    have settled : Alike context.tenantId
        { a with grants := updateWhere (pendingTarget context tenant grantId now b) outcome a.grants }
        { b with grants := updateWhere (pendingTarget context tenant grantId now b) outcome b.grants } :=
      { same with grants := sameUpdate same.grants fun g => by rw [ofTenant,ofTenant,keeps] }
    exact insertIdempotencyAlike settled _

theorem revokeAlike (tenant : TenantId) (grantId : GrantId) (reason : String) (now : Time) :
    Alike context.tenantId (Grants.revoke context tenant grantId reason now a).1
      (Grants.revoke context tenant grantId reason now b).1 ∧
    (Grants.revoke context tenant grantId reason now a).2 = (Grants.revoke context tenant grantId reason now b).2 := by
  have target : repositoryTarget context tenant grantId a = repositoryTarget context tenant grantId b := by
    funext g
    rw [repositoryTarget,repositoryTarget,grantAccessAlike same]
  unfold Grants.revoke
  rw [target]
  refine ⟨{ same with grants := sameUpdate same.grants fun _ => rfl },?_⟩
  exact congrArg (· == 1) (sameCount same.grants fun g hit => grantOwn (Bool.and_eq_true_iff.mp hit).2)

end Own

section Events
variable {tenant : TenantId} {a b : Db}

theorem maxOfTold (site : SiteId) (rows : List OutboxRow) : maxWhere (ofSite tenant site) (·.eventSequence) rows =
    maxWhere (fun c => c.siteId == site) EventContent.eventSequence ((rows.filter (ofTenant (·.tenantId) tenant)).map content) := by
  unfold maxWhere
  rw [List.filter_map,List.filter_filter,List.foldr_map]
  refine congrArg _ (List.filter_congr fun r _ => ?_)
  exact Bool.and_comm _ _

theorem sequenceAlike (same : Alike tenant a b) (site : SiteId) :
    nextSequence a.revocationOutbox tenant site = nextSequence b.revocationOutbox tenant site := by
  have events := same.events
  unfold told at events
  rw [nextSequence,nextSequence,maxOfTold,maxOfTold,events]

theorem insertEventAlike (same : Alike tenant a b) (numbered : Numbered a) (numberedOther : Numbered b)
    {onConflict : OnConflict} {event : NewEvent} (own : event.tenantId = tenant) (now : Time) :
    Paired (Alike tenant) (insertEvent onConflict event now a) (insertEvent onConflict event now b) := by
  subst own
  have present : a.hasTenant event.tenantId = b.hasTenant event.tenantId := sameAny same.tenants fun _ hit => hit
  cases known : a.hasTenant event.tenantId with
  | false =>
    have missing : b.hasTenant event.tenantId = false := present.symm.trans known
    unfold insertEvent
    rw [known,missing]
    exact .raised _
  | true =>
    rw [insertEventOk numbered known,insertEventOk numberedOther (present.symm.trans known)]
    refine .ended { same with events := ?_ }
    have events := same.events
    have inside : ∀ db, ofTenant (·.tenantId) event.tenantId (newRow event now db) = true := fun _ => beq_self_eq_true _
    have sequence := sequenceAlike same event.siteId
    unfold told at events ⊢
    simp only [List.filter_append,List.map_append,events,List.filter_cons_of_pos (inside _),List.filter_nil,List.map_cons,
      List.map_nil,List.append_cancel_left_eq,List.cons.injEq,and_true]
    simp only [content,newRow,sequence]

end Events

section Announced
variable {context : TenantContext} {a b : Db} (same : Alike context.tenantId a b) (numbered : Numbered a)
  (numberedOther : Numbered b)
include same numbered numberedOther

theorem revokeGrantWithEventAlike (tenant : TenantId) (grantId : GrantId) (now : Time) :
    AnsweredAlike context.tenantId (revokeGrantWithEvent context tenant grantId now a)
      (revokeGrantWithEvent context tenant grantId now b) := by
  by_cases own : tenant = context.tenantId
  · subst own
    have target : userTarget context context.tenantId grantId a = userTarget context context.tenantId grantId b := by
      funext g
      rw [userTarget,userTarget,administersAlike same]
    have found : a.grants.find? (userTarget context context.tenantId grantId b) =
        b.grants.find? (userTarget context context.tenantId grantId b) := by
      refine sameFind same.grants fun g hit => ?_
      simp only [userTarget,Bool.and_eq_true] at hit
      exact hit.1.1.1
    unfold revokeGrantWithEvent
    rw [memberAlike same,target,found]
    split
    · split
      · exact .ended ⟨same,rfl⟩
      · refine pairedFound (siteAtAlike same _) fun site _ => ?_
        have revoked : Alike context.tenantId
            { a with grants :=
                updateWhere (userTarget context context.tenantId grantId b) (revokedGrant "platform_user_revoked" now) a.grants }
            { b with grants :=
                updateWhere (userTarget context context.tenantId grantId b) (revokedGrant "platform_user_revoked" now) b.grants } :=
          { same with grants := sameUpdate same.grants fun _ => rfl }
        refine pairedBind (insertEventAlike revoked numbered numberedOther rfl now) fun x y ended => ?_
        exact .ended ⟨ended,rfl⟩
    · exact .ended ⟨same,rfl⟩
  · unfold revokeGrantWithEvent
    rw [beq_eq_false_iff_ne.mpr own]
    exact .ended ⟨same,rfl⟩

theorem disconnectSiteWithEventAlike (tenant : TenantId) (site : SiteId) (now : Time) :
    AnsweredAlike context.tenantId (disconnectSiteWithEvent context tenant site now a)
      (disconnectSiteWithEvent context tenant site now b) := by
  by_cases own : tenant = context.tenantId
  · subst own
    have found : a.sites.find? (siteTarget context.tenantId site) = b.sites.find? (siteTarget context.tenantId site) := by
      refine sameFind same.sites fun s hit => ?_
      simp only [siteTarget,Bool.and_eq_true] at hit
      exact hit.1.1
    unfold disconnectSiteWithEvent
    rw [administersAlike same,found]
    split
    · split
      · exact .ended ⟨same,rfl⟩
      · have closed : Alike context.tenantId
            { a with
              sites := updateWhere (siteTarget context.tenantId site) (revokedSite now) a.sites
              grants := updateWhere (liveAtSite context.tenantId site) (revokedGrant "site_disconnected" now) a.grants }
            { b with
              sites := updateWhere (siteTarget context.tenantId site) (revokedSite now) b.sites
              grants := updateWhere (liveAtSite context.tenantId site) (revokedGrant "site_disconnected" now) b.grants } :=
          { same with
            sites := sameUpdate same.sites fun _ => rfl
            grants := sameUpdate same.grants fun _ => rfl }
        refine pairedBind (insertEventAlike closed numbered numberedOther rfl now) fun x y ended => ?_
        exact .ended ⟨ended,rfl⟩
    · exact .ended ⟨same,rfl⟩
  · unfold disconnectSiteWithEvent
    rw [beq_eq_false_iff_ne.mpr own]
    exact .ended ⟨same,rfl⟩

end Announced

section Apart
variable {tenant : TenantId} {db next : Db}

theorem notOf {α : Type} {column : α → TenantId} {r : α} (apart : column r ≠ tenant) : ofTenant column tenant r = false :=
  beq_eq_false_iff_ne.mpr apart

theorem grantsApart {q : Grant → Bool} {f : Grant → Grant} (apart : ∀ g ∈ db.grants, q g = true → g.tenantId ≠ tenant)
    (keeps : ∀ g, (f g).tenantId = g.tenantId) : Alike tenant { db with grants := updateWhere q f db.grants } db := by
  have kept : SameIn (ofTenant (·.tenantId) tenant) (updateWhere q f db.grants) db.grants :=
    outsideUpdate (fun g mem hit => notOf (apart g mem hit)) fun g => by rw [ofTenant,ofTenant,keeps]
  exact { alikeRefl tenant db with grants := kept }

theorem insertEventApart {onConflict : OnConflict} {event : NewEvent} {now : Time} (apart : event.tenantId ≠ tenant)
    (ok : insertEvent onConflict event now db = .ok next) (numbered : Numbered db) : Alike tenant next db := by
  obtain ⟨_,rfl⟩ := insertEventExact numbered ok
  refine { alikeRefl tenant db with events := congrArg (List.map content) (outsideAppend ?_) }
  exact @notOf tenant OutboxRow (·.tenantId) (newRow event now db) apart

end Apart

section Foreign
variable {node : Node} {context : TenantContext} {tenant : TenantId} (other : context.tenantId ≠ tenant) {db next : Db}
include other

theorem ofOther {α : Type} {column : α → TenantId} {r : α} (own : ofTenant column context.tenantId r = true) :
    ofTenant column tenant r = false := by
  rw [ofTenant,beq_iff_eq.mp own]
  exact beq_eq_false_iff_ne.mpr other

theorem insertIdempotencyForeign {row : IdempotencyRecord} (ok : insertIdempotency context row db = .ok next) :
    Alike tenant next db := by
  obtain ⟨access,_,_,_,rfl⟩ := insertIdempotencyExact ok
  exact { alikeRefl tenant db with idempotencyRecords := outsideAppend (ofOther other (recordInside access)) }

theorem createAttemptForeign {record : NewAttempt} {now : Time} (ok : createAttempt context record now db = .ok next) :
    Alike tenant next db := by
  simp only [createAttempt,bindOk,ensureOk,orFailOk] at ok
  obtain ⟨_,access,_,_,attempts,inserted,_,_,last⟩ := ok
  cases last
  obtain ⟨_,rfl⟩ := insertRowExact.mp inserted
  exact { alikeRefl tenant db with pairingAttempts := outsideAppend (ofOther other (attemptOwn access)) }

theorem attemptsForeign {attempt : String} {target : TenantId} {status : AttemptStatus} {q : PairingAttempt → Bool}
    {f : PairingAttempt → PairingAttempt} (within : ∀ r, q r = true → attemptTarget context target attempt status db r = true)
    (keeps : ∀ r, (f r).tenantId = r.tenantId) :
    SameIn (ofTenant (·.tenantId) tenant) (updateWhere q f db.pairingAttempts) db.pairingAttempts := by
  refine outsideUpdate (fun r _ hit => ?_) fun r => by rw [ofTenant,ofTenant,keeps]
  exact ofOther other (attemptOwn (Bool.and_eq_true_iff.mp (within r hit)).2)

theorem grantsForeign {q : Grant → Bool} {f : Grant → Grant}
    (within : ∀ g, q g = true → ofTenant (·.tenantId) context.tenantId g = true) (keeps : ∀ g, (f g).tenantId = g.tenantId) :
    Alike tenant { db with grants := updateWhere q f db.grants } db :=
  grantsApart (fun g _ hit => (beq_iff_eq.mp (within g hit)).trans_ne other) keeps

theorem completeForeign {record : PairedAttempt} {proof : VerifiedKey} {site : SiteId} {key : String} {now : Time}
    (ok : complete node context record proof site key now db = .ok next) : Alike tenant next db := by
  unfold complete at ok
  dsimp only at ok
  split at ok
  · split at ok <;> cases ok
    exact alikeRefl tenant _
  · simp only [bindOk,ensureOk,orFailOk] at ok
    obtain ⟨url,_,_,access,_,_,sites,inserted,_,_,_,_,recorded⟩ := ok
    obtain ⟨_,rfl⟩ := insertRowExact.mp inserted
    refine alikeTrans (insertIdempotencyForeign other recorded) { alikeRefl tenant db with
      sites := outsideAppend (ofOther other (insertedOwn access))
      pairingAttempts := attemptsForeign other (fun r hit => (Bool.and_eq_true_iff.mp hit).1) fun _ => rfl }

theorem createPendingForeign {record : NewPendingGrant} {out : CreatedGrant}
    (ok : createPending context record db = .ok (next,out)) : Alike tenant next db := by
  rcases createPendingCases ok with ⟨_,_,_,_,rfl,_⟩ | ⟨_,_,rfl,_,_,access,_⟩
  · exact alikeRefl tenant _
  · have own := recordInside access
    exact { alikeRefl tenant db with
      grants := outsideAppend (@ofOther context tenant other Grant (·.tenantId) (pendingGrant record) own)
      idempotencyRecords := outsideAppend (ofOther other own) }

theorem settleConsentForeign {outcome : Grant → Grant} (keeps : ∀ g, (outcome g).tenantId = g.tenantId) {target : TenantId}
    {grantId : GrantId} {key : String} {digest : Digest} {now : Time}
    (ok : settleConsent outcome context target grantId key digest now db = .ok next) : Alike tenant next db := by
  unfold settleConsent at ok
  split at ok
  · split at ok <;> cases ok
    exact alikeRefl tenant _
  · simp only [bindOk,ensureOk] at ok
    obtain ⟨_,_,recorded⟩ := ok
    exact alikeTrans (insertIdempotencyForeign other recorded)
      (grantsForeign other (fun g hit => grantOwn (Bool.and_eq_true_iff.mp hit).2) keeps)

theorem revokeGrantWithEventForeign {target : TenantId} {grantId : GrantId} {now : Time} {out : Bool} (numbered : Numbered db)
    (ok : revokeGrantWithEvent context target grantId now db = .ok (next,out)) : Alike tenant next db := by
  unfold revokeGrantWithEvent at ok
  split at ok
  · rename_i admitted
    have own : target = context.tenantId := beq_iff_eq.mp (Bool.and_eq_true_iff.mp admitted).1
    split at ok
    · cases ok
      exact alikeRefl tenant _
    · simp only [bindOk,orFailOk] at ok
      obtain ⟨site,_,emitted,he,last⟩ := ok
      cases last
      refine alikeTrans (insertEventApart (own.trans_ne other) he numbered) ?_
      refine grantsForeign other (fun g hit => ?_) fun _ => rfl
      simp only [userTarget,Bool.and_eq_true,beq_iff_eq] at hit
      exact beq_iff_eq.mpr (hit.1.1.1.trans own)
  · cases ok
    exact alikeRefl tenant _

theorem disconnectSiteWithEventForeign {target : TenantId} {site : SiteId} {now : Time} {out : Bool} (numbered : Numbered db)
    (ok : disconnectSiteWithEvent context target site now db = .ok (next,out)) : Alike tenant next db := by
  unfold disconnectSiteWithEvent at ok
  split at ok
  · rename_i admitted
    have own : target = context.tenantId := beq_iff_eq.mp (Bool.and_eq_true_iff.mp admitted).1
    split at ok
    · cases ok
      exact alikeRefl tenant _
    · simp only [bindOk] at ok
      obtain ⟨emitted,he,last⟩ := ok
      cases last
      have sites : SameIn (ofTenant (·.tenantId) tenant) (updateWhere (siteTarget target site) (revokedSite now) db.sites)
          db.sites := by
        refine outsideUpdate (fun s _ hit => ?_) fun _ => rfl
        simp only [siteTarget,Bool.and_eq_true,beq_iff_eq] at hit
        exact ofOther other (beq_iff_eq.mpr (hit.1.1.trans own))
      have closed : Alike tenant { db with sites := updateWhere (siteTarget target site) (revokedSite now) db.sites } db :=
        { alikeRefl tenant db with sites := sites }
      refine alikeTrans (insertEventApart (own.trans_ne other) he numbered) (alikeTrans ?_ closed)
      refine @grantsForeign context tenant other { db with sites := updateWhere _ _ db.sites } _ _ (fun g hit => ?_) fun _ => rfl
      simp only [liveAtSite,Bool.and_eq_true,beq_iff_eq] at hit
      exact beq_iff_eq.mpr (hit.1.1.trans own)
  · cases ok
    exact alikeRefl tenant _

end Foreign

section Elsewhere
variable {node : Node} {tenant : TenantId} {db next : Db}

/- What the statements of a tenant context read or write, but for accounts: those they refer to
are there. -/
def tenantTables : List Table :=
  [.tenants,.memberships,.sites,.pairingAttempts,.grants,.idempotencyRecords,.revocationOutbox,.securityEvents]

theorem untouchedAlike {tables : List Table} (only : Only tables db next)
    (clear : (tables.all fun t => !tenantTables.contains t) = true) : Alike tenant next db := by
  have kept : ∀ t, tenantTables.contains t = true → SameTable db next t := by
    intro t listed
    refine only t fun mem => ?_
    have absent := List.all_eq_true.mp clear t mem
    rw [listed] at absent
    contradiction
  exact ⟨congrArg _ (kept .tenants rfl),congrArg _ (kept .memberships rfl),congrArg _ (kept .sites rfl),
    congrArg _ (kept .pairingAttempts rfl),congrArg _ (kept .grants rfl),congrArg _ (kept .idempotencyRecords rfl),
    congrArg _ (kept .securityEvents rfl),congrArg (fun rows => (rows.filter (ofTenant (·.tenantId) tenant)).map content)
      (kept .revocationOutbox rfl).1⟩

theorem deliveryAlike {q : OutboxRow → Bool} {f : OutboxRow → OutboxRow} (owner : ∀ r, (f r).tenantId = r.tenantId)
    (keeps : ∀ r, content (f r) = content r) :
    Alike tenant { db with revocationOutbox := updateWhere q f db.revocationOutbox } db := by
  refine { alikeRefl tenant db with events := ?_ }
  unfold told
  rw [filterChanged fun r => by rw [ofTenant,ofTenant,owner],columnMap keeps]

theorem openHomeApart {account : AccountId} {home : TenantId} (apart : home ≠ tenant)
    (ok : openHome account home db = .ok next) : Alike tenant next db := by
  obtain ⟨_,_,_,rfl⟩ := openHomeExact ok
  have members : SameIn (ofTenant (·.tenantId) tenant) (db.memberships ++ [⟨home,account,.owner,.active,none⟩])
      db.memberships := outsideAppend (notOf apart)
  have tenants : SameIn (ofTenant (·.id) tenant) (db.tenants ++ [⟨home,.active,none⟩]) db.tenants :=
    outsideAppend (notOf apart)
  exact { alikeRefl tenant db with memberships := members, tenants := tenants }

theorem ensureAccountAuthLinkApart {authUser : String} {account : AccountId} {home : TenantId} {out : AccountId × TenantId}
    (apart : home ≠ tenant) (ok : ensureAccountAuthLink authUser account home db = .ok (next,out)) :
    Alike tenant next db := by
  obtain ⟨_,⟨_,rfl⟩ | ⟨opened,_,_,_,opens,_,rfl⟩⟩ := ensureAccountAuthLinkCases ok
  · exact alikeRefl tenant _
  · exact { openHomeApart apart opens with }

theorem ensurePersonalWorkspaceApart {account : AccountId} {home out : TenantId} (apart : home ≠ tenant)
    (ok : ensurePersonalWorkspace account home db = .ok (next,out)) : Alike tenant next db := by
  simp only [ensurePersonalWorkspace,bindOk,ensureOk] at ok
  obtain ⟨_,_,_,_,⟨opened,_⟩,found,_,_,last⟩ := ok
  cases last
  unfold homeOrOpen at found
  split at found
  · cases found
    exact alikeRefl tenant _
  · obtain ⟨_,opens,last⟩ := bindOk.mp found
    cases last
    exact openHomeApart apart opens

theorem seedMembershipApart {target : TenantId} {account : AccountId} {role : MembershipRole} (apart : target ≠ tenant)
    (ok : seedMembership target account role db = .ok next) : Alike tenant next db := by
  simp only [seedMembership,bindOk,ensureOk] at ok
  obtain ⟨_,_,last⟩ := ok
  cases last
  refine { alikeRefl tenant db with memberships := outsideUpsert (notOf apart) (fun m _ hit => ?_) fun _ => rfl }
  simp only [membershipClash,Bool.and_eq_true,beq_iff_eq] at hit
  exact notOf (hit.1 ▸ apart)

def grantElsewhere (tenant : TenantId) (db : Db) (grantId : GrantId) : Bool :=
  db.grants.all fun g => g.id != grantId || g.tenantId != tenant

theorem elsewhereGrant {grantId : GrantId} {g : Grant} (apart : grantElsewhere tenant db grantId = true) (mem : g ∈ db.grants)
    (named : g.id = grantId) : g.tenantId ≠ tenant := by
  have clear := List.all_eq_true.mp apart g mem
  rw [named,bne_self_eq_false,Bool.false_or,bne_iff_ne] at clear
  exact clear

theorem revokeRefreshGrantApart {grantId : GrantId} {observedAt now : Time} {reason : String} {out : Bool}
    (apart : grantElsewhere tenant db grantId = true) (numbered : Numbered db)
    (ok : revokeRefreshGrant grantId observedAt reason now db = .ok (next,out)) : Alike tenant next db := by
  unfold revokeRefreshGrant at ok
  split at ok
  · cases ok
    exact alikeRefl tenant _
  · rename_i bound found
    have foreign : bound.tenantId ≠ tenant :=
      elsewhereGrant apart (List.mem_of_find?_eq_some found) (by simpa using List.find?_some found)
    have updates : Alike tenant (refreshRevoked bound grantId observedAt reason db) db := by
      refine { @grantsApart tenant db (liveGrant bound.tenantId bound.id) (refreshRevokedGrant reason observedAt)
        (fun g _ hit => ?_) fun _ => rfl with }
      simp only [liveGrant,Bool.and_eq_true,beq_iff_eq] at hit
      exact hit.1.1 ▸ foreign
    split at ok
    · simp only [bindOk,orFailOk] at ok
      obtain ⟨site,_,emitted,he,last⟩ := ok
      cases last
      exact alikeTrans (insertEventApart foreign he numbered) updates
    · cases ok
      exact updates

def familyElsewhere (tenant : TenantId) (db : Db) (target : FamilyId) : Bool :=
  db.refreshFamilies.all fun f => f.familyId != target || f.tenantId != tenant

theorem rotateApart {familyId : String} {g : Int} {observedAt now : Time} {out : RefreshRotationResult}
    (apart : (uuidIn familyId).all (familyElsewhere tenant db) = true) (numbered : Numbered db)
    (ok : rotate familyId g observedAt now db = .ok (next,out)) : Alike tenant next db := by
  obtain ⟨rfl,_⟩ | ⟨target,read,_,_,ran⟩ := rotateOk ok
  · exact alikeRefl tenant _
  rw [read,Option.all_some] at apart
  unfold rotateRefreshFamily at ran
  split at ran
  · cases ran
    exact alikeRefl tenant _
  · rename_i family found
    have named : family.familyId = target := by simpa using List.find?_some found
    have foreign : family.tenantId ≠ tenant := by
      have clear := List.all_eq_true.mp apart family (List.mem_of_find?_eq_some found)
      rw [named,bne_self_eq_false,Bool.false_or,bne_iff_ne] at clear
      exact clear
    split at ran
    · split at ran
      · cases ran
        exact { alikeRefl tenant db with }
      · split at ran
        · simp only [bindOk,orFailOk] at ran
          obtain ⟨site,_,emitted,he,last⟩ := ran
          cases last
          refine alikeTrans (insertEventApart foreign he numbered) ?_
          refine { @grantsApart tenant db (liveGrant family.tenantId family.grantId) (revokedGrant "refresh_replay" observedAt)
            (fun g _ hit => ?_) fun _ => rfl with }
          simp only [liveGrant,Bool.and_eq_true,beq_iff_eq] at hit
          exact hit.1.1 ▸ foreign
        · cases ran
          exact alikeRefl tenant _
    · cases ran
      exact alikeRefl tenant _

theorem replayLookupsApart {adapter : OidcAdapter} {now : Time} {lookups : List SecretArtifactLookup} {out : ConsumeOutcome}
    (apart : ∀ lookup ∈ lookups, (replayedGrant adapter.model db lookup).all (grantElsewhere tenant db) = true)
    (numbered : Numbered db) (ok : replayLookups adapter now lookups db = .ok (next,out)) : Alike tenant next db := by
  induction lookups with
  | nil =>
    cases ok
    exact alikeRefl tenant _
  | cons lookup rest ih =>
    have head := apart lookup List.mem_cons_self
    unfold replayLookups at ok
    split at ok
    · rename_i grantId found
      rw [replayedGrant,found,Option.all_some] at head
      simp only [bindOk] at ok
      obtain ⟨⟨revoked,_⟩,hr,last⟩ := ok
      cases last
      exact revokeRefreshGrantApart head numbered hr
    · exact ih (fun l mem => apart l (List.mem_cons_of_mem _ mem)) ok

theorem consumeApart {adapter : OidcAdapter} {id : String} {dateNow now : Time} {out : ConsumeOutcome}
    (apart : ∀ lookup ∈ candidates node adapter.codec id,
      (replayedGrant adapter.model db lookup).all (grantElsewhere tenant db) = true)
    (numbered : Numbered db) (ok : consume node adapter id dateNow now db = .ok (next,out)) : Alike tenant next db := by
  simp only [consume] at ok
  split at ok
  · simp only [bindOk] at ok
    obtain ⟨⟨tried,outcome⟩,lookups,ok⟩ := ok
    cases outcome with
    | some outcome =>
      cases ok
      exact untouchedAlike (consumeLookupsOnly lookups) rfl
    | none =>
      rw [consumeLookupsNone lookups] at ok
      dsimp only at ok
      split at ok
      · exact replayLookupsApart apart numbered ok
      · cases ok
        exact alikeRefl tenant _
  · cases ok
    exact { alikeRefl tenant db with }

theorem revokeByGrantIdApart {adapter : OidcAdapter} {reason : GrantRevocationReason} {grantId : GrantId} {now : Time}
    (apart : grantElsewhere tenant db grantId = true) (numbered : Numbered db)
    (ok : revokeByGrantId adapter reason grantId now db = .ok next) : Alike tenant next db := by
  simp only [revokeByGrantId,bindOk] at ok
  obtain ⟨⟨revoked,_⟩,revokes,last⟩ := ok
  cases last
  have first : Alike tenant revoked db := by
    unfold revokePlatformGrant at revokes
    split at revokes
    · exact revokeRefreshGrantApart apart numbered revokes
    · cases revokes
      exact alikeRefl tenant _
  exact { first with }

theorem announceKeyApart {target : KeyId} {now : Time} {rest : List Site} (apart : ∀ s ∈ rest, s.tenantId ≠ tenant)
    (numbered : Numbered db) (ok : announceKey target now rest db = .ok next) : Alike tenant next db := by
  induction rest generalizing db with
  | nil =>
    cases ok
    exact alikeRefl tenant _
  | cons s rest ih =>
    simp only [announceKey,bindOk] at ok
    obtain ⟨emitted,he,ok⟩ := ok
    refine alikeTrans (ih (fun o mem => apart o (List.mem_cons_of_mem _ mem)) (numberedInsert numbered he) ok) ?_
    exact insertEventApart (apart s List.mem_cons_self) he numbered

/- No active site is the tenant's: the revocation of a key is told to all of them. -/
def activeElsewhere (tenant : TenantId) (db : Db) : Bool := db.sites.all fun s => s.status != .active || s.tenantId != tenant

theorem revokeSigningKeyApart {target : KeyId} {observedAt now : Time} {out : Bool} (apart : activeElsewhere tenant db = true)
    (numbered : Numbered db) (ok : revokeSigningKey target observedAt now db = .ok (next,out)) : Alike tenant next db := by
  simp only [revokeSigningKey] at ok
  split at ok
  · simp only [bindOk] at ok
    obtain ⟨announced,ha,last⟩ := ok
    cases last
    refine { announceKeyApart (fun s mem => ?_) ?_ ha with }
    · obtain ⟨listed,active⟩ := List.mem_filter.mp mem
      have clear := List.all_eq_true.mp apart s listed
      rw [beq_iff_eq] at active
      rw [active,bne_self_eq_false,Bool.false_or,bne_iff_ne] at clear
      exact clear
    · exact numbered
  · cases ok
    exact alikeRefl tenant _

theorem revokeSubjectGrantsApart {observedAt now : Time} {rest : List Grant} {events out : Nat}
    (apart : ∀ g ∈ rest, g.tenantId ≠ tenant) (numbered : Numbered db)
    (ok : revokeSubjectGrants observedAt now rest db events = .ok (next,out)) : Alike tenant next db := by
  induction rest generalizing db events with
  | nil =>
    cases ok
    exact alikeRefl tenant _
  | cons g rest ih =>
    have foreign := apart g List.mem_cons_self
    have others : ∀ o ∈ rest, o.tenantId ≠ tenant := fun o mem => apart o (List.mem_cons_of_mem _ mem)
    have revoked : Alike tenant { db with
        grants := updateWhere (grantAt g.tenantId g.id) (revokedGrant "account_deleted" observedAt) db.grants } db := by
      refine grantsApart (fun r _ hit => ?_) fun _ => rfl
      simp only [grantAt,Bool.and_eq_true,beq_iff_eq] at hit
      exact hit.1 ▸ foreign
    simp only [revokeSubjectGrants] at ok
    split at ok
    · refine alikeTrans (ih others ?_ ok) revoked
      exact numbered
    · simp only [bindOk] at ok
      obtain ⟨emitted,he,ok⟩ := ok
      have more : Numbered emitted := by
        refine numberedInsert ?_ he
        exact numbered
      exact alikeTrans (ih others more ok) (alikeTrans (insertEventApart foreign he numbered) revoked)

theorem revokeSitesApart {observedAt now : Time} {rest : List Site} {events out : Nat}
    (apart : ∀ s ∈ rest, s.tenantId ≠ tenant) (numbered : Numbered db)
    (ok : revokeSites observedAt now rest db events = .ok (next,out)) : Alike tenant next db := by
  induction rest generalizing db events with
  | nil =>
    cases ok
    exact alikeRefl tenant _
  | cons s rest ih =>
    have foreign := apart s List.mem_cons_self
    simp only [revokeSites,bindOk] at ok
    obtain ⟨emitted,he,ok⟩ := ok
    have sites : SameIn (ofTenant (·.tenantId) tenant) (updateWhere (siteIn s.tenantId s.id) (revokedSite observedAt) db.sites)
        db.sites := by
      refine outsideUpdate (fun o _ hit => ?_) fun _ => rfl
      simp only [siteIn,Bool.and_eq_true,beq_iff_eq] at hit
      exact notOf (hit.1 ▸ foreign)
    have closed : Alike tenant { db with sites := updateWhere (siteIn s.tenantId s.id) (revokedSite observedAt) db.sites } db :=
      { alikeRefl tenant db with sites := sites }
    have revoked : Alike tenant { emitted with
        grants := updateWhere (siteGrant s.tenantId s.id) (revokedGrant "deletion_requested" observedAt) emitted.grants }
        emitted := by
      refine grantsApart (fun g _ hit => ?_) fun _ => rfl
      simp only [siteGrant,Bool.and_eq_true,beq_iff_eq] at hit
      exact hit.1.1 ▸ foreign
    have more : Numbered emitted := by
      refine numberedInsert ?_ he
      exact numbered
    refine alikeTrans (ih (fun o mem => apart o (List.mem_cons_of_mem _ mem)) ?_ ok)
      (alikeTrans revoked (alikeTrans (insertEventApart foreign he numbered) closed))
    exact more

def scopeElsewhere (tenant : TenantId) (db : Db) (job : DeletionJob) : Bool :=
  if job.scopeKind = .account then
    (db.memberships.all fun m => m.accountId != job.scopeId || m.tenantId != tenant) &&
    (db.grants.all fun g => g.subjectId != job.scopeId || g.tenantId != tenant) &&
    (db.revocationOutbox.all fun r => !r.grantId.any (tombstonedGrant job db) || r.tenantId != tenant) &&
    (db.idempotencyRecords.all fun r => !tombstonedGrant job db r.resultReference || r.tenantId != tenant)
  else job.tenantId != some tenant

section Scopes
variable {job : DeletionJob}

structure AccountElsewhere (tenant : TenantId) (db : Db) (job : DeletionJob) : Prop where
  memberships : ∀ m ∈ db.memberships, m.accountId = job.scopeId → m.tenantId ≠ tenant
  grants : ∀ g ∈ db.grants, g.subjectId = job.scopeId → g.tenantId ≠ tenant
  events : ∀ r ∈ db.revocationOutbox, r.grantId.any (tombstonedGrant job db) = true → r.tenantId ≠ tenant
  records : ∀ r ∈ db.idempotencyRecords, tombstonedGrant job db r.resultReference = true → r.tenantId ≠ tenant

theorem elsewhereAccount (account : job.scopeKind = .account) (apart : scopeElsewhere tenant db job = true) :
    AccountElsewhere tenant db job := by
  unfold scopeElsewhere at apart
  simp only [account,if_true,Bool.and_eq_true,List.all_eq_true,Bool.or_eq_true,bne_iff_ne,Bool.not_eq_true'] at apart
  obtain ⟨⟨⟨memberships,grants⟩,events⟩,records⟩ := apart
  constructor
  · exact fun m mem named => (memberships m mem).resolve_left (not_not_intro named)
  · exact fun g mem named => (grants g mem).resolve_left (not_not_intro named)
  · exact fun r mem hit => (events r mem).resolve_left (by rw [hit]; decide)
  · exact fun r mem hit => (records r mem).resolve_left (by rw [hit]; decide)

theorem outsideScope (apart : job.tenantId ≠ some tenant) {owner : TenantId} {site : Option SiteId}
    (inside : inTenantScope job owner site = true) : owner ≠ tenant := by
  simp only [inTenantScope,Bool.and_eq_true,beq_iff_eq] at inside
  intro same
  rw [← inside.1,same] at apart
  exact apart rfl

theorem revokeAccountApart {observedAt now : Time} {out : Nat × Nat} (apart : AccountElsewhere tenant db job)
    (numbered : Numbered db) (ok : revokeAccount job observedAt now db = .ok (next,out)) : Alike tenant next db := by
  simp only [revokeAccount,bindOk] at ok
  obtain ⟨⟨revoked,_⟩,loop,last⟩ := ok
  cases last
  have subject : ∀ g ∈ db.grants.filter (fun g => g.subjectId == job.scopeId && g.status != .revoked), g.tenantId ≠ tenant := by
    intro g mem
    obtain ⟨listed,hit⟩ := List.mem_filter.mp mem
    simp only [Bool.and_eq_true,beq_iff_eq] at hit
    exact apart.grants g listed hit.1
  refine alikeTrans (revokeSubjectGrantsApart subject ?_ loop) ?_
  · exact numbered
  have members : SameIn (ofTenant (·.tenantId) tenant)
      (updateWhere (fun m : Membership => m.accountId == job.scopeId && m.status == .active)
        (fun m => { m with status := .revoked, revokedAt := some (m.revokedAt.getD observedAt) }) db.memberships)
      db.memberships := by
    refine outsideUpdate (fun m mem hit => ?_) fun _ => rfl
    simp only [Bool.and_eq_true,beq_iff_eq] at hit
    exact notOf (apart.memberships m mem hit.1)
  exact { alikeRefl tenant db with memberships := members }

theorem revokeTenantScopeApart {observedAt now : Time} {out : Nat × Nat} (apart : job.tenantId ≠ some tenant)
    (numbered : Numbered db) (ok : revokeTenantScope job observedAt now db = .ok (next,out)) : Alike tenant next db := by
  simp only [revokeTenantScope,bindOk] at ok
  obtain ⟨⟨closed,_⟩,loop,last⟩ := ok
  cases last
  have sites : ∀ s ∈ db.sites.filter (fun s => inTenantScope job s.tenantId (some s.id) && s.status != .deleted),
      s.tenantId ≠ tenant := by
    intro s mem
    exact outsideScope apart (Bool.and_eq_true_iff.mp (List.mem_filter.mp mem).2).1
  have tenants : SameIn (ofTenant (·.id) tenant)
      (updateWhere (fun t : Tenant => job.scopeKind == .tenant && some t.id == job.tenantId)
        (fun t => { t with status := .deleted, deletedAt := some (t.deletedAt.getD observedAt) }) closed.tenants)
      closed.tenants := by
    refine outsideUpdate (fun t _ hit => notOf fun same => ?_) fun _ => rfl
    simp only [Bool.and_eq_true,beq_iff_eq] at hit
    exact apart (hit.2.symm.trans (congrArg some same))
  exact alikeTrans { alikeRefl tenant closed with tenants := tenants } (revokeSitesApart sites numbered loop)

theorem purgeAccountApart (apart : AccountElsewhere tenant db job) (ok : purgeAccount job db = .ok next) :
    Alike tenant next db := by
  simp only [purgeAccount,bindOk,ensureOk] at ok
  obtain ⟨_,_,last⟩ := ok
  cases last
  exact { alikeRefl tenant db with
    memberships := outsideDelete fun m mem hit => notOf (apart.memberships m mem (beq_iff_eq.mp hit))
    grants := outsideDelete fun g mem hit => notOf (apart.grants g mem (beq_iff_eq.mp hit))
    idempotencyRecords := outsideDelete fun r mem hit => notOf (apart.records r mem hit)
    events := congrArg (List.map content) (outsideDelete fun r mem hit => notOf (apart.events r mem hit)) }

theorem purgeTenantScopeApart (apart : job.tenantId ≠ some tenant) : Alike tenant (purgeTenantScope job db) db := by
  have whole : ∀ {owner : TenantId}, (job.scopeKind == .tenant && some owner == job.tenantId) = true → owner ≠ tenant := by
    intro owner hit same
    simp only [Bool.and_eq_true,beq_iff_eq] at hit
    exact apart (hit.2.symm.trans (congrArg some same))
  exact { alikeRefl tenant db with
    tenants := outsideDelete fun _ _ hit => notOf (whole hit)
    memberships := outsideDelete fun _ _ hit => notOf (whole hit)
    sites := outsideDelete fun _ _ hit => notOf (outsideScope apart hit)
    pairingAttempts := outsideDelete fun _ _ hit => notOf (outsideScope apart hit)
    grants := outsideDelete fun _ _ hit => notOf (outsideScope apart hit)
    idempotencyRecords := outsideDelete fun r _ hit => notOf fun same =>
      apart ((beq_iff_eq.mp (Bool.and_eq_true_iff.mp hit).1).symm.trans (congrArg some same))
    securityEvents := outsideDelete fun _ _ hit => notOf (whole hit)
    events := congrArg (List.map content) (outsideDelete fun _ _ hit => notOf (outsideScope apart hit)) }

end Scopes

theorem advanceApart {jobId : JobId} {observedAt now : Time} (numbered : Numbered db)
    (apart : (DeletionCompletes.jobOf jobId db).all (scopeElsewhere tenant db) = true) :
    Alike tenant (advanceDeletionJob jobId observedAt now db).1 db := by
  have moved := DeletionCompletes.advanced jobId observedAt now db
  generalize (advanceDeletionJob jobId observedAt now db).1 = after at moved ⊢
  have noted : ∀ {change : DeletionJob → DeletionJob} {next : Db}, Alike tenant next db →
      Alike tenant (setJob jobId change next) db := fun same => { same with }
  cases moved with
  | missing _ | revokeRaised _ _ _ | purgeRaised _ _ _ _ => exact noted (alikeRefl tenant db)
  | ended _ _ | early _ _ _ => exact alikeRefl tenant db
  | @revoked job next _ _ found _ ok =>
    rw [found,Option.all_some] at apart
    refine noted ?_
    unfold revokeScope at ok
    split at ok
    · rename_i account
      exact revokeAccountApart (elsewhereAccount account apart) numbered ok
    · rename_i scope
      rw [scopeElsewhere,if_neg scope,bne_iff_ne] at apart
      exact revokeTenantScopeApart apart numbered ok
  | @purged job next found _ _ ok =>
    rw [found,Option.all_some] at apart
    refine noted ?_
    unfold purgeScope at ok
    split at ok
    · rename_i account
      exact purgeAccountApart (elsewhereAccount account apart) ok
    · rename_i scope
      rw [scopeElsewhere,if_neg scope,bne_iff_ne] at apart
      cases ok
      exact purgeTenantScopeApart apart

def elsewhere (node : Node) (tenant : TenantId) (db : Db) (op : Op) : Bool := match op with
  | .ensureAccountAuthLink _ _ home | .ensurePersonalWorkspace _ home => home != tenant
  | .seedMembership target _ _ => target != tenant
  | .revokeRefreshGrant grantId _ _ | .revokeByGrantId _ _ grantId => grantElsewhere tenant db grantId
  | .rotate familyId _ _ => (uuidIn familyId).all (familyElsewhere tenant db)
  | .consume adapter id _ => (candidates node adapter.codec id).all fun lookup =>
      (replayedGrant adapter.model db lookup).all (grantElsewhere tenant db)
  | .revokeSigningKey _ _ => activeElsewhere tenant db
  | .advanceDeletionJob jobId _ => (DeletionCompletes.jobOf jobId db).all (scopeElsewhere tenant db)
  | _ => true

theorem execElsewhere {e : Event} {reply : Reply} (numbered : Numbered db) (free : operationContext e.op = none)
    (apart : elsewhere node tenant db e.op = true) (ok : exec node e db = .ok (next,reply)) : Alike tenant next db := by
  have only := execOnly ok
  obtain ⟨now,op⟩ := e
  cases op <;> try contradiction
  case ensureAccountAuthLink authUser account home =>
    simp only [exec] at ok
    obtain ⟨_,made,_⟩ := answeredOk ok
    exact ensureAccountAuthLinkApart (bne_iff_ne.mp apart) made
  case ensurePersonalWorkspace account home =>
    simp only [exec] at ok
    obtain ⟨_,made,_⟩ := answeredOk ok
    exact ensurePersonalWorkspaceApart (bne_iff_ne.mp apart) made
  case seedMembership target account role => exact seedMembershipApart (bne_iff_ne.mp apart) (silentOk ok)
  case revokeRefreshGrant grantId observedAt reason =>
    obtain ⟨_,made,_⟩ := answeredOk ok
    exact revokeRefreshGrantApart apart numbered made
  case rotate familyId expectedGeneration observedAt =>
    obtain ⟨_,made,_⟩ := answeredOk ok
    exact rotateApart apart numbered made
  case revokeSigningKey target observedAt =>
    obtain ⟨_,made,_⟩ := answeredOk ok
    exact revokeSigningKeyApart apart numbered made
  case consume adapter id dateNow =>
    obtain ⟨_,made,_⟩ := answeredOk ok
    exact consumeApart (List.all_eq_true.mp apart) numbered made
  case revokeByGrantId adapter reason grantId => exact revokeByGrantIdApart apart numbered (silentOk ok)
  case claim limit skipped =>
    cases ok
    exact deliveryAlike (fun _ => rfl) fun _ => rfl
  case markDelivered id =>
    cases ok
    exact deliveryAlike (fun _ => rfl) fun _ => rfl
  case reschedule id errorCode delaySeconds =>
    cases ok
    exact deliveryAlike (fun _ => rfl) fun _ => rfl
  case advanceDeletionJob jobId observedAt =>
    cases ok
    exact advanceApart numbered apart
  all_goals exact untouchedAlike only rfl

end Elsewhere

section Turns
variable {node : Node} {tenant : TenantId} {a b db : Db} {e : Event}

def own (tenant : TenantId) (e : Event) : Bool := (operationContext e.op).any fun context => context.tenantId == tenant

def answer (node : Node) (db : Db) (e : Event) : Except Fault Reply := (exec node e db).map (·.2)

theorem silentAlike {x y : Except Fault Db} (both : Paired (Alike tenant) x y) : AnsweredAlike tenant (silent x) (silent y) :=
  pairedMap both fun _ _ alike => ⟨alike,rfl⟩

theorem answeredAlike {α : Type} {reply : α → Reply} {x y : Except Fault (Db × α)} (both : AnsweredAlike tenant x y) :
    AnsweredAlike tenant (answered reply x) (answered reply y) :=
  pairedMap both fun _ _ alike => ⟨alike.1,congrArg reply alike.2⟩

theorem execAlike (same : Alike tenant a b) (numbered : Numbered a) (numberedOther : Numbered b) (known : MembersKnown a)
    (knownOther : MembersKnown b) (mine : own tenant e = true)
    (free : uncontended tenant a e = true) (freeOther : uncontended tenant b e = true) :
    AnsweredAlike tenant (exec node e a) (exec node e b) := by
  obtain ⟨now,op⟩ := e
  cases op <;> simp only [own,operationContext,Option.any_none,Option.any_some,beq_iff_eq] at mine <;>
    first | contradiction | subst mine
  case createAttempt context record => exact silentAlike (createAttemptAlike same known knownOther record now)
  case markVerifying context target attempt => exact answeredAlike (.ended (markVerifyingAlike same target attempt now))
  case failAttempt context target attempt reason => exact silentAlike (.ended (failAlike same target attempt reason))
  case completePairing context record proof site key =>
    exact silentAlike (completeAlike same record proof site key now free freeOther)
  case createPending context record => exact answeredAlike (createPendingAlike same record free freeOther)
  case activate context target grantId key proof =>
    refine silentAlike (settleConsentAlike same ?_ target grantId key _ now)
    exact fun _ => rfl
  case deny context target grantId key proof =>
    refine silentAlike (settleConsentAlike same ?_ target grantId key _ now)
    exact fun _ => rfl
  case revoke context target grantId reason => exact answeredAlike (.ended (revokeAlike same target grantId reason now))
  case revokeGrantWithEvent context target grantId =>
    exact answeredAlike (revokeGrantWithEventAlike same numbered numberedOther target grantId now)
  case disconnectSiteWithEvent context target site =>
    exact answeredAlike (disconnectSiteWithEventAlike same numbered numberedOther target site now)

theorem execForeign {context : TenantContext} {next : Db} {reply : Reply} (numbered : Numbered db)
    (given : operationContext e.op = some context) (other : context.tenantId ≠ tenant)
    (ok : exec node e db = .ok (next,reply)) : Alike tenant next db := by
  obtain ⟨now,op⟩ := e
  cases op <;> simp only [operationContext] at given <;> cases given
  case createAttempt record => exact createAttemptForeign other (silentOk ok)
  case markVerifying target attempt =>
    cases ok
    exact { alikeRefl tenant db with
      pairingAttempts := attemptsForeign other (fun r hit => (Bool.and_eq_true_iff.mp hit).1) fun _ => rfl }
  case failAttempt target attempt reason =>
    cases ok
    exact { alikeRefl tenant db with pairingAttempts := attemptsForeign other (fun r hit => hit) fun _ => rfl }
  case completePairing record proof site key => exact completeForeign other (silentOk ok)
  case createPending record =>
    obtain ⟨_,made,_⟩ := answeredOk ok
    exact createPendingForeign other made
  case activate target grantId key proof =>
    have made := silentOk ok
    refine settleConsentForeign other ?_ made
    exact fun _ => rfl
  case deny target grantId key proof =>
    have made := silentOk ok
    refine settleConsentForeign other ?_ made
    exact fun _ => rfl
  case revoke target grantId reason =>
    cases ok
    refine grantsForeign other (fun g hit => grantOwn (Bool.and_eq_true_iff.mp hit).2) ?_
    exact fun _ => rfl
  case revokeGrantWithEvent target grantId =>
    obtain ⟨_,made,_⟩ := answeredOk ok
    exact revokeGrantWithEventForeign other numbered made
  case disconnectSiteWithEvent target site =>
    obtain ⟨_,made,_⟩ := answeredOk ok
    exact disconnectSiteWithEventForeign other numbered made

theorem stepAlike (numbered : Numbered db) (apart : (operationContext e.op = none ∧ elsewhere node tenant db e.op = true) ∨
    ∃ context, operationContext e.op = some context ∧ context.tenantId ≠ tenant) : Alike tenant (step node db e) db := by
  rcases settleCases db (exec node e db) with same | ⟨next,reply,ok,done⟩
  · rw [step,same]
    exact alikeRefl tenant db
  · rw [step,done]
    rcases apart with ⟨free,stays⟩ | ⟨context,given,other⟩
    · exact execElsewhere numbered free stays ok
    · exact execForeign numbered given other ok

end Turns

/- A turn of the run. An operation of the tenant itself meets no row of another in the two unique
indexes, one under another tenant's context is any, and one without a context stays elsewhere. -/
def Admitted (node : Node) (tenant : TenantId) (db : Db) (e : Event) : Prop :=
  (if own tenant e then uncontended tenant db e
    else (operationContext e.op).isSome || elsewhere node tenant db e.op) = true

instance (node : Node) (tenant : TenantId) (db : Db) (e : Event) : Decidable (Admitted node tenant db e) :=
  inferInstanceAs (Decidable (_ = true))

theorem ownUncontended {node : Node} {tenant : TenantId} {db : Db} {e : Event} (admitted : Admitted node tenant db e)
    (mine : own tenant e = true) : uncontended tenant db e = true := by
  rw [Admitted,if_pos mine] at admitted
  exact admitted

section Interleavings
variable {node : Node} {tenant : TenantId}

structure Kept (tenant : TenantId) (a b : Db) : Prop where
  wf : WellFormed a
  wfOther : WellFormed b
  known : MembersKnown a
  knownOther : MembersKnown b
  same : Alike tenant a b

theorem ownConsistent {a b : Db} {e : Event} (kept : Kept tenant a b) (mine : own tenant e = true)
    (admitted : Admitted node tenant a e) (admittedOther : Admitted node tenant b e) :
    Kept tenant (step node a e) (step node b e) ∧ answer node a e = answer node b e := by
  obtain ⟨wf,wfOther,known,knownOther,same⟩ := kept
  have both := @execAlike node tenant a b e same wf.numbered wfOther.numbered known knownOther mine
    (ownUncontended admitted mine) (ownUncontended admittedOther mine)
  exact ⟨⟨stepWellFormed wf,stepWellFormed wfOther,stepMembersKnown wf known,stepMembersKnown wfOther knownOther,
    pairedSettle same both⟩,pairedAnswer both⟩

theorem othersRespect {a b : Db} {e : Event} (kept : Kept tenant a b) (foreign : own tenant e = false)
    (admitted : Admitted node tenant a e) : Kept tenant (step node a e) b := by
  obtain ⟨wf,wfOther,known,knownOther,same⟩ := kept
  refine ⟨stepWellFormed wf,wfOther,stepMembersKnown wf known,knownOther,alikeTrans ?_ same⟩
  rw [Admitted,if_neg (by rw [foreign]; decide),Bool.or_eq_true] at admitted
  refine stepAlike wf.numbered ?_
  cases given : operationContext e.op with
  | none =>
    rw [given] at admitted
    exact .inl ⟨rfl,admitted.resolve_left (by decide)⟩
  | some context =>
    rw [own,given,Option.any_some,beq_eq_false_iff_ne] at foreign
    exact .inr ⟨context,rfl,foreign⟩

theorem alikeRows {α : Type} {column : α → TenantId} {rows others : List α}
    (same : SameIn (ofTenant column tenant) rows others) : AgreeWhere (fun r => column r = tenant) rows others :=
  fun _ inside => memSame same (beq_iff_eq.mpr inside)

theorem stampedRows {α β : Type} {column : α → TenantId} {f : α → β} {rows others : List α}
    (same : SameIn (ofTenant column tenant) rows others) : AgreeWhere (fun row => column row.1 = tenant)
      (rows.map fun r => (r,f r)) (others.map fun r => (r,f r)) := by
  intro row inside
  simp only [List.mem_map]
  refine exists_congr fun r => ?_
  constructor
  · rintro ⟨mem,rfl⟩
    exact ⟨(memSame same (beq_iff_eq.mpr inside)).mp mem,rfl⟩
  · rintro ⟨mem,rfl⟩
    exact ⟨(memSame same (beq_iff_eq.mpr inside)).mpr mem,rfl⟩

theorem alikeAgrees {a b : ControlState} (same : Alike tenant a.db b.db) (stamps : a.stamps = b.stamps) : AgreeOn tenant a b where
  tenants := by
    unfold ControlState.tenantRows
    rw [stamps]
    exact stampedRows same.tenants
  memberships := alikeRows same.memberships
  sites := by
    unfold ControlState.siteRows
    rw [stamps]
    exact stampedRows same.sites
  pairingAttempts := alikeRows same.pairingAttempts
  grants := alikeRows same.grants
  idempotencyRecords := alikeRows same.idempotencyRecords
  securityEvents := alikeRows same.securityEvents

theorem readsAlike (collation : Collation) {context : TenantContext} {a b : ControlState}
    (same : Alike context.tenantId a.db b.db) (stamps : a.stamps = b.stamps) (query : Read) :
    withTenant collation context a query = withTenant collation context b query := by
  have agree := alikeAgrees same stamps
  cases query with
  | findTenant => simp only [withTenant,findTenantAgrees agree]
  | listSites => simp only [withTenant,listSitesAgrees agree]
  | findActiveSite site => simp only [withTenant,findActiveSiteAgrees agree]
  | listGrants => simp only [withTenant,listGrantsAgrees agree]
  | listSecurityEvents limit offset outcome => simp only [withTenant,listSecurityEventsAgrees agree]
  | findPending target grantId key => simp only [withTenant,findPendingAgrees agree]
  | findAttemptForUpdate target attempt => simp only [withTenant,findAttemptAgrees agree]

end Interleavings

def neighbourContext : TenantContext := ⟨otherTenant,memberAccount⟩

def neighbourHistory : List Event := pairedHistory ++
  [⟨seconds 6,.signUp "user_0002"⟩,⟨seconds 7,.ensureAccountAuthLink "user_0002" memberAccount otherTenant⟩]

def neighbourJob : JobId := "deletion_neighbour_00001"

def neighbourTurns : List Event :=
  [⟨seconds 8,.createAttempt neighbourContext
      ⟨otherTenant,"attempt_0002",memberAccount,"https://other.example/mcp",List.replicate 32 7,minutes 10⟩⟩,
    ⟨seconds 10,.createPending sampleContext (samplePending "grant_0001" "begin_0000000000000001" (seconds 10))⟩,
    ⟨seconds 11,.revokeGrantWithEvent neighbourContext sampleTenant "grant_0001"⟩,
    ⟨seconds 12,.activate sampleContext sampleTenant "grant_0001" "complete_00000000000001" "proof_0001"⟩,
    ⟨seconds 13,.disconnectSiteWithEvent neighbourContext sampleTenant sampleSite⟩,
    ⟨seconds 14,.disconnectSiteWithEvent sampleContext sampleTenant sampleSite⟩,
    ⟨seconds 15,.claim 10 fun _ => false⟩,
    ⟨seconds 16,.beginDeletionJob neighbourJob .tenant otherTenant (some otherTenant) memberAccount⟩,
    ⟨seconds 17,.advanceDeletionJob neighbourJob (seconds 17)⟩,
    ⟨minutes 7,.advanceDeletionJob neighbourJob (minutes 7)⟩]

end Wepuu.TenantIsolation
