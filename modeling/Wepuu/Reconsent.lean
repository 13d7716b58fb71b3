import Wepuu.Consent
import Wepuu.Footprint

/-! When a new consent can begin. The unique index over live grants counts a pending grant
until it is revoked, whether or not its request has expired. -/
namespace Wepuu.Reconsent
open Consent Footprint Grants NodeApi Relational Runs Schema Statements Tenancy Wepuu.System

def ofTuple (input : BeginInput) (g : Grant) : Prop :=
  g.tenantId = input.tenantId ∧ g.siteId = input.siteId ∧ g.subjectId = input.subjectId ∧ g.clientId = input.clientId

instance (input g) : Decidable (ofTuple input g) := by unfold ofTuple; infer_instance

/- A call by a member of the tenant for one of its active sites, with input that parses and
an idempotency key and a grant id that were never used. -/
structure FirstCall (service : GrantService) (node : Node) (context : TenantContext) (input : BeginInput)
    (db : Db) : Prop where
  tenant : input.tenantId = context.tenantId
  membership : hasActiveMembership db input.tenantId context.accountId = true
  subject : input.subjectId = context.accountId ∨ administers db input.tenantId context.accountId = true
  site : ∃ s ∈ db.sites, s.tenantId = input.tenantId ∧ s.id = input.siteId ∧ s.status = .active ∧
    canonicalizeResource node input.resource = .ok s.resourceUri
  scopes : scopeSet input.scopes = true
  identifiers : identifiersParse input = true
  challenge : ∀ immutable, challengeShape (service.challengeFactory immutable) = true
  signs : ∀ payload, (service.signer payload).isSome = true
  newKey : ∀ r ∈ db.idempotencyRecords, r.tenantId = input.tenantId → r.operation = .grantCreate →
    r.idempotencyKey ≠ input.idempotencyKey
  newId : ∀ g ∈ db.grants, g.id ≠ input.grantId

/- No grant of the tuple is active or suspended, and the requests of the pending ones have expired. -/
def NoneUsable (input : BeginInput) (dateNow : Time) (db : Db) : Prop :=
  ∀ g ∈ db.grants, ofTuple input g →
    g.status ≠ .active ∧ g.status ≠ .suspended ∧ (g.status = .pending → g.consentExpiresAt ≤ dateNow)

instance (input dateNow db) : Decidable (NoneUsable input dateNow db) := by unfold NoneUsable; infer_instance

section Creating
variable {context : TenantContext} {record : NewPendingGrant} {db : Db}

structure Admitted (context : TenantContext) (record : NewPendingGrant) (db : Db) : Prop where
  fresh : priorCreation context record.tenantId record.idempotencyKey db = none
  site : activeSiteFor context record db = true
  access : grantTenantAccess context db (pendingGrant record) = true
  checked : (pendingGrant record).check = true

theorem createPendingRefused (ok : Admitted context record db)
    (taken : ∃ g ∈ db.grants, grantClash (pendingGrant record) g = true) :
    createPending context record db = .error .uniqueViolation := by
  unfold createPending
  simp only [ok.fresh,ensure,ok.site,ok.access,ok.checked,if_true,insertRowRefused.mpr taken,orFail]
  rfl

theorem createPendingOpens (ok : Admitted context record db)
    (free : ∀ g ∈ db.grants, grantClash (pendingGrant record) g = false)
    (tenant : db.hasTenant record.tenantId = true)
    (recordAccess : idempotencyTenantAccess context db (creationRecord record) = true)
    (recordChecked : (creationRecord record).check = true)
    (unused : ∀ r ∈ db.idempotencyRecords, idempotencyClash (creationRecord record) r = false) :
    createPending context record db = .ok ({ db with
        grants := db.grants ++ [pendingGrant record]
        idempotencyRecords := db.idempotencyRecords ++ [creationRecord record] },
      ⟨record.id,record.createdAt,record.expiresAt⟩) := by
  have grants := insertRowExact.mpr ⟨free,rfl⟩
  have records := insertRowExact.mpr ⟨unused,rfl⟩
  have later : insertIdempotency context (creationRecord record)
      { db with grants := db.grants ++ [pendingGrant record] } = .ok { db with
        grants := db.grants ++ [pendingGrant record]
        idempotencyRecords := db.idempotencyRecords ++ [creationRecord record] } := by
    simp only [insertIdempotency,bindOk,ensureOk,orFailOk]
    exact ⟨(),recordAccess,(),recordChecked,_,records,(),tenant,rfl⟩
  unfold createPending
  rw [ok.fresh]
  simp only [bindOk,ensureOk,orFailOk]
  exact ⟨(),ok.site,(),ok.access,(),ok.checked,_,grants,(),tenant,_,later,rfl⟩

end Creating

section Beginning
variable {service : GrantService} {node : Node} {context : TenantContext} {input : BeginInput} {dateNow : Time}
variable {db : Db}

theorem firstCallParses (call : FirstCall service node context input db) :
    ∃ s ∈ db.sites, s.tenantId = input.tenantId ∧ s.id = input.siteId ∧ s.status = .active ∧
      parseBegin service node input =
        .ok (s.resourceUri,service.challengeFactory (immutableInput input s.resourceUri)) := by
  obtain ⟨s,mem,tenant,site,active,resource⟩ := call.site
  exact ⟨s,mem,tenant,site,active,
    parseBeginExact.mpr ⟨call.scopes,resource,rfl,call.challenge _,call.identifiers⟩⟩

theorem firstCallAdmitted (call : FirstCall service node context input db) {s : Site} (mem : s ∈ db.sites)
    (tenant : s.tenantId = input.tenantId) (site : s.id = input.siteId) (active : s.status = .active)
    (challenge : String) :
    Admitted context (pendingRecord node input s.resourceUri challenge dateNow) db where
  fresh := by
    refine List.findSome?_eq_none_iff.mpr fun r hr => if_neg ?_
    intro hit
    simp only [Bool.and_eq_true,beq_iff_eq] at hit
    exact call.newKey r hr hit.1.1.1 hit.1.1.2 hit.1.2
  site := by
    have seen : siteTenantSelect context db s = true := by
      simp [siteTenantSelect,tenant,call.tenant]
      rw [← call.tenant]
      exact call.membership
    refine List.any_eq_true.mpr ⟨s,mem,?_⟩
    simp [pendingRecord,tenant,site,active,seen]
  access := by
    simp only [grantTenantAccess,pendingGrant,pendingRecord,Bool.and_eq_true,Bool.or_eq_true,beq_iff_eq]
    exact ⟨call.tenant,call.subject⟩
  checked := by
    have ids := call.identifiers
    have scopes := call.scopes
    simp only [identifiersParse,Bool.and_eq_true] at ids
    simp only [scopeSet,Bool.and_eq_true,Bool.not_eq_true',List.isEmpty_eq_false_iff,decide_eq_true_eq] at scopes
    have some_ : 1 ≤ input.scopes.length := List.length_pos_iff.mpr scopes.1.1.1
    have few : input.scopes.length ≤ 16 := by omega
    simp [Grant.check,pendingGrant,pendingRecord,ids,some_,few,secretHash,node.sha256Length]

theorem firstCallRecord (call : FirstCall service node context input db) (resource challenge : String) :
    idempotencyTenantAccess context db (creationRecord (pendingRecord node input resource challenge dateNow)) = true ∧
    (creationRecord (pendingRecord node input resource challenge dateNow)).check = true ∧
    ∀ r ∈ db.idempotencyRecords,
      idempotencyClash (creationRecord (pendingRecord node input resource challenge dateNow)) r = false := by
  refine ⟨?_,?_,?_⟩
  · simp only [idempotencyTenantAccess,creationRecord,pendingRecord,Bool.and_eq_true,beq_iff_eq]
    exact ⟨call.tenant,call.membership⟩
  · have ids := call.identifiers
    simp only [identifiersParse,Bool.and_eq_true] at ids
    simp [IdempotencyRecord.check,creationRecord,pendingRecord,ids,node.sha256Length]
  · intro r mem
    by_contra hit
    simp only [idempotencyClash,creationRecord,pendingRecord,Bool.not_eq_false,Bool.and_eq_true,beq_iff_eq] at hit
    exact call.newKey r mem hit.1.1.symm hit.1.2.symm hit.2.symm

theorem tupleClash (call : FirstCall service node context input db) (resource challenge : String) {g : Grant}
    (mem : g ∈ db.grants) :
    grantClash (pendingGrant (pendingRecord node input resource challenge dateNow)) g = true ↔
      ofTuple input g ∧ g.live = true := by
  have other : (input.grantId == g.id) = false := beq_eq_false_iff_ne.mpr (call.newId g mem).symm
  have opens : (pendingGrant (pendingRecord node input resource challenge dateNow)).live = true := rfl
  simp only [grantClash,opens,Bool.true_and]
  simp only [pendingGrant,pendingRecord,other,Bool.false_or,Bool.and_eq_true,beq_iff_eq,ofTuple]
  constructor
  · rintro ⟨⟨⟨⟨live,t⟩,s⟩,u⟩,c⟩
    exact ⟨⟨t.symm,s.symm,u.symm,c.symm⟩,live⟩
  · rintro ⟨⟨t,s,u,c⟩,live⟩
    exact ⟨⟨⟨⟨live,t.symm⟩,s.symm⟩,u.symm⟩,c.symm⟩

theorem beginOpens (wf : WellFormed db) (call : FirstCall service node context input db)
    (none : ∀ g ∈ db.grants, ofTuple input g → g.live = false) :
    ∃ next consent, service.begin node context input dateNow db = .ok (next,some consent) ∧
      consent.grantId = input.grantId ∧ consent.expiresAt = dateNow + minutes 2 := by
  obtain ⟨s,mem,tenant,site,active,parsed⟩ := firstCallParses call
  let challenge := service.challengeFactory (immutableInput input s.resourceUri)
  let record := pendingRecord node input s.resourceUri challenge dateNow
  have admitted : Admitted context record db := firstCallAdmitted call mem tenant site active challenge
  have free : ∀ g ∈ db.grants, grantClash (pendingGrant record) g = false := by
    intro g hg
    by_contra hit
    obtain ⟨tuple,live⟩ := (tupleClash call s.resourceUri challenge hg).mp (by simpa using hit)
    rw [none g hg tuple] at live
    contradiction
  obtain ⟨access,checked,unused⟩ := firstCallRecord call s.resourceUri challenge
  have known : db.hasTenant record.tenantId = true := by
    have known := wf.siteTenant s mem
    rw [tenant] at known
    exact known
  have created := createPendingOpens admitted free known access checked unused
  let payload := consentRequest service input s.resourceUri challenge ⟨record.id,record.createdAt,record.expiresAt⟩
  obtain ⟨signature,signed⟩ := Option.isSome_iff_exists.mp (call.signs payload)
  refine ⟨{ db with
    grants := db.grants ++ [pendingGrant record]
    idempotencyRecords := db.idempotencyRecords ++ [creationRecord record] },
    ⟨input.grantId,⟨payload,signature⟩,challenge,dateNow + minutes 2⟩,?_,rfl,rfl⟩
  refine bindOk.mpr ⟨_,parsed,bindOk.mpr ⟨_,created,?_⟩⟩
  simp only [payload,challenge] at signed
  simp only [signed,Option.map_some]
  rfl

theorem beginBlocked (call : FirstCall service node context input db)
    (taken : ∃ g ∈ db.grants, ofTuple input g ∧ g.live = true) :
    service.begin node context input dateNow db = .error .uniqueViolation := by
  obtain ⟨s,mem,tenant,site,active,parsed⟩ := firstCallParses call
  let challenge := service.challengeFactory (immutableInput input s.resourceUri)
  let record := pendingRecord node input s.resourceUri challenge dateNow
  have admitted : Admitted context record db := firstCallAdmitted call mem tenant site active challenge
  obtain ⟨g,hg,tuple⟩ := taken
  have refused := createPendingRefused admitted ⟨g,hg,(tupleClash call s.resourceUri challenge hg).mpr tuple⟩
  simp only [GrantService.begin,parsed]
  show (createPending context record db >>= _) = _
  rw [refused]
  rfl

/- In a reachable state without a usable grant of the tuple, begin succeeds if no grant of
it is pending, and is refused by the unique index if an expired request is still there. -/
theorem beginSucceedsIff (service : GrantService) (node : Node) (context : TenantContext) (input : BeginInput)
    (dateNow : Time) (es : List Event)
    (call : FirstCall service node context input (run (step node) Db.empty es))
    (unusable : NoneUsable input dateNow (run (step node) Db.empty es)) :
    let db := run (step node) Db.empty es
    ((∀ g ∈ db.grants, ofTuple input g → g.status ≠ .pending) →
      ∃ next consent, service.begin node context input dateNow db = .ok (next,some consent) ∧
        consent.grantId = input.grantId ∧ consent.expiresAt = dateNow + minutes 2) ∧
    ((∃ g ∈ db.grants, ofTuple input g ∧ g.status = .pending) →
      service.begin node context input dateNow db = .error .uniqueViolation) := by
  intro db
  constructor
  · intro none
    refine beginOpens (reachableWellFormed node es) call fun g hg tuple => ?_
    obtain ⟨notActive,notSuspended,_⟩ := unusable g hg tuple
    simp [Grant.live,notActive,notSuspended,none g hg tuple]
  · rintro ⟨g,hg,tuple,pending⟩
    exact beginBlocked call ⟨g,hg,tuple,by simp [Grant.live,pending]⟩

end Beginning

def abandonedHistory : List Event := pairedHistory ++
  [⟨seconds 10,.createPending sampleContext (samplePending "grant_0001" "begin_0000000000000001" (seconds 10))⟩]

def userWithdraws (at_ : Time) : Event := ⟨at_,.revokeGrantWithEvent sampleContext sampleTenant "grant_0001"⟩

theorem secondCall (es : List Event) (site : sampleSiteRow ∈ (run (step consentNode) Db.empty es).sites)
    (membership : hasActiveMembership (run (step consentNode) Db.empty es) sampleTenant sampleAccount = true)
    (newKey : ∀ r ∈ (run (step consentNode) Db.empty es).idempotencyRecords, r.tenantId = sampleTenant →
      r.operation = .grantCreate → r.idempotencyKey ≠ sampleKey secondKeyDigest)
    (newId : ∀ g ∈ (run (step consentNode) Db.empty es).grants, g.id ≠ "grant_0002") :
    FirstCall sampleService consentNode sampleContext (sampleBegin "grant_0002" secondKeyDigest)
      (run (step consentNode) Db.empty es) where
  tenant := rfl
  membership := membership
  subject := .inl rfl
  site := ⟨sampleSiteRow,site,rfl,rfl,rfl,rfl⟩
  scopes := by decide
  identifiers := by decide
  challenge := controlChallengeShape consentNode grantIdempotencyKey
  signs _ := rfl
  newKey := newKey
  newId := newId

/- The expired request blocks the next consent of the same tuple. -/
theorem abandonedConsentBlocks :
    ¬(FirstCall sampleService consentNode sampleContext (sampleBegin "grant_0002" secondKeyDigest)
        (run (step consentNode) Db.empty abandonedHistory) →
      NoneUsable (sampleBegin "grant_0002" secondKeyDigest) (minutes 10)
        (run (step consentNode) Db.empty abandonedHistory) →
      ∃ next consent, sampleService.begin consentNode sampleContext (sampleBegin "grant_0002" secondKeyDigest)
        (minutes 10) (run (step consentNode) Db.empty abandonedHistory) = .ok (next,some consent)) := by
  intro claimed
  have call := secondCall abandonedHistory (by decide) (by decide) (by decide) (by decide)
  obtain ⟨next,consent,ok⟩ := claimed call (by decide)
  rw [beginBlocked call (by decide)] at ok
  cases ok

theorem withdrawnConsentFrees :
    ∃ next consent, sampleService.begin consentNode sampleContext (sampleBegin "grant_0002" secondKeyDigest)
      (minutes 10) (run (step consentNode) Db.empty (abandonedHistory ++ [userWithdraws (minutes 5)])) =
        .ok (next,some consent) ∧
      consent.grantId = "grant_0002" ∧ consent.expiresAt = minutes 10 + minutes 2 :=
  (beginSucceedsIff sampleService consentNode sampleContext (sampleBegin "grant_0002" secondKeyDigest) (minutes 10)
    (abandonedHistory ++ [userWithdraws (minutes 5)])
    (secondCall _ (by decide) (by decide) (by decide) (by decide)) (by decide)).1 (by decide)

end Wepuu.Reconsent
