import Wepuu.Statements
import Wepuu.System

/-! Each operation as a chain of statements inside its scope. -/
namespace Wepuu.Footprint
open Artifacts Deletion Families Grants NodeApi Outbox Pairing Relational Runs Schema SigningKeys
open Statements Tenancy Wepuu.System

theorem liveNotRevoked {g : Grant} (live : g.live = true) : g.status ≠ .revoked := by
  intro revoked
  simp [Grant.live,revoked] at live

theorem revokedAdvances {g : Grant} {reason : String} {at_ : Time} (live : g.status ≠ .revoked) :
    Advances g (revokedGrant reason at_ g) := .revoke live _ _

theorem refreshRevokedAdvances {g : Grant} {reason : String} {at_ : Time} (live : g.status ≠ .revoked) :
    Advances g (refreshRevokedGrant reason at_ g) := .revoke live _ _

section Accounts

theorem onlyAccountsElsewhere {db next : Db} (only : OnlyAccounts db next) : Elsewhere db next := by
  obtain ⟨shape,kept⟩ := only
  rw [shape]
  refine ⟨rfl,rfl,rfl,rfl,rfl,rfl,?_⟩
  intro t known
  obtain ⟨row,mem,key⟩ := hasTenantIff.mp known
  exact hasTenantIff.mpr ⟨row,kept row mem,key⟩

theorem elsewhereWrites {scope : Scope} {db next : Db} (same : Elsewhere db next) : Writes scope db next :=
  .single (.elsewhere same)

end Accounts

section Consent
variable {scope : Scope}

theorem insertIdempotencyWrites {context row db next} (allowed : scope.records row)
    (ok : insertIdempotency context row db = .ok next) : Write scope db next := by
  obtain ⟨_,_,free,_,rfl⟩ := insertIdempotencyExact ok
  exact .record allowed free

theorem createPendingWrites {context record db next out} (opens : scope.opens (pendingGrant record))
    (records : scope.records (creationRecord record))
    (ok : createPending context record db = .ok (next,out)) : Writes scope db next := by
  rcases createPendingCases ok with ⟨_,_,_,_,rfl,_⟩ | ⟨active,free,rfl,_,_,_,unused⟩
  · exact .refl
  · have site : db.hasSite record.tenantId record.siteId = true := by
      obtain ⟨s,mem,hit⟩ := List.any_eq_true.mp active
      simp only [Bool.and_eq_true,beq_iff_eq] at hit
      exact hasSiteIff.mpr ⟨s,mem,hit.1.1.1⟩
    exact .tail (.single (.openGrant opens rfl free site)) (.record records unused)

theorem settleConsentWrites {outcome : Grant → Grant} {context tenant grantId key digest now db next}
    (moves : ∀ g, g.status = .pending → Advances g (outcome g))
    (ends : ∀ g, completionRecord context tenant key db = none →
      pendingTarget context tenant grantId now db g = true → (outcome g).live = false → scope.ends g)
    (records : scope.records ⟨tenant,.grantComplete,key,digest,grantId⟩)
    (ok : settleConsent outcome context tenant grantId key digest now db = .ok next) :
    Writes scope db next := by
  unfold settleConsent at ok
  split at ok
  · split at ok <;> cases ok
    exact .refl
  · rename_i fresh
    simp only [bindOk,ensureOk] at ok
    obtain ⟨_,_,ok⟩ := ok
    refine .tail (.single (.moveGrants _ outcome ?_ ?_)) (insertIdempotencyWrites records ok)
    · intro g _ chosen
      simp only [pendingTarget,Bool.and_eq_true,beq_iff_eq] at chosen
      exact moves g chosen.1.1.2
    · intro g _ chosen _ ended
      exact ends g fresh chosen ended

theorem activateWrites {node context tenant grantId key proof now db next}
    (records : scope.records ⟨tenant,.grantComplete,key,completionDigest node grantId proof,grantId⟩)
    (ok : activate node context tenant grantId key proof now db = .ok next) : Writes scope db next :=
  settleConsentWrites (fun _ pending => .approve pending)
    (fun g _ _ ended => by simp [Grant.live] at ended) records ok

theorem denyWrites {node context tenant grantId key proof now db next}
    (ends : ∀ g, completionRecord context tenant key db = none →
      pendingTarget context tenant grantId now db g = true → scope.ends g)
    (records : scope.records ⟨tenant,.grantComplete,key,completionDigest node grantId proof,grantId⟩)
    (ok : deny node context tenant grantId key proof now db = .ok next) : Writes scope db next :=
  settleConsentWrites (fun _ pending => .revoke (by rw [pending]; decide) _ _)
    (fun g fresh chosen _ => ends g fresh chosen) records ok

theorem revokeWrites {context tenant grantId reason now db}
    (ends : ∀ g, repositoryTarget context tenant grantId db g = true → scope.ends g) :
    Writes scope db (Grants.revoke context tenant grantId reason now db).1 := by
  refine .single (.moveGrants _ _ ?_ ?_)
  · intro g _ chosen
    simp only [repositoryTarget,Bool.and_eq_true] at chosen
    exact .revoke (liveNotRevoked chosen.1.2) _ _
  · intro g _ chosen _ _
    exact ends g chosen

theorem revokeGrantWithEventWrites {context tenant grantId now db next out}
    (ends : ∀ g, tenant = context.tenantId → hasActiveMembership db tenant context.accountId = true →
      userTarget context tenant grantId db g = true → scope.ends g)
    (ok : revokeGrantWithEvent context tenant grantId now db = .ok (next,out)) : Writes scope db next := by
  unfold revokeGrantWithEvent at ok
  split at ok
  · rename_i admitted
    simp only [Bool.and_eq_true,beq_iff_eq] at admitted
    split at ok
    · cases ok
      exact .refl
    · simp only [bindOk,orFailOk] at ok
      obtain ⟨site,_,emitted,he,last⟩ := ok
      cases last
      refine .tail (.single (.moveGrants _ _ ?_ ?_)) (.emit he)
      · intro g _ chosen
        simp only [userTarget,Bool.and_eq_true] at chosen
        exact revokedAdvances (liveNotRevoked chosen.1.2)
      · intro g _ chosen _ _
        exact ends g admitted.1 admitted.2 chosen
  · cases ok
    exact .refl

theorem disconnectSiteWithEventWrites {context tenant site now db next out}
    (ends : ∀ g, tenant = context.tenantId → administers db tenant context.accountId = true →
      db.sites.any (siteTarget tenant site) = true → liveAtSite tenant site g = true → scope.ends g)
    (ok : disconnectSiteWithEvent context tenant site now db = .ok (next,out)) : Writes scope db next := by
  unfold disconnectSiteWithEvent at ok
  split at ok
  · rename_i admitted
    simp only [Bool.and_eq_true,beq_iff_eq] at admitted
    split at ok
    · cases ok
      exact .refl
    · rename_i bound found
      have known : db.sites.any (siteTarget tenant site) = true :=
        List.any_eq_true.mpr ⟨bound,List.mem_of_find?_eq_some found,List.find?_some found⟩
      simp only [bindOk] at ok
      obtain ⟨emitted,he,last⟩ := ok
      cases last
      refine .tail (.tail (.single (.closeSites _ fun s => s.revokedAt.getD now)) (.moveGrants _ _ ?_ ?_)) (.emit he)
      · intro g _ chosen
        simp only [liveAtSite,Bool.and_eq_true] at chosen
        exact revokedAdvances (liveNotRevoked chosen.2)
      · intro g _ chosen _ _
        exact ends g admitted.1 admitted.2 known chosen
  · cases ok
    exact .refl

theorem refreshExpiryKeeps {observedAt : Time} (a : SecretArtifact) :
    SameSecret a { a with expiresAt := some observedAt } := ⟨rfl,rfl,rfl,rfl,rfl,fun _ => rfl⟩

theorem revokeRefreshGrantWrites {grantId observedAt reason now db next out}
    (ends : ∀ g, g.id = grantId → scope.ends g) (expires : scope.expires observedAt)
    (ok : revokeRefreshGrant grantId observedAt reason now db = .ok (next,out)) : Writes scope db next := by
  unfold revokeRefreshGrant at ok
  split at ok
  · cases ok
    exact .refl
  · rename_i bound found
    have named : bound.id = grantId := by simpa using List.find?_some found
    have chain : Writes scope db (refreshRevoked bound grantId observedAt reason db) := by
      refine .tail (.single (.moveGrants _ _ ?_ ?_)) (.moveSecrets _ _ (fun a _ _ => refreshExpiryKeeps a)
        fun _ _ _ => .inr ⟨observedAt,rfl,expires⟩)
      · intro g _ chosen
        simp only [liveGrant,Bool.and_eq_true] at chosen
        exact refreshRevokedAdvances (liveNotRevoked chosen.2)
      · intro g _ chosen _ _
        simp only [liveGrant,Bool.and_eq_true,beq_iff_eq] at chosen
        exact ends g (chosen.1.2.trans named)
    split at ok
    · simp only [bindOk,orFailOk] at ok
      obtain ⟨site,_,emitted,he,last⟩ := ok
      cases last
      exact .tail chain (.emit he)
    · cases ok
      exact chain

end Consent

section Families
variable {scope : Scope}

theorem createFamilyWrites {input db next} (ok : Families.create input db = .ok next) : Writes scope db next := by
  simp only [Families.create,bindOk,ensureOk,orFailOk] at ok
  obtain ⟨_,_,_,_,families,_,_,_,last⟩ := ok
  cases last
  exact elsewhereWrites ⟨rfl,rfl,rfl,rfl,rfl,rfl,fun _ known => known⟩

def replayedFamily (familyId : String) (expectedGeneration : Int) (observedAt : Time) (db : Db) :
    Option RefreshFamily :=
  ((uuidIn familyId).bind fun target => db.refreshFamilies.find? fun f => f.familyId == target).filter fun family =>
    usable observedAt family && decide (0 ≤ expectedGeneration) && decide (expectedGeneration ≤ int4Max) &&
    decide (expectedGeneration < family.currentGeneration)

theorem replayWrites {family : RefreshFamily} {target : FamilyId} {observedAt now : Time} {onConflict : OnConflict}
    {event : NewEvent} {db next : Db}
    (ends : ∀ g, liveGrant family.tenantId family.grantId g = true → scope.ends g)
    (emitted : insertEvent onConflict event now (replayRevoked family target observedAt db) = .ok next) :
    Writes scope db next := by
  have marked : Elsewhere db { db with
      refreshFamilies := updateWhere (fun f => f.familyId == target)
        (fun f => { f with
          status := .revoked, revokedAt := some observedAt, revocationReason := some "refresh_replay" })
        db.refreshFamilies } := ⟨rfl,rfl,rfl,rfl,rfl,rfl,fun _ known => known⟩
  refine .tail (.tail (.single (.elsewhere marked)) (.moveGrants _ _ ?_ ?_)) (.emit emitted)
  · intro g _ chosen
    simp only [liveGrant,Bool.and_eq_true] at chosen
    exact revokedAdvances (liveNotRevoked chosen.2)
  · exact fun g _ chosen _ _ => ends g chosen

theorem rotateWrites {familyId expectedGeneration observedAt now db next out}
    (ends : ∀ family g, replayedFamily familyId expectedGeneration observedAt db = some family →
      liveGrant family.tenantId family.grantId g = true → scope.ends g)
    (ok : rotate familyId expectedGeneration observedAt now db = .ok (next,out)) : Writes scope db next := by
  obtain ⟨rfl,_⟩ | ⟨target,read,natural,fits,ok⟩ := rotateOk ok
  · exact .refl
  · unfold rotateRefreshFamily at ok
    split at ok
    · cases ok
      exact .refl
    · rename_i family found
      split at ok
      · rename_i live
        split at ok
        · cases ok
          exact elsewhereWrites ⟨rfl,rfl,rfl,rfl,rfl,rfl,fun _ known => known⟩
        · split at ok
          · rename_i older
            have replayed : replayedFamily familyId expectedGeneration observedAt db = some family := by
              simp [replayedFamily,read,found,live,older,natural,fits]
            simp only [bindOk,orFailOk] at ok
            obtain ⟨site,_,emitted,he,last⟩ := ok
            cases last
            exact replayWrites (fun g chosen => ends family g replayed chosen) he
          · cases ok
            exact .refl
      · cases ok
        exact .refl

end Families

section Keys
variable {scope : Scope}

theorem publishWrites {input db next} (ok : publish input db = .ok next) : Writes scope db next := by
  simp only [publish,bindOk,ensureOk,orFailOk] at ok
  obtain ⟨_,_,keys,_,last⟩ := ok
  cases last
  exact elsewhereWrites ⟨rfl,rfl,rfl,rfl,rfl,rfl,fun _ known => known⟩

theorem activateSigningKeyWrites {target observedAt db} :
    Writes scope db (activateSigningKey target observedAt db).1 := by
  unfold activateSigningKey
  dsimp only
  split
  · exact .refl
  · exact elsewhereWrites ⟨rfl,rfl,rfl,rfl,rfl,rfl,fun _ known => known⟩

theorem announceKeyWrites {target now sites db next} (ok : announceKey target now sites db = .ok next) :
    Writes scope db next := by
  induction sites generalizing db with
  | nil =>
    cases ok
    exact .refl
  | cons s rest ih =>
    simp only [announceKey,bindOk] at ok
    obtain ⟨emitted,he,ok⟩ := ok
    exact .trans (.single (.emit he)) (ih ok)

theorem revokeSigningKeyWrites {target observedAt now db next out}
    (ok : revokeSigningKey target observedAt now db = .ok (next,out)) : Writes scope db next := by
  simp only [revokeSigningKey] at ok
  split at ok
  · simp only [bindOk] at ok
    obtain ⟨announced,ha,last⟩ := ok
    cases last
    refine .trans (elsewhereWrites ?_) (announceKeyWrites ha)
    exact ⟨rfl,rfl,rfl,rfl,rfl,rfl,fun _ known => known⟩
  · cases ok
    exact .refl

theorem retireWrites {target observedAt db} : Writes scope db (retire target observedAt db).1 :=
  elsewhereWrites ⟨rfl,rfl,rfl,rfl,rfl,rfl,fun _ known => known⟩

end Keys

section ArtifactWrites
variable {scope : Scope}

def storedRow (node : Node) (adapter : OidcAdapter) (id : String) (payload : ProviderPayload)
    (expiresIn : Option Int) (dateNow : Time) : Option SecretArtifact :=
  if secretModel adapter then match current node adapter.codec id with
    | .ok lookup => some (storedSecret adapter lookup payload (expiresIn.map fun s => dateNow + seconds s))
    | .error _ => none
  else none

theorem upsertCases {node adapter id payload expiresIn dateNow db next}
    (ok : upsert node adapter id payload expiresIn dateNow db = .ok next) :
    (secretModel adapter = false ∧ Elsewhere db next) ∨
    ∃ row, storedRow node adapter id payload expiresIn dateNow = some row ∧ row.check = true ∧
      next = { db with secretArtifacts := upsertRow secretClash row (fun _ => row) db.secretArtifacts } := by
  simp only [upsert] at ok
  split at ok
  · rename_i secret
    simp only [bindOk,ensureOk] at ok
    obtain ⟨lookup,hl,_,_,_,checked,last⟩ := ok
    cases last
    exact .inr ⟨_,by simp [storedRow,secret,hl],checked,rfl⟩
  · rename_i plain
    obtain ⟨_,_,last⟩ := bindOk.mp ok
    cases last
    exact .inl ⟨by simpa using plain,⟨rfl,rfl,rfl,rfl,rfl,rfl,fun _ known => known⟩⟩

theorem upsertWrites {node adapter id payload expiresIn dateNow db next}
    (stores : ∀ row, storedRow node adapter id payload expiresIn dateNow = some row → scope.stores row)
    (ok : upsert node adapter id payload expiresIn dateNow db = .ok next) : Writes scope db next := by
  rcases upsertCases ok with ⟨_,same⟩ | ⟨row,named,_,rfl⟩
  · exact elsewhereWrites same
  · exact .single (.store (stores row named))

theorem destroyWrites {node adapter id db} : Writes scope db (destroy node adapter id db) := by
  unfold destroy
  split
  · exact .single (.dropSecrets _)
  · exact elsewhereWrites ⟨rfl,rfl,rfl,rfl,rfl,rfl,fun _ known => known⟩

theorem consumeRateLimitElsewhere {policy subject limit windowSeconds observedAt db} :
    Elsewhere db (consumeRateLimit policy subject limit windowSeconds observedAt db).1 := by
  have same : ∀ d, Elsewhere d d := fun d => ⟨rfl,rfl,rfl,rfl,rfl,rfl,fun _ known => known⟩
  unfold consumeRateLimit
  dsimp only
  split
  · split
    · exact ⟨rfl,rfl,rfl,rfl,rfl,rfl,fun _ known => known⟩
    · split
      · exact ⟨rfl,rfl,rfl,rfl,rfl,rfl,fun _ known => known⟩
      · exact same db
  · exact same db

theorem consumeAtWrites {model lookup now db} : Writes scope db (consumeAt model lookup now db) := by
  refine .single (.moveSecrets _ _ ?_ fun _ _ _ => .inl rfl)
  intro a _ chosen
  refine ⟨rfl,rfl,rfl,rfl,rfl,?_⟩
  intro consumed
  simp only [consumable,Bool.and_eq_true,Option.isNone_iff_eq_none] at chosen
  simp [chosen.1.2] at consumed

theorem consumeLookupsWrites {node adapter now lookups db next out}
    (ok : consumeLookups node adapter now lookups db = .ok (next,out)) : Writes scope db next := by
  induction lookups with
  | nil =>
    cases ok
    exact .refl
  | cons lookup rest ih =>
    unfold consumeLookups at ok
    split at ok
    · exact ih ok
    · split at ok
      · split at ok
        · simp only [bindOk] at ok
          obtain ⟨subject,_,ok⟩ := ok
          split at ok <;> cases ok
          · exact .trans (elsewhereWrites consumeRateLimitElsewhere) consumeAtWrites
          · exact elsewhereWrites consumeRateLimitElsewhere
        · cases ok
          exact .refl
      · cases ok
        exact consumeAtWrites

def replayedGrant (model : String) (db : Db) (lookup : SecretArtifactLookup) : Option GrantId :=
  (db.secretArtifacts.find? fun a => atLookup model lookup a && a.consumedAt.isSome).bind
    fun a => memberText a.payload "grantId"

theorem replayLookupsWrites {adapter now lookups db next out}
    (ends : ∀ g, ∀ lookup ∈ lookups, replayedGrant adapter.model db lookup = some g.id → scope.ends g)
    (expires : scope.expires now)
    (ok : replayLookups adapter now lookups db = .ok (next,out)) : Writes scope db next := by
  induction lookups with
  | nil =>
    cases ok
    exact .refl
  | cons lookup rest ih =>
    unfold replayLookups at ok
    split at ok
    · rename_i grantId found
      simp only [bindOk] at ok
      obtain ⟨⟨revoked,flag⟩,hr,last⟩ := ok
      cases last
      refine revokeRefreshGrantWrites ?_ expires hr
      intro g named
      exact ends g lookup List.mem_cons_self (by rw [named]; exact found)
    · exact ih (fun g l mem => ends g l (List.mem_cons_of_mem _ mem)) ok

theorem consumeLookupsNone {node adapter now lookups db next}
    (ok : consumeLookups node adapter now lookups db = .ok (next,none)) : next = db := by
  induction lookups with
  | nil =>
    cases ok
    rfl
  | cons lookup rest ih =>
    unfold consumeLookups at ok
    split at ok
    · exact ih ok
    · split at ok
      · split at ok
        · simp only [bindOk] at ok
          obtain ⟨subject,_,ok⟩ := ok
          split at ok <;> cases ok
        · cases ok
      · cases ok

theorem consumeWrites {node adapter id dateNow now db next out}
    (ends : ∀ g, refreshModel adapter = true → ∀ lookup ∈ candidates node adapter.codec id,
      replayedGrant adapter.model db lookup = some g.id → scope.ends g)
    (expires : scope.expires now)
    (ok : consume node adapter id dateNow now db = .ok (next,out)) : Writes scope db next := by
  unfold consume at ok
  split at ok
  · simp only [bindOk] at ok
    obtain ⟨⟨tried,outcome⟩,hc,ok⟩ := ok
    cases outcome with
    | some outcome =>
      cases ok
      exact consumeLookupsWrites hc
    | none =>
      simp only at ok
      split at ok
      · rename_i refresh
        rw [consumeLookupsNone hc] at ok
        exact replayLookupsWrites (fun g => ends g refresh) expires ok
      · cases ok
        exact consumeLookupsWrites hc
  · cases ok
    exact elsewhereWrites ⟨rfl,rfl,rfl,rfl,rfl,rfl,fun _ known => known⟩

theorem revokeByGrantIdWrites {adapter reason grantId now db next}
    (ends : ∀ g, refreshModel adapter = true → g.id = grantId → scope.ends g) (expires : scope.expires now)
    (ok : revokeByGrantId adapter reason grantId now db = .ok next) : Writes scope db next := by
  simp only [revokeByGrantId,bindOk] at ok
  obtain ⟨⟨revoked,flag⟩,hr,last⟩ := ok
  cases last
  have chain : Writes scope db revoked := by
    unfold revokePlatformGrant at hr
    split at hr
    · exact revokeRefreshGrantWrites (fun g => ends g ‹_›) expires hr
    · cases hr
      exact .refl
  refine .trans (.tail chain (.dropSecrets fun a => memberText a.payload "grantId" == some grantId))
    (elsewhereWrites ?_)
  exact ⟨rfl,rfl,rfl,rfl,rfl,rfl,fun _ known => known⟩

end ArtifactWrites

section PairingWrites
variable {scope : Scope}

theorem createAttemptWrites {context record now db next} (ok : createAttempt context record now db = .ok next) :
    Writes scope db next := by
  simp only [createAttempt,bindOk,ensureOk,orFailOk] at ok
  obtain ⟨_,_,_,_,attempts,_,_,_,last⟩ := ok
  cases last
  exact elsewhereWrites ⟨rfl,rfl,rfl,rfl,rfl,rfl,fun _ known => known⟩

theorem completePairingWrites {node context record proof site key now db next}
    (records : scope.records ⟨record.tenantId,.pairingComplete,key,
      node.sha256 (record.id ++ "\x00" ++ site ++ "\x00" ++ proof.thumbprint),site⟩)
    (ok : complete node context record proof site key now db = .ok next) : Writes scope db next := by
  simp only [complete] at ok
  split at ok
  · split at ok <;> cases ok
    exact .refl
  · simp only [bindOk,ensureOk,orFailOk] at ok
    obtain ⟨url,_,_,_,_,_,sites,hs,_,tenant,_,_,ok⟩ := ok
    obtain ⟨free,rfl⟩ := insertRowExact.mp hs
    refine .tail (.tail (.single (.openSite free tenant)) (.elsewhere ?_)) (insertIdempotencyWrites records ok)
    exact ⟨rfl,rfl,rfl,rfl,rfl,rfl,fun _ known => known⟩

end PairingWrites

section Purging
variable {scope : Scope}

theorem beginDeletionJobWrites {jobId kind scopeId tenantId requestedBy db next out}
    (ok : beginDeletionJob jobId kind scopeId tenantId requestedBy db = .ok (next,out)) :
    Writes scope db next := by
  simp only [beginDeletionJob,bindOk,ensureOk] at ok
  obtain ⟨_,_,_,_,ok⟩ := ok
  split at ok
  · cases ok
    exact .refl
  · simp only [bindOk] at ok
    obtain ⟨_,_,last⟩ := ok
    cases last
    exact elsewhereWrites ⟨rfl,rfl,rfl,rfl,rfl,rfl,fun _ known => known⟩

theorem revokeSubjectGrantsWrites {observedAt now rest db next events out} (wf : WellFormed db)
    (rows : ∀ r ∈ rest, r ∈ db.grants ∧ r.status ≠ .revoked ∧ scope.ends r)
    (distinct : rest.Pairwise fun a b => a.id ≠ b.id)
    (ok : revokeSubjectGrants observedAt now rest db events = .ok (next,out)) : Writes scope db next := by
  induction rest generalizing db events with
  | nil =>
    cases ok
    exact .refl
  | cons r rest ih =>
    obtain ⟨different,distinct⟩ := List.pairwise_cons.mp distinct
    obtain ⟨mem,notRevoked,allowed⟩ := rows r List.mem_cons_self
    have only : ∀ g ∈ db.grants, grantAt r.tenantId r.id g = true → g = r := by
      intro g hg chosen
      simp only [grantAt,Bool.and_eq_true,beq_iff_eq] at chosen
      exact sameGrant wf hg mem chosen.2
    have first : Write scope db { db with
        grants := updateWhere (grantAt r.tenantId r.id) (revokedGrant "account_deleted" observedAt) db.grants } := by
      refine .moveGrants _ _ ?_ ?_
      · intro g hg chosen
        rw [only g hg chosen]
        exact revokedAdvances notRevoked
      · intro g hg chosen _ _
        rw [only g hg chosen]
        exact allowed
    have later : ∀ d : Db, d.grants =
          updateWhere (grantAt r.tenantId r.id) (revokedGrant "account_deleted" observedAt) db.grants →
        ∀ o ∈ rest, o ∈ d.grants ∧ o.status ≠ .revoked ∧ scope.ends o := by
      intro d same o ho
      obtain ⟨om,or,oe⟩ := rows o (List.mem_cons_of_mem _ ho)
      refine ⟨?_,or,oe⟩
      rw [same]
      exact untouchedRow om (by simp [grantAt,(different o ho).symm])
    simp only [revokeSubjectGrants] at ok
    split at ok
    · exact .trans (.single first) (ih (writeKeeps wf first) (later _ rfl) distinct ok)
    · simp only [bindOk] at ok
      obtain ⟨emittedDb,he,ok⟩ := ok
      have second : Write scope _ emittedDb := .emit he
      have wfNext := writeKeeps (writeKeeps wf first) second
      obtain ⟨_,shape⟩ := insertEventExact (writeKeeps wf first).numbered he
      have same : emittedDb.grants =
          updateWhere (grantAt r.tenantId r.id) (revokedGrant "account_deleted" observedAt) db.grants := by
        rw [shape]
      exact .trans (.tail (.single first) second) (ih wfNext (later _ same) distinct ok)

theorem revokeSitesWrites {observedAt now rest db next events out}
    (ends : ∀ s ∈ rest, ∀ g, siteGrant s.tenantId s.id g = true → scope.ends g)
    (ok : revokeSites observedAt now rest db events = .ok (next,out)) : Writes scope db next := by
  induction rest generalizing db events with
  | nil =>
    cases ok
    exact .refl
  | cons s rest ih =>
    simp only [revokeSites,bindOk] at ok
    obtain ⟨emitted,he,ok⟩ := ok
    have revoked : Write scope emitted { emitted with
        grants := updateWhere (siteGrant s.tenantId s.id) (revokedGrant "deletion_requested" observedAt)
          emitted.grants } := by
      refine .moveGrants _ _ ?_ ?_
      · intro g _ chosen
        simp only [siteGrant,Bool.and_eq_true,bne_iff_ne] at chosen
        exact revokedAdvances chosen.2
      · intro g _ chosen _ _
        exact ends s List.mem_cons_self g chosen
    refine .trans (.tail (.tail (.single (.closeSites _ fun s => s.revokedAt.getD observedAt)) (.emit he)) revoked) ?_
    exact ih (fun o mem => ends o (List.mem_cons_of_mem _ mem)) ok

theorem revokeAccountWrites {job observedAt now db next sessions events} (wf : WellFormed db)
    (ends : ∀ g, g.subjectId = job.scopeId → scope.ends g)
    (ok : revokeAccount job observedAt now db = .ok (next,sessions,events)) : Writes scope db next := by
  simp only [revokeAccount,bindOk] at ok
  obtain ⟨⟨revoked,n⟩,hr,last⟩ := ok
  cases last
  have closed : Write scope db { db with
      accountSessions := updateWhere (fun session => session.accountId == job.scopeId && session.revokedAt.isNone)
        (fun session => { session with revokedAt := some observedAt }) db.accountSessions
      memberships := updateWhere (fun m => m.accountId == job.scopeId && m.status == .active)
        (fun m => { m with status := .revoked, revokedAt := some (m.revokedAt.getD observedAt) }) db.memberships
      accounts := updateWhere (fun a => a.id == job.scopeId) (fun a => { a with status := .deleted }) db.accounts } :=
    .elsewhere ⟨rfl,rfl,rfl,rfl,rfl,rfl,fun _ known => known⟩
  refine .trans (.single closed) (revokeSubjectGrantsWrites (writeKeeps wf closed) ?_ ?_ hr)
  · intro r mem
    obtain ⟨known,chosen⟩ := List.mem_filter.mp mem
    simp only [Bool.and_eq_true,beq_iff_eq,bne_iff_ne] at chosen
    exact ⟨known,chosen.2,ends r chosen.1⟩
  · refine List.Pairwise.filter _ (List.Pairwise.imp ?_ wf.grantIndex)
    intro a b free same
    simp [grantClash,same] at free

theorem revokeTenantScopeWrites {job observedAt now db next sessions events}
    (ends : ∀ g, inTenantScope job g.tenantId (some g.siteId) = true → scope.ends g)
    (ok : revokeTenantScope job observedAt now db = .ok (next,sessions,events)) : Writes scope db next := by
  simp only [revokeTenantScope,bindOk] at ok
  obtain ⟨⟨revoked,n⟩,hr,last⟩ := ok
  cases last
  refine .trans (revokeSitesWrites ?_ hr) (elsewhereWrites ?_)
  · intro s mem g chosen
    have inScope := (List.mem_filter.mp mem).2
    simp only [siteGrant,Bool.and_eq_true,beq_iff_eq] at chosen inScope
    refine ends g ?_
    rw [chosen.1.1,chosen.1.2]
    exact inScope.1
  · refine ⟨rfl,rfl,rfl,rfl,rfl,rfl,?_⟩
    intro t known
    obtain ⟨row,mem,key⟩ := hasTenantIff.mp known
    refine hasTenantIff.mpr ⟨_,memUpdateWhere.mpr ⟨row,mem,rfl⟩,?_⟩
    split <;> exact key

theorem setJobElsewhere {jobId change db} : Elsewhere db (setJob jobId change db) :=
  ⟨rfl,rfl,rfl,rfl,rfl,rfl,fun _ known => known⟩

theorem firstPhaseWrites {job observedAt now db next out} (wf : WellFormed db)
    (ends : ∀ g, (if job.scopeKind = .account then g.subjectId = job.scopeId
      else inTenantScope job g.tenantId (some g.siteId) = true) → scope.ends g)
    (ok : firstPhase job observedAt now db = .ok (next,out)) : Writes scope db next := by
  simp only [firstPhase,bindOk] at ok
  obtain ⟨⟨revoked,sessions,events⟩,hr,last⟩ := ok
  cases last
  refine .tail ?_ (.elsewhere setJobElsewhere)
  unfold revokeScope at hr
  split at hr
  · rename_i account
    exact revokeAccountWrites wf (fun g => by simpa [account] using ends g) hr
  · rename_i tenant
    exact revokeTenantScopeWrites (fun g => by simpa [tenant] using ends g) hr

theorem purgeAccountWrites {job db next}
    (ends : ∀ g, g.subjectId = job.scopeId → scope.ends g)
    (purges : ∀ r, r.grantId.any (tombstonedGrant job db) = true → scope.purges r)
    (forgets : ∀ r, tombstonedGrant job db r.resultReference = true → scope.forgets r)
    (ok : purgeAccount job db = .ok next) : Writes scope db next := by
  simp only [purgeAccount,bindOk] at ok
  obtain ⟨_,_,last⟩ := ok
  cases last
  refine .trans (.tail (.tail (.tail (.single
    (.dropSecrets fun a => tombstonedPayload job db a.payload))
    (.dropEvents (fun r => r.grantId.any (tombstonedGrant job db)) fun r _ => purges r))
    (.dropRecords (fun r => tombstonedGrant job db r.resultReference) fun r _ => forgets r))
    (.dropGrants (fun g => g.subjectId == job.scopeId) fun g _ chosen _ => ends g (by simpa using chosen)))
    (elsewhereWrites ?_)
  exact ⟨rfl,rfl,rfl,rfl,rfl,rfl,fun _ known => known⟩

theorem purgeTenantScopeWrites {job db}
    (ends : ∀ g, inTenantScope job g.tenantId (some g.siteId) = true → scope.ends g)
    (purges : ∀ r, inTenantScope job r.tenantId (some r.siteId) = true → scope.purges r)
    (forgets : ∀ r : IdempotencyRecord, some r.tenantId = job.tenantId →
      (job.scopeKind = .tenant ∨ r.resultReference = job.scopeId ∨
        tombstonedGrant job db r.resultReference = true) → scope.forgets r) :
    Writes scope db (purgeTenantScope job db) := by
  have wholeTenant : ∀ t s, (job.scopeKind == .tenant && some t == job.tenantId) = true →
      inTenantScope job t s = true := by
    intro t s whole
    simp only [Bool.and_eq_true] at whole
    simp only [inTenantScope,whole.1,whole.2,Bool.true_or,Bool.and_self]
  refine .trans (.tail (.tail (.tail (.tail (.tail (.single
    (.dropSecrets fun a => a.tenantId.any
      (fun t => job.scopeKind == .tenant && some t == job.tenantId) || tombstonedPayload job db a.payload))
    (.dropEvents (fun r => inTenantScope job r.tenantId (some r.siteId)) fun r _ => purges r))
    (.dropRecords (fun r => some r.tenantId == job.tenantId &&
        (job.scopeKind == .tenant || r.resultReference == job.scopeId ||
          tombstonedGrant job db r.resultReference)) ?_))
    (.dropGrants (fun g => inTenantScope job g.tenantId (some g.siteId)) fun g _ chosen _ => ends g chosen))
    (.dropSites (fun s => inTenantScope job s.tenantId (some s.id)) ?_))
    (.dropTenants (fun t => job.scopeKind == .tenant && some t.id == job.tenantId) ?_))
    (elsewhereWrites ⟨rfl,rfl,rfl,rfl,rfl,rfl,fun _ known => known⟩)
  · intro r _ chosen
    simp only [Bool.and_eq_true,Bool.or_eq_true,beq_iff_eq] at chosen
    exact forgets r chosen.1 (by rcases chosen.2 with (h | h) | h <;> simp [h])
  · rintro g mem s _ chosen ⟨tenant,site⟩
    have kept := (memDeleteWhere.mp mem).2
    rw [tenant,site,kept] at chosen
    contradiction
  · rintro s mem t _ chosen same
    have kept := (memDeleteWhere.mp mem).2
    rw [same] at chosen
    rw [wholeTenant _ _ chosen] at kept
    contradiction

def noAttemptOf (job : DeletionJob) (db : Db) : Bool :=
  db.pairingAttempts.all fun a => a.initiatorAccountId != job.scopeId

def dueJob (jobId : JobId) (observedAt : Time) (db : Db) : Option DeletionJob :=
  (db.deletionJobs.find? fun job => job.id == jobId).filter fun job => match job.status with
    | .pending => true
    | .waiting => (!job.safeAfter.all fun safeAfter => observedAt < safeAfter) &&
        (job.scopeKind != .account || noAttemptOf job db)
    | .complete | .failed => false

def grantInScope (job : DeletionJob) (g : Grant) : Prop :=
  if job.scopeKind = .account then g.subjectId = job.scopeId
  else inTenantScope job g.tenantId (some g.siteId) = true

def purging (jobId : JobId) (observedAt : Time) (db : Db) : Option DeletionJob :=
  (dueJob jobId observedAt db).filter fun job => job.status == .waiting

def eventInScope (job : DeletionJob) (db : Db) (r : OutboxRow) : Prop :=
  if job.scopeKind = .account then r.grantId.any (tombstonedGrant job db) = true
  else inTenantScope job r.tenantId (some r.siteId) = true

def recordInScope (job : DeletionJob) (db : Db) (r : IdempotencyRecord) : Prop :=
  if job.scopeKind = .account then tombstonedGrant job db r.resultReference = true
  else some r.tenantId = job.tenantId ∧ (job.scopeKind = .tenant ∨ r.resultReference = job.scopeId ∨
    tombstonedGrant job db r.resultReference = true)

theorem advanceDeletionJobWrites {jobId observedAt now db} (wf : WellFormed db)
    (ends : ∀ job g, dueJob jobId observedAt db = some job → grantInScope job g → scope.ends g)
    (purges : ∀ job r, purging jobId observedAt db = some job → eventInScope job db r → scope.purges r)
    (forgets : ∀ job r, purging jobId observedAt db = some job → recordInScope job db r → scope.forgets r) :
    Writes scope db (advanceDeletionJob jobId observedAt now db).1 := by
  unfold advanceDeletionJob
  split
  · rename_i done ok
    obtain ⟨next,out⟩ := done
    simp only [advanceBody,bindOk,orFailOk] at ok
    obtain ⟨job,found,ok⟩ := ok
    split at ok
    · cases ok
      exact .refl
    · cases ok
      exact .refl
    · rename_i pending
      have due : dueJob jobId observedAt db = some job := by simp [dueJob,found,pending]
      exact firstPhaseWrites wf (fun g => ends job g due) ok
    · rename_i waiting
      split at ok
      · cases ok
        exact .refl
      · rename_i late
        simp only [purgePhase,bindOk] at ok
        obtain ⟨purged,hp,last⟩ := ok
        cases last
        have due : dueJob jobId observedAt db = some job := by
          have admitted : job.scopeKind = .account → noAttemptOf job db = true := by
            intro account
            simp only [purgeScope,if_pos account,purgeAccount,bindOk,ensureOk] at hp
            exact hp.choose_spec.1
          simp only [dueJob,found,Option.filter_some,waiting]
          rw [if_pos]
          simp only [Bool.and_eq_true,Bool.or_eq_true,bne_iff_ne]
          exact ⟨by simpa using late,or_iff_not_imp_left.mpr fun h => admitted (by simpa using h)⟩
        have purge : purging jobId observedAt db = some job := by simp [purging,due,waiting]
        refine .tail ?_ (.elsewhere setJobElsewhere)
        unfold purgeScope at hp
        split at hp
        · rename_i account
          refine purgeAccountWrites (fun g hit => ends job g due ?_) (fun r hit => purges job r purge ?_)
            (fun r hit => forgets job r purge ?_) hp
          · simpa [grantInScope,account] using hit
          · simpa [eventInScope,account] using hit
          · simpa [recordInScope,account] using hit
        · rename_i tenant
          cases hp
          refine purgeTenantScopeWrites (fun g hit => ends job g due ?_) (fun r hit => purges job r purge ?_)
            (fun r same hit => forgets job r purge ?_)
          · simpa [grantInScope,tenant] using hit
          · simpa [eventInScope,tenant] using hit
          · simpa [recordInScope,tenant] using ⟨same,hit⟩
  · exact elsewhereWrites setJobElsewhere

end Purging

section Footprints
variable (node : Node) (e : Event) (db : Db)

/- The live grants an operation may end, by the guards and WHERE clauses it has for that. -/
def endsGrant (g : Grant) : Prop := match e.op with
  | .deny context tenant grantId key _ =>
    completionRecord context tenant key db = none ∧ pendingTarget context tenant grantId e.now db g = true
  | .revoke context tenant grantId _ => repositoryTarget context tenant grantId db g = true
  | .revokeGrantWithEvent context tenant grantId =>
    tenant = context.tenantId ∧ hasActiveMembership db tenant context.accountId = true ∧
      userTarget context tenant grantId db g = true
  | .disconnectSiteWithEvent context tenant site =>
    tenant = context.tenantId ∧ administers db tenant context.accountId = true ∧
      db.sites.any (siteTarget tenant site) = true ∧ liveAtSite tenant site g = true
  | .revokeRefreshGrant grantId _ _ => g.id = grantId
  | .rotate target expectedGeneration observedAt =>
    ∃ family, replayedFamily target expectedGeneration observedAt db = some family ∧
      liveGrant family.tenantId family.grantId g = true
  | .consume adapter id _ =>
    refreshModel adapter = true ∧ ∃ lookup ∈ candidates node adapter.codec id,
      replayedGrant adapter.model db lookup = some g.id
  | .revokeByGrantId adapter _ grantId => refreshModel adapter = true ∧ g.id = grantId
  | .advanceDeletionJob jobId observedAt =>
    ∃ job, dueJob jobId observedAt db = some job ∧ grantInScope job g
  | _ => False

def addsRecord (r : IdempotencyRecord) : Prop := match e.op with
  | .createPending _ record => r = creationRecord record
  | .activate _ tenant grantId key proof | .deny _ tenant grantId key proof =>
    r = ⟨tenant,.grantComplete,key,completionDigest node grantId proof,grantId⟩
  | .completePairing _ record proof site key =>
    r = ⟨record.tenantId,.pairingComplete,key,
      node.sha256 (record.id ++ "\x00" ++ site ++ "\x00" ++ proof.thumbprint),site⟩
  | _ => False

def purgeOf : Option DeletionJob := match e.op with
  | .advanceDeletionJob jobId observedAt => purging jobId observedAt db
  | _ => none

def footprint : Scope where
  opens g := match e.op with
    | .createPending _ record => g = pendingGrant record
    | _ => False
  ends := endsGrant node e db
  records := addsRecord node e
  forgets r := ∃ job ∈ purgeOf e db, recordInScope job db r
  stores row := match e.op with
    | .upsert adapter id payload expiresIn dateNow =>
      storedRow node adapter id payload expiresIn dateNow = some row
    | _ => False
  expires t := match e.op with
    | .revokeRefreshGrant _ observedAt _ => t = observedAt
    | .consume _ _ _ | .revokeByGrantId _ _ _ => t = e.now
    | _ => False
  purges r := ∃ job ∈ purgeOf e db, eventInScope job db r

theorem leasedSame (now : Time) (r : OutboxRow) : SameEvent r (leased now r) := ⟨rfl,rfl,rfl,rfl,rfl,rfl⟩

theorem execWrites {next reply} (wf : WellFormed db) (ok : exec node e db = .ok (next,reply)) :
    Writes (footprint node e db) db next := by
  obtain ⟨now,op⟩ := e
  cases op with
  | signUp authUser =>
    exact elsewhereWrites (onlyAccountsElsewhere (signUpAccounts (silentOk ok)))
  | ensureAccountAuthLink authUser account tenant =>
    simp only [exec] at ok
    obtain ⟨_,run,_⟩ := answeredOk ok
    exact elsewhereWrites (onlyAccountsElsewhere (ensureAccountAuthLinkAccounts run))
  | ensurePersonalWorkspace account tenant =>
    simp only [exec] at ok
    obtain ⟨_,run,_⟩ := answeredOk ok
    exact elsewhereWrites (onlyAccountsElsewhere (ensurePersonalWorkspaceAccounts run))
  | seedMembership tenant account role =>
    exact elsewhereWrites (onlyAccountsElsewhere (seedMembershipAccounts (silentOk ok)))
  | createSession input =>
    simp only [exec] at ok
    obtain ⟨_,run,_⟩ := answeredOk ok
    exact elsewhereWrites (onlyAccountsElsewhere (createSessionAccounts run))
  | createAttempt context record => exact createAttemptWrites (silentOk ok)
  | markVerifying context tenant attempt =>
    cases ok
    exact elsewhereWrites ⟨rfl,rfl,rfl,rfl,rfl,rfl,fun _ known => known⟩
  | failAttempt context tenant attempt reason =>
    cases ok
    exact elsewhereWrites ⟨rfl,rfl,rfl,rfl,rfl,rfl,fun _ known => known⟩
  | completePairing context record proof site key => exact completePairingWrites rfl (silentOk ok)
  | createPending context record =>
    obtain ⟨_,run,_⟩ := answeredOk ok
    exact createPendingWrites rfl rfl run
  | activate context tenant grantId key proof => exact activateWrites rfl (silentOk ok)
  | deny context tenant grantId key proof =>
    exact denyWrites (fun g fresh chosen => ⟨fresh,chosen⟩) rfl (silentOk ok)
  | revoke context tenant grantId reason =>
    cases ok
    exact revokeWrites fun g chosen => chosen
  | revokeGrantWithEvent context tenant grantId =>
    obtain ⟨_,run,_⟩ := answeredOk ok
    exact revokeGrantWithEventWrites (fun g same member chosen => ⟨same,member,chosen⟩) run
  | disconnectSiteWithEvent context tenant site =>
    obtain ⟨_,run,_⟩ := answeredOk ok
    exact disconnectSiteWithEventWrites (fun g same role known chosen => ⟨same,role,known,chosen⟩) run
  | revokeRefreshGrant grantId observedAt reason =>
    obtain ⟨_,run,_⟩ := answeredOk ok
    exact revokeRefreshGrantWrites (fun g named => named) rfl run
  | createFamily input => exact createFamilyWrites (silentOk ok)
  | rotate target expectedGeneration observedAt =>
    obtain ⟨_,run,_⟩ := answeredOk ok
    exact rotateWrites (fun family g found chosen => ⟨family,found,chosen⟩) run
  | publishKey input => exact publishWrites (silentOk ok)
  | activateSigningKey target observedAt =>
    cases ok
    exact activateSigningKeyWrites
  | revokeSigningKey target observedAt =>
    obtain ⟨_,run,_⟩ := answeredOk ok
    exact revokeSigningKeyWrites run
  | retireKey target observedAt =>
    cases ok
    exact retireWrites
  | upsert adapter id payload expiresIn dateNow => exact upsertWrites (fun row named => named) (silentOk ok)
  | destroy adapter id =>
    cases ok
    exact destroyWrites
  | consume adapter id dateNow =>
    obtain ⟨_,run,_⟩ := answeredOk ok
    exact consumeWrites (fun g refresh lookup mem found => ⟨refresh,lookup,mem,found⟩) rfl run
  | revokeByGrantId adapter reason grantId =>
    exact revokeByGrantIdWrites (fun g refresh named => ⟨refresh,named⟩) rfl (silentOk ok)
  | consumeRateLimit policy subject limit windowSeconds observedAt =>
    cases ok
    exact elsewhereWrites consumeRateLimitElsewhere
  | claim limit skipped =>
    cases ok
    exact .single (.moveEvents _ _ (leasedSame now))
  | markDelivered id =>
    cases ok
    exact .single (.moveEvents _ _ fun _ => ⟨rfl,rfl,rfl,rfl,rfl,rfl⟩)
  | reschedule id errorCode delaySeconds =>
    cases ok
    exact .single (.moveEvents _ _ fun _ => ⟨rfl,rfl,rfl,rfl,rfl,rfl⟩)
  | beginDeletionJob jobId kind scopeId tenantId requestedBy =>
    obtain ⟨_,run,_⟩ := answeredOk ok
    exact beginDeletionJobWrites run
  | advanceDeletionJob jobId observedAt =>
    cases ok
    exact advanceDeletionJobWrites wf (fun job g due inside => ⟨job,due,inside⟩)
      (fun job r due inside => ⟨job,due,inside⟩) (fun job r due inside => ⟨job,due,inside⟩)

variable {node e db}

theorem stepWrites (wf : WellFormed db) : Writes (footprint node e db) db (step node db e) := by
  rcases settleCases db (exec node e db) with same | ⟨next,reply,ok,done⟩
  · rw [step,same]
  · rw [step,done]
    exact execWrites node e db wf ok

theorem stepWellFormed (wf : WellFormed db) : WellFormed (step node db e) := writesKeep wf (stepWrites wf)

theorem reachableWellFormed (node : Node) (es : List Event) : WellFormed (run (step node) Db.empty es) :=
  invariantAlways (fun _ _ wf => stepWellFormed wf) wellFormedEmpty es

end Footprints


end Wepuu.Footprint
