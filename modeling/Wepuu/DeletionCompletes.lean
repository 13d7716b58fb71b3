import Wepuu.AccountReferences
import Wepuu.DeletionReports

/-! A deletion job from its admission to its end: the first advance never raises, and the
purge raises exactly where an account that started a pairing is to be deleted. -/
namespace Wepuu.DeletionCompletes
open AccountReferences Deletion DeletionReports Footprint Frames Grants NodeApi Outbox Relational Runs Schema Statements
open Tenancy Wepuu.System

section Jobs
variable {jobId : JobId} {job : DeletionJob} {db next : Db}

def jobOf (jobId : JobId) (db : Db) : Option DeletionJob := db.deletionJobs.find? fun job => job.id == jobId

theorem setJobOf {change : DeletionJob → DeletionJob} (keeps : ∀ j, (change j).id = j.id) :
    jobOf jobId (setJob jobId change db) = (jobOf jobId db).map change :=
  findChanged fun j => by simp only [keeps]

theorem setJobOther {other : JobId} {change : DeletionJob → DeletionJob} (keeps : ∀ j, (change j).id = j.id)
    (apart : other ≠ jobId) : jobOf jobId (setJob other change db) = jobOf jobId db := by
  refine findUpdated ?_ (fun j => by simp only [keeps])
  intro j _ named
  rw [beq_iff_eq] at named
  rw [named]
  exact beq_eq_false_iff_ne.mpr apart.symm

theorem jobSame (same : next.deletionJobs = db.deletionJobs) : jobOf jobId next = jobOf jobId db := by
  unfold jobOf
  rw [same]

def waitingJob (observedAt : Time) (sessions events : Nat) (j : DeletionJob) : DeletionJob :=
  { j with status := .waiting, safeAfter := some (observedAt + minutes 6), counts := .revoked sessions events }
def completedJob (observedAt : Time) (j : DeletionJob) : DeletionJob :=
  { j with status := .complete, completedAt := some observedAt, counts := .purged true true }
def failedJob (fault : Fault) (j : DeletionJob) : DeletionJob :=
  { j with status := .failed, failureCode := fault.sqlstate }

inductive Advanced (jobId : JobId) (observedAt now : Time) (db : Db) : Db → Prop
  | missing (none : jobOf jobId db = none) : Advanced jobId observedAt now db (setJob jobId
      (failedJob (.raised "deletion_job_missing" "P0002")) db)
  | ended {job : DeletionJob} (found : jobOf jobId db = some job)
      (done : job.status = .complete ∨ job.status = .failed) : Advanced jobId observedAt now db db
  | early {job : DeletionJob} (found : jobOf jobId db = some job) (waiting : job.status = .waiting)
      (unsafe_ : job.safeAfter.all (fun safeAfter => decide (observedAt < safeAfter)) = true) :
      Advanced jobId observedAt now db db
  | revoked {job : DeletionJob} {next : Db} {sessions events : Nat} (found : jobOf jobId db = some job)
      (pending : job.status = .pending) (ok : revokeScope job observedAt now db = .ok (next,sessions,events)) :
      Advanced jobId observedAt now db (setJob jobId (waitingJob observedAt sessions events) next)
  | purged {job : DeletionJob} {next : Db} (found : jobOf jobId db = some job) (waiting : job.status = .waiting)
      (safe : job.safeAfter.all (fun safeAfter => decide (observedAt < safeAfter)) = false)
      (ok : purgeScope job db = .ok next) :
      Advanced jobId observedAt now db (setJob jobId (completedJob observedAt) next)
  | revokeRaised {job : DeletionJob} {fault : Fault} (found : jobOf jobId db = some job) (pending : job.status = .pending)
      (raised : revokeScope job observedAt now db = .error fault) :
      Advanced jobId observedAt now db (setJob jobId (failedJob fault) db)
  | purgeRaised {job : DeletionJob} {fault : Fault} (found : jobOf jobId db = some job) (waiting : job.status = .waiting)
      (safe : job.safeAfter.all (fun safeAfter => decide (observedAt < safeAfter)) = false)
      (raised : purgeScope job db = .error fault) :
      Advanced jobId observedAt now db (setJob jobId (failedJob fault) db)

theorem jobOfId (found : jobOf jobId db = some job) : job.id = jobId := by
  simpa using List.find?_some found

theorem bodyFound {observedAt now : Time} (found : jobOf jobId db = some job) :
    advanceBody jobId observedAt now db = match job.status with
      | .complete | .failed => .ok (db,report job)
      | .pending => firstPhase job observedAt now db
      | .waiting =>
        if job.safeAfter.all fun safeAfter => observedAt < safeAfter then .ok (db,report job)
        else purgePhase job observedAt db := by
  unfold jobOf at found
  simp only [advanceBody,found,orFail]
  rfl

theorem advanced (jobId : JobId) (observedAt now : Time) (db : Db) :
    Advanced jobId observedAt now db (advanceDeletionJob jobId observedAt now db).1 := by
  cases found : jobOf jobId db with
  | none =>
    have body : advanceBody jobId observedAt now db = .error (.raised "deletion_job_missing" "P0002") := by
      unfold jobOf at found
      simp only [advanceBody,found,orFail]
      rfl
    unfold advanceDeletionJob
    rw [body]
    exact .missing found
  | some job =>
    have named := jobOfId found
    unfold advanceDeletionJob
    rw [bodyFound found]
    cases status : job.status with
    | complete => exact .ended found (.inl status)
    | failed => exact .ended found (.inr status)
    | pending =>
      cases revoke : revokeScope job observedAt now db with
      | error fault =>
        have raised : firstPhase job observedAt now db = .error fault := by
          unfold firstPhase
          rw [revoke]
          rfl
        simp only [raised]
        exact .revokeRaised found status revoke
      | ok triple =>
        obtain ⟨next,sessions,events⟩ := triple
        have first : firstPhase job observedAt now db = .ok (setJob job.id (waitingJob observedAt sessions events) next,
            report (waitingJob observedAt sessions events job)) := by
          unfold firstPhase
          rw [revoke]
          rfl
        simp only [first,named]
        exact .revoked found status revoke
    | waiting =>
      cases safe : job.safeAfter.all fun safeAfter => decide (observedAt < safeAfter) with
      | true =>
        simp only [if_true]
        exact .early found status safe
      | false =>
        simp only [Bool.false_eq_true,if_false]
        cases purge : purgeScope job db with
        | error fault =>
          have raised : purgePhase job observedAt db = .error fault := by
            unfold purgePhase
            rw [purge]
            rfl
          simp only [raised]
          exact .purgeRaised found status safe purge
        | ok next =>
          have second : purgePhase job observedAt db = .ok (setJob job.id (completedJob observedAt) next,
              report (completedJob observedAt job)) := by
            unfold purgePhase
            rw [purge]
            rfl
          simp only [second,named]
          exact .purged found status safe purge

theorem revokeScopeJobs {observedAt now : Time} {sessions events : Nat}
    (ok : revokeScope job observedAt now db = .ok (next,sessions,events)) :
    next.deletionJobs = db.deletionJobs := by
  unfold revokeScope at ok
  split at ok
  · exact revokeAccountOnly ok .deletionJobs (by decide)
  · exact revokeTenantScopeOnly ok .deletionJobs (by decide)

theorem purgeScopeJobs (ok : purgeScope job db = .ok next) : next.deletionJobs = db.deletionJobs := by
  unfold purgeScope at ok
  split at ok
  · simp only [purgeAccount,bindOk,ensureOk] at ok
    obtain ⟨_,_,last⟩ := ok
    cases last
    rfl
  · cases ok
    rfl

theorem advancedOther {target : JobId} {observedAt now : Time} (apart : target ≠ jobId)
    (moved : Advanced target observedAt now db next) : jobOf jobId next = jobOf jobId db := by
  cases moved with
  | missing _ => exact setJobOther (fun _ => rfl) apart
  | ended _ _ => rfl
  | early _ _ _ => rfl
  | revoked _ _ ok =>
    refine (setJobOther ?_ apart).trans (jobSame (revokeScopeJobs ok))
    exact fun _ => rfl
  | purged _ _ _ ok =>
    refine (setJobOther ?_ apart).trans (jobSame (purgeScopeJobs ok))
    exact fun _ => rfl
  | revokeRaised _ _ _ => exact setJobOther (fun _ => rfl) apart
  | purgeRaised _ _ _ _ => exact setJobOther (fun _ => rfl) apart

theorem jobAdded {rows : List DeletionJob} (known : jobOf jobId db = some job)
    (shape : next.deletionJobs = db.deletionJobs ++ rows) : jobOf jobId next = some job := by
  unfold jobOf at known ⊢
  rw [shape,List.find?_append,known]
  rfl

def advances (jobId : JobId) (e : Event) : Bool := match e.op with
  | .advanceDeletionJob target _ => target == jobId
  | _ => false

theorem stepJob {node : Node} {e : Event} (other : advances jobId e = false) (known : jobOf jobId db = some job) :
    jobOf jobId (step node db e) = some job := by
  by_cases untouched : Table.deletionJobs ∈ touches e.op
  · rcases settleCases db (exec node e db) with same | ⟨next,reply,ok,done⟩
    · rw [step,same]
      exact known
    rw [step,done]
    obtain ⟨now,op⟩ := e
    cases op <;> try (simp [touches] at untouched; done)
    case beginDeletionJob target kind scopeId tenantId requestedBy =>
      simp only [exec] at ok
      obtain ⟨_,made,_⟩ := answeredOk ok
      simp only [beginDeletionJob,bindOk,ensureOk] at made
      obtain ⟨_,_,_,_,made⟩ := made
      split at made
      · cases made
        exact known
      · simp only [bindOk] at made
        obtain ⟨_,_,last⟩ := made
        cases last
        exact jobAdded known rfl
    case advanceDeletionJob target observedAt =>
      cases ok
      have apart : target ≠ jobId := by simpa [advances] using other
      exact (advancedOther apart (advanced target observedAt now db)).trans known
  · rw [jobSame (stepOnly .deletionJobs untouched)]
    exact known

theorem runJob {node : Node} {es : List Event} (others : ∀ e ∈ es, advances jobId e = false)
    (known : jobOf jobId db = some job) : jobOf jobId (run (step node) db es) = some job := by
  induction es generalizing db with
  | nil => exact known
  | cons e es ih =>
    exact ih (fun o mem => others o (List.mem_cons_of_mem _ mem)) (stepJob (others e List.mem_cons_self) known)

end Jobs

section Purge
variable {job : DeletionJob} {db : Db}

/- DELETE on a referenced table: the rows that still refer to a deleted one make it raise,
and those of a cascading key go with it. -/
def dropAccounts (p : Account → Bool) (db : Db) : Except Fault Db := do
  let gone := fun account : AccountId => db.accounts.any fun a => p a && a.id == account
  ensure (db.memberships.all fun m => !gone m.accountId) .foreignKeyViolation
  ensure (db.pairingAttempts.all fun a => !gone a.initiatorAccountId) .foreignKeyViolation
  ensure (db.accountSessions.all fun session => !gone session.accountId) .foreignKeyViolation
  .ok { db with
    accounts := deleteWhere p db.accounts
    homeTenants := deleteWhere (fun h => gone h.accountId) db.homeTenants
    authLinks := deleteWhere (fun l => gone l.accountId) db.authLinks }

def dropSites (p : Site → Bool) (db : Db) : Except Fault Db := do
  let gone := fun (tenant : TenantId) (site : SiteId) => db.sites.any fun s => p s && s.tenantId == tenant && s.id == site
  ensure (db.pairingAttempts.all fun a => a.siteId.all fun site => !gone a.tenantId site) .foreignKeyViolation
  ensure (db.grants.all fun g => !gone g.tenantId g.siteId) .foreignKeyViolation
  .ok { db with sites := deleteWhere p db.sites }

def dropTenants (p : Tenant → Bool) (db : Db) : Except Fault Db := do
  let gone := fun tenant : TenantId => db.tenants.any fun t => p t && t.id == tenant
  ensure (db.memberships.all fun m => !gone m.tenantId) .foreignKeyViolation
  ensure (db.securityEvents.all fun e => !gone e.tenantId) .foreignKeyViolation
  ensure (db.sites.all fun s => !gone s.tenantId) .foreignKeyViolation
  ensure (db.pairingAttempts.all fun a => !gone a.tenantId) .foreignKeyViolation
  ensure (db.grants.all fun g => !gone g.tenantId) .foreignKeyViolation
  ensure (db.idempotencyRecords.all fun r => !gone r.tenantId) .foreignKeyViolation
  ensure (db.refreshFamilies.all fun f => !gone f.tenantId) .foreignKeyViolation
  ensure (db.revocationOutbox.all fun r => !gone r.tenantId) .foreignKeyViolation
  .ok { db with
    tenants := deleteWhere p db.tenants
    homeTenants := deleteWhere (fun h => gone h.tenantId) db.homeTenants }

/- The purge statement by statement, with every foreign key checked where it could be hit. -/
def purgeStatements (job : DeletionJob) (db : Db) : Except Fault Db :=
  let inScope := tombstonedGrant job db
  if job.scopeKind = .account then
    dropAccounts (fun a => a.id == job.scopeId) { db with
      secretArtifacts := deleteWhere (fun a => tombstonedPayload job db a.payload) db.secretArtifacts
      providerArtifacts := deleteWhere (fun a => tombstonedPayload job db a.payload) db.providerArtifacts
      refreshFamilies := deleteWhere (fun f => inScope f.grantId) db.refreshFamilies
      revocationOutbox := deleteWhere (fun r => r.grantId.any inScope) db.revocationOutbox
      idempotencyRecords := deleteWhere (fun r => inScope r.resultReference) db.idempotencyRecords
      grants := deleteWhere (fun g => g.subjectId == job.scopeId) db.grants
      accountSessions := deleteWhere (fun session => session.accountId == job.scopeId) db.accountSessions
      memberships := deleteWhere (fun m => m.accountId == job.scopeId) db.memberships }
  else do
    let wholeTenant := fun tenant : TenantId => job.scopeKind == .tenant && some tenant == job.tenantId
    let emptied := { db with
      secretArtifacts := deleteWhere
        (fun a => a.tenantId.any wholeTenant || tombstonedPayload job db a.payload) db.secretArtifacts
      providerArtifacts := deleteWhere
        (fun a => a.tenantId.any wholeTenant || tombstonedPayload job db a.payload) db.providerArtifacts
      refreshFamilies := deleteWhere (fun f => inTenantScope job f.tenantId (some f.siteId)) db.refreshFamilies
      revocationOutbox := deleteWhere (fun r => inTenantScope job r.tenantId (some r.siteId)) db.revocationOutbox
      pairingAttempts := deleteWhere (fun a => inTenantScope job a.tenantId a.siteId) db.pairingAttempts
      idempotencyRecords := deleteWhere
        (fun r => some r.tenantId == job.tenantId &&
          (job.scopeKind == .tenant || r.resultReference == job.scopeId || inScope r.resultReference))
        db.idempotencyRecords
      grants := deleteWhere (fun g => inTenantScope job g.tenantId (some g.siteId)) db.grants }
    let unsited ← dropSites (fun s => inTenantScope job s.tenantId (some s.id)) emptied
    if job.scopeKind = .tenant then
      dropTenants (fun t => some t.id == job.tenantId) { unsited with
        securityEvents := deleteWhere (fun e => some e.tenantId == job.tenantId) unsited.securityEvents
        memberships := deleteWhere (fun m => some m.tenantId == job.tenantId) unsited.memberships }
    else .ok unsited

theorem deleteAgree {α : Type} {p q : α → Bool} {rows : List α} (same : ∀ r ∈ rows, p r = q r) :
    deleteWhere p rows = deleteWhere q rows := by
  unfold deleteWhere
  exact List.filter_congr fun r mem => by rw [same r mem]

theorem dropAccountsExact (account : AccountId) (refs : References db)
    (members : ∀ m ∈ db.memberships, m.accountId ≠ account)
    (sessions : ∀ session ∈ db.accountSessions, session.accountId ≠ account) :
    dropAccounts (fun a => a.id == account) db =
      if db.pairingAttempts.all fun a => a.initiatorAccountId != account then .ok { db with
        accounts := deleteWhere (fun a => a.id == account) db.accounts
        homeTenants := deleteWhere (fun h => h.accountId == account) db.homeTenants
        authLinks := deleteWhere (fun l => l.accountId == account) db.authLinks }
      else .error .foreignKeyViolation := by
  have gone : ∀ id, db.hasAccount id = true →
      (db.accounts.any fun a => a.id == account && a.id == id) = (id == account) := by
    intro id known
    obtain ⟨a,mem,named⟩ := hasAccountIff.mp known
    by_cases same : id = account
    · rw [same,beq_self_eq_true]
      exact List.any_eq_true.mpr ⟨a,mem,by simp [named,same]⟩
    · rw [beq_eq_false_iff_ne.mpr same,List.any_eq_false]
      intro o _ hit
      simp only [Bool.and_eq_true,beq_iff_eq] at hit
      exact same (hit.2.symm.trans hit.1)
  have apart : ∀ id, id ≠ account → (db.accounts.any fun a => a.id == account && a.id == id) = false := by
    intro id other
    rw [List.any_eq_false]
    intro o _ hit
    simp only [Bool.and_eq_true,beq_iff_eq] at hit
    exact other (hit.2.symm.trans hit.1)
  have freeMembers : (db.memberships.all fun m => !db.accounts.any fun a => a.id == account && a.id == m.accountId)
      = true := List.all_eq_true.mpr fun m mem => by rw [apart _ (members m mem)]; rfl
  have freeSessions : (db.accountSessions.all fun session =>
      !db.accounts.any fun a => a.id == account && a.id == session.accountId) = true :=
    List.all_eq_true.mpr fun session mem => by rw [apart _ (sessions session mem)]; rfl
  have attempts : (db.pairingAttempts.all fun a =>
      !db.accounts.any fun o => o.id == account && o.id == a.initiatorAccountId) =
      db.pairingAttempts.all fun a => a.initiatorAccountId != account := by
    rw [Bool.eq_iff_iff,List.all_eq_true,List.all_eq_true]
    refine forall_congr' fun a => forall_congr' fun mem => ?_
    rw [gone _ (refs.initiator a mem)]
    rfl
  have homes : deleteWhere (fun h : HomeTenant => db.accounts.any fun a => a.id == account && a.id == h.accountId)
      db.homeTenants = deleteWhere (fun h => h.accountId == account) db.homeTenants :=
    deleteAgree fun h mem => gone _ (refs.homeAccount h mem)
  have links : deleteWhere (fun l : AuthLink => db.accounts.any fun a => a.id == account && a.id == l.accountId)
      db.authLinks = deleteWhere (fun l => l.accountId == account) db.authLinks :=
    deleteAgree fun l mem => gone _ (refs.linkAccount l mem)
  unfold dropAccounts
  simp only [freeMembers,freeSessions,attempts,homes,links,ensure,if_true]
  split <;> rfl

theorem dropSitesExact {p : Site → Bool}
    (attempts : ∀ a ∈ db.pairingAttempts, ∀ site, a.siteId = some site →
      ∀ s ∈ db.sites, p s = true → ¬(s.tenantId = a.tenantId ∧ s.id = site))
    (grants : ∀ g ∈ db.grants, ∀ s ∈ db.sites, p s = true → ¬(s.tenantId = g.tenantId ∧ s.id = g.siteId)) :
    dropSites p db = .ok { db with sites := deleteWhere p db.sites } := by
  have gone : ∀ tenant site, (∀ s ∈ db.sites, p s = true → ¬(s.tenantId = tenant ∧ s.id = site)) →
      (db.sites.any fun s => p s && s.tenantId == tenant && s.id == site) = false := by
    intro tenant site unused
    rw [List.any_eq_false]
    intro s mem hit
    simp only [Bool.and_eq_true,beq_iff_eq] at hit
    exact unused s mem hit.1.1 ⟨hit.1.2,hit.2⟩
  unfold dropSites
  refine bindOk.mpr ⟨(),ensureOk.mpr ?_,bindOk.mpr ⟨(),ensureOk.mpr ?_,rfl⟩⟩
  · refine List.all_eq_true.mpr fun a mem => ?_
    cases named : a.siteId with
    | none => rfl
    | some site => simp only [Option.all_some,gone _ _ (attempts a mem site named),Bool.not_false]
  · refine List.all_eq_true.mpr fun g mem => ?_
    simp only [gone _ _ (grants g mem),Bool.not_false]

theorem dropTenantsExact {target : Option TenantId} (refs : References db)
    (members : ∀ m ∈ db.memberships, some m.tenantId ≠ target)
    (events : ∀ e ∈ db.securityEvents, some e.tenantId ≠ target)
    (sites : ∀ s ∈ db.sites, some s.tenantId ≠ target)
    (attempts : ∀ a ∈ db.pairingAttempts, some a.tenantId ≠ target)
    (grants : ∀ g ∈ db.grants, some g.tenantId ≠ target)
    (records : ∀ r ∈ db.idempotencyRecords, some r.tenantId ≠ target)
    (families : ∀ f ∈ db.refreshFamilies, some f.tenantId ≠ target)
    (outbox : ∀ r ∈ db.revocationOutbox, some r.tenantId ≠ target) :
    dropTenants (fun t => some t.id == target) db = .ok { db with
      tenants := deleteWhere (fun t => some t.id == target) db.tenants
      homeTenants := deleteWhere (fun h => some h.tenantId == target) db.homeTenants } := by
  have apart : ∀ id, some id ≠ target → (db.tenants.any fun t => some t.id == target && t.id == id) = false := by
    intro id other
    rw [List.any_eq_false]
    intro t _ hit
    simp only [Bool.and_eq_true,beq_iff_eq] at hit
    exact other (hit.2 ▸ hit.1)
  have clear : ∀ {α : Type} {rows : List α} {column : α → TenantId}, (∀ r ∈ rows, some (column r) ≠ target) →
      (rows.all fun r => !db.tenants.any fun t => some t.id == target && t.id == column r) = true := by
    intro α rows column others
    exact List.all_eq_true.mpr fun r mem => by rw [apart _ (others r mem)]; rfl
  have homes : deleteWhere (fun h : HomeTenant => db.tenants.any fun t => some t.id == target && t.id == h.tenantId)
      db.homeTenants = deleteWhere (fun h => some h.tenantId == target) db.homeTenants := by
    refine deleteAgree fun h mem => ?_
    by_cases same : some h.tenantId = target
    · rw [same,beq_self_eq_true]
      obtain ⟨t,ht,named⟩ := hasTenantIff.mp (refs.homeTenant h mem)
      exact List.any_eq_true.mpr ⟨t,ht,by simp [named,same]⟩
    · rw [apart _ same,beq_eq_false_iff_ne.mpr same]
  unfold dropTenants
  simp only [clear members,clear events,clear sites,clear attempts,clear grants,clear records,clear families,
    clear outbox,homes,ensure,if_true]
  rfl

theorem tenantScope {job : DeletionJob} (whole : job.scopeKind = .tenant) {tenant : TenantId} {site : Option SiteId}
    (outside : inTenantScope job tenant site = false) : some tenant ≠ job.tenantId := by
  intro same
  simp [inTenantScope,whole,same] at outside

theorem purgeStatementsExact (refs : References db) : purgeStatements job db = purgeScope job db := by
  unfold purgeStatements purgeScope
  split
  · let emptied := { db with
      secretArtifacts := deleteWhere (fun a => tombstonedPayload job db a.payload) db.secretArtifacts
      providerArtifacts := deleteWhere (fun a => tombstonedPayload job db a.payload) db.providerArtifacts
      refreshFamilies := deleteWhere (fun f => tombstonedGrant job db f.grantId) db.refreshFamilies
      revocationOutbox := deleteWhere (fun r => r.grantId.any (tombstonedGrant job db)) db.revocationOutbox
      idempotencyRecords := deleteWhere (fun r => tombstonedGrant job db r.resultReference) db.idempotencyRecords
      grants := deleteWhere (fun g => g.subjectId == job.scopeId) db.grants
      accountSessions := deleteWhere (fun session => session.accountId == job.scopeId) db.accountSessions
      memberships := deleteWhere (fun m => m.accountId == job.scopeId) db.memberships }
    have emptiedRefs : References emptied :=
      ⟨refs.initiator,refs.homeAccount,refs.homeTenant,refs.linkAccount,refs.linkUser⟩
    have dropped := dropAccountsExact job.scopeId emptiedRefs
      (fun m mem => by simpa using (memDeleteWhere.mp mem).2)
      (fun session mem => by simpa using (memDeleteWhere.mp mem).2)
    show dropAccounts _ emptied = _
    rw [dropped]
    unfold purgeAccount ensure
    split <;> rfl
  · let inScope := tombstonedGrant job db
    let wholeTenant := fun tenant : TenantId => job.scopeKind == .tenant && some tenant == job.tenantId
    let emptied : Db := { db with
      secretArtifacts := deleteWhere
        (fun a => a.tenantId.any wholeTenant || tombstonedPayload job db a.payload) db.secretArtifacts
      providerArtifacts := deleteWhere
        (fun a => a.tenantId.any wholeTenant || tombstonedPayload job db a.payload) db.providerArtifacts
      refreshFamilies := deleteWhere (fun f => inTenantScope job f.tenantId (some f.siteId)) db.refreshFamilies
      revocationOutbox := deleteWhere (fun r => inTenantScope job r.tenantId (some r.siteId)) db.revocationOutbox
      pairingAttempts := deleteWhere (fun a => inTenantScope job a.tenantId a.siteId) db.pairingAttempts
      idempotencyRecords := deleteWhere
        (fun r => some r.tenantId == job.tenantId &&
          (job.scopeKind == .tenant || r.resultReference == job.scopeId || inScope r.resultReference))
        db.idempotencyRecords
      grants := deleteWhere (fun g => inTenantScope job g.tenantId (some g.siteId)) db.grants }
    have unsited : dropSites (fun s => inTenantScope job s.tenantId (some s.id)) emptied =
        .ok { emptied with sites := deleteWhere (fun s => inTenantScope job s.tenantId (some s.id)) emptied.sites } := by
      refine dropSitesExact ?_ ?_
      · rintro a mem site named s _ chosen ⟨tenant,id⟩
        have kept := (memDeleteWhere.mp mem).2
        rw [tenant,id,← named,kept] at chosen
        contradiction
      · rintro g mem s _ chosen ⟨tenant,id⟩
        have kept := (memDeleteWhere.mp mem).2
        rw [tenant,id,kept] at chosen
        contradiction
    let unsitedDb : Db :=
      { emptied with sites := deleteWhere (fun s => inTenantScope job s.tenantId (some s.id)) emptied.sites }
    by_cases whole : job.scopeKind = .tenant
    · have ofTenant : ∀ tenant : TenantId, (job.scopeKind == ScopeKind.tenant && some tenant == job.tenantId) =
          (some tenant == job.tenantId) := fun tenant => by rw [whole]; rfl
      have dropped := @dropTenantsExact { unsitedDb with
          securityEvents := deleteWhere (fun e => some e.tenantId == job.tenantId) unsitedDb.securityEvents
          memberships := deleteWhere (fun m => some m.tenantId == job.tenantId) unsitedDb.memberships } job.tenantId
        ⟨fun a mem => refs.initiator a (memDeleteWhere.mp mem).1,refs.homeAccount,refs.homeTenant,refs.linkAccount,
          refs.linkUser⟩
        (fun m mem => by simpa using (memDeleteWhere.mp mem).2)
        (fun e mem => by simpa using (memDeleteWhere.mp mem).2)
        (fun s mem => tenantScope whole (memDeleteWhere.mp mem).2)
        (fun a mem => tenantScope whole (memDeleteWhere.mp mem).2)
        (fun g mem => tenantScope whole (memDeleteWhere.mp mem).2)
        (fun r mem => by
          have kept := (memDeleteWhere.mp mem).2
          simpa [whole] using kept)
        (fun f mem => tenantScope whole (memDeleteWhere.mp mem).2)
        (fun r mem => tenantScope whole (memDeleteWhere.mp mem).2)
      refine (bindOk.mpr ⟨_,unsited,?_⟩ : _ = Except.ok (purgeTenantScope job db))
      rw [if_pos whole]
      refine dropped.trans ?_
      unfold purgeTenantScope
      simp only [unsitedDb,emptied,wholeTenant,inScope,ofTenant]
    · have ofTenant : ∀ tenant : TenantId, (job.scopeKind == ScopeKind.tenant && some tenant == job.tenantId) = false := by
        intro tenant
        rw [beq_eq_false_iff_ne.mpr whole]
        rfl
      have kept : ∀ {α : Type} (rows : List α), deleteWhere (fun _ => false) rows = rows := by
        intro α rows
        simp [deleteWhere]
      refine (bindOk.mpr ⟨_,unsited,?_⟩ : _ = Except.ok (purgeTenantScope job db))
      rw [if_neg whole]
      unfold purgeTenantScope
      simp only [emptied,wholeTenant,inScope,ofTenant,kept]

end Purge

section Revoking
variable {job : DeletionJob} {observedAt now : Time} {db : Db}

theorem revokeSubjectGrantsOk {rest : List Grant} {events : Nat} (numbered : Numbered db)
    (tenants : ∀ s ∈ db.sites, db.hasTenant s.tenantId = true) :
    ∃ done, revokeSubjectGrants observedAt now rest db events = .ok done := by
  induction rest generalizing db events with
  | nil => exact ⟨_,rfl⟩
  | cons g rest ih =>
    simp only [revokeSubjectGrants]
    split
    · exact ih numbered tenants
    · rename_i site found
      obtain ⟨mem,tenant,_⟩ := siteAtSome found
      let revoked := { db with
        grants := updateWhere (grantAt g.tenantId g.id) (revokedGrant "account_deleted" observedAt) db.grants }
      let event : NewEvent := ⟨g.tenantId,g.siteId,site.resourceUri,.grant,some g.id,none,"account_deleted"⟩
      have known : db.hasTenant g.tenantId = true := by
        rw [← tenant]
        exact tenants site mem
      have inserted := @insertEventOk .doNothing event now revoked numbered known
      have stillNumbered := @numberedInsert _ _ _ revoked _ numbered inserted
      obtain ⟨done,ok⟩ := @ih _ (events + 1) stillNumbered tenants
      exact ⟨done,bindOk.mpr ⟨_,inserted,ok⟩⟩

theorem revokeSitesOk {rest : List Site} {events : Nat} (numbered : Numbered db)
    (tenants : ∀ s ∈ rest, db.hasTenant s.tenantId = true) :
    ∃ done, revokeSites observedAt now rest db events = .ok done := by
  induction rest generalizing db events with
  | nil => exact ⟨_,rfl⟩
  | cons s rest ih =>
    let closed := { db with sites := updateWhere (siteIn s.tenantId s.id) (revokedSite observedAt) db.sites }
    let event : NewEvent := ⟨s.tenantId,s.id,s.resourceUri,.site,none,none,"deletion_requested"⟩
    have inserted := @insertEventOk .doNothing event now closed numbered (tenants s List.mem_cons_self)
    have stillNumbered := @numberedInsert _ _ _ closed _ numbered inserted
    obtain ⟨done,ok⟩ := @ih { closed with
      revocationOutbox := closed.revocationOutbox ++ [newRow event now closed]
      outboxNextId := closed.outboxNextId + 1
      grants := updateWhere (siteGrant s.tenantId s.id) (revokedGrant "deletion_requested" observedAt) closed.grants }
      (events + 1) stillNumbered fun o mem => tenants o (List.mem_cons_of_mem _ mem)
    exact ⟨done,bindOk.mpr ⟨_,inserted,ok⟩⟩

theorem revokeScopeOk (wf : WellFormed db) : ∃ done, revokeScope job observedAt now db = .ok done := by
  unfold revokeScope
  split
  · unfold revokeAccount
    have loop := @revokeSubjectGrantsOk observedAt now { db with
      accountSessions := updateWhere (fun session => session.accountId == job.scopeId && session.revokedAt.isNone)
        (fun session => { session with revokedAt := some observedAt }) db.accountSessions
      memberships := updateWhere (fun m => m.accountId == job.scopeId && m.status == .active)
        (fun m => { m with status := .revoked, revokedAt := some (m.revokedAt.getD observedAt) }) db.memberships
      accounts := updateWhere (fun a => a.id == job.scopeId) (fun a => { a with status := .deleted }) db.accounts }
      (db.grants.filter fun g => g.subjectId == job.scopeId && g.status != .revoked) 0 wf.numbered wf.siteTenant
    obtain ⟨⟨next,events⟩,ok⟩ := loop
    exact ⟨_,bindOk.mpr ⟨_,ok,rfl⟩⟩
  · unfold revokeTenantScope
    obtain ⟨⟨next,events⟩,ok⟩ := @revokeSitesOk observedAt now db
      (db.sites.filter fun s => inTenantScope job s.tenantId (some s.id) && s.status != .deleted) 0 wf.numbered
      (fun s mem => wf.siteTenant s (List.mem_filter.mp mem).1)
    exact ⟨_,bindOk.mpr ⟨_,ok,rfl⟩⟩

end Revoking

section Completion
variable {jobId : JobId} {kind : ScopeKind} {scopeId : String} {tenantId : Option TenantId} {requestedBy : AccountId}
variable {job : DeletionJob} {db next : Db} {node : Node}

def scopeGone (kind : ScopeKind) (scopeId : String) (tenantId : Option TenantId) (db : Db) : Prop := match kind with
  | .account => db.hasAccount scopeId = false
  | .tenant => db.hasTenant scopeId = false
  | .site => ∀ tenant, tenantId = some tenant → db.hasSite tenant scopeId = false

def begunJob (jobId : JobId) (kind : ScopeKind) (scopeId : String) (tenantId : Option TenantId)
    (requestedBy : AccountId) : DeletionJob :=
  ⟨jobId,kind,scopeId,tenantId,requestedBy,.pending,none,none,none,.empty⟩

theorem beginExact (fresh : jobOf jobId db = none)
    (ok : beginDeletionJob jobId kind scopeId tenantId requestedBy db = .ok (next,jobId)) :
    jobOf jobId next = some (begunJob jobId kind scopeId tenantId requestedBy) ∧
    (kind = .tenant → tenantId = some scopeId) := by
  have unused : (db.deletionJobs.any fun job => job.id == jobId) = false := by
    unfold jobOf at fresh
    rw [List.find?_eq_none] at fresh
    rw [List.any_eq_false]
    exact fresh
  simp only [beginDeletionJob,bindOk,ensureOk] at ok
  obtain ⟨_,_,_,_,made⟩ := ok
  rw [unused] at made
  simp only [Bool.false_eq_true,if_false,bindOk] at made
  obtain ⟨_,admitted,last⟩ := made
  cases last
  refine ⟨?_,?_⟩
  · unfold jobOf at fresh ⊢
    show (db.deletionJobs ++ [begunJob jobId kind scopeId tenantId requestedBy]).find? _ = _
    rw [List.find?_append,fresh]
    simp [begunJob]
  · intro tenant
    rw [tenant] at admitted
    simp only [admitScope,ensureOk,Bool.and_eq_true,beq_iff_eq] at admitted
    exact admitted.1.symm

theorem beginNames {id : JobId}
    (ok : beginDeletionJob jobId kind scopeId tenantId requestedBy db = .ok (next,id)) : id = jobId := by
  simp only [beginDeletionJob,bindOk,ensureOk] at ok
  obtain ⟨_,_,_,_,made⟩ := ok
  split at made
  · cases made
    rfl
  · simp only [bindOk] at made
    obtain ⟨_,_,last⟩ := made
    cases last
    rfl

theorem purgeScopeOk : (∃ next, purgeScope job db = .ok next) ↔
    (job.scopeKind = .account → ∀ a ∈ db.pairingAttempts, a.initiatorAccountId ≠ job.scopeId) := by
  unfold purgeScope
  by_cases account : job.scopeKind = .account
  · rw [if_pos account]
    simp only [purgeAccount,bindOk,ensureOk,List.all_eq_true,bne_iff_ne]
    constructor
    · rintro ⟨_,_,free,_⟩ _
      exact free
    · intro free
      exact ⟨_,(),free account,rfl⟩
  · rw [if_neg account]
    exact ⟨fun _ other => absurd other account,fun _ => ⟨_,rfl⟩⟩

inductive Effect (jobId : JobId) (observedAt now : Time) (db : Db) : Db → Prop
  | idle {jobs : List DeletionJob} (notDue : dueJob jobId observedAt db = none) :
      Effect jobId observedAt now db { db with deletionJobs := jobs }
  | revoked {job : DeletionJob} {next : Db} {sessions events : Nat} {change : DeletionJob → DeletionJob}
      (due : dueJob jobId observedAt db = some job) (pending : job.status = .pending)
      (ok : revokeScope job observedAt now db = .ok (next,sessions,events)) :
      Effect jobId observedAt now db (setJob jobId change next)
  | purged {job : DeletionJob} {next : Db} {change : DeletionJob → DeletionJob}
      (due : dueJob jobId observedAt db = some job) (waiting : job.status = .waiting)
      (ok : purgeScope job db = .ok next) : Effect jobId observedAt now db (setJob jobId change next)

theorem dueFound (found : jobOf jobId db = some job) (observedAt : Time) : dueJob jobId observedAt db =
    if (match job.status with
      | .pending => true
      | .waiting => (!job.safeAfter.all fun safeAfter => decide (observedAt < safeAfter)) &&
          (job.scopeKind != .account || noAttemptOf job db)
      | .complete | .failed => false : Bool) = true then some job else none := by
  unfold jobOf at found
  unfold dueJob
  rw [found]
  exact Option.filter_some

theorem attemptFree : (job.scopeKind != .account || noAttemptOf job db) = true ↔
    ∃ next, purgeScope job db = .ok next := by
  simp only [purgeScopeOk,noAttemptOf,Bool.or_eq_true,bne_iff_ne,List.all_eq_true,or_iff_not_imp_left,not_not]

theorem advanceEffect (jobId : JobId) (observedAt now : Time) (wf : WellFormed db) :
    Effect jobId observedAt now db (advanceDeletionJob jobId observedAt now db).1 := by
  have moved := advanced jobId observedAt now db
  generalize (advanceDeletionJob jobId observedAt now db).1 = next at moved ⊢
  cases moved with
  | missing none =>
    refine .idle ?_
    unfold jobOf at none
    simp only [dueJob,none,Option.filter_none]
  | ended found done =>
    refine .idle ?_
    rw [dueFound found]
    rcases done with done | done <;> rw [done] <;> rfl
  | early found waiting unsafe_ =>
    refine .idle ?_
    rw [dueFound found,waiting]
    simp only [unsafe_,Bool.not_true,Bool.false_and,Bool.false_eq_true,if_false]
  | revoked found pending ok =>
    refine .revoked ?_ pending ok
    rw [dueFound found,pending]
    rfl
  | purged found waiting safe ok =>
    refine .purged ?_ waiting ok
    rw [dueFound found,waiting]
    simp only [safe,attemptFree.mpr ⟨_,ok⟩,Bool.not_false,Bool.and_true,if_true]
  | @revokeRaised job _ _ _ raised =>
    obtain ⟨done,ok⟩ := @revokeScopeOk job observedAt now db wf
    rw [ok] at raised
    contradiction
  | @purgeRaised job _ found waiting safe raised =>
    refine .idle ?_
    have refused : (job.scopeKind != .account || noAttemptOf job db) = false := by
      rw [Bool.eq_false_iff]
      intro free
      obtain ⟨purged,ok⟩ := attemptFree.mp free
      rw [ok] at raised
      contradiction
    rw [dueFound found,waiting]
    simp only [refused,Bool.and_false,Bool.false_eq_true,if_false]

theorem purgedGone (ok : purgeScope job db = .ok next)
    (own : job.scopeKind = .tenant → job.tenantId = some job.scopeId) :
    scopeGone job.scopeKind job.scopeId job.tenantId next := by
  unfold purgeScope at ok
  unfold scopeGone
  cases kind : job.scopeKind with
  | account =>
    rw [if_pos kind] at ok
    simp only [purgeAccount,bindOk,ensureOk] at ok
    obtain ⟨_,_,last⟩ := ok
    cases last
    simp [Db.hasAccount,deleteWhere]
  | tenant =>
    rw [if_neg (by rw [kind]; decide)] at ok
    cases ok
    simp [Db.hasTenant,purgeTenantScope,deleteWhere,kind,own kind]
  | site =>
    rw [if_neg (by rw [kind]; decide)] at ok
    cases ok
    intro tenant named
    rw [Bool.eq_false_iff]
    intro known
    obtain ⟨s,mem,sameTenant,sameSite⟩ := hasSiteIff.mp known
    have kept := (memDeleteWhere.mp mem).2
    simp [inTenantScope,named,sameTenant,sameSite] at kept

theorem firstAdvance {observedAt now : Time} (wf : WellFormed db) (found : jobOf jobId db = some job)
    (pending : job.status = .pending) : ∃ sessions events,
      jobOf jobId (advanceDeletionJob jobId observedAt now db).1 = some (waitingJob observedAt sessions events job) := by
  generalize moved : (advanceDeletionJob jobId observedAt now db).1 = next
  have cases_ := advanced jobId observedAt now db
  rw [moved] at cases_
  cases cases_ with
  | missing none =>
    rw [found] at none
    contradiction
  | ended other done =>
    cases found.symm.trans other
    rcases done with done | done <;> rw [pending] at done <;> contradiction
  | early other waiting =>
    cases found.symm.trans other
    rw [pending] at waiting
    contradiction
  | @revoked _ revokedDb sessions events other _ ok =>
    cases found.symm.trans other
    refine ⟨sessions,events,?_⟩
    refine (setJobOf ?_).trans ?_
    · exact fun _ => rfl
    · rw [jobSame (revokeScopeJobs ok),found]
      rfl
  | purged other waiting =>
    cases found.symm.trans other
    rw [pending] at waiting
    contradiction
  | revokeRaised other _ raised =>
    cases found.symm.trans other
    obtain ⟨done,ok⟩ := @revokeScopeOk job observedAt now db wf
    rw [ok] at raised
    contradiction
  | purgeRaised other waiting =>
    cases found.symm.trans other
    rw [pending] at waiting
    contradiction

structure Completes (jobId : JobId) (kind : ScopeKind) (scopeId : String) (tenantId : Option TenantId)
    (observedAt now : Time) (db : Db) : Prop where
  purges : ∃ job purged, jobOf jobId db = some job ∧ purgeStatements job db = .ok purged
  complete : ∃ job, jobOf jobId (advanceDeletionJob jobId observedAt now db).1 = some job ∧ job.status = .complete
  gone : scopeGone kind scopeId tenantId (advanceDeletionJob jobId observedAt now db).1

theorem lastAdvance {observedAt now : Time} (refs : References db) (found : jobOf jobId db = some job)
    (waiting : job.status = .waiting) (safe : job.safeAfter.all (fun safeAfter => decide (observedAt < safeAfter)) = false)
    (own : job.scopeKind = .tenant → job.tenantId = some job.scopeId) :
    Completes jobId job.scopeKind job.scopeId job.tenantId observedAt now db ↔
      (job.scopeKind = .account → ∀ a ∈ db.pairingAttempts, a.initiatorAccountId ≠ job.scopeId) := by
  rw [← purgeScopeOk]
  constructor
  · intro completes
    obtain ⟨other,purged,same,ok⟩ := completes.purges
    cases found.symm.trans same
    rw [purgeStatementsExact refs] at ok
    exact ⟨purged,ok⟩
  · rintro ⟨purged,ok⟩
    have ended : (advanceDeletionJob jobId observedAt now db).1 = setJob jobId (completedJob observedAt) purged := by
      have body : advanceBody jobId observedAt now db = purgePhase job observedAt db := by
        rw [bodyFound found,waiting]
        simp only [safe,Bool.false_eq_true,if_false]
      unfold advanceDeletionJob
      rw [body]
      simp only [purgePhase,ok,jobOfId found]
      rfl
    refine ⟨⟨job,purged,found,?_⟩,⟨completedJob observedAt job,?_,rfl⟩,?_⟩
    · rw [purgeStatementsExact refs]
      exact ok
    · rw [ended]
      refine (setJobOf ?_).trans ?_
      · exact fun _ => rfl
      · rw [jobSame (purgeScopeJobs ok),found]
        rfl
    · rw [ended]
      have gone := purgedGone ok own
      exact gone

def beginOf (jobId : JobId) (kind : ScopeKind) (scopeId : String) (tenantId : Option TenantId)
    (requestedBy : AccountId) (now : Time) : Event := ⟨now,.beginDeletionJob jobId kind scopeId tenantId requestedBy⟩
def advanceOf (jobId : JobId) (observedAt now : Time) : Event := ⟨now,.advanceDeletionJob jobId observedAt⟩

theorem knownUntilFirst (node : Node) (before mid : List Event) {begunAt : Time}
    (fresh : jobOf jobId (run (step node) Db.empty before) = none)
    (admitted : (beginDeletionJob jobId kind scopeId tenantId requestedBy (run (step node) Db.empty before)).isOk = true)
    (midOthers : ∀ e ∈ mid, advances jobId e = false) :
    (kind = .tenant → tenantId = some scopeId) ∧
    jobOf jobId (run (step node) Db.empty (before ++ beginOf jobId kind scopeId tenantId requestedBy begunAt :: mid)) =
      some (begunJob jobId kind scopeId tenantId requestedBy) := by
  obtain ⟨⟨begun,id⟩,ok⟩ : ∃ out, beginDeletionJob jobId kind scopeId tenantId requestedBy
      (run (step node) Db.empty before) = .ok out := by
    cases out : beginDeletionJob jobId kind scopeId tenantId requestedBy (run (step node) Db.empty before) with
    | error fault =>
      rw [out] at admitted
      contradiction
    | ok done => exact ⟨done,rfl⟩
  have named : id = jobId := beginNames ok
  subst named
  obtain ⟨stored,own⟩ := beginExact fresh ok
  refine ⟨own,?_⟩
  rw [runAppend]
  show jobOf id (run (step node) (step node _ (beginOf id kind scopeId tenantId requestedBy begunAt)) mid) = _
  have begins : step node (run (step node) Db.empty before) (beginOf id kind scopeId tenantId requestedBy begunAt) =
      begun := by
    simp only [step,beginOf,exec,ok]
    rfl
  rw [begins]
  exact runJob midOthers stored

theorem waitsUntilLast (node : Node) (before mid later : List Event) {begunAt firstAt firstNow : Time}
    (fresh : jobOf jobId (run (step node) Db.empty before) = none)
    (admitted : (beginDeletionJob jobId kind scopeId tenantId requestedBy (run (step node) Db.empty before)).isOk = true)
    (midOthers : ∀ e ∈ mid, advances jobId e = false) (laterOthers : ∀ e ∈ later, advances jobId e = false) :
    (kind = .tenant → tenantId = some scopeId) ∧ ∃ sessions events,
      jobOf jobId (run (step node) Db.empty (before ++ beginOf jobId kind scopeId tenantId requestedBy begunAt :: mid ++
        advanceOf jobId firstAt firstNow :: later)) =
      some (waitingJob firstAt sessions events (begunJob jobId kind scopeId tenantId requestedBy)) := by
  let start := run (step node) Db.empty (before ++ beginOf jobId kind scopeId tenantId requestedBy begunAt :: mid)
  obtain ⟨own,known⟩ := @knownUntilFirst jobId kind scopeId tenantId requestedBy node before mid begunAt fresh admitted midOthers
  obtain ⟨sessions,events,waits⟩ := @firstAdvance jobId _ start firstAt firstNow (reachableWellFormed node _) known rfl
  refine ⟨own,sessions,events,?_⟩
  rw [runAppend]
  show jobOf jobId (run (step node) (advanceDeletionJob jobId firstAt firstNow start).1 later) = _
  exact runJob laterOthers waits

/- It completes unless the account to be deleted is still the initiator of a pairing attempt. -/
theorem deletionCompletes (node : Node) (before mid later : List Event) (jobId : JobId) (kind : ScopeKind)
    (scopeId : String) (tenantId : Option TenantId) (requestedBy : AccountId)
    (begunAt firstAt firstNow lastAt lastNow : Time)
    (fresh : jobOf jobId (run (step node) Db.empty before) = none)
    (admitted : (beginDeletionJob jobId kind scopeId tenantId requestedBy (run (step node) Db.empty before)).isOk = true)
    (midOthers : ∀ e ∈ mid, advances jobId e = false) (laterOthers : ∀ e ∈ later, advances jobId e = false)
    (safe : firstAt + minutes 6 ≤ lastAt) :
    let due := run (step node) Db.empty (before ++ beginOf jobId kind scopeId tenantId requestedBy begunAt :: mid ++
      advanceOf jobId firstAt firstNow :: later)
    Completes jobId kind scopeId tenantId lastAt lastNow due ↔
      (kind = .account → ∀ a ∈ due.pairingAttempts, a.initiatorAccountId ≠ scopeId) := by
  intro due
  obtain ⟨own,sessions,events,found⟩ := @waitsUntilLast jobId kind scopeId tenantId requestedBy node before mid later
    begunAt firstAt firstNow fresh admitted midOthers laterOthers
  have reached : (some (firstAt + minutes 6)).all (fun safeAfter => decide (lastAt < safeAfter)) = false := by
    simpa using safe
  exact lastAdvance (reachableReferences node _) found rfl reached own

end Completion

def otherOwnerJob : JobId := "deletion_other_owner_0001"

def sharedTenants : List Event := twoOwnersHistory ++ [⟨seconds 9,.seedMembership secondTenant sampleAccount .owner⟩]

theorem otherOwnerGone :
    let due := run (step (sampleNode [] [])) Db.empty (sharedTenants ++
      beginOf otherOwnerJob .account memberAccount none memberAccount (seconds 10) :: [] ++
      advanceOf otherOwnerJob (seconds 20) (seconds 20) :: [])
    Completes otherOwnerJob .account memberAccount none (minutes 7) (minutes 7) due ∧
    (advanceDeletionJob otherOwnerJob (minutes 7) (minutes 7) due).1.hasAccount memberAccount = false :=
  have completes := (deletionCompletes (sampleNode [] []) sharedTenants [] [] otherOwnerJob .account memberAccount
    none memberAccount (seconds 10) (seconds 20) (seconds 20) (minutes 7) (minutes 7) (by decide) (by decide)
    (by decide) (by decide) (by decide)).mpr (by decide)
  ⟨completes,completes.gone⟩

/- The first owner started the pairing of the site: the job is admitted, and its purge raises. -/
theorem initiatorStays :
    (beginDeletionJob initiatorJob .account sampleAccount none sampleAccount
      (run (step (sampleNode [] [])) Db.empty twoOwnersHistory)).isOk = true ∧
    let due := run (step (sampleNode [] [])) Db.empty initiatorWaiting
    (jobOf initiatorJob due).map (·.status) = some .waiting ∧
    ¬Completes initiatorJob .account sampleAccount none (minutes 7) (minutes 7) due ∧
    (advanceDeletionJob initiatorJob (minutes 7) (minutes 7) due).1.hasAccount sampleAccount = true := by
  have kept : (advanceDeletionJob initiatorJob (minutes 7) (minutes 7)
      (run (step (sampleNode [] [])) Db.empty initiatorWaiting)).1.hasAccount sampleAccount = true := by decide
  refine ⟨by decide,by decide,?_,kept⟩
  intro completes
  have gone : _ = false := completes.gone
  rw [gone] at kept
  contradiction

end Wepuu.DeletionCompletes
