import Wepuu.Footprint

/-! The numbers of a site's revocation events. The ledger keeps every event ever emitted
for a site whose row still exists; ids are handed out in the order of emission. -/
namespace Wepuu.EventSequence
open Deletion Footprint NodeApi Outbox Relational Runs Schema Statements Wepuu.System

structure Ledger where
  db : Db
  issued : List OutboxRow

def ledgerStep (node : Node) (l : Ledger) (e : Event) : Ledger :=
  let next := step node l.db e
  ⟨next,(l.issued ++ newEvents l.db next).filter fun r => next.hasSite r.tenantId r.siteId⟩

def Increasing (issued : List OutboxRow) : Prop :=
  ∀ x ∈ issued, ∀ y ∈ issued, x.tenantId = y.tenantId → x.siteId = y.siteId → x.id < y.id →
    x.eventSequence < y.eventSequence

/- The purge of an account job removes no event of a remaining site that has the site's
greatest number. -/
def keepsLast (db : Db) (e : Event) : Prop :=
  ∀ job ∈ purgeOf e db, job.scopeKind = .account →
    ∀ r ∈ db.revocationOutbox, r.grantId.any (tombstonedGrant job db) = true →
      db.hasSite r.tenantId r.siteId = true →
      ∃ o ∈ db.revocationOutbox, o.tenantId = r.tenantId ∧ o.siteId = r.siteId ∧
        r.eventSequence < o.eventSequence ∧ o.grantId.any (tombstonedGrant job db) = false

instance keepsLastDecidable (db : Db) (e : Event) : Decidable (keepsLast db e) := by
  delta keepsLast
  infer_instance

structure Grew (db next : Db) : Prop where
  later : db.outboxNextId ≤ next.outboxNextId
  kept : ∀ o ∈ db.revocationOutbox, ∃ r ∈ next.revocationOutbox, SameEvent o r
  above : ∀ r ∈ next.revocationOutbox, db.outboxNextId ≤ r.id →
    ∀ o ∈ next.revocationOutbox, o.tenantId = r.tenantId → o.siteId = r.siteId → o.id < r.id →
      o.eventSequence < r.eventSequence

theorem grewRefl {db : Db} (wf : WellFormed db) : Grew db db where
  later := Nat.le_refl _
  kept := fun o mem => ⟨o,mem,sameEventRefl o⟩
  above := by
    intro r mem new
    have old := wf.numbered r mem
    omega

theorem sameEventTrans {a b c : OutboxRow} (left : SameEvent a b) (right : SameEvent b c) : SameEvent a c where
  id := right.id.trans left.id
  tenantId := right.tenantId.trans left.tenantId
  siteId := right.siteId.trans left.siteId
  eventSequence := right.eventSequence.trans left.eventSequence
  eventType := right.eventType.trans left.eventType
  grantId := right.grantId.trans left.grantId

theorem grewSame {db mid next : Db} (grew : Grew db mid) (rows : next.revocationOutbox = mid.revocationOutbox)
    (count : next.outboxNextId = mid.outboxNextId) : Grew db next where
  later := by rw [count]; exact grew.later
  kept := by rw [rows]; exact grew.kept
  above := by rw [rows]; exact grew.above

theorem writeGrew {scope : Scope} {db mid next : Db} (wf : WellFormed mid)
    (keeps : ∀ r, ¬scope.purges r) (grew : Grew db mid) (write : Write scope mid next) : Grew db next := by
  cases write with
  | elsewhere same => exact grewSame grew same.outbox same.outboxNextId
  | @emit _ onConflict event now ok =>
    obtain ⟨_,rfl⟩ := insertEventExact wf.numbered ok
    refine ⟨Nat.le_succ_of_le grew.later,?_,?_⟩
    · intro o mem
      obtain ⟨r,hr,same⟩ := grew.kept o mem
      exact ⟨r,List.mem_append_left _ hr,same⟩
    · intro r mem new o ho tenant site older
      rcases List.mem_append.mp mem with oldR | newR
      · rcases List.mem_append.mp ho with oldO | newO
        · exact grew.above r oldR new o oldO tenant site older
        · -- The new row has the greatest id of all.
          rw [List.mem_singleton.mp newO] at older
          have bound := wf.numbered r oldR
          simp only [newRow] at older
          omega
      · rw [List.mem_singleton.mp newR] at tenant site older ⊢
        rcases List.mem_append.mp ho with oldO | newO
        · have same : ofSite event.tenantId event.siteId o = true := by
            simp only [ofSite,Bool.and_eq_true,beq_iff_eq]
            exact ⟨tenant,site⟩
          exact ltNext (f := (·.eventSequence)) oldO same
        · rw [List.mem_singleton.mp newO] at older
          exact absurd older (Nat.lt_irrefl _)
  | moveEvents p f same =>
    have moved : ∀ r, SameEvent r (if p r then f r else r) := by
      intro r
      split
      · exact same r
      · exact sameEventRefl r
    refine ⟨grew.later,?_,?_⟩
    · intro o mem
      obtain ⟨r,hr,before⟩ := grew.kept o mem
      exact ⟨_,memUpdateWhere.mpr ⟨r,hr,rfl⟩,sameEventTrans before (moved r)⟩
    · intro r mem new o ho tenant site older
      obtain ⟨r',hr,rfl⟩ := memUpdateWhere.mp mem
      obtain ⟨o',ho',rfl⟩ := memUpdateWhere.mp ho
      rw [(moved o').tenantId,(moved r').tenantId] at tenant
      rw [(moved o').siteId,(moved r').siteId] at site
      rw [(moved o').id,(moved r').id] at older
      rw [(moved r').id] at new
      rw [(moved o').eventSequence,(moved r').eventSequence]
      exact grew.above r' hr new o' ho' tenant site older
  | dropEvents p allowed =>
    have none : ∀ r ∈ mid.revocationOutbox, p r = false := by
      intro r mem
      by_contra chosen
      exact keeps r (allowed r mem (by simpa using chosen))
    refine grewSame grew ?_ rfl
    exact List.filter_eq_self.mpr fun r mem => by simp [none r mem]
  | _ => exact grewSame grew rfl rfl

theorem writesGrew {scope : Scope} {db next : Db} (wf : WellFormed db) (keeps : ∀ r, ¬scope.purges r)
    (writes : Writes scope db next) : Grew db next := by
  induction writes with
  | refl => exact grewRefl wf
  | tail first last ih => exact writeGrew (writesKeep wf first) keeps ih last

structure LedgerOk (l : Ledger) : Prop where
  wellFormed : WellFormed l.db
  known : ∀ x ∈ l.issued, l.db.hasSite x.tenantId x.siteId = true
  older : ∀ x ∈ l.issued, x.id < l.db.outboxNextId
  increasing : Increasing l.issued
  covered : ∀ x ∈ l.issued, ∃ o ∈ l.db.revocationOutbox, o.tenantId = x.tenantId ∧ o.siteId = x.siteId ∧
    x.eventSequence ≤ o.eventSequence

theorem grewLedger {l : Ledger} {next : Db} (inv : LedgerOk l) (wf : WellFormed next) (grew : Grew l.db next) :
    LedgerOk ⟨next,(l.issued ++ newEvents l.db next).filter fun r => next.hasSite r.tenantId r.siteId⟩ := by
  have cases : ∀ x ∈ l.issued ++ newEvents l.db next,
      x ∈ l.issued ∨ (x ∈ next.revocationOutbox ∧ l.db.outboxNextId ≤ x.id) := by
    intro x mem
    rcases List.mem_append.mp mem with old | new
    · exact .inl old
    · exact .inr (memNewEvents.mp new)
  have covered : ∀ x ∈ l.issued, ∃ o ∈ next.revocationOutbox, o.tenantId = x.tenantId ∧ o.siteId = x.siteId ∧
      x.eventSequence ≤ o.eventSequence ∧ o.id < l.db.outboxNextId := by
    intro x mem
    obtain ⟨o,ho,tenant,site,below⟩ := inv.covered x mem
    obtain ⟨r,hr,same⟩ := grew.kept o ho
    refine ⟨r,hr,same.tenantId.trans tenant,same.siteId.trans site,?_,?_⟩
    · rw [same.eventSequence]
      exact below
    · rw [same.id]
      exact inv.wellFormed.numbered o ho
  refine ⟨wf,?_,?_,?_,?_⟩
  · intro x mem
    simpa using (List.mem_filter.mp mem).2
  · intro x mem
    rcases cases x (List.mem_filter.mp mem).1 with old | ⟨new,_⟩
    · exact Nat.lt_of_lt_of_le (inv.older x old) grew.later
    · exact wf.numbered x new
  · intro x hx y hy tenant site before
    rcases cases y (List.mem_filter.mp hy).1 with oldY | ⟨newY,idY⟩
    · rcases cases x (List.mem_filter.mp hx).1 with oldX | ⟨_,idX⟩
      · exact inv.increasing x oldX y oldY tenant site before
      · have bound := inv.older y oldY
        omega
    · rcases cases x (List.mem_filter.mp hx).1 with oldX | ⟨newX,_⟩
      · obtain ⟨o,ho,ot,os,below,oid⟩ := covered x oldX
        have higher := grew.above y newY idY o ho (ot.trans tenant) (os.trans site) (by omega)
        omega
      · exact grew.above y newY idY x newX tenant site before
  · intro x mem
    rcases cases x (List.mem_filter.mp mem).1 with old | ⟨new,_⟩
    · obtain ⟨o,ho,tenant,site,below,_⟩ := covered x old
      exact ⟨o,ho,tenant,site,below⟩
    · exact ⟨x,new,rfl,rfl,Nat.le_refl _⟩

/- A purge numbers nothing; the account condition keeps the greatest number of a site. -/
theorem purgedLedger {l : Ledger} {job : DeletionJob} {next : Db} (inv : LedgerOk l) (wf : WellFormed next)
    (rows : ∀ r, r ∈ next.revocationOutbox ↔ r ∈ l.db.revocationOutbox ∧ ¬eventInScope job l.db r)
    (count : next.outboxNextId = l.db.outboxNextId)
    (gone : job.scopeKind ≠ .account → ∀ tenant site, inTenantScope job tenant (some site) = true →
      next.hasSite tenant site = false)
    (last : job.scopeKind = .account → ∀ r ∈ l.db.revocationOutbox,
      r.grantId.any (tombstonedGrant job l.db) = true → l.db.hasSite r.tenantId r.siteId = true →
      ∃ o ∈ l.db.revocationOutbox, o.tenantId = r.tenantId ∧ o.siteId = r.siteId ∧
        r.eventSequence < o.eventSequence ∧ o.grantId.any (tombstonedGrant job l.db) = false) :
    LedgerOk ⟨next,(l.issued ++ newEvents l.db next).filter fun r => next.hasSite r.tenantId r.siteId⟩ := by
  have silent_ : newEvents l.db next = [] := by
    refine List.filter_eq_nil_iff.mpr ?_
    intro r mem
    have old := inv.wellFormed.numbered r ((rows r).mp mem).1
    simpa using old
  rw [silent_,List.append_nil]
  refine ⟨wf,?_,?_,?_,?_⟩
  · intro x mem
    simpa using (List.mem_filter.mp mem).2
  · intro x mem
    rw [count]
    exact inv.older x (List.mem_filter.mp mem).1
  · intro x hx y hy
    exact inv.increasing x (List.mem_filter.mp hx).1 y (List.mem_filter.mp hy).1
  · intro x mem
    obtain ⟨old,open_⟩ := List.mem_filter.mp mem
    obtain ⟨o,ho,tenant,site,below⟩ := inv.covered x old
    by_cases inside : eventInScope job l.db o
    · by_cases account : job.scopeKind = .account
      · simp only [eventInScope,if_pos account] at inside
        have known : l.db.hasSite o.tenantId o.siteId = true := by
          rw [tenant,site]
          exact inv.known x old
        obtain ⟨p,hp,pt,ps,above,outside⟩ := last account o ho inside known
        refine ⟨p,(rows p).mpr ⟨hp,?_⟩,pt.trans tenant,ps.trans site,by omega⟩
        simp [eventInScope,account,outside]
      · simp only [eventInScope,if_neg account] at inside
        rw [tenant,site] at inside
        simp [gone account _ _ inside] at open_
    · exact ⟨o,(rows o).mpr ⟨ho,inside⟩,tenant,site,below⟩

theorem advancePurges (now : Time) {jobId observedAt db job} (due : purging jobId observedAt db = some job) :
    ∃ next, (advanceDeletionJob jobId observedAt now db).1 = next ∧
      (∀ r, r ∈ next.revocationOutbox ↔ r ∈ db.revocationOutbox ∧ ¬eventInScope job db r) ∧
      next.outboxNextId = db.outboxNextId ∧
      (job.scopeKind ≠ .account → ∀ tenant site, inTenantScope job tenant (some site) = true →
        next.hasSite tenant site = false) := by
  obtain ⟨due,waiting⟩ := Option.filter_eq_some_iff.mp due
  obtain ⟨found,admitted⟩ := Option.filter_eq_some_iff.mp due
  simp only [beq_iff_eq] at waiting
  simp only [waiting,Bool.and_eq_true,Bool.or_eq_true,bne_iff_ne] at admitted
  obtain ⟨late,admitted⟩ := admitted
  have body : advanceBody jobId observedAt now db = purgePhase job observedAt db := by
    simp only [advanceBody,found,orFail,bind,Except.bind]
    rw [if_neg (by simpa using late)]
    simp only [waiting]
  refine ⟨_,rfl,?_⟩
  unfold advanceDeletionJob
  rw [body]
  by_cases account : job.scopeKind = .account
  · have free : noAttemptOf job db = true := admitted.resolve_left (not_not.mpr account)
    unfold noAttemptOf at free
    simp only [purgePhase,purgeScope,if_pos account,purgeAccount,free,ensure,bind,Except.bind,if_true]
    refine ⟨?_,rfl,fun other => absurd account other⟩
    intro r
    simp only [setJob,memDeleteWhere,eventInScope,if_pos account,Bool.not_eq_true]
  · simp only [purgePhase,purgeScope,if_neg account,bind,Except.bind]
    refine ⟨?_,rfl,?_⟩
    · intro r
      simp only [setJob,purgeTenantScope,memDeleteWhere,eventInScope,if_neg account,Bool.not_eq_true]
    · intro _ tenant site inside
      by_contra known
      obtain ⟨s,hs,key⟩ := hasSiteIff.mp (by simpa using known)
      have outside := (memDeleteWhere.mp hs).2
      rw [key.1,key.2,inside] at outside
      contradiction

theorem ledgerStepOk {node : Node} {l : Ledger} {e : Event} (inv : LedgerOk l) (keeps : keepsLast l.db e) :
    LedgerOk (ledgerStep node l e) := by
  have wf : WellFormed (step node l.db e) := stepWellFormed inv.wellFormed
  cases purge : purgeOf e l.db with
  | none =>
    have quiet : ∀ r, ¬(footprint node e l.db).purges r := by
      rintro r ⟨job,due,_⟩
      rw [purge] at due
      cases due
    exact grewLedger inv wf (writesGrew inv.wellFormed quiet (stepWrites inv.wellFormed))
  | some job =>
    have last := keeps job purge
    obtain ⟨now,op⟩ := e
    cases op <;> simp only [purgeOf] at purge <;> try contradiction
    rename_i jobId observedAt
    obtain ⟨next,same,rows,count,gone⟩ := advancePurges now purge
    have stepped : step node l.db ⟨now,.advanceDeletionJob jobId observedAt⟩ = next := same
    unfold ledgerStep
    rw [stepped] at wf ⊢
    exact purgedLedger inv wf rows count gone last

theorem emptyLedger : LedgerOk ⟨Db.empty,[]⟩ where
  wellFormed := wellFormedEmpty
  known := by simp
  older := by simp
  increasing := by simp [Increasing]
  covered := by simp

theorem sequencesIncrease (node : Node) (es : List Event)
    (ok : Guarded (ledgerStep node) (fun l e => keepsLast l.db e) ⟨Db.empty,[]⟩ es) :
    Increasing (run (ledgerStep node) ⟨Db.empty,[]⟩ es).issued :=
  (invariantRun (fun _ _ inv keeps => ledgerStepOk inv keeps) emptyLedger ok).increasing

instance increasingDecidable (issued : List OutboxRow) : Decidable (Increasing issued) := by
  delta Increasing
  infer_instance

def memberJob : JobId := "deletion_00000000000000000000000000000001"

def twoGrantsHistory : List Event := pairedHistory ++
  [⟨seconds 6,.createSession ⟨memberAccount,"https://identity.example",String.ofList (List.replicate 64 'm'),
      List.replicate 32 8,0,minutes 60⟩⟩,
    ⟨seconds 7,.seedMembership sampleTenant memberAccount .member⟩,
    ⟨seconds 8,.createPending memberContext
      { samplePending "grant_0001" "begin_0000000000000001" (seconds 8) with subjectId := memberAccount }⟩,
    ⟨seconds 9,.activate memberContext sampleTenant "grant_0001" "complete_00000000000001" "proof_0001"⟩,
    ⟨seconds 10,.createPending sampleContext (samplePending "grant_0002" "begin_0000000000000002" (seconds 10))⟩,
    ⟨seconds 11,.activate sampleContext sampleTenant "grant_0002" "complete_00000000000002" "proof_0002"⟩,
    ⟨seconds 12,.beginDeletionJob memberJob .account memberAccount none sampleAccount⟩,
    ⟨seconds 13,.advanceDeletionJob memberJob (seconds 13)⟩]

def purgeMember : Event := ⟨minutes 7,.advanceDeletionJob memberJob (minutes 7)⟩
def revokeOther (at_ : Time) : Event := ⟨at_,.revokeGrantWithEvent sampleContext sampleTenant "grant_0002"⟩
def disconnect (at_ : Time) : Event := ⟨at_,.disconnectSiteWithEvent sampleContext sampleTenant sampleSite⟩

/- The purge removes event 1 of the site, and the next event is number 1 again. -/
theorem numberReused : ¬Increasing (run (ledgerStep (sampleNode [] [])) ⟨Db.empty,[]⟩
    (twoGrantsHistory ++ [purgeMember,revokeOther (minutes 8)])).issued := by decide

theorem numbersIncreaseAcrossPurge : Increasing (run (ledgerStep (sampleNode [] [])) ⟨Db.empty,[]⟩
    (twoGrantsHistory ++ [revokeOther (minutes 1),purgeMember,disconnect (minutes 8)])).issued :=
  sequencesIncrease (sampleNode [] []) _ (by decide)

end Wepuu.EventSequence
