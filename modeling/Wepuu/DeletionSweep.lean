import Wepuu.DeletionCompletes
import Wepuu.Secrets

/-! What is left of the grants of a deleted account, tenant or site. The purge picks grants
by their columns but most rows of a grant by the tombstones of begin_deletion_job. -/
namespace Wepuu.DeletionSweep
open Artifacts Deletion DeletionCompletes Footprint Frames NodeApi Relational Runs Schema Statements Wepuu.System

def ofGrant (grantId : GrantId) (payload : ProviderPayload) : Prop := memberText payload "grantId" = some grantId
def providerGrant (grantId : GrantId) (a : ProviderArtifact) : Prop := a.model = "Grant" ∧ a.artifactId = grantId
def consentRecord (grantId : GrantId) (r : IdempotencyRecord) : Prop :=
  (r.operation = .grantCreate ∨ r.operation = .grantComplete) ∧ r.resultReference = grantId

structure Unmentioned (grantId : GrantId) (db : Db) : Prop where
  secrets : ∀ a ∈ db.secretArtifacts, ¬ofGrant grantId a.payload
  artifacts : ∀ a ∈ db.providerArtifacts, ¬ofGrant grantId a.payload
  provider : ∀ a ∈ db.providerArtifacts, ¬providerGrant grantId a
  families : ∀ f ∈ db.refreshFamilies, f.grantId ≠ grantId
  records : ∀ r ∈ db.idempotencyRecords, ¬consentRecord grantId r
  events : ∀ r ∈ db.revocationOutbox, r.grantId ≠ some grantId

structure Swept (job : DeletionJob) (db next : Db) : Prop where
  grants : ∀ g ∈ next.grants, ¬grantInScope job g
  rows : ∀ g ∈ db.grants, grantInScope job g → Unmentioned g.id next

/- The rows of a grant that the statements of the purge find, by the grants known to the
tombstones or by their own columns. -/
def ofTenantJob (job : DeletionJob) (tenant : Option TenantId) : Prop :=
  job.scopeKind = .tenant ∧ tenant.isSome = true ∧ tenant = job.tenantId
def byColumns (job : DeletionJob) (tenant : TenantId) (site : SiteId) : Prop :=
  inTenantScope job tenant (some site) = true

structure Found (job : DeletionJob) (known : GrantId → Prop) (grantId : GrantId) (db : Db) : Prop where
  secrets : ∀ a ∈ db.secretArtifacts, ofGrant grantId a.payload → ofTenantJob job a.tenantId ∨ known grantId
  artifacts : ∀ a ∈ db.providerArtifacts, ofGrant grantId a.payload → ofTenantJob job a.tenantId ∨ known grantId
  provider : ∀ a ∈ db.providerArtifacts, providerGrant grantId a →
    ofTenantJob job a.tenantId ∨ ∃ named, ofGrant named a.payload ∧ known named
  families : ∀ f ∈ db.refreshFamilies, f.grantId = grantId →
    if job.scopeKind = .account then known grantId else byColumns job f.tenantId f.siteId
  records : ∀ r ∈ db.idempotencyRecords, consentRecord grantId r →
    if job.scopeKind = .account then known grantId
    else some r.tenantId = job.tenantId ∧ (job.scopeKind = .tenant ∨ grantId = job.scopeId ∨ known grantId)
  events : ∀ r ∈ db.revocationOutbox, r.grantId = some grantId →
    if job.scopeKind = .account then known grantId else byColumns job r.tenantId r.siteId

section Purge
variable {job : DeletionJob} {db next : Db} {grantId : GrantId}

theorem deletedNone {α : Type} {p : α → Bool} {q : α → Prop} {rows : List α} :
    (∀ r ∈ deleteWhere p rows, ¬q r) ↔ ∀ r ∈ rows, q r → p r = true := by
  constructor
  · intro none r mem hit
    by_contra kept
    exact none r (memDeleteWhere.mpr ⟨mem,by simpa using kept⟩) hit
  · intro all r mem hit
    obtain ⟨known,kept⟩ := memDeleteWhere.mp mem
    rw [all r known hit] at kept
    contradiction

theorem tombstonedOf {payload : ProviderPayload} : tombstonedPayload job db payload = true ↔
    ∃ named, ofGrant named payload ∧ tombstonedGrant job db named = true := by
  unfold tombstonedPayload ofGrant
  rw [Option.any_eq_true]

theorem tombstonedNamed {payload : ProviderPayload} (named : ofGrant grantId payload) :
    tombstonedPayload job db payload = true ↔ tombstonedGrant job db grantId = true := by
  unfold ofGrant at named
  simp only [tombstonedPayload,named,Option.any_some]

theorem wholeTenantOf {tenant : Option TenantId} :
    (tenant.any fun t => job.scopeKind == .tenant && some t == job.tenantId) = true ↔ ofTenantJob job tenant := by
  unfold ofTenantJob
  cases tenant <;> simp

theorem deletedAll {α : Type} {p : α → Bool} {q found : α → Prop} {rows : List α}
    (exact_ : ∀ r, q r → (p r = true ↔ found r)) :
    (∀ r ∈ deleteWhere p rows, ¬q r) ↔ ∀ r ∈ rows, q r → found r :=
  deletedNone.trans (forall_congr' fun r => forall_congr' fun _ => forall_congr' fun hit => exact_ r hit)

theorem unmentionedFound {known : GrantId → Prop}
    (secrets : (∀ a ∈ next.secretArtifacts, ¬ofGrant grantId a.payload) ↔
      ∀ a ∈ db.secretArtifacts, ofGrant grantId a.payload → ofTenantJob job a.tenantId ∨ known grantId)
    (artifacts : (∀ a ∈ next.providerArtifacts, ¬ofGrant grantId a.payload) ↔
      ∀ a ∈ db.providerArtifacts, ofGrant grantId a.payload → ofTenantJob job a.tenantId ∨ known grantId)
    (provider : (∀ a ∈ next.providerArtifacts, ¬providerGrant grantId a) ↔
      ∀ a ∈ db.providerArtifacts, providerGrant grantId a →
        ofTenantJob job a.tenantId ∨ ∃ named, ofGrant named a.payload ∧ known named)
    (families : (∀ f ∈ next.refreshFamilies, ¬f.grantId = grantId) ↔
      ∀ f ∈ db.refreshFamilies, f.grantId = grantId →
        if job.scopeKind = .account then known grantId else byColumns job f.tenantId f.siteId)
    (records : (∀ r ∈ next.idempotencyRecords, ¬consentRecord grantId r) ↔
      ∀ r ∈ db.idempotencyRecords, consentRecord grantId r →
        if job.scopeKind = .account then known grantId
        else some r.tenantId = job.tenantId ∧ (job.scopeKind = .tenant ∨ grantId = job.scopeId ∨ known grantId))
    (events : (∀ r ∈ next.revocationOutbox, ¬r.grantId = some grantId) ↔
      ∀ r ∈ db.revocationOutbox, r.grantId = some grantId →
        if job.scopeKind = .account then known grantId else byColumns job r.tenantId r.siteId) :
    Unmentioned grantId next ↔ Found job known grantId db := by
  constructor
  · intro none
    exact ⟨secrets.mp none.secrets,artifacts.mp none.artifacts,provider.mp none.provider,families.mp none.families,
      records.mp none.records,events.mp none.events⟩
  · intro found
    exact ⟨secrets.mpr found.secrets,artifacts.mpr found.artifacts,provider.mpr found.provider,
      families.mpr found.families,records.mpr found.records,events.mpr found.events⟩

theorem accountSweeps (account : job.scopeKind = .account) (ok : purgeScope job db = .ok next) :
    Unmentioned grantId next ↔ Found job (fun id => tombstonedGrant job db id = true) grantId db := by
  have notTenant : ∀ tenant, ¬ofTenantJob job tenant := fun _ h => by rw [h.1] at account; contradiction
  simp only [purgeScope,if_pos account,purgeAccount,bindOk,ensureOk] at ok
  obtain ⟨_,_,last⟩ := ok
  cases last
  refine unmentionedFound (deletedAll ?_) (deletedAll ?_) (deletedAll ?_) (deletedAll ?_) (deletedAll ?_) (deletedAll ?_)
  · intro a named
    rw [tombstonedNamed named]
    exact (or_iff_right (notTenant _)).symm
  · intro a named
    rw [tombstonedNamed named]
    exact (or_iff_right (notTenant _)).symm
  · intro a _
    rw [tombstonedOf]
    exact (or_iff_right (notTenant _)).symm
  · intro f named
    rw [if_pos account,named]
  · intro r named
    rw [if_pos account,named.2]
  · intro r named
    rw [if_pos account,named,Option.any_some]

theorem tenantSweeps (other : job.scopeKind ≠ .account) (ok : purgeScope job db = .ok next) :
    Unmentioned grantId next ↔ Found job (fun id => tombstonedGrant job db id = true) grantId db := by
  simp only [purgeScope,if_neg other] at ok
  cases ok
  refine unmentionedFound (deletedAll ?_) (deletedAll ?_) (deletedAll ?_) (deletedAll ?_) (deletedAll ?_) (deletedAll ?_)
  · intro a named
    rw [Bool.or_eq_true,wholeTenantOf,tombstonedNamed named]
  · intro a named
    rw [Bool.or_eq_true,wholeTenantOf,tombstonedNamed named]
  · intro a _
    rw [Bool.or_eq_true,wholeTenantOf,tombstonedOf]
  · intro f _
    rw [if_neg other]
    rfl
  · intro r named
    rw [if_neg other]
    simp only [Bool.and_eq_true,Bool.or_eq_true,beq_iff_eq,named.2,or_assoc]
  · intro r _
    rw [if_neg other]
    rfl

theorem scopeEmptied (ok : purgeScope job db = .ok next) : ∀ g ∈ next.grants, ¬grantInScope job g := by
  unfold purgeScope at ok
  unfold grantInScope
  split at ok
  · rename_i account
    simp only [purgeAccount,bindOk,ensureOk] at ok
    obtain ⟨_,_,last⟩ := ok
    cases last
    intro g mem hit
    rw [if_pos account] at hit
    have kept := (memDeleteWhere.mp mem).2
    rw [hit,beq_self_eq_true] at kept
    contradiction
  · rename_i other
    cases ok
    intro g mem hit
    have kept := (memDeleteWhere.mp mem).2
    rw [if_neg other,kept] at hit
    contradiction

theorem purgeSweeps (ok : purgeScope job db = .ok next) : Swept job db next ↔
    ∀ g ∈ db.grants, grantInScope job g → Found job (fun id => tombstonedGrant job db id = true) g.id db := by
  have each : ∀ grantId, Unmentioned grantId next ↔
      Found job (fun id => tombstonedGrant job db id = true) grantId db := by
    intro grantId
    by_cases account : job.scopeKind = .account
    · exact accountSweeps account ok
    · exact tenantSweeps account ok
  constructor
  · intro swept g mem scope
    exact (each g.id).mp (swept.rows g mem scope)
  · intro found
    exact ⟨scopeEmptied ok,fun g mem scope => (each g.id).mpr (found g mem scope)⟩

end Purge

section Tombstones
variable {node : Node} {e : Event} {db next : Db} {jobId : JobId} {job : DeletionJob}

def hasJob (jobId : JobId) (db : Db) : Prop := ∃ j ∈ db.deletionJobs, j.id = jobId

theorem setJobHas {target : JobId} {change : DeletionJob → DeletionJob} (keeps : ∀ j, (change j).id = j.id)
    (has : hasJob jobId db) : hasJob jobId (setJob target change db) := by
  obtain ⟨j,mem,named⟩ := has
  refine ⟨_,memUpdateWhere.mpr ⟨j,mem,rfl⟩,?_⟩
  split
  · rw [keeps,named]
  · exact named

theorem sameHas (same : next.deletionJobs = db.deletionJobs) (has : hasJob jobId db) : hasJob jobId next := by
  unfold hasJob
  rw [same]
  exact has

theorem advanceHas {target : JobId} {observedAt now : Time} (has : hasJob jobId db) :
    hasJob jobId (advanceDeletionJob target observedAt now db).1 := by
  have moved := advanced target observedAt now db
  generalize (advanceDeletionJob target observedAt now db).1 = after at moved ⊢
  cases moved with
  | missing _ | revokeRaised _ _ _ | purgeRaised _ _ _ _ => exact setJobHas (fun _ => rfl) has
  | ended _ _ | early _ _ _ => exact has
  | revoked _ _ ok =>
    refine setJobHas ?_ (sameHas (revokeScopeJobs ok) has)
    exact fun _ => rfl
  | purged _ _ _ ok =>
    refine setJobHas ?_ (sameHas (purgeScopeJobs ok) has)
    exact fun _ => rfl

theorem keyClash {a b : DeletionTombstone} :
    (a.jobId == b.jobId && a.objectKind == b.objectKind && a.objectId == b.objectId) = true ↔
      a.jobId = b.jobId ∧ a.objectKind = b.objectKind ∧ a.objectId = b.objectId := by
  simp only [Bool.and_eq_true,beq_iff_eq,and_assoc]

theorem tombstonesAdded {rows : List DeletionTombstone} {q : DeletionTombstone → Bool}
    (byKey : ∀ a b : DeletionTombstone, a.jobId = b.jobId → a.objectKind = b.objectKind → a.objectId = b.objectId →
      q a = q b) :
    (addTombstones rows db).deletionTombstones.any q = (db.deletionTombstones.any q || rows.any q) := by
  unfold addTombstones
  generalize db.deletionTombstones = kept
  induction rows generalizing kept with
  | nil => simp
  | cons row rest ih =>
    rw [List.foldl_cons,ih,List.any_cons,← Bool.or_assoc]
    congr 1
    cases made : insertRow (fun a b : DeletionTombstone =>
        a.jobId == b.jobId && a.objectKind == b.objectKind && a.objectId == b.objectId) row kept with
    | some rows =>
      obtain ⟨_,rfl⟩ := insertRowExact.mp made
      simp
    | none =>
      obtain ⟨o,mem,hit⟩ := insertRowRefused.mp made
      obtain ⟨sameJob,sameKind,sameId⟩ := keyClash.mp hit
      show kept.any q = (kept.any q || q row)
      cases asked : q row with
      | false => simp
      | true =>
        rw [Bool.or_true]
        exact List.any_eq_true.mpr ⟨o,mem,by rw [← byKey row o sameJob sameKind sameId]; exact asked⟩

theorem scopeTombstonesNamed {kind : ScopeKind} {scopeId : String} {tenantId : Option TenantId}
    {t : DeletionTombstone} (mem : t ∈ scopeTombstones jobId kind scopeId tenantId db) : t.jobId = jobId := by
  unfold scopeTombstones at mem
  cases kind <;>
    · simp only [List.mem_cons,List.mem_append,List.mem_map,List.mem_filter] at mem
      aesop

theorem scopeTombstonesGrants {kind : ScopeKind} {scopeId : String} {tenantId : Option TenantId}
    {requestedBy : AccountId} {id : GrantId} :
    ((scopeTombstones jobId kind scopeId tenantId db).any fun t =>
      t.jobId == jobId && t.objectKind == .grant && t.objectId == id) = true ↔
    ∃ g ∈ db.grants, grantInScope (begunJob jobId kind scopeId tenantId requestedBy) g ∧ g.id = id := by
  unfold scopeTombstones grantInScope inTenantScope begunJob
  cases kind <;> simp [List.any_append,List.any_map,List.any_filter,and_assoc]

theorem beginCases {kind : ScopeKind} {scopeId : String} {tenantId : Option TenantId} {requestedBy : AccountId}
    {id : JobId} (ok : beginDeletionJob jobId kind scopeId tenantId requestedBy db = .ok (next,id)) :
    (hasJob jobId db ∧ next = db) ∨
    (¬hasJob jobId db ∧ next = addTombstones (scopeTombstones jobId kind scopeId tenantId db)
      { db with deletionJobs := db.deletionJobs ++ [begunJob jobId kind scopeId tenantId requestedBy] }) := by
  simp only [beginDeletionJob,bindOk,ensureOk] at ok
  obtain ⟨_,_,_,_,made⟩ := ok
  split at made
  · rename_i known
    cases made
    exact .inl ⟨by simpa [hasJob] using known,rfl⟩
  · rename_i unknown
    simp only [bindOk] at made
    obtain ⟨_,_,last⟩ := made
    cases last
    exact .inr ⟨by simpa [hasJob] using unknown,rfl⟩

/- job_id REFERENCES deletion_jobs. -/
def TombstoneJobs (db : Db) : Prop := ∀ t ∈ db.deletionTombstones, hasJob t.jobId db

theorem addedMem {rows : List DeletionTombstone} {t : DeletionTombstone}
    (mem : t ∈ (addTombstones rows db).deletionTombstones) : t ∈ db.deletionTombstones ∨ t ∈ rows := by
  unfold addTombstones at mem
  revert mem
  generalize db.deletionTombstones = kept
  induction rows generalizing kept with
  | nil => exact .inl
  | cons row rest ih =>
    intro mem
    rw [List.foldl_cons] at mem
    rcases ih _ mem with old | new
    · cases made : insertRow (fun a b : DeletionTombstone =>
          a.jobId == b.jobId && a.objectKind == b.objectKind && a.objectId == b.objectId) row kept with
      | none =>
        rw [made] at old
        exact .inl old
      | some rows =>
        obtain ⟨_,rfl⟩ := insertRowExact.mp made
        rw [made] at old
        rcases List.mem_append.mp old with before | added
        · exact .inl before
        · exact .inr (by rw [List.mem_singleton.mp added]; exact List.mem_cons_self)
    · exact .inr (List.mem_cons_of_mem _ new)

theorem stepHas (has : hasJob jobId db) : hasJob jobId (step node db e) := by
  by_cases untouched : Table.deletionJobs ∈ touches e.op
  · rcases settleCases db (exec node e db) with same | ⟨next,reply,ok,done⟩
    · rw [step,same]
      exact has
    obtain ⟨now,op⟩ := e
    cases op <;> try (simp [touches] at untouched; done)
    case beginDeletionJob target kind scopeId tenantId requestedBy =>
      rw [step,done]
      simp only [exec] at ok
      obtain ⟨_,made,_⟩ := answeredOk ok
      rcases beginCases made with ⟨_,rfl⟩ | ⟨_,rfl⟩
      · exact has
      · obtain ⟨j,mem,named⟩ := has
        exact ⟨j,List.mem_append_left _ mem,named⟩
    case advanceDeletionJob target observedAt => exact advanceHas has
  · exact sameHas (stepOnly .deletionJobs untouched) has

theorem stepTombstoneJobs (jobs : TombstoneJobs db) : TombstoneJobs (step node db e) := by
  intro t mem
  by_cases untouched : Table.deletionTombstones ∈ touches e.op
  · rcases settleCases db (exec node e db) with same | ⟨next,reply,ok,done⟩
    · rw [step,same] at mem ⊢
      exact jobs t mem
    rw [step,done] at mem ⊢
    obtain ⟨now,op⟩ := e
    cases op <;> try (simp [touches,deletionTables] at untouched; done)
    case beginDeletionJob target kind scopeId tenantId requestedBy =>
      simp only [exec] at ok
      obtain ⟨_,made,_⟩ := answeredOk ok
      rcases beginCases made with ⟨_,rfl⟩ | ⟨_,rfl⟩
      · exact jobs t mem
      · rcases addedMem mem with old | new
        · obtain ⟨j,hj,named⟩ := jobs t old
          exact ⟨j,List.mem_append_left _ hj,named⟩
        · have named := scopeTombstonesNamed new
          exact ⟨begunJob target kind scopeId tenantId requestedBy,List.mem_append_right _ (List.mem_singleton.mpr rfl),
            named.symm⟩
  · have same : (step node db e).deletionTombstones = db.deletionTombstones := stepOnly .deletionTombstones untouched
    rw [same] at mem
    exact stepHas (jobs t mem)

theorem reachableTombstoneJobs (node : Node) (es : List Event) : TombstoneJobs (run (step node) Db.empty es) := by
  refine invariantAlways (fun s e jobs => stepTombstoneJobs jobs) ?_ es
  exact fun t mem => absurd mem List.not_mem_nil

theorem stepTombstoned {id : GrantId} (has : hasJob job.id db) :
    tombstonedGrant job (step node db e) id = tombstonedGrant job db id := by
  by_cases untouched : Table.deletionTombstones ∈ touches e.op
  · rcases settleCases db (exec node e db) with same | ⟨next,reply,ok,done⟩
    · rw [step,same]
    rw [step,done]
    obtain ⟨now,op⟩ := e
    cases op <;> try (simp [touches,deletionTables] at untouched; done)
    case beginDeletionJob target kind scopeId tenantId requestedBy =>
      simp only [exec] at ok
      obtain ⟨_,made,_⟩ := answeredOk ok
      rcases beginCases made with ⟨_,rfl⟩ | ⟨unknown,rfl⟩
      · rfl
      · refine (tombstonesAdded ?_).trans ?_
        · intro a b sameJob sameKind sameId
          rw [sameJob,sameKind,sameId]
        · have others : ((scopeTombstones target kind scopeId tenantId db).any fun t =>
              t.jobId == job.id && t.objectKind == .grant && t.objectId == id) = false := by
            rw [List.any_eq_false]
            intro t mem hit
            simp only [Bool.and_eq_true,beq_iff_eq] at hit
            have named := scopeTombstonesNamed mem
            rw [← named,hit.1.1] at unknown
            exact unknown has
          rw [others,Bool.or_false]
          rfl
  · have same : (step node db e).deletionTombstones = db.deletionTombstones := stepOnly .deletionTombstones untouched
    unfold tombstonedGrant
    rw [same]

theorem runTombstoned {es : List Event} {id : GrantId} (has : hasJob job.id db) :
    tombstonedGrant job (run (step node) db es) id = tombstonedGrant job db id := by
  induction es generalizing db with
  | nil => rfl
  | cons e es ih => exact (ih (stepHas has)).trans (stepTombstoned has)

theorem begunTombstoned {kind : ScopeKind} {scopeId : String} {tenantId : Option TenantId} {requestedBy : AccountId}
    {id : JobId} {grantId : GrantId} (jobs : TombstoneJobs db) (unknown : ¬hasJob jobId db)
    (ok : beginDeletionJob jobId kind scopeId tenantId requestedBy db = .ok (next,id)) :
    hasJob jobId next ∧ (tombstonedGrant (begunJob jobId kind scopeId tenantId requestedBy) next grantId = true ↔
      ∃ g ∈ db.grants, grantInScope (begunJob jobId kind scopeId tenantId requestedBy) g ∧ g.id = grantId) := by
  rcases beginCases ok with ⟨known,_⟩ | ⟨_,rfl⟩
  · exact absurd known unknown
  refine ⟨⟨_,List.mem_append_right _ (List.mem_singleton.mpr rfl),rfl⟩,?_⟩
  rw [← @scopeTombstonesGrants db jobId kind scopeId tenantId requestedBy]
  have none : (db.deletionTombstones.any fun t =>
      t.jobId == jobId && t.objectKind == .grant && t.objectId == grantId) = false := by
    rw [List.any_eq_false]
    intro t mem hit
    simp only [Bool.and_eq_true,beq_iff_eq] at hit
    have known := jobs t mem
    rw [hit.1.1] at known
    exact unknown known
  have added := @tombstonesAdded { db with
      deletionJobs := db.deletionJobs ++ [begunJob jobId kind scopeId tenantId requestedBy] }
    (scopeTombstones jobId kind scopeId tenantId db)
    (fun t => t.jobId == jobId && t.objectKind == .grant && t.objectId == grantId)
    (fun a b sameJob sameKind sameId => by rw [sameJob,sameKind,sameId])
  unfold tombstonedGrant
  show _ = true ↔ _
  rw [show (begunJob jobId kind scopeId tenantId requestedBy).id = jobId from rfl,added]
  show (db.deletionTombstones.any _ || _) = true ↔ _
  rw [none,Bool.false_or]

end Tombstones

section Completion
variable {jobId : JobId} {job : DeletionJob} {db : Db} {observedAt now : Time}

theorem completedPurged (found : jobOf jobId db = some job) (waiting : job.status = .waiting)
    (complete : (jobOf jobId (advanceDeletionJob jobId observedAt now db).1).map (·.status) = some .complete) :
    ∃ purged, purgeScope job db = .ok purged ∧
      (advanceDeletionJob jobId observedAt now db).1 = setJob jobId (completedJob observedAt) purged := by
  have moved := advanced jobId observedAt now db
  generalize (advanceDeletionJob jobId observedAt now db).1 = next at moved complete ⊢
  cases moved with
  | missing none =>
    rw [found] at none
    contradiction
  | ended other done =>
    cases found.symm.trans other
    rcases done with done | done <;> rw [waiting] at done <;> contradiction
  | early _ _ _ =>
    rw [found,Option.map_some,waiting] at complete
    contradiction
  | revoked other pending _ | revokeRaised other pending _ =>
    cases found.symm.trans other
    rw [waiting] at pending
    contradiction
  | purged other _ _ ok =>
    cases found.symm.trans other
    exact ⟨_,ok,rfl⟩
  | @purgeRaised _ fault _ _ _ _ =>
    have failed : jobOf jobId (setJob jobId (failedJob fault) db) = some (failedJob fault job) := by
      refine (setJobOf ?_).trans (congrArg (Option.map (failedJob fault)) found)
      exact fun _ => rfl
    rw [failed] at complete
    simp [failedJob] at complete

theorem waitingFound {sessions events : Nat} {known : GrantId → Prop} {grantId : GrantId} :
    Found (waitingJob observedAt sessions events job) known grantId db ↔ Found job known grantId db := by
  constructor
  · intro h
    exact ⟨h.secrets,h.artifacts,h.provider,h.families,h.records,h.events⟩
  · intro h
    exact ⟨h.secrets,h.artifacts,h.provider,h.families,h.records,h.events⟩

theorem unmentionedSet {change : DeletionJob → DeletionJob} {grantId : GrantId} :
    Unmentioned grantId (setJob jobId change db) ↔ Unmentioned grantId db := by
  constructor
  · intro h
    exact ⟨h.secrets,h.artifacts,h.provider,h.families,h.records,h.events⟩
  · intro h
    exact ⟨h.secrets,h.artifacts,h.provider,h.families,h.records,h.events⟩

theorem waitingSwept {sessions events : Nat} {change : DeletionJob → DeletionJob} {next : Db} :
    Swept job db (setJob jobId change next) ↔ Swept (waitingJob observedAt sessions events job) db next := by
  constructor
  · intro h
    exact ⟨h.grants,fun g mem scope => unmentionedSet.mp (h.rows g mem scope)⟩
  · intro h
    exact ⟨h.grants,fun g mem scope => unmentionedSet.mpr (h.rows g mem scope)⟩

/- A grant that was in the scope of the job when it was admitted. -/
def knownAt (job : DeletionJob) (db : Db) (grantId : GrantId) : Prop :=
  ∃ g ∈ db.grants, grantInScope job g ∧ g.id = grantId

/- Over every run around a job that completes: its purge sweeps all grants and their rows
exactly when its statements find those rows, going by the grants known at its admission. -/
theorem deletionSweeps (node : Node) (before mid later : List Event) (jobId : JobId) (kind : ScopeKind)
    (scopeId : String) (tenantId : Option TenantId) (requestedBy : AccountId)
    (begunAt firstAt firstNow lastAt lastNow : Time)
    (fresh : jobOf jobId (run (step node) Db.empty before) = none)
    (admitted : (beginDeletionJob jobId kind scopeId tenantId requestedBy (run (step node) Db.empty before)).isOk = true)
    (midOthers : ∀ e ∈ mid, advances jobId e = false) (laterOthers : ∀ e ∈ later, advances jobId e = false)
    (complete : (jobOf jobId (run (step node) Db.empty (before ++ beginOf jobId kind scopeId tenantId requestedBy begunAt ::
      mid ++ advanceOf jobId firstAt firstNow :: later ++ [advanceOf jobId lastAt lastNow]))).map (·.status) =
      some .complete) :
    let job := begunJob jobId kind scopeId tenantId requestedBy
    let due := run (step node) Db.empty (before ++ beginOf jobId kind scopeId tenantId requestedBy begunAt :: mid ++
      advanceOf jobId firstAt firstNow :: later)
    Swept job due (step node due (advanceOf jobId lastAt lastNow)) ↔
      ∀ g ∈ due.grants, grantInScope job g → Found job (knownAt job (run (step node) Db.empty before)) g.id due := by
  intro job due
  obtain ⟨_,sessions,events,found⟩ := @waitsUntilLast jobId kind scopeId tenantId requestedBy node before mid later
    begunAt firstAt firstNow fresh admitted midOthers laterOthers
  rw [runAppend] at complete
  obtain ⟨purged,ok,shape⟩ := @completedPurged jobId _ _ lastAt lastNow found rfl complete
  have known : ∀ grantId, tombstonedGrant job due grantId = true ↔
      knownAt job (run (step node) Db.empty before) grantId := by
    intro grantId
    have unknown : ¬hasJob jobId (run (step node) Db.empty before) := by
      rintro ⟨j,mem,named⟩
      unfold jobOf at fresh
      exact List.find?_eq_none.mp fresh j mem (by rw [named,beq_self_eq_true])
    cases out : beginDeletionJob jobId kind scopeId tenantId requestedBy (run (step node) Db.empty before) with
    | error fault =>
      rw [out] at admitted
      contradiction
    | ok done =>
      obtain ⟨begun,id⟩ := done
      obtain ⟨has,tombstones⟩ := @begunTombstoned _ begun jobId kind scopeId tenantId requestedBy id grantId
        (reachableTombstoneJobs node before) unknown out
      have dueRun : due = run (step node) begun (mid ++ advanceOf jobId firstAt firstNow :: later) := by
        show run (step node) Db.empty (before ++ (beginOf jobId kind scopeId tenantId requestedBy begunAt :: mid) ++
          advanceOf jobId firstAt firstNow :: later) = _
        rw [List.append_assoc,runAppend]
        show run (step node) (step node _ (beginOf jobId kind scopeId tenantId requestedBy begunAt)) _ = _
        simp only [step,beginOf,exec,out]
        rfl
      rw [dueRun,runTombstoned has]
      exact tombstones
  have swept := purgeSweeps ok
  have moved : step node due (advanceOf jobId lastAt lastNow) = setJob jobId (completedJob lastAt) purged := shape
  have knownEq : (fun id => tombstonedGrant (waitingJob firstAt sessions events job) due id = true) =
      knownAt job (run (step node) Db.empty before) := funext fun id => propext (known id)
  rw [moved,waitingSwept,swept,knownEq]
  refine forall_congr' fun g => forall_congr' fun _ => ?_
  exact imp_congr Iff.rfl waitingFound

end Completion

def siteJob : JobId := "deletion_sample_site_001"
def siteScope : DeletionJob := begunJob siteJob .site sampleSite (some sampleTenant) sampleAccount

def issuedHistory : List Event := approvedHistory ++ [Secrets.issueToken (seconds 21)]

/- The consent page also saves a provider Grant under the id of the platform grant. -/
def grantAdapter : OidcAdapter := ⟨"Grant",Secrets.artifactCodec,none⟩

def savedHistory : List Event := issuedHistory ++
  [⟨seconds 22,.upsert grantAdapter "grant_0001" [("accountId",.str sampleAccount),("jti",.str "grant_0001")] none
    (seconds 22)⟩]

def siteDue (before : List Event) : Db := run (step Secrets.refreshNode) Db.empty
  (before ++ beginOf siteJob .site sampleSite (some sampleTenant) sampleAccount (seconds 30) :: [] ++
    advanceOf siteJob (seconds 40) (seconds 40) :: [])

def siteEnd (before : List Event) : Db :=
  step Secrets.refreshNode (siteDue before) (advanceOf siteJob (minutes 8) (minutes 8))

theorem providerGrantLeft : (jobOf siteJob (siteEnd savedHistory)).map (·.status) = some .complete ∧
    ¬Swept siteScope (siteDue savedHistory) (siteEnd savedHistory) := by
  refine ⟨by decide,fun swept => ?_⟩
  have left : ∃ a ∈ (siteEnd savedHistory).providerArtifacts, a.model = "Grant" ∧ a.artifactId = "grant_0001" := by
    decide
  have deleted : ∃ g ∈ (siteDue savedHistory).grants, g.id = "grant_0001" ∧
      inTenantScope siteScope g.tenantId (some g.siteId) = true := by decide
  obtain ⟨a,stored,provider⟩ := left
  obtain ⟨g,mem,named,scope⟩ := deleted
  have unmentioned := swept.rows g mem scope
  rw [named] at unmentioned
  exact unmentioned.provider a stored provider

theorem consentSwept : Swept siteScope (siteDue issuedHistory) (siteEnd issuedHistory) := by
  refine (deletionSweeps Secrets.refreshNode issuedHistory [] [] siteJob .site sampleSite (some sampleTenant)
    sampleAccount (seconds 30) (seconds 40) (seconds 40) (minutes 8) (minutes 8) (by decide) (by decide) (by decide)
    (by decide) (by decide)).mpr ?_
  intro g mem _
  have only : ∀ g ∈ (siteDue issuedHistory).grants, g.id = "grant_0001" := by decide
  rw [only g mem]
  have known : knownAt siteScope (run (step Secrets.refreshNode) Db.empty issuedHistory) "grant_0001" :=
    ⟨approvedSample,by decide,by unfold grantInScope; decide,rfl⟩
  have noProvider : (siteDue issuedHistory).providerArtifacts = [] := by decide
  have noFamily : (siteDue issuedHistory).refreshFamilies = [] := by decide
  have ofTenant : ∀ r ∈ (siteDue issuedHistory).idempotencyRecords, some r.tenantId = some sampleTenant := by decide
  have ofSite : ∀ r ∈ (siteDue issuedHistory).revocationOutbox,
      inTenantScope siteScope r.tenantId (some r.siteId) = true := by decide
  refine ⟨fun _ _ _ => .inr known,fun _ _ _ => .inr known,?_,?_,?_,?_⟩
  · intro a stored
    exact absurd (noProvider ▸ stored) List.not_mem_nil
  · intro f stored
    exact absurd (noFamily ▸ stored) List.not_mem_nil
  · intro r stored _
    exact ⟨ofTenant r stored,.inr (.inr known)⟩
  · intro r stored _
    exact ofSite r stored

end Wepuu.DeletionSweep
