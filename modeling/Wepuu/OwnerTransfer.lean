import Wepuu.DeletionCompletes

/-! The owners of a tenant while account deletions come and go: begin_deletion_job asks for
another owner, the advances that take the membership away do not. -/
namespace Wepuu.OwnerTransfer
open AccountReferences Deletion DeletionCompletes DeletionReports Footprint Frames NodeApi Relational Runs Schema
open Statements Tenancy Wepuu.System

def ownsIn (tenant : TenantId) (m : Membership) : Bool :=
  m.tenantId == tenant && m.role == .owner && m.status == .active

def owned (tenant : TenantId) (db : Db) : Bool := db.memberships.any (ownsIn tenant)

def standing (tenant : TenantId) (db : Db) : Bool := db.tenants.any fun t => t.id == tenant && t.status != .deleted

/- The question of begin_deletion_job, for the tenants that stand. -/
def replaced (account : AccountId) (db : Db) : Bool :=
  db.memberships.all fun mine =>
    !(mine.accountId == account && ownsIn mine.tenantId mine && standing mine.tenantId db) ||
    db.memberships.any fun other => other.accountId != account && ownsIn mine.tenantId other

theorem admittedReplaced {account : AccountId} {db : Db} (admitted : ownerReplaced account db = true) :
    replaced account db = true := by
  refine List.all_eq_true.mpr fun mine mem => ?_
  have asked := List.all_eq_true.mp admitted mine mem
  simp only [Bool.or_eq_true,Bool.not_eq_true',List.any_eq_true,Bool.and_eq_true,beq_iff_eq,bne_iff_ne] at asked ⊢
  rcases asked with none | ⟨other,known,⟨⟨tenant,apart⟩,role⟩,active⟩
  · refine .inl ?_
    simp only [ownsIn,Bool.and_eq_false_iff] at none ⊢
    tauto
  · exact .inr ⟨other,known,apart,by simp [ownsIn,tenant,role,active]⟩

def seeds (e : Event) : Bool := match e.op with
  | .seedMembership _ _ _ => true
  | _ => false

/- Each account deletion finds another owner when it takes the memberships away. -/
def keepsOwners (db : Db) (e : Event) : Bool := match e.op with
  | .advanceDeletionJob jobId observedAt =>
    (dueJob jobId observedAt db).all fun job => job.scopeKind != .account || replaced job.scopeId db
  | _ => true

theorem keepsOwnersDue {jobId : JobId} {observedAt now : Time} {db : Db} {job : DeletionJob}
    (due : dueJob jobId observedAt db = some job) (account : job.scopeKind = .account) :
    keepsOwners db ⟨now,.advanceDeletionJob jobId observedAt⟩ = replaced job.scopeId db := by
  simp [keepsOwners,due,account]

theorem keepsOwnersFree {jobId : JobId} {observedAt now : Time} {db : Db}
    (free : ∀ job, dueJob jobId observedAt db = some job → job.scopeKind ≠ .account) :
    keepsOwners db ⟨now,.advanceDeletionJob jobId observedAt⟩ = true := by
  cases due : dueJob jobId observedAt db with
  | none => simp [keepsOwners,due]
  | some job => simp [keepsOwners,due,free job due]

section Advances
variable {job : DeletionJob} {observedAt now : Time} {db next : Db} {tenant : TenantId}

/- What an effective advance leaves of the memberships and tenants. -/
structure Lost (job : DeletionJob) (db next : Db) : Prop where
  account : job.scopeKind = .account → next.tenants = db.tenants ∧
    ∀ tenant, owned tenant next = db.memberships.any fun m => m.accountId != job.scopeId && ownsIn tenant m
  others : job.scopeKind ≠ .account → ∀ tenant, standing tenant next = true →
    standing tenant db = true ∧ owned tenant next = owned tenant db

theorem anyFiltered {α : Type} {p q : α → Bool} {rows : List α} :
    (deleteWhere p rows).any q = rows.any fun r => !p r && q r := by
  unfold deleteWhere
  rw [List.any_filter]

theorem revokedLost {sessions events : Nat} (ok : revokeScope job observedAt now db = .ok (next,sessions,events)) :
    Lost job db next := by
  unfold revokeScope at ok
  split at ok
  · rename_i account
    have tenants : next.tenants = db.tenants := revokeAccountOnly ok .tenants (by decide)
    simp only [revokeAccount,bindOk] at ok
    obtain ⟨⟨revoked,count⟩,loop,last⟩ := ok
    cases last
    have members : revoked.memberships = updateWhere (fun m => m.accountId == job.scopeId && m.status == .active)
        (fun m => { m with status := .revoked, revokedAt := some (m.revokedAt.getD observedAt) }) db.memberships :=
      revokeSubjectGrantsOnly loop .memberships (by decide)
    refine ⟨fun _ => ⟨tenants,fun tenant => ?_⟩,fun other => absurd account other⟩
    unfold owned
    rw [members]
    unfold updateWhere
    rw [List.any_map]
    refine congrArg (db.memberships.any) (funext fun m => ?_)
    simp only [Function.comp,ownsIn]
    by_cases mine : m.accountId = job.scopeId
    · by_cases active : m.status = .active <;> simp [mine,active]
    · simp [mine]
  · rename_i other
    have members : next.memberships = db.memberships := revokeTenantScopeOnly ok .memberships (by decide)
    simp only [revokeTenantScope,bindOk] at ok
    obtain ⟨⟨revoked,count⟩,loop,last⟩ := ok
    have kept : revoked.tenants = db.tenants := revokeSitesOnly loop .tenants (by decide)
    cases last
    refine ⟨fun account => absurd account other,fun _ tenant stands => ⟨?_,?_⟩⟩
    · obtain ⟨t,mem,hit⟩ := List.any_eq_true.mp stands
      obtain ⟨o,ho,rfl⟩ := memUpdateWhere.mp mem
      rw [kept] at ho
      split at hit
      · simp at hit
      · exact List.any_eq_true.mpr ⟨o,ho,hit⟩
    · unfold owned
      rw [members]

theorem purgedLost (ok : purgeScope job db = .ok next) : Lost job db next := by
  unfold purgeScope at ok
  split at ok
  · rename_i account
    simp only [purgeAccount,bindOk,ensureOk] at ok
    obtain ⟨_,_,last⟩ := ok
    cases last
    exact ⟨fun _ => ⟨rfl,fun tenant => anyFiltered⟩,fun other => absurd account other⟩
  · rename_i other
    cases ok
    refine ⟨fun account => absurd account other,fun _ tenant stands => ?_⟩
    obtain ⟨t,mem,hit⟩ := List.any_eq_true.mp stands
    obtain ⟨known,kept⟩ := memDeleteWhere.mp mem
    simp only [Bool.and_eq_true,beq_iff_eq] at hit
    refine ⟨List.any_eq_true.mpr ⟨t,known,by simpa using hit⟩,?_⟩
    refine anyFiltered.trans (congrArg (db.memberships.any) (funext fun m => ?_))
    -- the purge of a tenant that stands elsewhere leaves the memberships here
    by_cases here : m.tenantId = tenant
    · rw [here,← hit.1,kept]
      rfl
    · simp [ownsIn,here]

end Advances

section Steps
variable {node : Node} {e : Event} {db : Db} {tenant : TenantId}

theorem openHomeOwned {account : AccountId} {proposed : TenantId} {next : Db}
    (ok : openHome account proposed db = .ok next) :
    (owned tenant db = true → owned tenant next = true) ∧
    (standing tenant next = true → standing tenant db = true ∨ owned tenant next = true) := by
  obtain ⟨_,_,_,rfl⟩ := openHomeExact ok
  refine ⟨fun had => ?_,fun stands => ?_⟩
  · unfold owned at had ⊢
    rw [List.any_append,had,Bool.true_or]
  · unfold standing at stands ⊢
    rw [List.any_append,Bool.or_eq_true] at stands
    rcases stands with old | new
    · exact .inl old
    · have named : proposed = tenant := by simpa using new
      exact .inr (by simp [owned,ownsIn,named])

theorem grownOwned (unseeded : seeds e = false) (other : ∀ jobId observedAt, e.op ≠ .advanceDeletionJob jobId observedAt) :
    (owned tenant db = true → owned tenant (step node db e) = true) ∧
    (standing tenant (step node db e) = true → standing tenant db = true ∨ owned tenant (step node db e) = true) := by
  have same : .memberships ∉ touches e.op → .tenants ∉ touches e.op →
      (owned tenant db = true → owned tenant (step node db e) = true) ∧
      (standing tenant (step node db e) = true → standing tenant db = true ∨ owned tenant (step node db e) = true) := by
    intro m t
    have members : (step node db e).memberships = db.memberships := stepOnly .memberships m
    have tenants : (step node db e).tenants = db.tenants := stepOnly .tenants t
    unfold owned standing
    rw [members,tenants]
    exact ⟨id,.inl⟩
  rcases settleCases db (exec node e db) with rolled | ⟨next,reply,ok,done⟩
  · rw [step,rolled]
    exact ⟨id,.inl⟩
  obtain ⟨now,op⟩ := e
  cases op with
  | ensureAccountAuthLink authUser account proposed =>
    rw [step,done]
    simp only [exec] at ok
    obtain ⟨_,made,_⟩ := answeredOk ok
    obtain ⟨_,⟨_,rfl⟩ | ⟨opened,_,_,_,home,_,rfl⟩⟩ := ensureAccountAuthLinkCases made
    · exact ⟨id,.inl⟩
    · have grown := @openHomeOwned _ tenant _ _ _ home
      exact grown
  | ensurePersonalWorkspace account proposed =>
    rw [step,done]
    simp only [exec] at ok
    obtain ⟨_,made,_⟩ := answeredOk ok
    simp only [ensurePersonalWorkspace,bindOk,ensureOk] at made
    obtain ⟨_,_,_,_,⟨opened,home⟩,found,_,_,last⟩ := made
    cases last
    unfold homeOrOpen at found
    split at found
    · cases found
      exact ⟨id,.inl⟩
    · obtain ⟨_,opens,last⟩ := bindOk.mp found
      cases last
      exact openHomeOwned opens
  | seedMembership _ _ _ => contradiction
  | advanceDeletionJob jobId observedAt => exact absurd rfl (other jobId observedAt)
  | _ => exact same (by simp [touches]) (by simp [touches])

theorem advanceKeeps {jobId : JobId} {now observedAt : Time} (wf : WellFormed db) :
    (∀ tenant, standing tenant (step node db ⟨now,.advanceDeletionJob jobId observedAt⟩) = true →
      standing tenant db = true ∧
      (keepsOwners db ⟨now,.advanceDeletionJob jobId observedAt⟩ = true → owned tenant db = true →
        owned tenant (step node db ⟨now,.advanceDeletionJob jobId observedAt⟩) = true)) ∧
    (keepsOwners db ⟨now,.advanceDeletionJob jobId observedAt⟩ = false → ∃ tenant, owned tenant db = true ∧
      standing tenant (step node db ⟨now,.advanceDeletionJob jobId observedAt⟩) = true ∧
      owned tenant (step node db ⟨now,.advanceDeletionJob jobId observedAt⟩) = false) := by
  have shape : step node db ⟨now,.advanceDeletionJob jobId observedAt⟩ =
      (advanceDeletionJob jobId observedAt now db).1 := rfl
  have effect := advanceEffect jobId observedAt now wf
  rw [← shape] at effect
  generalize step node db ⟨now,.advanceDeletionJob jobId observedAt⟩ = after at effect ⊢
  have lostCase : ∀ {job : DeletionJob} {next : Db}, dueJob jobId observedAt db = some job → Lost job db next →
      (∀ tenant, standing tenant next = true → standing tenant db = true ∧
        (keepsOwners db ⟨now,.advanceDeletionJob jobId observedAt⟩ = true → owned tenant db = true →
          owned tenant next = true)) ∧
      (keepsOwners db ⟨now,.advanceDeletionJob jobId observedAt⟩ = false → ∃ tenant, owned tenant db = true ∧
        standing tenant next = true ∧ owned tenant next = false) := by
    intro job next due lost
    by_cases account : job.scopeKind = .account
    · obtain ⟨tenants,left⟩ := lost.account account
      have stands : ∀ tenant, standing tenant next = standing tenant db := by
        intro tenant
        unfold standing
        rw [tenants]
      refine ⟨fun tenant hs => ⟨by rw [← stands]; exact hs,fun keeps had => ?_⟩,fun fails => ?_⟩
      · -- the owner that is left is the tenant's own or the replacement found for it
        rw [left]
        obtain ⟨mine,mem,owner⟩ := List.any_eq_true.mp had
        have here : mine.tenantId = tenant := by
          simp only [ownsIn,Bool.and_eq_true,beq_iff_eq] at owner
          exact owner.1.1
        by_cases gone : mine.accountId = job.scopeId
        · rw [keepsOwnersDue due account] at keeps
          have asked := List.all_eq_true.mp keeps mine mem
          rw [here,gone,owner,← stands,hs] at asked
          simpa using asked
        · exact List.any_eq_true.mpr ⟨mine,mem,by simp [gone,owner]⟩
      · rw [keepsOwnersDue due account] at fails
        obtain ⟨mine,mem,last⟩ := List.all_eq_false.mp fails
        rw [Bool.not_eq_true,Bool.or_eq_false_iff,Bool.not_eq_false'] at last
        obtain ⟨mine_,none⟩ := last
        simp only [Bool.and_eq_true] at mine_
        refine ⟨mine.tenantId,List.any_eq_true.mpr ⟨mine,mem,mine_.1.2⟩,?_,?_⟩
        · rw [stands]
          exact mine_.2
        · rw [left]
          exact none
    · refine ⟨fun tenant hs => ⟨(lost.others account tenant hs).1,fun _ had => ?_⟩,fun fails => ?_⟩
      · rw [(lost.others account tenant hs).2]
        exact had
      · rw [keepsOwnersFree] at fails
        · contradiction
        · intro other found
          cases due.symm.trans found
          exact account
  cases effect with
  | idle notDue =>
    refine ⟨fun tenant hs => ⟨hs,fun _ had => had⟩,fun fails => ?_⟩
    rw [keepsOwnersFree (by simp [notDue])] at fails
    contradiction
  | revoked due _ ok =>
    have done := lostCase due (revokedLost ok)
    exact done
  | purged due _ ok =>
    have done := lostCase due (purgedLost ok)
    exact done

def OwnerOrGone (tenant : TenantId) (db : Db) : Prop := standing tenant db = true → owned tenant db = true

theorem stepOwned (wf : WellFormed db) (unseeded : seeds e = false) (keeps : keepsOwners db e = true)
    (had : OwnerOrGone tenant db) : OwnerOrGone tenant (step node db e) := by
  intro stands
  by_cases advance : ∃ jobId observedAt, e.op = .advanceDeletionJob jobId observedAt
  · obtain ⟨now,op⟩ := e
    obtain ⟨jobId,observedAt,rfl⟩ := advance
    obtain ⟨before,kept⟩ := (advanceKeeps wf).1 tenant stands
    exact kept keeps (had before)
  · have grown := @grownOwned node e db tenant unseeded fun jobId observedAt same => advance ⟨jobId,observedAt,same⟩
    rcases grown.2 stands with before | new
    · exact grown.1 (had before)
    · exact new

theorem runOwned {es : List Event} (wf : WellFormed db) (unseeded : ∀ e ∈ es, seeds e = false)
    (keeps : Guarded (step node) (fun db e => keepsOwners db e = true) db es) (had : OwnerOrGone tenant db) :
    OwnerOrGone tenant (run (step node) db es) := by
  induction es generalizing db with
  | nil => exact had
  | cons e es ih =>
    exact ih (stepWellFormed wf) (fun o mem => unseeded o (List.mem_cons_of_mem _ mem)) keeps.2
      (stepOwned wf (unseeded e List.mem_cons_self) keeps.1 had)

/- In each part of the run, a tenant that had an owner keeps one as long as it stands. -/
def OwnersRemain (node : Node) (db : Db) (es : List Event) : Prop :=
  ∀ early late rest, es = early ++ late ++ rest → ∀ tenant,
    owned tenant (run (step node) db early) = true →
    standing tenant (run (step node) db (early ++ late)) = true →
    owned tenant (run (step node) db (early ++ late)) = true

theorem remainGuarded {es : List Event} (wf : WellFormed db) (remain : OwnersRemain node db es) :
    Guarded (step node) (fun db e => keepsOwners db e = true) db es := by
  induction es generalizing db with
  | nil => trivial
  | cons e es ih =>
    refine ⟨?_,ih (stepWellFormed wf) ?_⟩
    · by_contra kept
      have fails : keepsOwners db e = false := Bool.eq_false_iff.mpr kept
      have advance : ∃ jobId observedAt, e.op = .advanceDeletionJob jobId observedAt := by
        unfold keepsOwners at fails
        split at fails
        · rename_i jobId observedAt op
          exact ⟨jobId,observedAt,op⟩
        · contradiction
      obtain ⟨now,op⟩ := e
      obtain ⟨jobId,observedAt,rfl⟩ := advance
      obtain ⟨tenant,had,stands,lost⟩ := (@advanceKeeps node db jobId now observedAt wf).2 fails
      have kept := remain [] [⟨now,.advanceDeletionJob jobId observedAt⟩] es rfl tenant had stands
      have lostRun : owned tenant (run (step node) db [⟨now,.advanceDeletionJob jobId observedAt⟩]) = false := lost
      rw [List.nil_append,lostRun] at kept
      contradiction
    · intro early late rest shape tenant had stands
      exact remain (e :: early) late rest (by rw [shape]; rfl) tenant had stands

/- Over every run from every reachable state, account deletions leave standing tenants
their owners exactly when each of them, as it takes the memberships away, still finds others. -/
theorem ownersRemain (node : Node) (before es : List Event) (unseeded : ∀ e ∈ es, seeds e = false) :
    OwnersRemain node (run (step node) Db.empty before) es ↔
      Guarded (step node) (fun db e => keepsOwners db e = true) (run (step node) Db.empty before) es := by
  have wf := reachableWellFormed node before
  refine ⟨remainGuarded wf,fun keeps => ?_⟩
  rintro early late rest rfl tenant had
  rw [List.append_assoc,guardedAppend,guardedAppend] at keeps
  rw [runAppend]
  have earlier : WellFormed (run (step node) (run (step node) Db.empty before) early) := by
    rw [← runAppend]
    exact reachableWellFormed node _
  refine runOwned earlier (fun e mem => unseeded e ?_) keeps.2.1 (fun _ => had)
  exact List.mem_append_left _ (List.mem_append_right _ mem)

end Steps

def secondJob : JobId := "deletion_second_owner_01"

def bothBegun : List Event :=
  [⟨seconds 10,.beginDeletionJob initiatorJob .account sampleAccount none sampleAccount⟩,
    ⟨seconds 11,.beginDeletionJob secondJob .account memberAccount none memberAccount⟩]

def bothAdvanced : List Event := bothBegun ++
  [⟨seconds 20,.advanceDeletionJob initiatorJob (seconds 20)⟩,⟨seconds 21,.advanceDeletionJob secondJob (seconds 21)⟩]

theorem ownersLost : ¬OwnersRemain (sampleNode [] []) (run (step (sampleNode [] [])) Db.empty sharedTenants)
    bothAdvanced := by
  intro remain
  have kept := remain bothBegun (bothAdvanced.drop 2) [] rfl sampleTenant (by decide) (by decide)
  revert kept
  decide

theorem oneOwnerRemains : OwnersRemain (sampleNode [] []) (run (step (sampleNode [] [])) Db.empty sharedTenants)
    [⟨seconds 10,.beginDeletionJob initiatorJob .account sampleAccount none sampleAccount⟩,
      ⟨seconds 20,.advanceDeletionJob initiatorJob (seconds 20)⟩,
      ⟨seconds 30,.beginDeletionJob secondJob .account memberAccount none memberAccount⟩,
      ⟨seconds 40,.advanceDeletionJob secondJob (seconds 40)⟩] :=
  (ownersRemain (sampleNode [] []) sharedTenants _ (by decide)).mpr (by decide)

end Wepuu.OwnerTransfer
