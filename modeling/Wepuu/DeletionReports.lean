import Wepuu.Frames

/-! DataLifecycleService.advance: one transaction around advance_deletion_job and the
parser of its report. What the parser refuses, the transaction rolls back. -/
namespace Wepuu.DeletionReports
open Deletion NodeApi Relational Runs Schema Tenancy Wepuu.System

structure LifecycleReport where
  jobId : JobId
  scopeKind : ScopeKind
  scopeId : String
  status : JobStatus
  safeAfter : Option Time
  completedAt : Option Time
  failureCode : Option String
  counts : DeletionCounts
  deriving DecidableEq, Repr

def parseDeletionReport (value : DeletionReport) : Except Fault LifecycleReport :=
  match value.scope, value.counts with
  | some (scopeKind,scopeId), some counts =>
    if value.status = .pending then .error (.thrown "deletion_report_invalid")
    else .ok ⟨value.jobId,scopeKind,scopeId,value.status,value.safeAfter,value.completedAt,value.failureCode,counts⟩
  | _, _ => .error (.thrown "deletion_report_invalid")

def jobIdShape (jobId : JobId) : Bool := matchesClass opaqueChar 16 128 jobId

def advance (jobId : JobId) (observedAt now : Time) (db : Db) : Except Fault (Db × LifecycleReport) := do
  ensure (jobIdShape jobId) (.thrown "deletion_job_invalid")
  let (next,value) := advanceDeletionJob jobId observedAt now db
  let parsed ← parseDeletionReport value
  .ok (next,parsed)

/- A failure handled as the function means it: the job alone is written, with the state of
the exception, and the caller gets the same report now and on every later call. -/
structure FailureKept (jobId : JobId) (observedAt now : Time) (db : Db) (fault : Fault) : Prop where
  others : ∃ jobs, settle db (advance jobId observedAt now db) = { db with deletionJobs := jobs }
  failed : ∃ job ∈ (settle db (advance jobId observedAt now db)).deletionJobs,
    job.id = jobId ∧ job.status = .failed ∧ job.failureCode = fault.sqlstate
  reported : ∃ value, advance jobId observedAt now db = .ok (settle db (advance jobId observedAt now db),value) ∧
    value.status = .failed ∧ value.failureCode = fault.sqlstate ∧
    ∀ laterAt later, advance jobId laterAt later (settle db (advance jobId observedAt now db)) =
      .ok (settle db (advance jobId observedAt now db),value)

section Reports
variable {jobId : JobId} {observedAt now : Time} {db next : Db} {fault : Fault}

theorem reportParses {job : DeletionJob} (moved : job.status ≠ .pending) :
    ∃ parsed, parseDeletionReport (report job) = .ok parsed ∧ parsed.status = job.status ∧ parsed.jobId = job.id := by
  refine ⟨⟨job.id,job.scopeKind,job.scopeId,job.status,(report job).safeAfter,(report job).completedAt,
    (report job).failureCode,job.counts⟩,?_,rfl,rfl⟩
  unfold parseDeletionReport
  exact if_neg moved

theorem bodyReport {value : DeletionReport} (ok : advanceBody jobId observedAt now db = .ok (next,value)) :
    ∃ job : DeletionJob, job.status ≠ .pending ∧ value = report job := by
  simp only [advanceBody,bindOk,orFailOk] at ok
  obtain ⟨job,_,ok⟩ := ok
  split at ok
  · rename_i complete
    cases ok
    exact ⟨job,by rw [complete]; decide,rfl⟩
  · rename_i failed
    cases ok
    exact ⟨job,by rw [failed]; decide,rfl⟩
  · simp only [firstPhase,bindOk] at ok
    obtain ⟨⟨_,sessions,events⟩,_,last⟩ := ok
    cases last
    exact ⟨_,by simp,rfl⟩
  · rename_i waiting
    split at ok
    · cases ok
      exact ⟨job,by rw [waiting]; decide,rfl⟩
    · simp only [purgePhase,bindOk] at ok
      obtain ⟨_,_,last⟩ := ok
      cases last
      exact ⟨_,by simp,rfl⟩

theorem advanceCommits {value : DeletionReport} (shape : jobIdShape jobId = true)
    (ok : advanceBody jobId observedAt now db = .ok (next,value)) :
    ∃ parsed, advance jobId observedAt now db = .ok (next,parsed) ∧ parsed.status = value.status := by
  obtain ⟨job,moved,rfl⟩ := bodyReport ok
  obtain ⟨parsed,hp,status,_⟩ := reportParses moved
  refine ⟨parsed,?_,status⟩
  simp only [advance,bindOk,ensureOk,advanceDeletionJob,ok]
  exact ⟨(),shape,parsed,hp,rfl⟩

theorem failureRefused (raised : advanceBody jobId observedAt now db = .error fault) :
    ∃ refusal, advance jobId observedAt now db = .error refusal := by
  unfold advance advanceDeletionJob
  rw [raised]
  cases shape : jobIdShape jobId <;> exact ⟨_,rfl⟩

theorem failureInvalid (shape : jobIdShape jobId = true)
    (raised : advanceBody jobId observedAt now db = .error fault) :
    advance jobId observedAt now db = .error (.thrown "deletion_report_invalid") := by
  unfold advance advanceDeletionJob
  rw [raised,shape]
  rfl

/- Whenever the body raises, the service throws and keeps nothing, not even the failed job. -/
theorem failureLost (jobId : JobId) (observedAt now : Time) (db : Db) (fault : Fault)
    (raised : advanceBody jobId observedAt now db = .error fault) :
    settle db (advance jobId observedAt now db) = db ∧
    (jobIdShape jobId = true →
      advance jobId observedAt now db = .error (.thrown "deletion_report_invalid")) ∧
    ¬FailureKept jobId observedAt now db fault := by
  obtain ⟨refusal,refused⟩ := failureRefused raised
  refine ⟨by rw [refused]; rfl,fun shape => failureInvalid shape raised,?_⟩
  intro kept
  obtain ⟨value,ok,_⟩ := kept.reported
  rw [refused] at ok
  contradiction

end Reports

def secondTenant : TenantId := "22222222-2222-4222-8222-222222222222"

def twoOwnersHistory : List Event := pairedHistory ++
  [⟨seconds 6,.signUp "user_0002"⟩,
    ⟨seconds 7,.ensureAccountAuthLink "user_0002" memberAccount secondTenant⟩,
    ⟨seconds 8,.seedMembership sampleTenant memberAccount .owner⟩]

def initiatorJob : JobId := "deletion_initiator_0001"

def initiatorWaiting : List Event := twoOwnersHistory ++
  [⟨seconds 10,.beginDeletionJob initiatorJob .account sampleAccount none sampleAccount⟩,
    ⟨seconds 20,.advanceDeletionJob initiatorJob (seconds 20)⟩]

theorem initiatorRaises :
    advanceBody initiatorJob (minutes 7) (minutes 7) (run (step (sampleNode [] [])) Db.empty initiatorWaiting) =
      .error .foreignKeyViolation := by decide

/- The purge raises on the pairing attempt, and the job still waits as if never advanced. -/
theorem waitingJobKept :
    let db := run (step (sampleNode [] [])) Db.empty initiatorWaiting
    advanceBody initiatorJob (minutes 7) (minutes 7) db = .error .foreignKeyViolation ∧
    ¬(∃ job ∈ (settle db (advance initiatorJob (minutes 7) (minutes 7) db)).deletionJobs,
      job.id = initiatorJob ∧ job.status = .failed) := by
  intro db
  refine ⟨initiatorRaises,?_⟩
  have kept : settle db (advance initiatorJob (minutes 7) (minutes 7) db) = db := by
    obtain ⟨refusal,refused⟩ := failureRefused initiatorRaises
    rw [refused]
    rfl
  rw [kept]
  decide

theorem initiatorFailureLost :
    let db := run (step (sampleNode [] [])) Db.empty initiatorWaiting
    advance initiatorJob (minutes 7) (minutes 7) db = .error (.thrown "deletion_report_invalid") ∧
    ¬FailureKept initiatorJob (minutes 7) (minutes 7) db .foreignKeyViolation :=
  have lost := failureLost initiatorJob (minutes 7) (minutes 7)
    (run (step (sampleNode [] [])) Db.empty initiatorWaiting) .foreignKeyViolation initiatorRaises
  ⟨lost.2.1 (by decide),lost.2.2⟩

end Wepuu.DeletionReports
