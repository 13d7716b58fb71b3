import Wepuu.Consent
import Wepuu.IsoDates

/-! SecurityAuditEventSchema of packages/security-audit, the constraints of
audit.security_events and PostgresSecurityAuditSink.write. A uuid may come in capitals; the
database keeps it in lower case. -/
namespace Wepuu.SecurityAudit
open Consent IsoDates NodeApi Relational Schema

section Events

/- The formats of zod: z.uuid() and z.iso.datetime(). -/
structure Formats where
  isUuid : String → Bool
  isDatetime : String → Bool

/- Of the texts that toISOString prints, those with a year of four digits are datetimes. -/
def Dated (formats : Formats) : Prop :=
  ∀ d : UtcDate, formats.isDatetime d.toISOString = true ↔ 0 ≤ d.year ∧ d.year ≤ 9999

inductive DurationBucket where | lt10ms | lt100ms | lt1s | gte1s deriving DecidableEq, Repr

structure SecurityAuditEvent where
  occurredAt : String
  eventName : SecurityEventName
  outcome : SecurityOutcome
  reason : SecurityReason
  correlationId : String
  tenantId : Option String
  siteId : Option String
  clientId : Option String
  grantId : Option String
  actorId : Option String
  service : AuditService
  serviceVersion : String
  durationBucket : Option DurationBucket
  deriving DecidableEq, Repr

def versionText (text : String) : Bool := match text.toList.splitOn '.' with
  | [major,minor,patch] => [major,minor,patch].all fun part => !part.isEmpty && part.all Schema.digitChar
  | _ => false

variable (formats : Formats)

def securityAuditEventSchema (event : SecurityAuditEvent) : Bool :=
  formats.isDatetime event.occurredAt && opaqueId event.correlationId && event.tenantId.all formats.isUuid &&
  event.siteId.all opaqueId && event.clientId.all opaqueId && event.grantId.all opaqueId && event.actorId.all opaqueId &&
  versionText event.serviceVersion

def validateSecurityEvent (input : SecurityAuditEvent) : Except Fault SecurityAuditEvent :=
  if securityAuditEventSchema formats input then .ok input else .error zodError

end Events

section Sink

/- A row of audit.security_events: what the listings read of it, and the other columns. -/
structure AuditRow where
  listed : SecurityEventRow
  actorId : Option String
  siteId : Option String
  clientId : Option String
  grantId : Option String
  serviceVersion : String
  durationBucket : Option DurationBucket
  deriving DecidableEq, Repr

def storedUuid (text : String) : TenantId := String.ofList (text.toList.map Char.toLower)

/- event_name, outcome, reason, service and duration_bucket have the values of their types. -/
def AuditRow.check (row : AuditRow) : Bool := opaqueId row.listed.correlationId

def auditRow (id : Nat) (event : SecurityAuditEvent) (tenant : TenantId) (occurredAt : Time) : AuditRow where
  listed := ⟨id,tenant,occurredAt,event.eventName,event.outcome,event.reason,event.correlationId,event.service⟩
  actorId := event.actorId
  siteId := event.siteId
  clientId := event.clientId
  grantId := event.grantId
  serviceVersion := event.serviceVersion
  durationBucket := event.durationBucket

/- The id is the next one of the identity column. The insert policy compares the row with the
tenant that withAuditWriter has set from the same event. -/
def write (formats : Formats) (id : Nat) (input : SecurityAuditEvent) (db : Db) : Except Fault (Db × AuditRow) := do
  let event ← validateSecurityEvent formats input
  let tenant ← orFail (.thrown "tenant_context_required_for_durable_audit") event.tenantId
  let occurredAt ← orFail (.raised "date/time field value out of range" "22008") (timestamptz event.occurredAt)
  let row := auditRow id event (storedUuid tenant) occurredAt
  ensure row.check .checkViolation
  ensure (db.hasTenant (storedUuid tenant)) .foreignKeyViolation
  .ok ({ db with securityEvents := db.securityEvents ++ [row.listed] },row)

variable {formats : Formats} {id : Nat} {event : SecurityAuditEvent} {db : Db}

/- The checks of the table say nothing that the schema has not said; the foreign key and the
calendar of timestamptz do. -/
theorem writeExactly {next : Db} {row : AuditRow} : write formats id event db = .ok (next,row) ↔
    securityAuditEventSchema formats event = true ∧ ∃ tenant at_, event.tenantId = some tenant ∧
      timestamptz event.occurredAt = some at_ ∧ db.hasTenant (storedUuid tenant) = true ∧
      row = auditRow id event (storedUuid tenant) at_ ∧
      next = { db with securityEvents := db.securityEvents ++ [row.listed] } := by
  unfold write validateSecurityEvent
  by_cases fits : securityAuditEventSchema formats event = true
  · have checked : ∀ tenant at_, (auditRow id event tenant at_).check = true := by
      intro tenant at_
      simp only [securityAuditEventSchema,Bool.and_eq_true] at fits
      exact fits.1.1.1.1.1.1.2
    simp only [bindOk,ensureOk,orFailOk,fits,if_true,true_and]
    constructor
    · rintro ⟨_,same,tenant,named,at_,dated,_,_,_,standing,last⟩
      cases same
      cases last
      exact ⟨tenant,at_,named,dated,standing,rfl,rfl⟩
    · rintro ⟨tenant,at_,named,dated,standing,rfl,rfl⟩
      exact ⟨event,rfl,tenant,named,at_,dated,(),checked _ _,(),standing,rfl⟩
  · simp [fits,bindOk]

def safeAudit (formats : Formats) (id : Nat) (event : SecurityAuditEvent) (db : Db) : Db := match write formats id event db with
  | .ok (next,_) => next
  | .error _ => db

theorem writeOk : (write formats id event db).isOk = true ↔ securityAuditEventSchema formats event = true ∧
    (timestamptz event.occurredAt).isSome = true ∧ event.tenantId.any (fun t => db.hasTenant (storedUuid t)) = true := by
  constructor
  · intro ok
    cases written : write formats id event db with
    | error cause => rw [written] at ok; cases ok
    | ok out =>
      obtain ⟨next,row⟩ := out
      obtain ⟨fits,tenant,at_,named,dated,standing,_⟩ := writeExactly.mp written
      exact ⟨fits,by rw [dated]; rfl,by rw [named]; exact standing⟩
  · rintro ⟨fits,dated,standing⟩
    obtain ⟨at_,dated⟩ := Option.isSome_iff_exists.mp dated
    cases named : event.tenantId with
    | none => rw [named] at standing; cases standing
    | some tenant =>
      rw [named] at standing
      rw [writeExactly.mpr ⟨fits,tenant,at_,named,dated,standing,rfl,rfl⟩]
      rfl

end Sink
end Wepuu.SecurityAudit
