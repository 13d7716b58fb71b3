import Wepuu.Schema

/-! oauth.revocation_outbox: how an emitting statement numbers a new event, and the
three statements of PostgresRevocationOutbox. The advisory lock 204 of each emitter is
the atomicity of its transaction here. -/
namespace Wepuu.Outbox
open Relational Schema

def ofSite (tenant : TenantId) (site : SiteId) (r : OutboxRow) : Bool :=
  r.tenantId == tenant && r.siteId == site

def nextSequence (rows : List OutboxRow) (tenant : TenantId) (site : SiteId) : Nat :=
  maxWhere (ofSite tenant site) (·.eventSequence) rows + 1

structure NewEvent where
  tenantId : TenantId
  siteId : SiteId
  resourceUri : String
  eventType : EventType
  grantId : Option GrantId
  keyId : Option KeyId
  reason : String
  deriving DecidableEq, Repr

inductive OnConflict where | raise | doNothing deriving DecidableEq, Repr

def newRow (event : NewEvent) (now : Time) (db : Db) : OutboxRow where
  id := db.outboxNextId
  tenantId := event.tenantId
  siteId := event.siteId
  resourceUri := event.resourceUri
  eventSequence := nextSequence db.revocationOutbox event.tenantId event.siteId
  eventType := event.eventType
  grantId := event.grantId
  keyId := event.keyId
  reason := event.reason
  notBefore := now
  attempts := 0
  lockedAt := none
  deliveredAt := none
  lastErrorCode := none

def insertEvent (onConflict : OnConflict) (event : NewEvent) (now : Time) (db : Db) : Except Fault Db :=
  if db.hasTenant event.tenantId then
    match insertRow outboxClash (newRow event now db) db.revocationOutbox, onConflict with
    | some rows, _ => .ok { db with revocationOutbox := rows, outboxNextId := db.outboxNextId + 1 }
    | none, .doNothing => .ok { db with outboxNextId := db.outboxNextId + 1 }
    | none, .raise => .error .uniqueViolation
  else .error .foreignKeyViolation

def Numbered (db : Db) : Prop := ∀ r ∈ db.revocationOutbox, r.id < db.outboxNextId

theorem newRowFree {event now db} (numbered : Numbered db) :
    ∀ r ∈ db.revocationOutbox, outboxClash (newRow event now db) r = false := by
  intro r mem
  have older := numbered r mem
  by_cases same : ofSite event.tenantId event.siteId r = true
  · have lower : r.eventSequence < nextSequence db.revocationOutbox event.tenantId event.siteId :=
      ltNext (f := (·.eventSequence)) mem same
    simp only [outboxClash,newRow,Bool.or_eq_false_iff,Bool.and_eq_false_iff,beq_eq_false_iff_ne]
    exact ⟨by omega,.inr (by omega)⟩
  · simp only [outboxClash,newRow,Bool.or_eq_false_iff,Bool.and_eq_false_iff,beq_eq_false_iff_ne]
    refine ⟨by omega,.inl ?_⟩
    by_contra both
    apply same
    simp only [ofSite,Bool.and_eq_true,beq_iff_eq]
    by_cases t : event.tenantId = r.tenantId
    · by_cases s : event.siteId = r.siteId
      · exact ⟨t.symm,s.symm⟩
      · exact absurd (Or.inr s) both
    · exact absurd (Or.inl t) both

/- MAX + 1 never collides, so ON CONFLICT DO NOTHING never drops an event. -/
theorem insertEventExact {onConflict event now db next} (numbered : Numbered db)
    (ok : insertEvent onConflict event now db = .ok next) :
    db.hasTenant event.tenantId = true ∧
    next = { db with
      revocationOutbox := db.revocationOutbox ++ [newRow event now db]
      outboxNextId := db.outboxNextId + 1 } := by
  have free := insertRowExact.mpr ⟨@newRowFree event now db numbered,rfl⟩
  unfold insertEvent at ok
  split at ok <;> try contradiction
  rename_i tenant
  rw [free] at ok
  cases ok
  exact ⟨tenant,rfl⟩

theorem insertEventOk {onConflict event now db} (numbered : Numbered db)
    (tenant : db.hasTenant event.tenantId = true) :
    insertEvent onConflict event now db = .ok { db with
      revocationOutbox := db.revocationOutbox ++ [newRow event now db]
      outboxNextId := db.outboxNextId + 1 } := by
  have free := insertRowExact.mpr ⟨@newRowFree event now db numbered,rfl⟩
  unfold insertEvent
  rw [if_pos tenant,free]

theorem numberedInsert {onConflict event now db next} (numbered : Numbered db)
    (ok : insertEvent onConflict event now db = .ok next) : Numbered next := by
  obtain ⟨_,rfl⟩ := insertEventExact numbered ok
  intro r mem
  rcases List.mem_append.mp mem with old | new
  · exact Nat.lt_succ_of_lt (numbered r old)
  · rw [List.mem_singleton.mp new]
    exact Nat.lt_succ_self _

def newEvents (db next : Db) : List OutboxRow :=
  next.revocationOutbox.filter fun r => decide (db.outboxNextId ≤ r.id)

theorem memNewEvents {db next r} :
    r ∈ newEvents db next ↔ r ∈ next.revocationOutbox ∧ db.outboxNextId ≤ r.id := by
  simp only [newEvents,List.mem_filter,decide_eq_true_eq]

/- Claiming, with the two-minute lease and the attempts bound of the WHERE clause. -/
def claimable (now : Time) (r : OutboxRow) : Bool :=
  r.deliveredAt.isNone && decide (r.notBefore ≤ now) && decide (r.attempts < 20) &&
  (match r.lockedAt with
    | none => true
    | some at_ => decide (at_ < now - minutes 2))

def boundedLimit (limit : Int) : Nat := (max 1 (min 100 limit)).toNat

/- ORDER BY id … LIMIT: fewer than limit candidates have a smaller id. Rows that another
open transaction holds are skipped. -/
def chosen (limit : Nat) (skipped : Nat → Bool) (now : Time) (rows : List OutboxRow) (r : OutboxRow) : Bool :=
  claimable now r && !skipped r.id &&
  decide ((rows.filter fun o => claimable now o && !skipped o.id && decide (o.id < r.id)).length < limit)

def leased (now : Time) (r : OutboxRow) : OutboxRow := { r with lockedAt := some now, attempts := r.attempts + 1 }

def claim (limit : Int) (skipped : Nat → Bool) (now : Time) (db : Db) : Db × List OutboxRow :=
  let picked := chosen (boundedLimit limit) skipped now db.revocationOutbox
  ({ db with revocationOutbox := updateWhere picked (leased now) db.revocationOutbox },
    (db.revocationOutbox.filter picked).map (leased now))

def markDelivered (id : Nat) (now : Time) (db : Db) : Db :=
  { db with
    revocationOutbox := updateWhere (fun r => r.id == id && r.deliveredAt.isNone)
      (fun r => { r with deliveredAt := some now, lockedAt := none, lastErrorCode := none })
      db.revocationOutbox }

def lowerChar (c : Char) : Bool := 'a' ≤ c && c ≤ 'z'
def policyChar (c : Char) : Bool := lowerChar c || digitChar c || c == '_' || c == '.' || c == '-'

/- /^[a-z][a-z0-9_.-]{2,63}$/u, the shape of error codes and of rate-limit policies. -/
def policyShape (text : String) : Bool := match text.toList with
  | [] => false
  | first :: rest => lowerChar first && decide (2 ≤ rest.length) && decide (rest.length ≤ 63) && rest.all policyChar

def reschedule (id : Nat) (errorCode : String) (delaySeconds : Int) (now : Time) (db : Db) : Db :=
  let boundedDelay := max 1 (min 3600 delaySeconds)
  let safeCode := if policyShape errorCode then errorCode else "delivery_failed"
  { db with
    revocationOutbox := updateWhere (fun r => r.id == id && r.deliveredAt.isNone)
      (fun r => { r with lockedAt := none, notBefore := now + seconds boundedDelay, lastErrorCode := some safeCode })
      db.revocationOutbox }

end Wepuu.Outbox
