import Wepuu.EventSources
import Wepuu.RankedQueues

/-! Attempts of the delivery worker. A claim takes one attempt off each event it hands out, and
nothing gives attempts back: so an event is handed out at most twenty times, and one that is
due is passed over only while older events of any site use theirs up. -/
namespace Wepuu.FairDelivery
open Artifacts Deletion DeletionCompletes Families Footprint Frames Grants NodeApi Outbox RankedQueues Relational Runs
open Schema SigningKeys Statements Tenancy Wepuu.System

variable {node : Node} {e : Event} {start db next : Db} {observedAt now : Time}

structure Emitted (start next : Db) : Prop where
  rows : ∀ r ∈ next.revocationOutbox, r ∈ start.revocationOutbox ∨ start.outboxNextId ≤ r.id
  later : start.outboxNextId ≤ next.outboxNextId

section Emitters

theorem emittedSame (rows : next.revocationOutbox = start.revocationOutbox) (count : next.outboxNextId = start.outboxNextId) :
    Emitted start next := ⟨fun _ mem => .inl (rows ▸ mem),Nat.le_of_eq count.symm⟩

theorem emittedKeeps (emitted : Emitted start db) (rows : next.revocationOutbox = db.revocationOutbox)
    (count : next.outboxNextId = db.outboxNextId) : Emitted start next :=
  ⟨fun r mem => emitted.rows r (rows ▸ mem),count.symm ▸ emitted.later⟩

theorem emittedInsert {onConflict : OnConflict} {event : NewEvent} (ok : insertEvent onConflict event now db = .ok next)
    (emitted : Emitted start db) : Emitted start next := by
  unfold insertEvent at ok
  split at ok <;> try contradiction
  split at ok
  · rename_i rows made
    cases ok
    obtain ⟨_,rfl⟩ := insertRowExact.mp made
    refine ⟨fun r mem => ?_,Nat.le_succ_of_le emitted.later⟩
    rcases List.mem_append.mp mem with old | new
    · exact emitted.rows r old
    · rw [List.mem_singleton.mp new]
      exact .inr emitted.later
  · cases ok
    exact ⟨emitted.rows,Nat.le_succ_of_le emitted.later⟩
  · cases ok

theorem emittedDelete {p : OutboxRow → Bool} (rows : next.revocationOutbox = deleteWhere p start.revocationOutbox)
    (count : next.outboxNextId = start.outboxNextId) : Emitted start next := by
  refine ⟨fun r mem => .inl ?_,Nat.le_of_eq count.symm⟩
  rw [rows] at mem
  exact (memDeleteWhere.mp mem).1

theorem userRevocationEmitted {context : TenantContext} {tenant : TenantId} {grantId : GrantId} {out : Bool}
    (ok : revokeGrantWithEvent context tenant grantId now db = .ok (next,out)) : Emitted db next := by
  unfold revokeGrantWithEvent at ok
  split at ok
  · split at ok
    · cases ok
      exact emittedSame rfl rfl
    · simp only [bindOk,orFailOk] at ok
      obtain ⟨site,_,emitted,inserted,last⟩ := ok
      cases last
      exact emittedInsert inserted (emittedSame rfl rfl)
  · cases ok
    exact emittedSame rfl rfl

theorem disconnectEmitted {context : TenantContext} {tenant : TenantId} {site : SiteId} {out : Bool}
    (ok : disconnectSiteWithEvent context tenant site now db = .ok (next,out)) : Emitted db next := by
  unfold disconnectSiteWithEvent at ok
  split at ok
  · split at ok
    · cases ok
      exact emittedSame rfl rfl
    · simp only [bindOk] at ok
      obtain ⟨emitted,inserted,last⟩ := ok
      cases last
      exact emittedInsert inserted (emittedSame rfl rfl)
  · cases ok
    exact emittedSame rfl rfl

theorem refreshRevocationEmitted {grantId : GrantId} {reason : String} {out : Bool}
    (ok : revokeRefreshGrant grantId observedAt reason now db = .ok (next,out)) : Emitted db next := by
  unfold revokeRefreshGrant at ok
  split at ok
  · cases ok
    exact emittedSame rfl rfl
  · split at ok
    · simp only [bindOk,orFailOk] at ok
      obtain ⟨site,_,emitted,inserted,last⟩ := ok
      cases last
      exact emittedInsert inserted (emittedSame rfl rfl)
    · cases ok
      exact emittedSame rfl rfl

theorem replayEmitted {adapter : OidcAdapter} {lookups : List SecretArtifactLookup} {out : ConsumeOutcome}
    (ok : replayLookups adapter now lookups db = .ok (next,out)) : Emitted db next := by
  induction lookups with
  | nil =>
    cases ok
    exact emittedSame rfl rfl
  | cons lookup rest ih =>
    unfold replayLookups at ok
    split at ok
    · simp only [bindOk] at ok
      obtain ⟨⟨revoked,flag⟩,revokes,last⟩ := ok
      cases last
      exact refreshRevocationEmitted revokes
    · exact ih ok

theorem consumeEmitted {adapter : OidcAdapter} {id : String} {dateNow : Time} {out : ConsumeOutcome}
    (ok : consume node adapter id dateNow now db = .ok (next,out)) : Emitted db next := by
  unfold consume at ok
  split at ok
  · simp only [bindOk] at ok
    obtain ⟨⟨tried,outcome⟩,lookups,ok⟩ := ok
    obtain ⟨rows,count⟩ := consumeLookupsOnly lookups .revocationOutbox (by decide)
    cases outcome with
    | some outcome =>
      cases ok
      exact emittedSame rows count
    | none =>
      simp only at ok
      split at ok
      · rw [consumeLookupsNone lookups] at ok
        exact replayEmitted ok
      · cases ok
        exact emittedSame rows count
  · cases ok
    exact emittedSame rfl rfl

theorem revokeByGrantIdEmitted {adapter : OidcAdapter} {reason : GrantRevocationReason} {grantId : GrantId}
    (ok : revokeByGrantId adapter reason grantId now db = .ok next) : Emitted db next := by
  simp only [revokeByGrantId,bindOk] at ok
  obtain ⟨⟨revoked,flag⟩,revokes,last⟩ := ok
  cases last
  unfold revokePlatformGrant at revokes
  split at revokes
  · exact emittedKeeps (refreshRevocationEmitted revokes) rfl rfl
  · cases revokes
    exact emittedSame rfl rfl

theorem rotateEmitted {target : FamilyId} {expectedGeneration : Int} {out : RefreshRotationResult}
    (ok : rotate target expectedGeneration observedAt now db = .ok (next,out)) : Emitted db next := by
  obtain ⟨rfl,_⟩ | ⟨target,_,_,_,ok⟩ := rotateOk ok
  · exact emittedSame rfl rfl
  unfold rotateRefreshFamily at ok
  split at ok
  · cases ok
    exact emittedSame rfl rfl
  split at ok
  · split at ok
    · cases ok
      exact emittedSame rfl rfl
    · split at ok
      · simp only [bindOk,orFailOk] at ok
        obtain ⟨site,_,emitted,inserted,last⟩ := ok
        cases last
        exact emittedInsert inserted (emittedSame rfl rfl)
      · cases ok
        exact emittedSame rfl rfl
  · cases ok
    exact emittedSame rfl rfl

theorem announceEmitted {kid : KeyId} {sites : List Site} (ok : announceKey kid now sites db = .ok next)
    (emitted : Emitted start db) : Emitted start next := by
  induction sites generalizing db with
  | nil =>
    cases ok
    exact emitted
  | cons s rest ih =>
    simp only [announceKey,bindOk] at ok
    obtain ⟨told,inserted,later⟩ := ok
    exact ih later (emittedInsert inserted emitted)

theorem revokeSigningKeyEmitted {target : KeyId} {out : Bool}
    (ok : revokeSigningKey target observedAt now db = .ok (next,out)) : Emitted db next := by
  unfold revokeSigningKey at ok
  dsimp only at ok
  split at ok
  · simp only [bindOk] at ok
    obtain ⟨announced,events,last⟩ := ok
    cases last
    exact announceEmitted events (emittedSame rfl rfl)
  · cases ok
    exact emittedSame rfl rfl

theorem subjectGrantsEmitted {rest : List Grant} {events out : Nat}
    (ok : revokeSubjectGrants observedAt now rest db events = .ok (next,out)) (emitted : Emitted start db) :
    Emitted start next := by
  induction rest generalizing db events with
  | nil =>
    cases ok
    exact emitted
  | cons g rest ih =>
    simp only [revokeSubjectGrants] at ok
    split at ok
    · exact ih ok (emittedKeeps emitted rfl rfl)
    · simp only [bindOk] at ok
      obtain ⟨told,inserted,ok⟩ := ok
      exact ih ok (emittedInsert inserted (emittedKeeps emitted rfl rfl))

theorem sitesEmitted {rest : List Site} {events out : Nat}
    (ok : revokeSites observedAt now rest db events = .ok (next,out)) (emitted : Emitted start db) : Emitted start next := by
  induction rest generalizing db events with
  | nil =>
    cases ok
    exact emitted
  | cons s rest ih =>
    simp only [revokeSites,bindOk] at ok
    obtain ⟨told,inserted,ok⟩ := ok
    exact ih ok (emittedKeeps (emittedInsert inserted (emittedKeeps emitted rfl rfl)) rfl rfl)

theorem effectEmitted {jobId : JobId} (effect : Effect jobId observedAt now db next) : Emitted db next := by
  cases effect with
  | idle _ => exact emittedSame rfl rfl
  | revoked _ _ ok =>
    unfold revokeScope at ok
    split at ok
    · simp only [revokeAccount,bindOk] at ok
      obtain ⟨⟨revoked,count⟩,loop,last⟩ := ok
      cases last
      exact emittedKeeps (subjectGrantsEmitted loop (emittedSame rfl rfl)) rfl rfl
    · simp only [revokeTenantScope,bindOk] at ok
      obtain ⟨⟨revoked,count⟩,loop,last⟩ := ok
      cases last
      exact emittedKeeps (sitesEmitted loop (emittedSame rfl rfl)) rfl rfl
  | purged _ _ ok =>
    unfold purgeScope at ok
    split at ok
    · simp only [purgeAccount,bindOk,ensureOk] at ok
      obtain ⟨_,_,last⟩ := ok
      cases last
      exact emittedDelete rfl rfl
    · cases ok
      exact emittedDelete rfl rfl

def delivers : Op → Bool
  | .claim _ _ | .markDelivered _ | .reschedule _ _ _ => true
  | _ => false

theorem stepEmitted (wf : WellFormed db) (other : delivers e.op = false) : Emitted db (step node db e) := by
  by_cases writes : Table.revocationOutbox ∈ touches e.op
  · rcases settleCases db (exec node e db) with same | ⟨next,reply,ok,done⟩
    · rw [step,same]
      exact emittedSame rfl rfl
    rw [step,done]
    obtain ⟨now,op⟩ := e
    cases op <;> try (simp [touches] at writes; done)
    case claim limit skipped => cases other
    case markDelivered id => cases other
    case reschedule id errorCode delaySeconds => cases other
    case revokeGrantWithEvent context tenant grantId =>
      obtain ⟨_,made,_⟩ := answeredOk ok
      exact userRevocationEmitted made
    case disconnectSiteWithEvent context tenant site =>
      obtain ⟨_,made,_⟩ := answeredOk ok
      exact disconnectEmitted made
    case revokeRefreshGrant grantId observedAt reason =>
      obtain ⟨_,made,_⟩ := answeredOk ok
      exact refreshRevocationEmitted made
    case rotate target expectedGeneration observedAt =>
      obtain ⟨_,made,_⟩ := answeredOk ok
      exact rotateEmitted made
    case revokeSigningKey target observedAt =>
      obtain ⟨_,made,_⟩ := answeredOk ok
      exact revokeSigningKeyEmitted made
    case consume adapter id dateNow =>
      obtain ⟨_,made,_⟩ := answeredOk ok
      exact consumeEmitted made
    case revokeByGrantId adapter reason grantId => exact revokeByGrantIdEmitted (silentOk ok)
    case advanceDeletionJob jobId observedAt =>
      cases ok
      exact effectEmitted (advanceEffect jobId observedAt now wf)
  · obtain ⟨rows,count⟩ := stepOnly .revocationOutbox writes
    exact emittedSame rows count

end Emitters

section Attempts

/- The attempts an event has left. A delivered one needs none. -/
def remaining (r : OutboxRow) : Nat := if r.deliveredAt.isNone then 20 - r.attempts else 0

def credit (among : Nat → Bool) (db : Db) : Nat := ((db.revocationOutbox.filter fun r => among r.id).map remaining).sum

def handed (db : Db) (e : Event) : List OutboxRow := match e.op with
  | .claim limit skipped => (claim limit skipped e.now db).2
  | _ => []

theorem rowsUnique (wf : WellFormed db) : (db.revocationOutbox.map (·.id)).Nodup := by
  refine List.pairwise_map.mpr (wf.outboxIndex.imp fun {a b} free same => ?_)
  simp only [outboxClash,same,beq_self_eq_true,Bool.true_or] at free
  contradiction

variable {among : Nat → Bool}

theorem claimSpends (limit : Int) (skipped : Nat → Bool) :
    credit among (claim limit skipped now db).1 + (claim limit skipped now db).2.countP (fun r => among r.id) =
      credit among db := by
  have spends : ∀ r ∈ db.revocationOutbox, chosen (boundedLimit limit) skipped now db.revocationOutbox r = true →
      remaining (leased now r) + 1 = remaining r := by
    intro r _ picked
    simp only [chosen,claimable,Bool.and_eq_true,decide_eq_true_eq] at picked
    have due : r.deliveredAt.isNone = true := picked.1.1.1.1.1
    have few : r.attempts < 20 := picked.1.1.1.2
    simp only [remaining,leased,due,if_true]
    omega
  have handedOut : (claim limit skipped now db).2.countP (fun r => among r.id) =
      (db.revocationOutbox.filter (chosen (boundedLimit limit) skipped now db.revocationOutbox)).countP fun r => among r.id :=
    List.countP_map
  rw [handedOut]
  refine updateSpends ?_ db.revocationOutbox spends
  exact fun _ => rfl

theorem stepSpends (wf : WellFormed db) (known : ∀ id, among id = true → id < db.outboxNextId) :
    credit among (step node db e) + (handed db e).countP (fun r => among r.id) ≤ credit among db := by
  cases worker : delivers e.op with
  | false =>
    have emitted : Emitted db (step node db e) := stepEmitted wf worker
    have idle : handed db e = [] := by
      unfold handed
      split
      · rename_i op
        rw [op] at worker
        cases worker
      · rfl
    rw [idle,List.countP_nil,Nat.add_zero]
    refine subsetSumLe ((rowsUnique (stepWellFormed wf)).of_map.filter _) fun r mem => ?_
    obtain ⟨stored,counted⟩ := List.mem_filter.mp mem
    refine List.mem_filter.mpr ⟨(emitted.rows r stored).resolve_right fun new => ?_,counted⟩
    exact absurd (known r.id counted) (Nat.not_lt.mpr new)
  | true =>
    obtain ⟨now,op⟩ := e
    cases op <;> try (simp [delivers] at worker; done)
    case claim limit skipped => exact Nat.le_of_eq (claimSpends limit skipped)
    case markDelivered id =>
      show credit among (markDelivered id now db) ≤ credit among db
      refine updateSumLe ?_ ?_ db.revocationOutbox
      · exact fun _ => rfl
      · intro r
        simp only [remaining,Option.isNone_some,Bool.false_eq_true,if_false]
        exact Nat.zero_le _
    case reschedule id errorCode delaySeconds =>
      show credit among (reschedule id errorCode delaySeconds now db) ≤ credit among db
      refine updateSumLe ?_ ?_ db.revocationOutbox
      · exact fun _ => rfl
      · exact fun _ => Nat.le_refl _

theorem stepLater (wf : WellFormed db) : db.outboxNextId ≤ (step node db e).outboxNextId := by
  cases worker : delivers e.op with
  | false => exact (stepEmitted wf worker).later
  | true =>
    obtain ⟨now,op⟩ := e
    cases op <;> first | exact Nat.le_refl _ | cases worker

theorem runSpends (wf : WellFormed db) (known : ∀ id, among id = true → id < db.outboxNextId) (es : List Event) :
    credit among (run (step node) db es) + (collect (step node) handed db es).countP (fun r => among r.id) ≤ credit among db := by
  induction es generalizing db with
  | nil => exact Nat.le_refl _
  | cons e es ih =>
    have first := @stepSpends node e db among wf known
    have rest := ih (stepWellFormed wf) fun id counted => Nat.lt_of_lt_of_le (known id counted) (@stepLater node e db wf)
    simp only [collect,runCons,List.countP_append] at rest ⊢
    omega

end Attempts

section Waiting

/- A claim that leaves out an event it could have taken, with its limit. -/
def passedOver (id : Nat) (db : Db) (e : Event) : List Nat := match e.op with
  | .claim limit skipped =>
    if (db.revocationOutbox.any fun r => r.id == id && claimable e.now r && !skipped id) &&
        !(claim limit skipped e.now db).2.any (fun r => r.id == id) then [boundedLimit limit] else []
  | _ => []

def candidate (skipped : Nat → Bool) (now : Time) (r : OutboxRow) : Bool := claimable now r && !skipped r.id

theorem chosenRank {limit : Nat} {skipped : Nat → Bool} {rows : List OutboxRow} {r : OutboxRow} :
    chosen limit skipped now rows r = true ↔ candidate skipped now r = true ∧
      ((rows.filter (candidate skipped now)).countP fun o => decide (o.id < r.id)) < limit := by
  have rank : ((rows.filter (candidate skipped now)).countP fun o => decide (o.id < r.id)) =
      (rows.filter fun o => claimable now o && !skipped o.id && decide (o.id < r.id)).length := by
    rw [List.countP_filter,List.countP_eq_length_filter]
    refine congrArg List.length (List.filter_congr fun o _ => ?_)
    rw [candidate,Bool.and_comm]
  rw [rank,chosen,Bool.and_eq_true,decide_eq_true_eq,candidate]

theorem claimFull (unique : (db.revocationOutbox.map (·.id)).Nodup) {limit : Int} {skipped : Nat → Bool} {r : OutboxRow}
    (stored : r ∈ db.revocationOutbox) (free : candidate skipped now r = true)
    (missed : ∀ o ∈ (claim limit skipped now db).2, o.id ≠ r.id) :
    boundedLimit limit ≤ (claim limit skipped now db).2.countP fun o => decide (o.id < r.id) := by
  have candidates : ((db.revocationOutbox.filter (candidate skipped now)).map (·.id)).Nodup :=
    (List.filter_sublist.map _).nodup unique
  have late : boundedLimit limit ≤
      (db.revocationOutbox.filter (candidate skipped now)).countP fun o => decide (o.id < r.id) := by
    by_contra early
    have picked := chosenRank.mpr ⟨free,Nat.lt_of_not_le early⟩
    exact missed (leased now r) (List.mem_map.mpr ⟨r,List.mem_filter.mpr ⟨stored,picked⟩,rfl⟩) rfl
  refine Nat.le_trans (takenBefore candidates late) (Nat.le_of_eq ?_)
  have handedOut : ((claim limit skipped now db).2.countP fun o => decide (o.id < r.id)) =
      (db.revocationOutbox.filter (chosen (boundedLimit limit) skipped now db.revocationOutbox)).countP
        fun o => decide (o.id < r.id) := List.countP_map
  rw [handedOut,List.countP_filter,List.countP_filter]
  refine List.countP_congr fun o _ => ?_
  simp only [Bool.and_eq_true,decide_eq_true_eq,chosenRank]
  exact ⟨fun ⟨⟨first,older⟩,from_⟩ => ⟨older,from_,first⟩,fun ⟨older,from_,first⟩ => ⟨⟨first,older⟩,from_⟩⟩

theorem passedOverFilled (wf : WellFormed db) (id : Nat) :
    (passedOver id db e).sum ≤ (handed db e).countP fun r => decide (r.id < id) := by
  obtain ⟨now,op⟩ := e
  cases op
  case claim limit skipped =>
    unfold passedOver
    dsimp only
    split
    · rename_i missed
      rw [Bool.and_eq_true,Bool.not_eq_true',List.any_eq_false] at missed
      obtain ⟨r,stored,free⟩ := List.any_eq_true.mp missed.1
      rw [Bool.and_assoc,Bool.and_eq_true,beq_iff_eq] at free
      obtain ⟨rfl,free⟩ := free
      rw [List.sum_singleton]
      exact claimFull (rowsUnique wf) stored free fun o mem same => missed.2 o mem (beq_iff_eq.mpr same)
    · exact Nat.zero_le _
  all_goals exact Nat.zero_le _

theorem runPassesOver (wf : WellFormed db) (id : Nat) (es : List Event) :
    (collect (step node) (passedOver id) db es).sum ≤
      (collect (step node) handed db es).countP fun r => decide (r.id < id) := by
  induction es generalizing db with
  | nil => exact Nat.le_refl _
  | cons e es ih =>
    have first := @passedOverFilled e db wf id
    have rest := ih (@stepWellFormed node e db wf)
    simp only [collect,List.sum_append,List.countP_append] at rest ⊢
    omega

end Waiting

theorem creditAlone (unique : (db.revocationOutbox.map (·.id)).Nodup) {r : OutboxRow} (stored : r ∈ db.revocationOutbox) :
    credit (· == r.id) db = remaining r := by
  have alone : db.revocationOutbox.filter (fun o => o.id == r.id) = [r] := by
    refine List.perm_singleton.mp ((List.perm_ext_iff_of_nodup (unique.of_map.filter _) (List.nodup_singleton r)).mpr fun o => ?_)
    simp only [List.mem_filter,beq_iff_eq,List.mem_singleton]
    constructor
    · rintro ⟨mem,same⟩
      exact List.inj_on_of_nodup_map unique mem stored same
    · rintro rfl
      exact ⟨stored,rfl⟩
  rw [credit,alone,List.map_singleton,List.sum_singleton]

/- In any run from a reachable state, an event is handed out no more often than it has attempts
left, and claims that pass it over while it is due take their limits out of the attempts of the
older events. -/
theorem deliveryFair (node : Node) (history es : List Event) (r : OutboxRow)
    (stored : r ∈ (run (step node) Db.empty history).revocationOutbox) :
    let start := run (step node) Db.empty history
    (collect (step node) handed start es).countP (fun o => o.id == r.id) ≤ remaining r ∧
    (collect (step node) (passedOver r.id) start es).sum ≤ credit (fun id => decide (id < r.id)) start := by
  intro start
  have wf : WellFormed start := reachableWellFormed node history
  have own := @runSpends node start (· == r.id) wf (fun id same => (beq_iff_eq.mp same) ▸ wf.numbered r stored) es
  have older := @runSpends node start (fun id => decide (id < r.id)) wf
    (fun id before => Nat.lt_trans (decide_eq_true_eq.mp before) (wf.numbered r stored)) es
  have passes := @runPassesOver node start wf r.id es
  rw [creditAlone (rowsUnique wf) stored] at own
  exact ⟨by omega,by omega⟩

/- Two events of one site, and a worker that takes one record at a time: the younger event
waits while the older one fails once, and goes out with the next claim. -/
def endedHistory : List Event := approvedHistory ++
  [⟨seconds 30,.revokeGrantWithEvent sampleContext sampleTenant "grant_0001"⟩,
    ⟨seconds 31,.disconnectSiteWithEvent sampleContext sampleTenant sampleSite⟩]

def youngerEvent : OutboxRow :=
  ⟨2,sampleTenant,sampleSite,sampleResource,2,.site,none,none,"site_disconnected",seconds 31,0,none,none,none⟩

def oneByOne : List Event :=
  [⟨seconds 40,.claim 1 fun _ => false⟩,⟨seconds 41,.reschedule 1 "network.failed" 2⟩,⟨seconds 42,.claim 1 fun _ => false⟩]

theorem youngerWaits :
    let start := run (step (sampleNode [] [])) Db.empty endedHistory
    (collect (step (sampleNode [] [])) handed start oneByOne).map (·.id) = [1,2] ∧
    collect (step (sampleNode [] [])) (passedOver 2) start oneByOne = [1] ∧
    (collect (step (sampleNode [] [])) (passedOver 2) start oneByOne).sum ≤ credit (fun id => decide (id < 2)) start :=
  ⟨by decide,by decide,
    (deliveryFair (sampleNode [] []) endedHistory oneByOne youngerEvent (by decide)).2⟩

end Wepuu.FairDelivery
