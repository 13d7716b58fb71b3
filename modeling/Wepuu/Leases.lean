import Wepuu.System
import Wepuu.Footprint

/-! The two-minute leases of oauth.revocation_outbox under any claims and reports. A report
names an event and no lease: reschedule clears whichever lease the row has. -/
namespace Wepuu.Leases
open Outbox Relational Runs Schema Statements

structure Claim where
  worker : Nat
  id : Nat
  claimedAt : Time
  deriving DecidableEq, Repr

structure World where
  db : Db
  claims : List Claim
  delivered : List Nat

def start (db : Db) : World := ⟨db,[],[]⟩

/- A worker reports on what it has claimed; the other events are those of the emitters and
of a deletion. -/
inductive Event where
  | claim (worker : Nat) (limit : Int) (skipped : Nat → Bool) (now : Time)
  | markDelivered (worker id : Nat) (now : Time)
  | reschedule (worker id : Nat) (errorCode : String) (delaySeconds : Int) (now : Time)
  | emit (onConflict : OnConflict) (event : NewEvent) (now : Time)
  | purge (p : OutboxRow → Bool)

def holds (w : World) (worker id : Nat) : Bool := w.claims.any fun c => c.worker == worker && c.id == id
def closed (worker id : Nat) (claims : List Claim) : List Claim := claims.filter fun c => !(c.worker == worker && c.id == id)

def handed (w : World) (limit : Int) (skipped : Nat → Bool) (now : Time) : List OutboxRow := (claim limit skipped now w.db).2

def step (w : World) : Event → World
  | .claim worker limit skipped now =>
    { w with
      db := (claim limit skipped now w.db).1
      claims := w.claims ++ (handed w limit skipped now).map fun r => ⟨worker,r.id,now⟩ }
  | .markDelivered worker id now =>
    if holds w worker id then
      ⟨markDelivered id now w.db,closed worker id w.claims,id :: w.delivered⟩
    else w
  | .reschedule worker id errorCode delaySeconds now =>
    if holds w worker id then
      { w with db := reschedule id errorCode delaySeconds now w.db, claims := closed worker id w.claims }
    else w
  | .emit onConflict event now => match insertEvent onConflict event now w.db with
    | .ok db => { w with db := db }
    | .error _ => w
  | .purge p => { w with db := { w.db with revocationOutbox := deleteWhere p w.db.revocationOutbox } }

def rows (w : World) : List OutboxRow := w.db.revocationOutbox

/- No row is handed out while another worker's open claim of it is less than two minutes
old, and none that was marked delivered. -/
structure Exclusive (w : World) (worker : Nat) (limit : Int) (skipped : Nat → Bool) (now : Time) : Prop where
  leased : ∀ r ∈ handed w limit skipped now, ∀ c ∈ w.claims, c.id = r.id → c.worker ≠ worker →
    minutes 2 ≤ now - c.claimedAt
  undelivered : ∀ r ∈ handed w limit skipped now, r.id ∉ w.delivered

def Secure (w : World) : Prop := ∀ worker limit skipped now, Exclusive w worker limit skipped now

def boundedDelay (delaySeconds : Int) : Time := seconds (max 1 (min 3600 delaySeconds))

/- An event is put back only when every other open claim of it is two minutes old by the
time it can be claimed again. -/
def Timely (w : World) : Event → Prop
  | .reschedule worker id _ delaySeconds now => holds w worker id = true →
    (∃ r ∈ rows w, r.id = id ∧ r.deliveredAt = none ∧ r.attempts < 20) →
      ∀ c ∈ w.claims, c.id = id → c.worker ≠ worker → c.claimedAt + minutes 2 ≤ now + boundedDelay delaySeconds
  | _ => True

instance (w : World) (e : Event) : Decidable (Timely w e) := by
  cases e <;> unfold Timely <;> infer_instance

def Covered (c : Claim) (r : OutboxRow) : Prop := match r.lockedAt with
  | some at_ => c.claimedAt ≤ at_
  | none => c.claimedAt + minutes 2 ≤ r.notBefore

structure Sound (w : World) : Prop where
  numbered : Numbered w.db
  alone : ∀ a ∈ rows w, ∀ b ∈ rows w, a.id = b.id → a = b
  claimed : ∀ c ∈ w.claims, c.id < w.db.outboxNextId
  marked : ∀ id ∈ w.delivered, id < w.db.outboxNextId
  covered : ∀ c ∈ w.claims, ∀ r ∈ rows w, r.id = c.id → r.deliveredAt = none → r.attempts < 20 → Covered c r
  done : ∀ id ∈ w.delivered, ∀ r ∈ rows w, r.id = id → r.deliveredAt.isSome = true

section Steps
variable {w : World}

theorem startSound {db : Db} (wf : WellFormed db) : Sound (start db) where
  numbered := wf.numbered
  alone a ha b hb same := indexedEq wf.outboxIndex outboxClashSymm ha hb (by simp [outboxClash,same])
  claimed := by simp [start]
  marked := by simp [start]
  covered := by simp [start]
  done := by simp [start]

theorem handedRow {limit : Int} {skipped : Nat → Bool} {now : Time} {r : OutboxRow} (mem : r ∈ handed w limit skipped now) :
    ∃ o ∈ rows w, claimable now o = true ∧ r = leased now o := by
  obtain ⟨o,chosen_,rfl⟩ := List.mem_map.mp mem
  obtain ⟨ho,picked⟩ := List.mem_filter.mp chosen_
  simp only [chosen,Bool.and_eq_true] at picked
  exact ⟨o,ho,picked.1.1,rfl⟩

theorem coveredFree {c : Claim} {r : OutboxRow} {now : Time} (covered : Covered c r) (free : claimable now r = true) :
    c.claimedAt + minutes 2 ≤ now := by
  simp only [claimable,Bool.and_eq_true,decide_eq_true_eq] at free
  unfold Covered at covered
  cases locked : r.lockedAt with
  | none =>
    rw [locked] at covered
    exact Int.le_trans covered free.1.1.2
  | some at_ =>
    rw [locked] at covered free
    have behind : at_ < now - minutes 2 := of_decide_eq_true free.2
    unfold Time at *
    omega

theorem soundSecure (sound : Sound w) : Secure w := by
  intro worker limit skipped now
  refine ⟨fun r mem c open_ same _ => ?_,fun r mem marked => ?_⟩
  · obtain ⟨o,ho,free,rfl⟩ := handedRow mem
    have facts := free
    simp only [claimable,Bool.and_eq_true,decide_eq_true_eq,Option.isNone_iff_eq_none] at facts
    have covered := sound.covered c open_ o ho same.symm facts.1.1.1 facts.1.2
    have behind := coveredFree covered free
    unfold Time at *
    omega
  · obtain ⟨o,ho,free,rfl⟩ := handedRow mem
    have set_ := sound.done o.id marked o ho rfl
    simp only [claimable,Bool.and_eq_true,Option.isNone_iff_eq_none] at free
    rw [free.1.1.1] at set_
    contradiction

theorem closedMem {worker id : Nat} {claims : List Claim} {c : Claim} (mem : c ∈ closed worker id claims) :
    c ∈ claims ∧ (c.id = id → c.worker ≠ worker) := by
  obtain ⟨old,other⟩ := List.mem_filter.mp mem
  refine ⟨old,fun sameId sameWorker => ?_⟩
  simp [sameId,sameWorker] at other

theorem updatedRows {p : OutboxRow → Bool} {f : OutboxRow → OutboxRow} (keeps : ∀ r, (f r).id = r.id)
    (sound : Sound w) : Numbered { w.db with revocationOutbox := updateWhere p f w.db.revocationOutbox } ∧
    ∀ a ∈ updateWhere p f (rows w), ∀ b ∈ updateWhere p f (rows w), a.id = b.id → a = b := by
  have idOf : ∀ r : OutboxRow, (if p r then f r else r).id = r.id := by
    intro r
    split
    · exact keeps r
    · rfl
  refine ⟨fun r mem => ?_,fun a ha b hb same => ?_⟩
  · obtain ⟨o,ho,rfl⟩ := memUpdateWhere.mp mem
    rw [idOf]
    exact sound.numbered o ho
  · obtain ⟨x,hx,rfl⟩ := memUpdateWhere.mp ha
    obtain ⟨y,hy,rfl⟩ := memUpdateWhere.mp hb
    rw [idOf,idOf] at same
    rw [sound.alone x hx y hy same]

theorem soundClaim (sound : Sound w) (worker : Nat) (limit : Int) (skipped : Nat → Bool) (now : Time) :
    Sound (step w (.claim worker limit skipped now)) := by
  obtain ⟨numbered,alone⟩ := updatedRows (p := chosen (boundedLimit limit) skipped now w.db.revocationOutbox)
    (f := leased now) (fun _ => rfl) sound
  refine ⟨numbered,alone,?_,sound.marked,?_,?_⟩
  · intro c mem
    rcases List.mem_append.mp mem with old | new
    · exact sound.claimed c old
    · obtain ⟨r,hr,rfl⟩ := List.mem_map.mp new
      obtain ⟨o,ho,-,rfl⟩ := handedRow hr
      exact sound.numbered o ho
  · intro c mem r after same open_ tries
    obtain ⟨o,ho,rfl⟩ := memUpdateWhere.mp after
    by_cases picked : chosen (boundedLimit limit) skipped now w.db.revocationOutbox o = true
    · rw [if_pos picked] at same ⊢
      have free := picked
      simp only [chosen,Bool.and_eq_true] at free
      show c.claimedAt ≤ now
      rcases List.mem_append.mp mem with old | new
      · have facts := free.1.1
        simp only [claimable,Bool.and_eq_true,decide_eq_true_eq,Option.isNone_iff_eq_none] at facts
        have behind := coveredFree (sound.covered c old o ho same facts.1.1.1 facts.1.2) free.1.1
        have lease : 0 ≤ minutes 2 := by decide
        unfold Time at *
        omega
      · obtain ⟨_,-,rfl⟩ := List.mem_map.mp new
        exact Int.le_refl now
    · rw [if_neg picked] at same open_ tries ⊢
      rcases List.mem_append.mp mem with old | new
      · exact sound.covered c old o ho same open_ tries
      · obtain ⟨r,hr,rfl⟩ := List.mem_map.mp new
        obtain ⟨x,hx,rfl⟩ := List.mem_map.mp hr
        obtain ⟨mx,px⟩ := List.mem_filter.mp hx
        rw [sound.alone o ho x mx same] at picked
        exact absurd px picked
  · intro id marked r after same
    obtain ⟨o,ho,rfl⟩ := memUpdateWhere.mp after
    by_cases picked : chosen (boundedLimit limit) skipped now w.db.revocationOutbox o = true
    · rw [if_pos picked] at same ⊢
      exact sound.done id marked o ho same
    · rw [if_neg picked] at same ⊢
      exact sound.done id marked o ho same

theorem soundDelivered (sound : Sound w) (worker id : Nat) (now : Time) :
    Sound (step w (.markDelivered worker id now)) := by
  simp only [step]
  split
  · rename_i held
    obtain ⟨numbered,alone⟩ := updatedRows (p := fun r => r.id == id && r.deliveredAt.isNone)
      (f := fun r => { r with deliveredAt := some now, lockedAt := none, lastErrorCode := none }) (fun _ => rfl) sound
    refine ⟨numbered,alone,fun c mem => sound.claimed c (closedMem mem).1,fun other mem => ?_,?_,?_⟩
    · rcases List.mem_cons.mp mem with rfl | old
      · obtain ⟨c,open_,same⟩ := List.any_eq_true.mp held
        simp only [Bool.and_eq_true,beq_iff_eq] at same
        rw [← same.2]
        exact sound.claimed c open_
      · exact sound.marked other old
    · intro c mem r after same open_ tries
      obtain ⟨o,ho,rfl⟩ := memUpdateWhere.mp after
      split at same
      · rename_i hit
        rw [if_pos hit] at open_
        cases open_
      · rename_i miss
        rw [if_neg miss] at open_ tries ⊢
        exact sound.covered c (closedMem mem).1 o ho same open_ tries
    · intro other mem r after same
      obtain ⟨o,ho,rfl⟩ := memUpdateWhere.mp after
      split at same
      · rename_i hit
        rw [if_pos hit]
        rfl
      · rename_i miss
        rw [if_neg miss]
        rcases List.mem_cons.mp mem with rfl | old
        · simp only [same,beq_self_eq_true,Bool.true_and,Bool.not_eq_true,Option.isNone_eq_false_iff] at miss
          exact miss
        · exact sound.done other old o ho same
  · exact sound

theorem soundReschedule (sound : Sound w) {worker id : Nat} {errorCode : String} {delaySeconds : Int} {now : Time}
    (timely : Timely w (.reschedule worker id errorCode delaySeconds now)) :
    Sound (step w (.reschedule worker id errorCode delaySeconds now)) := by
  simp only [step]
  split
  · rename_i held
    obtain ⟨numbered,alone⟩ := updatedRows (p := fun r => r.id == id && r.deliveredAt.isNone)
      (f := fun r => { r with
        lockedAt := none, notBefore := now + boundedDelay delaySeconds,
        lastErrorCode := some (if policyShape errorCode then errorCode else "delivery_failed") }) (fun _ => rfl) sound
    refine ⟨numbered,alone,fun c mem => sound.claimed c (closedMem mem).1,sound.marked,?_,?_⟩
    · intro c mem r after same open_ tries
      obtain ⟨old,other⟩ := closedMem mem
      obtain ⟨o,ho,rfl⟩ := memUpdateWhere.mp after
      split at same
      · rename_i hit
        rw [if_pos hit] at open_ tries ⊢
        simp only [Bool.and_eq_true,beq_iff_eq] at hit
        have sameId : c.id = id := same.symm.trans hit.1
        exact timely held ⟨o,ho,hit.1,open_,tries⟩ c old sameId (other sameId)
      · rename_i miss
        rw [if_neg miss] at open_ tries ⊢
        exact sound.covered c old o ho same open_ tries
    · intro other mem r after same
      obtain ⟨o,ho,rfl⟩ := memUpdateWhere.mp after
      split at same
      · rename_i hit
        rw [if_pos hit]
        exact sound.done other mem o ho same
      · rename_i miss
        rw [if_neg miss]
        exact sound.done other mem o ho same
  · exact sound

theorem soundEmit (sound : Sound w) (onConflict : OnConflict) (event : NewEvent) (now : Time) :
    Sound (step w (.emit onConflict event now)) := by
  simp only [step]
  split
  · rename_i db inserted
    obtain ⟨-,rfl⟩ := insertEventExact sound.numbered inserted
    have fresh : ∀ r ∈ rows w, r.id ≠ w.db.outboxNextId := fun r mem => Nat.ne_of_lt (sound.numbered r mem)
    refine ⟨numberedInsert sound.numbered inserted,?_,fun c mem => Nat.lt_succ_of_lt (sound.claimed c mem),
      fun id mem => Nat.lt_succ_of_lt (sound.marked id mem),?_,?_⟩
    · intro a ha b hb same
      rcases List.mem_append.mp ha with oldA | newA
      · rcases List.mem_append.mp hb with oldB | newB
        · exact sound.alone a oldA b oldB same
        · rw [List.mem_singleton.mp newB] at same
          exact absurd same (fresh a oldA)
      · rcases List.mem_append.mp hb with oldB | newB
        · rw [List.mem_singleton.mp newA] at same
          exact absurd same.symm (fresh b oldB)
        · rw [List.mem_singleton.mp newA,List.mem_singleton.mp newB]
    · intro c mem r after same open_ tries
      rcases List.mem_append.mp after with old | new
      · exact sound.covered c mem r old same open_ tries
      · rw [List.mem_singleton.mp new] at same
        have below := sound.claimed c mem
        rw [← same] at below
        exact absurd below (Nat.lt_irrefl _)
    · intro id mem r after same
      rcases List.mem_append.mp after with old | new
      · exact sound.done id mem r old same
      · rw [List.mem_singleton.mp new] at same
        have below := sound.marked id mem
        rw [← same] at below
        exact absurd below (Nat.lt_irrefl _)
  · exact sound

theorem soundPurge (sound : Sound w) (p : OutboxRow → Bool) : Sound (step w (.purge p)) where
  numbered r mem := sound.numbered r (memDeleteWhere.mp mem).1
  alone a ha b hb := sound.alone a (memDeleteWhere.mp ha).1 b (memDeleteWhere.mp hb).1
  claimed := sound.claimed
  marked := sound.marked
  covered c mem r after := sound.covered c mem r (memDeleteWhere.mp after).1
  done id mem r after := sound.done id mem r (memDeleteWhere.mp after).1

theorem soundStep (w : World) (e : Event) (sound : Sound w) (timely : Timely w e) : Sound (step w e) := by
  cases e with
  | claim worker limit skipped now => exact soundClaim sound worker limit skipped now
  | markDelivered worker id now => exact soundDelivered sound worker id now
  | reschedule worker id errorCode delaySeconds now => exact soundReschedule sound timely
  | emit onConflict event now => exact soundEmit sound onConflict event now
  | purge p => exact soundPurge sound p

/- The report of a worker whose lease has gone to another makes the event free at once, for
a claim that passes by all others. -/
theorem secureTimely {e : Event} (secure : Secure (step w e)) : Timely w e := by
  cases e with
  | claim _ _ _ _ => trivial
  | markDelivered _ _ _ => trivial
  | emit _ _ _ => trivial
  | purge _ => trivial
  | reschedule worker id errorCode delaySeconds now =>
    rintro held ⟨r,hr,named,open_,tries⟩ c mem same other
    have next : step w (.reschedule worker id errorCode delaySeconds now) =
        { w with db := reschedule id errorCode delaySeconds now w.db, claims := closed worker id w.claims } := by
      rw [step,if_pos held]
    rw [next] at secure
    have kept : c ∈ closed worker id w.claims := by
      refine List.mem_filter.mpr ⟨mem,?_⟩
      simp [other]
    have row : ∃ o ∈ (reschedule id errorCode delaySeconds now w.db).revocationOutbox, o.id = id ∧
        claimable (now + boundedDelay delaySeconds) o = true := by
      have hit : (r.id == id && r.deliveredAt.isNone) = true := by simp [named,open_]
      refine ⟨_,updatedRow hr hit,named,?_⟩
      simp [claimable,open_,tries,boundedDelay]
    obtain ⟨o,ho,ownId,free⟩ := row
    have picked : chosen (boundedLimit 1) (fun i => i != id) (now + boundedDelay delaySeconds)
        (reschedule id errorCode delaySeconds now w.db).revocationOutbox o = true := by
      have first : ((reschedule id errorCode delaySeconds now w.db).revocationOutbox.filter fun x =>
          claimable (now + boundedDelay delaySeconds) x && !(x.id != id) && decide (x.id < o.id)) = [] := by
        refine List.filter_eq_nil_iff.mpr fun x _ chosen_ => ?_
        simp only [Bool.and_eq_true,Bool.not_eq_true',bne_eq_false_iff_eq,decide_eq_true_eq] at chosen_
        omega
      have one : ([] : List OutboxRow).length < boundedLimit 1 := by decide
      rw [chosen,first,free,ownId,bne_self_eq_false,decide_eq_true one]
      rfl
    have out := (secure worker 1 (fun i => i != id) (now + boundedDelay delaySeconds)).leased
      (leased (now + boundedDelay delaySeconds) o) (List.mem_map_of_mem (List.mem_filter.mpr ⟨ho,picked⟩)) c kept
      (same.trans ownId.symm) other
    unfold Time at *
    omega

theorem secureGuarded {es : List Event} (sound : Sound w)
    (secure : ∀ done rest, es = done ++ rest → Secure (run step w done)) : Guarded step Timely w es := by
  induction es generalizing w with
  | nil => trivial
  | cons e rest ih =>
    have timely : Timely w e := secureTimely (secure [e] rest rfl)
    refine ⟨timely,ih (soundStep w e sound timely) fun done later same => ?_⟩
    exact secure (e :: done) later (by rw [same]; rfl)

end Steps

theorem leasesExclusive (node : NodeApi.Node) (history : List System.Event) (es : List Event) :
    (∀ done rest, es = done ++ rest → Secure (run step (start (run (System.step node) Db.empty history)) done)) ↔
      Guarded step Timely (start (run (System.step node) Db.empty history)) es := by
  have sound := startSound (Footprint.reachableWellFormed node history)
  refine ⟨secureGuarded sound,fun timely done rest same => ?_⟩
  rw [same,guardedAppend] at timely
  exact soundSecure (invariantRun soundStep sound timely.1)

/- Worker 0 puts the event back after worker 1 has claimed it; three seconds later worker 2
may claim it. -/
def revokedHistory : List System.Event := System.approvedHistory ++
  [⟨seconds 30,.revokeGrantWithEvent System.sampleContext System.sampleTenant "grant_0001"⟩]
def lateReport : List Event :=
  [.claim 0 20 (fun _ => false) (seconds 40),.claim 1 20 (fun _ => false) (seconds 161),
    .reschedule 0 1 "delivery.timeout" 2 (seconds 163)]

theorem lateReportFrees :
    ¬ ∀ done rest, lateReport = done ++ rest →
      Secure (run step (start (run (System.step (System.sampleNode [] [])) Db.empty revokedHistory)) done) := by
  intro secure
  have free := secure lateReport [] (List.append_nil _).symm
  have exclusive := (free 2 20 (fun _ => false) (seconds 165)).leased
  revert exclusive
  decide

end Wepuu.Leases
