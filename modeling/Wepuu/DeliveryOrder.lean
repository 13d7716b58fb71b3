import Mathlib.Algebra.Group.Int.Defs
import Mathlib.Data.List.Nodup
import Wepuu.System
import Wepuu.Runs

/-! Revocation workers that share one outbox: in which runs the events of a site reach it in
the order of their numbers. -/
namespace Wepuu.DeliveryOrder
open Outbox Relational Runs Schema

section Workers

/- Where runOnce stands with the first record of its batch. -/
inductive Phase where
  | next
  | signed
  | answered
  | failed (errorCode : String)
  deriving DecidableEq, Repr

structure Runner where
  phase : Phase
  batch : List OutboxRow
  deriving DecidableEq, Repr

def idle : Runner := ⟨.next,[]⟩

/- How a call of send ends: before the request, with another answer than 204, with no answer
although the site has the event, or with 204. -/
inductive Sending where
  | unsent (errorCode : String)
  | refused (errorCode : String)
  | unconfirmed (errorCode : String)
  | answered
  deriving DecidableEq, Repr

/- What a site sees, and what it has taken. -/
inductive Seen where
  | sent (r : OutboxRow)
  | delivered (r : OutboxRow)
  deriving DecidableEq, Repr

def seen (r : OutboxRow) : Sending → List Seen
  | .unsent _ => []
  | .refused _ => [.sent r]
  | .unconfirmed _ => [.sent r,.delivered r]
  | .answered => [.sent r,.delivered r]

def afterSend : Sending → Phase
  | .unsent errorCode => .failed errorCode
  | .refused errorCode => .failed errorCode
  | .unconfirmed errorCode => .failed errorCode
  | .answered => .answered

/- What a worker does next: order is that of the rows that RETURNING gives. -/
inductive Move where
  | claim (limit : Int) (skipped : Nat → Bool) (order : List OutboxRow)
  | sign (ok : Bool)
  | send (sending : Sending)
  | markDelivered (failure : Option String)
  | reschedule (ok : Bool)
  | crash

def delay (attempts : Nat) : Int := min 3600 (2 ^ min attempts 11)

/- One statement or one call of runOnce, with what the sites see of it. A statement that fails
in the catch block ends runOnce, and its batch is forgotten. -/
def turn (own : Runner) (db : Db) (now : Time) (move : Move) : Db × Runner × List Seen :=
  match move, own.phase, own.batch with
  | .claim limit skipped order, .next, [] =>
      if order.isPerm (claim limit skipped now db).2 then ((claim limit skipped now db).1,⟨.next,order⟩,[])
      else (db,own,[])
  | .sign true, .next, r :: rest => (db,⟨.signed,r :: rest⟩,[])
  | .sign false, .next, r :: rest => (db,⟨.failed "signing.failed",r :: rest⟩,[])
  | .send sending, .signed, r :: rest => (db,⟨afterSend sending,r :: rest⟩,seen r sending)
  | .markDelivered none, .answered, r :: rest => (markDelivered r.id now db,⟨.next,rest⟩,[])
  | .markDelivered (some errorCode), .answered, r :: rest => (db,⟨.failed errorCode,r :: rest⟩,[])
  | .reschedule true, .failed errorCode, r :: rest =>
      (reschedule r.id errorCode (delay r.attempts) now db,⟨.next,rest⟩,[])
  | .reschedule false, .failed _, _ :: _ => (db,idle,[])
  | .crash, _, _ => (db,idle,[])
  | _, _, _ => (db,own,[])

structure Workers where
  db : Db
  runners : List Runner
  history : List Seen

inductive Event where
  | emit (now : Time) (onConflict : OnConflict) (event : NewEvent)
  | turn (worker : Nat) (now : Time) (move : Move)

def step (w : Workers) : Event → Workers
  | .emit now onConflict event =>
    match insertEvent onConflict event now w.db with
    | .ok db => { w with db := db }
    | .error _ => w
  | .turn worker now move =>
    match w.runners[worker]? with
    | none => w
    | some own =>
      let (db,next,told) := turn own w.db now move
      ⟨db,w.runners.set worker next,w.history ++ told⟩

def rows (w : Workers) : List OutboxRow := w.db.revocationOutbox

def start (db : Db) (workers : Nat) : Workers :=
  ⟨{ db with revocationOutbox := [] },List.replicate workers idle,[]⟩

end Workers

section Order

def SameSite (a b : OutboxRow) : Prop := a.tenantId = b.tenantId ∧ a.siteId = b.siteId

def Older (a b : OutboxRow) : Prop := SameSite a b ∧ a.eventSequence < b.eventSequence

instance (a b : OutboxRow) : Decidable (Older a b) := by unfold Older SameSite; infer_instance

/- No event is sent after a younger one of its site has been delivered. -/
def InOrder : Seen → Seen → Prop
  | .delivered e, .sent r => ¬Older r e
  | _, _ => True

instance : DecidableRel InOrder := by
  intro a b
  cases a <;> cases b <;> simp only [InOrder] <;> infer_instance

def Finished (w : Workers) (d : OutboxRow) : Prop :=
  d.deliveredAt.isSome = true ∨ 20 ≤ d.attempts ∧ ∀ own ∈ w.runners, ∀ r ∈ own.batch, r.id ≠ d.id

instance (w : Workers) (d : OutboxRow) : Decidable (Finished w d) := by unfold Finished; infer_instance

def Led (w : Workers) (ahead : List Nat) : List OutboxRow → Prop
  | [] => True
  | r :: rest => (∀ d ∈ rows w, Older d r → Finished w d ∨ d.id ∈ ahead) ∧ Led w (r.id :: ahead) rest

instance ledDecidable (w : Workers) : ∀ ahead batch, Decidable (Led w ahead batch)
  | _, [] => isTrue trivial
  | ahead, r :: rest =>
    have := ledDecidable w (r.id :: ahead) rest
    inferInstanceAs (Decidable ((∀ d ∈ rows w, Older d r → Finished w d ∨ d.id ∈ ahead) ∧ Led w (r.id :: ahead) rest))

/- The turns that keep the order: a claim takes an event with all older ones of its site before
it, an event is put back only when no younger one is left in the batch, and an event is sent
only while no other worker has delivered it. -/
def turnInOrder (w : Workers) (own : Runner) (now : Time) (move : Move) : Prop :=
  match move, own.phase, own.batch with
  | .claim limit skipped order, .next, [] =>
      order.isPerm (claim limit skipped now w.db).2 = true → Led w [] order
  | .send _, .signed, r :: _ => ∃ row ∈ rows w, row.id = r.id ∧ row.deliveredAt = none
  | .reschedule true, .failed _, r :: rest => ∀ later ∈ rest, ¬Older r later
  | _, _, _ => True

def stepInOrder (w : Workers) : Event → Prop
  | .emit _ _ _ => True
  | .turn worker now move => ∀ own ∈ w.runners[worker]?, turnInOrder w own now move

end Order

section Rows

def Named (a b : OutboxRow) : Prop :=
  a.id = b.id ∧ a.tenantId = b.tenantId ∧ a.siteId = b.siteId ∧ a.eventSequence = b.eventSequence

def Kept (a b : OutboxRow) : Prop :=
  Named a b ∧ (a.deliveredAt.isSome = true → b.deliveredAt.isSome = true) ∧ a.attempts ≤ b.attempts

theorem namedSymm {a b : OutboxRow} (n : Named a b) : Named b a :=
  ⟨n.1.symm,n.2.1.symm,n.2.2.1.symm,n.2.2.2.symm⟩

theorem namedTrans {a b c : OutboxRow} (n : Named a b) (m : Named b c) : Named a c :=
  ⟨n.1.trans m.1,n.2.1.trans m.2.1,n.2.2.1.trans m.2.2.1,n.2.2.2.trans m.2.2.2⟩

theorem keptRefl (a : OutboxRow) : Kept a a := ⟨⟨rfl,rfl,rfl,rfl⟩,id,Nat.le_refl _⟩

theorem olderNamed {a b c d : OutboxRow} (left : Named a b) (right : Named c d) : Older a c ↔ Older b d := by
  unfold Older SameSite
  rw [left.2.1,left.2.2.1,left.2.2.2,right.2.1,right.2.2.1,right.2.2.2]

structure Written (db next : Db) : Prop where
  derived : ∀ d' ∈ next.revocationOutbox, (∃ d ∈ db.revocationOutbox, Kept d d') ∨
    ∀ d ∈ db.revocationOutbox, SameSite d d' → d.eventSequence < d'.eventSequence
  persists : Persists Kept db.revocationOutbox next.revocationOutbox
  numbered : Numbered db → Numbered next
  ids : Numbered db → (db.revocationOutbox.map (·.id)).Nodup → (next.revocationOutbox.map (·.id)).Nodup

theorem writtenRefl (db : Db) : Written db db where
  derived := fun d mem => .inl ⟨d,mem,keptRefl d⟩
  persists := persistsRefl keptRefl _
  numbered := id
  ids := fun _ => id

theorem writtenUpdate {db : Db} {p : OutboxRow → Bool} {f : OutboxRow → OutboxRow} (keeps : ∀ r, Kept r (f r)) :
    Written db { db with revocationOutbox := updateWhere p f db.revocationOutbox } := by
  have named : ∀ r, (f r).id = r.id := fun r => (keeps r).1.1.symm
  refine ⟨fun d' mem => ?_,?_,?_,?_⟩
  · exact .inl (derivesUpdate keptRefl (fun r _ _ => keeps r) d' mem)
  · exact persistsUpdate keptRefl fun r _ _ => keeps r
  · intro numbered d' mem
    obtain ⟨d,hd,rfl⟩ := memUpdateWhere.mp mem
    rw [columnKept named d]
    exact numbered d hd
  · intro _ nodup
    rw [columnMap named]
    exact nodup

theorem writtenClaim (limit : Int) (skipped : Nat → Bool) (now : Time) (db : Db) : Written db (claim limit skipped now db).1 :=
  writtenUpdate fun _ => ⟨⟨rfl,rfl,rfl,rfl⟩,id,Nat.le_succ _⟩

theorem writtenDelivered (id : Nat) (now : Time) (db : Db) : Written db (markDelivered id now db) :=
  writtenUpdate fun _ => ⟨⟨rfl,rfl,rfl,rfl⟩,fun _ => rfl,Nat.le_refl _⟩

theorem writtenRescheduled (id : Nat) (errorCode : String) (seconds_ : Int) (now : Time) (db : Db) :
    Written db (reschedule id errorCode seconds_ now db) :=
  writtenUpdate fun _ => ⟨⟨rfl,rfl,rfl,rfl⟩,fun done => done,Nat.le_refl _⟩

theorem writtenInsert {onConflict : OnConflict} {event : NewEvent} {now : Time} {db next : Db}
    (numbered : Numbered db) (ok : insertEvent onConflict event now db = .ok next) : Written db next := by
  have kept := numberedInsert numbered ok
  obtain ⟨_,rfl⟩ := insertEventExact numbered ok
  refine ⟨?_,persistsAppend keptRefl _ _,fun _ => kept,?_⟩
  · intro d' mem
    rcases List.mem_append.mp mem with old | new
    · exact .inl ⟨d',old,keptRefl d'⟩
    · rw [List.mem_singleton.mp new]
      refine .inr fun d hd same => ltNext (f := (·.eventSequence)) hd ?_
      rw [ofSite,Bool.and_eq_true,beq_iff_eq,beq_iff_eq]
      exact same
  · intro _ nodup
    rw [List.map_append,List.map_singleton,List.nodup_append]
    refine ⟨nodup,List.nodup_singleton _,?_⟩
    intro i mem j last same
    obtain ⟨d,hd,rfl⟩ := List.mem_map.mp mem
    rw [List.mem_singleton.mp last] at same
    exact absurd same (Nat.ne_of_lt (numbered d hd))

end Rows

section Turns

inductive Turned (own : Runner) (db : Db) (now : Time) : Move → Db → Runner → List Seen → Prop where
  | stayed {move : Move} {next : Runner} (batch : next.batch = own.batch ∨ next.batch = []) :
      Turned own db now move db next []
  | claimed {limit : Int} {skipped : Nat → Bool} {order : List OutboxRow} (phase : own.phase = .next)
      (batch : own.batch = []) (perm : order.isPerm (claim limit skipped now db).2 = true) :
      Turned own db now (.claim limit skipped order) (claim limit skipped now db).1 ⟨.next,order⟩ []
  | sent {sending : Sending} {r : OutboxRow} {rest : List OutboxRow} (phase : own.phase = .signed)
      (batch : own.batch = r :: rest) :
      Turned own db now (.send sending) db ⟨afterSend sending,r :: rest⟩ (seen r sending)
  | marked {r : OutboxRow} {rest : List OutboxRow} (batch : own.batch = r :: rest) :
      Turned own db now (.markDelivered none) (markDelivered r.id now db) ⟨.next,rest⟩ []
  | putBack {errorCode : String} {r : OutboxRow} {rest : List OutboxRow} (phase : own.phase = .failed errorCode)
      (batch : own.batch = r :: rest) :
      Turned own db now (.reschedule true) (reschedule r.id errorCode (delay r.attempts) now db) ⟨.next,rest⟩ []

theorem turned (own : Runner) (db : Db) (now : Time) (move : Move) :
    Turned own db now move (turn own db now move).1 (turn own db now move).2.1 (turn own db now move).2.2 := by
  unfold turn
  split
  case h_1 phase batch =>
    split
    · exact .claimed phase batch ‹_›
    · exact .stayed (.inl rfl)
  case h_2 phase batch => exact .stayed (.inl batch.symm)
  case h_3 phase batch => exact .stayed (.inl batch.symm)
  case h_4 phase batch => exact .sent phase batch
  case h_5 phase batch => exact .marked batch
  case h_6 phase batch => exact .stayed (.inl batch.symm)
  case h_7 phase batch => exact .putBack phase batch
  case h_8 => exact .stayed (.inr rfl)
  case h_9 => exact .stayed (.inr rfl)
  case h_10 => exact .stayed (.inl rfl)

theorem claimedRow {limit : Int} {skipped : Nat → Bool} {now : Time} {db : Db} {order : List OutboxRow} {r : OutboxRow}
    (perm : order.isPerm (claim limit skipped now db).2 = true) (mem : r ∈ order) :
    ∃ d ∈ db.revocationOutbox, Named d r ∧ d.attempts < 20 := by
  have picked := (List.isPerm_iff.mp perm).mem_iff.mp mem
  obtain ⟨d,chosen_,rfl⟩ := List.mem_map.mp picked
  obtain ⟨hd,choice⟩ := List.mem_filter.mp chosen_
  refine ⟨d,hd,⟨rfl,rfl,rfl,rfl⟩,?_⟩
  simp only [chosen,claimable,Bool.and_eq_true,decide_eq_true_eq] at choice
  exact choice.1.1.1.2

end Turns
section Steps

structure Moved (w next : Workers) : Prop where
  written : Written w.db next.db
  batches : ∀ own ∈ next.runners, ∀ r ∈ own.batch,
    (∃ other ∈ w.runners, r ∈ other.batch) ∨ ∃ d ∈ rows w, Named d r ∧ d.attempts < 20

structure Sound (w : Workers) : Prop where
  numbered : Numbered w.db
  ids : ((rows w).map (·.id)).Nodup
  held : ∀ own ∈ w.runners, ∀ r ∈ own.batch, ∃ row ∈ rows w, Named row r
  led : ∀ own ∈ w.runners, Led w [] own.batch
  delivered : ∀ e, .delivered e ∈ w.history → ∃ row ∈ rows w, Named row e
  behind : ∀ e, .delivered e ∈ w.history → ∀ d ∈ rows w, Older d e → Finished w d
  ordered : w.history.Pairwise InOrder

variable {w next : Workers} {ahead : List Nat} {batch : List OutboxRow}

theorem rowOfId (sound : Sound w) {a b : OutboxRow} (left : a ∈ rows w) (right : b ∈ rows w) (same : a.id = b.id) : a = b :=
  List.inj_on_of_nodup_map sound.ids left right same

theorem finishedLater (sound : Sound w) (moved : Moved w next) {d later : OutboxRow} (mem : d ∈ rows w)
    (kept : Kept d later) (done : Finished w d) : Finished next later := by
  rcases done with done | ⟨tried,free⟩
  · exact .inl (kept.2.1 done)
  · refine .inr ⟨Nat.le_trans tried kept.2.2,?_⟩
    intro own hown r hr same
    rw [← kept.1.1] at same
    rcases moved.batches own hown r hr with ⟨other,hother,old⟩ | ⟨row,hrow,named,fresh⟩
    · exact free other hother r old same
    · have alone := rowOfId sound hrow mem (named.1.trans same)
      rw [alone] at fresh
      omega

theorem olderBefore (moved : Moved w next) {r later : OutboxRow} (known : ∃ row ∈ rows w, Named row r)
    (mem : later ∈ rows next) (older : Older later r) : ∃ d ∈ rows w, Kept d later ∧ Older d r := by
  rcases moved.written.derived later mem with ⟨d,hd,kept⟩ | young
  · exact ⟨d,hd,kept,(olderNamed kept.1 ⟨rfl,rfl,rfl,rfl⟩).mpr older⟩
  · obtain ⟨row,hrow,named⟩ := known
    have above := young row hrow ⟨named.2.1.trans older.1.1.symm,named.2.2.1.trans older.1.2.symm⟩
    have below := older.2
    rw [← named.2.2.2] at below
    omega

theorem ledLater (sound : Sound w) (moved : Moved w next) (known : ∀ r ∈ batch, ∃ row ∈ rows w, Named row r)
    (led : Led w ahead batch) : Led next ahead batch := by
  induction batch generalizing ahead with
  | nil => trivial
  | cons r rest ih =>
    refine ⟨?_,ih (fun o mem => known o (List.mem_cons_of_mem _ mem)) led.2⟩
    intro later mem older
    obtain ⟨d,hd,kept,before⟩ := olderBefore moved (known r List.mem_cons_self) mem older
    rcases led.1 d hd before with done | early
    · exact .inl (finishedLater sound moved hd kept done)
    · exact .inr (kept.1.1 ▸ early)

theorem ledDrop {more : List Nat} (led : Led w more batch)
    (covers : ∀ r ∈ batch, ∀ d ∈ rows w, Older d r → d.id ∈ more → Finished w d ∨ d.id ∈ ahead) : Led w ahead batch := by
  induction batch generalizing ahead more with
  | nil => trivial
  | cons r rest ih =>
    refine ⟨?_,ih led.2 ?_⟩
    · intro d hd older
      rcases led.1 d hd older with done | early
      · exact .inl done
      · exact covers r List.mem_cons_self d hd older early
    · intro o ho d hd older early
      rcases List.mem_cons.mp early with same | early
      · exact .inr (List.mem_cons.mpr (.inl same))
      · rcases covers o (List.mem_cons_of_mem _ ho) d hd older early with done | still
        · exact .inl done
        · exact .inr (List.mem_cons_of_mem _ still)

theorem soundMoved (sound : Sound w) (moved : Moved w next) {own : Runner} {told : List Seen}
    (runners : ∀ o ∈ next.runners, o ∈ w.runners ∨ o = own)
    (history : next.history = w.history ++ told)
    (led : Led next [] own.batch)
    (known : ∀ r ∈ own.batch, ∃ row ∈ rows w, Named row r)
    (delivered : ∀ e, .delivered e ∈ told → (∃ row ∈ rows w, Named row e) ∧ ∀ d ∈ rows w, Older d e → Finished w d)
    (ordered : (w.history ++ told).Pairwise InOrder) : Sound next := by
  have stays : ∀ r : OutboxRow, (∃ row ∈ rows w, Named row r) → ∃ row ∈ rows next, Named row r := by
    rintro r ⟨row,hrow,named⟩
    obtain ⟨later,hlater,kept⟩ := moved.written.persists row hrow
    exact ⟨later,hlater,namedTrans (namedSymm kept.1) named⟩
  have all : ∀ e, .delivered e ∈ next.history →
      (∃ row ∈ rows w, Named row e) ∧ ∀ d ∈ rows w, Older d e → Finished w d := by
    intro e mem
    rw [history] at mem
    rcases List.mem_append.mp mem with old | new
    · exact ⟨sound.delivered e old,sound.behind e old⟩
    · exact delivered e new
  have before : ∀ o ∈ next.runners, Led next [] o.batch ∧ ∀ r ∈ o.batch, ∃ row ∈ rows w, Named row r := by
    intro o mem
    rcases runners o mem with old | rfl
    · exact ⟨ledLater sound moved (sound.held o old) (sound.led o old),sound.held o old⟩
    · exact ⟨led,known⟩
  constructor
  · exact moved.written.numbered sound.numbered
  · exact moved.written.ids sound.numbered sound.ids
  · exact fun o mem r hr => stays r ((before o mem).2 r hr)
  · exact fun o mem => (before o mem).1
  · exact fun e mem => stays e (all e mem).1
  · intro e mem later hlater older
    obtain ⟨d,hd,kept,first⟩ := olderBefore moved (all e mem).1 hlater older
    exact finishedLater sound moved hd kept ((all e mem).2 d hd first)
  · rw [history]
    exact ordered

end Steps
section Runs
variable {w : Workers}

theorem heldBy {own : Runner} {i : Nat} (at_ : w.runners[i]? = some own) : own ∈ w.runners :=
  List.mem_of_getElem? at_

theorem afterSet {runners : List Runner} {i : Nat} {own o : Runner} (mem : o ∈ runners.set i own) : o ∈ runners ∨ o = own :=
  List.mem_or_eq_of_mem_set mem

theorem turnedBatch {own next : Runner} {db after : Db} {now : Time} {move : Move} {told : List Seen}
    (turned : Turned own db now move after next told) {r : OutboxRow} (mem : r ∈ next.batch) :
    r ∈ own.batch ∨ ∃ d ∈ db.revocationOutbox, Named d r ∧ d.attempts < 20 := by
  cases turned with
  | stayed batch =>
    rcases batch with same | none_
    · exact .inl (same ▸ mem)
    · rw [none_] at mem
      exact absurd mem List.not_mem_nil
  | claimed _ _ perm => exact .inr (claimedRow perm mem)
  | sent _ batch => exact .inl (batch ▸ mem)
  | marked batch => exact .inl (batch ▸ List.mem_cons_of_mem _ mem)
  | putBack _ batch => exact .inl (batch ▸ List.mem_cons_of_mem _ mem)

theorem turnedWritten {own next : Runner} {db after : Db} {now : Time} {move : Move} {told : List Seen}
    (turned : Turned own db now move after next told) : Written db after := by
  cases turned with
  | stayed _ => exact writtenRefl db
  | claimed _ _ _ => exact writtenClaim _ _ now db
  | sent _ _ => exact writtenRefl db
  | marked _ => exact writtenDelivered _ now db
  | putBack _ _ => exact writtenRescheduled _ _ _ now db

theorem turnedMoved {own next : Runner} {after : Db} {now : Time} {move : Move} {told : List Seen} {i : Nat}
    (at_ : w.runners[i]? = some own) (turned : Turned own w.db now move after next told) :
    Moved w ⟨after,w.runners.set i next,w.history ++ told⟩ := by
  refine ⟨turnedWritten turned,?_⟩
  intro o mem r hr
  rcases afterSet mem with old | rfl
  · exact .inl ⟨o,old,hr⟩
  · exact (turnedBatch turned hr).imp_left fun own_ => ⟨own,heldBy at_,own_⟩

theorem sentInOrder (sound : Sound w) {own : Runner} {r : OutboxRow} {rest : List OutboxRow} (mem : own ∈ w.runners)
    (batch : own.batch = r :: rest) (waiting : ∃ row ∈ rows w, row.id = r.id ∧ row.deliveredAt = none) :
    ∀ e, .delivered e ∈ w.history → ¬Older r e := by
  intro e told older
  have front : r ∈ own.batch := batch ▸ List.mem_cons_self
  obtain ⟨row,hrow,named⟩ := sound.held own mem r front
  obtain ⟨open_,hopen,same,pending⟩ := waiting
  have one := rowOfId sound hopen hrow (same.trans named.1.symm)
  subst one
  rcases sound.behind e told open_ hrow ((olderNamed named ⟨rfl,rfl,rfl,rfl⟩).mpr older) with done | ⟨_,free⟩
  · rw [pending] at done
    contradiction
  · exact free own mem r front same.symm

theorem seenInOrder {history : List Seen} {r : OutboxRow} (ordered : history.Pairwise InOrder)
    (first : ∀ e, .delivered e ∈ history → ¬Older r e) (sending : Sending) : (history ++ seen r sending).Pairwise InOrder := by
  have last : (seen r sending).Pairwise InOrder := by
    cases sending <;> simp [seen,InOrder]
  refine List.pairwise_append.mpr ⟨ordered,last,?_⟩
  intro a ha b hb
  cases a with
  | sent _ => trivial
  | delivered e =>
    cases b with
    | delivered _ => trivial
    | sent s =>
      have own : s = r := by
        cases sending <;> simp_all [seen]
      exact own ▸ first e ha

theorem seenDelivered {r e : OutboxRow} {sending : Sending} (mem : .delivered e ∈ seen r sending) : e = r := by
  cases sending <;> simp_all [seen]

theorem deliveredRow {id : Nat} {now : Time} {db : Db} {d : OutboxRow}
    (mem : d ∈ (markDelivered id now db).revocationOutbox) (same : d.id = id) : d.deliveredAt.isSome = true := by
  obtain ⟨o,_,rfl⟩ := memUpdateWhere.mp mem
  by_cases open_ : (o.id == id && o.deliveredAt.isNone) = true
  · rw [if_pos open_]
    rfl
  · rw [if_neg open_] at same ⊢
    rw [same,beq_self_eq_true,Bool.true_and,Option.isNone_iff_eq_none] at open_
    exact Option.isSome_iff_ne_none.mpr open_

theorem soundTurn (sound : Sound w) {own : Runner} {i : Nat} {now : Time} {move : Move} (at_ : w.runners[i]? = some own)
    (inOrder : turnInOrder w own now move) : Sound (step w (.turn i now move)) := by
  have turned := turned own w.db now move
  have moved := turnedMoved at_ turned
  have mem := heldBy at_
  simp only [step,at_]
  unfold turnInOrder at inOrder
  generalize turn own w.db now move = out at turned moved ⊢
  obtain ⟨after,next,told⟩ := out
  dsimp only at turned moved ⊢
  have quiet : (w.history ++ []).Pairwise InOrder := by
    rw [List.append_nil]
    exact sound.ordered
  cases turned with
  | stayed batch =>
    have nothing : Led w [] next.batch ∧ ∀ r ∈ next.batch, ∃ row ∈ rows w, Named row r := by
      rcases batch with same | none_
      · rw [same]
        exact ⟨sound.led own mem,sound.held own mem⟩
      · rw [none_]
        exact ⟨trivial,by simp⟩
    exact soundMoved sound moved (fun _ => afterSet) rfl (ledLater sound moved nothing.2 nothing.1) nothing.2 (by simp) quiet
  | claimed phase batch perm =>
    rw [phase,batch] at inOrder
    have known : ∀ r ∈ _, ∃ row ∈ rows w, Named row r := fun r hr =>
      let ⟨d,hd,named,_⟩ := claimedRow perm hr
      ⟨d,hd,named⟩
    exact soundMoved sound moved (fun _ => afterSet) rfl (ledLater sound moved known (inOrder perm)) known (by simp) quiet
  | sent phase batch =>
    rw [phase,batch] at inOrder
    have known := sound.held own mem
    have led := sound.led own mem
    rw [batch] at known led
    refine soundMoved sound moved (fun _ => afterSet) rfl (ledLater sound moved known led) known ?_ ?_
    · intro e told
      rw [seenDelivered told]
      refine ⟨known _ List.mem_cons_self,fun d hd older => ?_⟩
      exact (led.1 d hd older).resolve_right List.not_mem_nil
    · exact seenInOrder sound.ordered (sentInOrder sound mem batch inOrder) _
  | @marked r rest batch =>
    have known := sound.held own mem
    have led := sound.led own mem
    rw [batch] at known led
    have left : ∀ o ∈ rest, ∃ row ∈ rows w, Named row o := fun o ho => known o (List.mem_cons_of_mem _ ho)
    refine soundMoved sound moved (fun _ => afterSet) rfl (ledDrop (ledLater sound moved left led.2) ?_) left (by simp) quiet
    intro _ _ d hd _ front
    exact .inl (.inl (deliveredRow hd (List.mem_singleton.mp front)))
  | @putBack errorCode r rest phase batch =>
    rw [phase,batch] at inOrder
    have known := sound.held own mem
    have led := sound.led own mem
    rw [batch] at known led
    have left : ∀ o ∈ rest, ∃ row ∈ rows w, Named row o := fun o ho => known o (List.mem_cons_of_mem _ ho)
    refine soundMoved sound moved (fun _ => afterSet) rfl (ledDrop (ledLater sound moved left led.2) ?_) left (by simp) quiet
    intro o ho later hlater older front
    obtain ⟨d,hd,kept,first⟩ := olderBefore moved (left o ho) hlater older
    obtain ⟨row,hrow,named⟩ := known r List.mem_cons_self
    have one : d = row := rowOfId sound hd hrow
      (kept.1.1.trans ((List.mem_singleton.mp front).trans named.1.symm))
    subst one
    exact absurd ((olderNamed named ⟨rfl,rfl,rfl,rfl⟩).mp first) (inOrder o ho)

theorem soundEmit (sound : Sound w) (now : Time) (onConflict : OnConflict) (event : NewEvent) :
    Sound (step w (.emit now onConflict event)) := by
  simp only [step]
  split
  · rename_i db ok
    have moved : Moved w { w with db := db } :=
      ⟨writtenInsert sound.numbered ok,fun own mem r hr => .inl ⟨own,mem,hr⟩⟩
    have same : ∀ o ∈ w.runners, o ∈ w.runners ∨ o = idle := fun _ old => .inl old
    refine soundMoved sound moved same (List.append_nil _).symm trivial (by simp [idle]) (by simp) ?_
    rw [List.append_nil]
    exact sound.ordered
  · exact sound

theorem soundStep (w : Workers) (e : Event) (sound : Sound w) (inOrder : stepInOrder w e) : Sound (step w e) := by
  cases e with
  | emit now onConflict event => exact soundEmit sound now onConflict event
  | turn i now move =>
    cases at_ : w.runners[i]? with
    | none =>
      simp only [step,at_]
      exact sound
    | some own => exact soundTurn sound at_ (inOrder own at_)

theorem soundStart (db : Db) (workers : Nat) : Sound (start db workers) where
  numbered := by simp [Numbered,start]
  ids := by simp [rows,start]
  held := by
    intro own mem r hr
    rw [List.eq_of_mem_replicate mem] at hr
    exact absurd hr List.not_mem_nil
  led := by
    intro own mem
    rw [List.eq_of_mem_replicate mem]
    trivial
  delivered := by simp [start]
  behind := by simp [start]
  ordered := List.Pairwise.nil

/- Where every turn keeps the order, no event is sent to a site after a younger one has been
delivered to it. -/
theorem deliveriesInOrder (db : Db) (workers : Nat) (es : List Event)
    (inOrder : Guarded step stepInOrder (start db workers) es) :
    (run step (start db workers) es).history.Pairwise InOrder :=
  (invariantRun soundStep (soundStart db workers) inOrder).ordered

end Runs
section Samples

instance (w : Workers) (own : Runner) (now : Time) (move : Move) : Decidable (turnInOrder w own now move) := by
  unfold turnInOrder
  split <;> infer_instance

instance (w : Workers) : DecidablePred (stepInOrder w)
  | .emit _ _ _ => isTrue trivial
  | .turn worker now move => inferInstanceAs (Decidable (∀ own ∈ w.runners[worker]?, turnInOrder w own now move))

def tenantDb : Db := { Db.empty with
  tenants := [⟨System.sampleTenant,.active,none⟩] }

def emitted (now : Time) (reason : String) : Event :=
  .emit now .raise ⟨System.sampleTenant,System.sampleSite,System.sampleResource,.site,none,none,reason⟩

def claimed (w : Workers) (worker : Nat) (now : Time) : Event :=
  .turn worker now (.claim 20 (fun _ => false) (claim 20 (fun _ => false) now w.db).2)

def sentOff (worker : Nat) (now : Time) : List Event :=
  [.turn worker now (.sign true),.turn worker now (.send .answered),.turn worker now (.markDelivered none)]

def notSigned (worker : Nat) (now : Time) : List Event :=
  [.turn worker now (.sign false),.turn worker now (.reschedule true)]

def firstClaim (before : List Event) : List Event :=
  before ++ [claimed (run step (start tenantDb 2) before) 0 (seconds 5)]

/- The first event waits for its next attempt while the second one is sent, in one batch. -/
def overtaken : List Event :=
  let batch := firstClaim [emitted (seconds 1) "site_disconnected",emitted (seconds 2) "site_revoked"] ++
    notSigned 0 (seconds 6) ++ sentOff 0 (seconds 7)
  batch ++ [claimed (run step (start tenantDb 2) batch) 1 (seconds 20)] ++ sentOff 1 (seconds 21)

def retried : List Event :=
  let alone := firstClaim [emitted (seconds 1) "site_disconnected"] ++ notSigned 0 (seconds 6) ++
    [emitted (seconds 7) "site_revoked"]
  alone ++ [claimed (run step (start tenantDb 2) alone) 1 (seconds 20)] ++ sentOff 1 (seconds 21) ++ sentOff 1 (seconds 22)

theorem retriedInOrder : (run step (start tenantDb 2) retried).history.Pairwise InOrder :=
  deliveriesInOrder tenantDb 2 retried (by decide)

theorem overtakenOutOfOrder : ¬(run step (start tenantDb 2) overtaken).history.Pairwise InOrder := by
  decide

end Samples

end Wepuu.DeliveryOrder
