import Wepuu.Interleaving
import Wepuu.JsValues
import Wepuu.SendQuota

/-! The requests behind the budget of one-time codes: the before hook reserves, each callback
of sendVerificationOTP claims, calls the provider and records the outcome. Turns of any
requests come in any order, and each statement can fail before or after its commit. -/
namespace Wepuu.OtpDeliveries
open Interleaving JsValues NodeApi Relational Runs Schema
open SendQuota hiding step

section Source

structure Service where
  node : Node
  key : Key
  limits : OtpSendLimits
  publicOrigin : String
  reader : Bool
  protectionEnabled : Bool
  normalizeAccountEmail : String → Option String

structure SendRequest where
  origin : Option String
  deliveryId : Option String
  body : List (String × JsValue)

/- The hook up to its reservation, which it makes for the normalized address. -/
def beforeHook (service : Service) (input : SendRequest) : Except Fault String := do
  ensure (!service.reader && service.protectionEnabled) (.thrown "otp_send_unavailable")
  ensure (input.origin == some service.publicOrigin) (.thrown "otp_send_invalid")
  ensure (input.deliveryId.any (matchesClass opaqueChar 16 128)) (.thrown "otp_send_invalid")
  ensure (onlyMembers ["email","type"] input.body && (property input.body "type").isText "sign-in")
    (.thrown "otp_send_invalid")
  let email ← orFail (.thrown "otp_send_invalid") (textMember (fun _ => true) input.body "email")
  orFail (.thrown "otp_send_invalid") (service.normalizeAccountEmail email)

end Source

section Requests

/- How a statement ends: its answer is read, its answer is lost, or it was never committed. -/
inductive Storage where | answered | unanswered | lost deriving DecidableEq, Repr

structure Granted where
  request : Nat
  id : String
  email : String
  reservedAt : Time
  deriving DecidableEq, Repr

structure Claimed where
  request : Nat
  id : String
  email : String
  claimedAt : Time
  deriving DecidableEq, Repr

/- The table, the state of each request, and logs that no operation reads. -/
structure Shared where
  rows : List OtpSendReservation
  states : List (Nat × RequestState)
  drawn : List String
  granted : List Granted
  claimed : List Claimed
  recorded : List (String × OtpDeliveryOutcome)
  finished : List (String × OtpDeliveryOutcome)
  sent : List Claimed

def stateOf (s : Shared) (request : Nat) : Option RequestState := s.states.lookup request

inductive Task where
  | before (input : SendRequest)
  | callback (type : String) (deliveryId : Option String) (email : String)
  | claimed (claim : Claimed)
  | answered (outcome : OtpDeliveryOutcome)
  | done

structure Call where
  request : Nat
  task : Task

inductive Opening where
  | hook (request : Nat) (input : SendRequest)
  | callback (request : Nat) (type : String) (deliveryId : Option String) (email : String)

def opening : Opening → Call
  | .hook request input => ⟨request,.before input⟩
  | .callback request type deliveryId email => ⟨request,.callback type deliveryId email⟩

inductive Turn where
  | reserve (id : String) (clock : Time) (storage : Storage)
  | claim (clock written : Time) (storage : Storage)
  | send (outcome : OtpDeliveryOutcome)
  | finish (storage : Storage)

def reserved (service : Service) (s : Shared) (request : Nat) (email id : String) (clock : Time) (storage : Storage) :
    Shared :=
  match reserve service.limits (recipientOf service.node service.key email) id clock s.rows, storage with
  | .ok (rows,.allowed id), .answered =>
    { s with
      rows := rows
      states := (request,⟨some id,some email⟩) :: s.states
      drawn := id :: s.drawn
      granted := s.granted ++ [⟨request,id,email,asDate clock⟩] }
  | .ok (rows,.allowed id), .unanswered => { s with rows := rows, drawn := id :: s.drawn }
  | .ok (rows,.refused _), .answered => { s with rows := rows }
  | .ok (rows,.refused _), .unanswered => { s with rows := rows }
  | _, _ => s

def finished (s : Shared) (id : String) (outcome : OtpDeliveryOutcome) (storage : Storage) : Shared :=
  match finish id outcome s.rows, storage with
  | .ok rows, .answered =>
    { s with rows := rows, recorded := s.recorded ++ [(id,outcome)], finished := s.finished ++ [(id,outcome)] }
  | .ok rows, .unanswered => { s with rows := rows, recorded := s.recorded ++ [(id,outcome)] }
  | _, _ => s

def turn (service : Service) (s : Shared) (c : Call) (input : Turn) : Shared × Call :=
  match c.task, input with
  | .before request, .reserve id clock storage => match beforeHook service request with
    | .error _ => (s,⟨c.request,.done⟩)
    | .ok email => (reserved service s c.request email id clock storage,⟨c.request,.done⟩)
  | .callback type deliveryId email, .claim clock written storage =>
    match sendVerificationOTP service.normalizeAccountEmail type deliveryId (stateOf s c.request) email clock written
        s.rows, storage with
    | .ok (rows,id), .answered =>
      ({ s with rows := rows, claimed := s.claimed ++ [⟨c.request,id,email,clock⟩] },
        ⟨c.request,.claimed ⟨c.request,id,email,clock⟩⟩)
    | .ok (rows,_), .unanswered => ({ s with rows := rows },⟨c.request,.done⟩)
    | _, _ => (s,⟨c.request,.done⟩)
  | .claimed claim, .send outcome => ({ s with sent := s.sent ++ [claim] },⟨c.request,.answered outcome⟩)
  | .answered outcome, .finish storage => match (stateOf s c.request).bind (·.reservation) with
    | none => (s,⟨c.request,.done⟩)
    | some id => (finished s id outcome storage,⟨c.request,.done⟩)
  | _, _ => (s,c)

/- randomUUID draws no identifier twice. -/
def Drawn (s : Shared) (_ : Call) : Turn → Prop
  | .reserve id _ _ => id ∉ s.drawn
  | _ => True

instance drawnDecidable (s : Shared) (c : Call) (input : Turn) : Decidable (Drawn s c input) := by
  cases input <;> unfold Drawn <;> infer_instance

def empty : Shared := ⟨[],[],[],[],[],[],[],[]⟩

end Requests

section Invariant
variable (service : Service)

def Own (s : Shared) (c : Claimed) : Prop :=
  ∃ g ∈ s.granted, g.request = c.request ∧ g.id = c.id ∧ service.normalizeAccountEmail c.email = some g.email ∧
    c.claimedAt < g.reservedAt + minutes 1

structure Whole (s : Shared) : Prop where
  alone : ∀ a ∈ s.rows, ∀ b ∈ s.rows, a.id = b.id → a = b
  rowsDrawn : ∀ r ∈ s.rows, r.id ∈ s.drawn
  grantsDrawn : ∀ g ∈ s.granted, g.id ∈ s.drawn
  grantedOnce : (s.granted.map (·.id)).Nodup
  grantedRow : ∀ g ∈ s.granted, ∀ r ∈ s.rows, r.id = g.id → r.reservedAt = g.reservedAt
  states : ∀ entry ∈ s.states, ∃ g ∈ s.granted, entry.2 = ⟨some g.id,some g.email⟩ ∧ g.request = entry.1
  own : ∀ c ∈ s.claimed, Own service s c
  claimedOnce : (s.claimed.map (·.id)).Nodup
  attempted : ∀ c ∈ s.claimed, ∀ r ∈ s.rows, r.id = c.id → r.attemptedAt.isSome = true
  recordsDrawn : ∀ e ∈ s.recorded, e.1 ∈ s.drawn
  recordedOnce : (s.recorded.map (·.1)).Nodup
  outcomes : ∀ r ∈ s.rows, ∀ o, r.outcome = some o ↔ (r.id,o) ∈ s.recorded
  finished : s.finished.Sublist s.recorded
  sent : ∀ c ∈ s.sent, c ∈ s.claimed
  sentOnce : s.sent.Nodup

def One (s : Shared) (c : Call) : Prop := match c.task with
  | .claimed claim => claim ∈ s.claimed ∧ claim ∉ s.sent
  | _ => True

def Apart (c d : Call) : Prop := match c.task, d.task with
  | .claimed left, .claimed right => left ≠ right
  | _, _ => True

theorem emptyWhole : Whole service empty where
  alone := by simp [empty]
  rowsDrawn := by simp [empty]
  grantsDrawn := by simp [empty]
  grantedOnce := List.nodup_nil
  grantedRow := by simp [empty]
  states := by simp [empty]
  own := by simp [empty]
  claimedOnce := List.nodup_nil
  attempted := by simp [empty]
  recordsDrawn := by simp [empty]
  recordedOnce := List.nodup_nil
  outcomes := by simp [empty]
  finished := List.Sublist.refl _
  sent := by simp [empty]
  sentOnce := List.nodup_nil

end Invariant

section Statements
variable {service : Service} {s : Shared}

theorem keptRow {clock : Time} {rows : List OtpSendReservation} {r : OtpSendReservation} (mem : r ∈ keptAt clock rows) :
    r ∈ rows := (memDeleteWhere.mp mem).1

theorem prunedWhole (whole : Whole service s) {rows : List OtpSendReservation} (fewer : ∀ r ∈ rows, r ∈ s.rows) :
    Whole service { s with rows := rows } where
  alone a ha b hb := whole.alone a (fewer a ha) b (fewer b hb)
  rowsDrawn r mem := whole.rowsDrawn r (fewer r mem)
  grantsDrawn := whole.grantsDrawn
  grantedOnce := whole.grantedOnce
  grantedRow g mem r row := whole.grantedRow g mem r (fewer r row)
  states := whole.states
  own := whole.own
  claimedOnce := whole.claimedOnce
  attempted c mem r row := whole.attempted c mem r (fewer r row)
  recordsDrawn := whole.recordsDrawn
  recordedOnce := whole.recordedOnce
  outcomes r row := whole.outcomes r (fewer r row)
  finished := whole.finished
  sent := whole.sent
  sentOnce := whole.sentOnce

theorem drawnWhole (whole : Whole service s) {row : OtpSendReservation} (fresh : row.id ∉ s.drawn)
    (idle : row.outcome = none) : Whole service { s with rows := s.rows ++ [row], drawn := row.id :: s.drawn } where
  alone a ha b hb same := by
    rcases List.mem_append.mp ha with oldA | newA
    · rcases List.mem_append.mp hb with oldB | newB
      · exact whole.alone a oldA b oldB same
      · rw [List.mem_singleton.mp newB] at same
        exact absurd (same ▸ whole.rowsDrawn a oldA) fresh
    · rcases List.mem_append.mp hb with oldB | newB
      · rw [List.mem_singleton.mp newA] at same
        exact absurd (same ▸ whole.rowsDrawn b oldB) fresh
      · rw [List.mem_singleton.mp newA,List.mem_singleton.mp newB]
  rowsDrawn r mem := by
    rcases List.mem_append.mp mem with old | new
    · exact List.mem_cons_of_mem _ (whole.rowsDrawn r old)
    · rw [List.mem_singleton.mp new]
      exact List.mem_cons_self
  grantsDrawn g mem := List.mem_cons_of_mem _ (whole.grantsDrawn g mem)
  grantedOnce := whole.grantedOnce
  grantedRow g mem r after same := by
    rcases List.mem_append.mp after with old | new
    · exact whole.grantedRow g mem r old same
    · rw [List.mem_singleton.mp new] at same
      exact absurd (same ▸ whole.grantsDrawn g mem) fresh
  states := whole.states
  own := whole.own
  claimedOnce := whole.claimedOnce
  attempted c mem r after same := by
    rcases List.mem_append.mp after with old | new
    · exact whole.attempted c mem r old same
    · rw [List.mem_singleton.mp new] at same
      obtain ⟨g,granted,-,named,-⟩ := whole.own c mem
      exact absurd (same ▸ named ▸ whole.grantsDrawn g granted) fresh
  recordsDrawn e mem := List.mem_cons_of_mem _ (whole.recordsDrawn e mem)
  recordedOnce := whole.recordedOnce
  outcomes r after o := by
    rcases List.mem_append.mp after with old | new
    · exact whole.outcomes r old o
    · rw [List.mem_singleton.mp new,idle]
      exact ⟨fun bad => (by cases bad),fun mem => absurd (whole.recordsDrawn _ mem) fresh⟩
  finished := whole.finished
  sent := whole.sent
  sentOnce := whole.sentOnce

theorem answeredWhole (whole : Whole service s) {g : Granted} (known : g.id ∈ s.drawn)
    (new : g.id ∉ s.granted.map (·.id)) (row : ∀ r ∈ s.rows, r.id = g.id → r.reservedAt = g.reservedAt) :
    Whole service { s with
      states := (g.request,⟨some g.id,some g.email⟩) :: s.states, granted := s.granted ++ [g] } where
  alone := whole.alone
  rowsDrawn := whole.rowsDrawn
  grantsDrawn o mem := by
    rcases List.mem_append.mp mem with old | last
    · exact whole.grantsDrawn o old
    · rw [List.mem_singleton.mp last]
      exact known
  grantedOnce := by
    rw [List.map_append]
    refine List.nodup_append.mpr ⟨whole.grantedOnce,List.nodup_singleton _,fun a old b last same => ?_⟩
    have same' : a = g.id := same.trans (List.mem_singleton.mp last)
    exact new (same' ▸ old)
  grantedRow o mem r hr same := by
    rcases List.mem_append.mp mem with old | last
    · exact whole.grantedRow o old r hr same
    · rw [List.mem_singleton.mp last] at same ⊢
      exact row r hr same
  states entry mem := by
    rcases List.mem_cons.mp mem with rfl | old
    · exact ⟨g,List.mem_append_right _ List.mem_cons_self,rfl,rfl⟩
    · obtain ⟨o,ho,facts⟩ := whole.states entry old
      exact ⟨o,List.mem_append_left _ ho,facts⟩
  own c mem := by
    obtain ⟨o,ho,facts⟩ := whole.own c mem
    exact ⟨o,List.mem_append_left _ ho,facts⟩
  claimedOnce := whole.claimedOnce
  attempted := whole.attempted
  recordsDrawn := whole.recordsDrawn
  recordedOnce := whole.recordedOnce
  outcomes := whole.outcomes
  finished := whole.finished
  sent := whole.sent
  sentOnce := whole.sentOnce

theorem reservedWhole (whole : Whole service s) {request : Nat} {email id : String} {clock : Time} {storage : Storage}
    (fresh : id ∉ s.drawn) : Whole service (reserved service s request email id clock storage) := by
  unfold reserved
  split
  · rename_i rows given ok
    obtain ⟨rfl,-,-,rfl⟩ := reserveAllowed ok
    have pruned : Whole service { s with rows := keptAt clock s.rows } := prunedWhole whole fun _ mem => keptRow mem
    have drawn := @drawnWhole service _ pruned
      ⟨given,recipientOf service.node service.key email,asDate clock,none,none⟩ fresh rfl
    refine @answeredWhole service _ drawn ⟨request,given,email,asDate clock⟩ List.mem_cons_self ?_ ?_
    · intro old
      obtain ⟨g,mem,same⟩ := List.mem_map.mp old
      have named : g.id = given := same
      exact fresh (named ▸ whole.grantsDrawn g mem)
    · intro r mem same
      have named : r.id = given := same
      rcases List.mem_append.mp mem with old | last
      · exact absurd (named ▸ whole.rowsDrawn r (keptRow old)) fresh
      · rw [List.mem_singleton.mp last]
  · rename_i rows given ok
    obtain ⟨rfl,-,-,rfl⟩ := reserveAllowed ok
    have pruned : Whole service { s with rows := keptAt clock s.rows } := prunedWhole whole fun _ mem => keptRow mem
    exact @drawnWhole service _ pruned
      ⟨given,recipientOf service.node service.key email,asDate clock,none,none⟩ fresh rfl
  · rename_i rows denial ok
    rw [reserveRefused ok]
    exact prunedWhole whole fun r mem => keptRow mem
  · rename_i rows denial ok
    rw [reserveRefused ok]
    exact prunedWhole whole fun r mem => keptRow mem
  · exact whole

theorem stateKnown {request : Nat} {state : RequestState} (found : stateOf s request = some state) :
    (request,state) ∈ s.states := by
  obtain ⟨before,after,same,-⟩ := List.lookup_eq_some_iff.mp found
  rw [same]
  exact List.mem_append_right _ List.mem_cons_self

theorem claimedRow {id : String} {clock written : Time} {rows : List OtpSendReservation} {r : OtpSendReservation}
    (mem : r ∈ (claim id clock written rows).1) : ∃ o ∈ rows, r.id = o.id ∧ r.reservedAt = o.reservedAt ∧
      r.outcome = o.outcome ∧ (o.attemptedAt.isSome = true → r.attemptedAt.isSome = true) ∧
      (claimable id clock o = true → r.attemptedAt.isSome = true) ∧
      r = if claimable id clock o then { o with attemptedAt := some (max written o.reservedAt) } else o := by
  obtain ⟨o,old,rfl⟩ := memUpdateWhere.mp mem
  refine ⟨o,old,?_⟩
  split
  · exact ⟨rfl,rfl,rfl,fun _ => rfl,fun _ => rfl,rfl⟩
  · rename_i idle
    exact ⟨rfl,rfl,rfl,fun tried => tried,fun bad => absurd bad idle,rfl⟩

theorem attemptedWhole (whole : Whole service s) (id : String) (clock written : Time) :
    Whole service { s with rows := (claim id clock written s.rows).1 } where
  alone a ha b hb same := by
    obtain ⟨o,ho,oid,-,-,-,-,rfl⟩ := claimedRow ha
    obtain ⟨q,hq,qid,-,-,-,-,rfl⟩ := claimedRow hb
    rw [whole.alone o ho q hq (oid.symm.trans (same.trans qid))]
  rowsDrawn r mem := by
    obtain ⟨o,old,named,-⟩ := claimedRow mem
    exact named ▸ whole.rowsDrawn o old
  grantsDrawn := whole.grantsDrawn
  grantedOnce := whole.grantedOnce
  grantedRow g mem r row same := by
    obtain ⟨o,old,named,at_,-⟩ := claimedRow row
    exact at_.trans (whole.grantedRow g mem o old (named.symm.trans same))
  states := whole.states
  own := whole.own
  claimedOnce := whole.claimedOnce
  attempted c mem r row same := by
    obtain ⟨o,old,named,-,-,kept,-⟩ := claimedRow row
    exact kept (whole.attempted c mem o old (named.symm.trans same))
  recordsDrawn := whole.recordsDrawn
  recordedOnce := whole.recordedOnce
  outcomes r row o := by
    obtain ⟨q,old,named,-,outcome,-⟩ := claimedRow row
    rw [named,outcome]
    exact whole.outcomes q old o
  finished := whole.finished
  sent := whole.sent
  sentOnce := whole.sentOnce

theorem wonRow {id : String} {clock written : Time} {rows : List OtpSendReservation}
    (won : (claim id clock written rows).2 = true) :
    ∃ r ∈ rows, r.id = id ∧ r.attemptedAt = none ∧ clock < r.reservedAt + minutes 1 ∧ claimable id clock r = true := by
  have one : rows.countP (claimable id clock) = 1 := beq_iff_eq.mp won
  obtain ⟨r,mem,open_⟩ := List.countP_pos_iff.mp (one ▸ Nat.one_pos)
  have facts := open_
  simp only [claimable,Bool.and_eq_true,beq_iff_eq,decide_eq_true_eq,Option.isNone_iff_eq_none] at facts
  obtain ⟨⟨⟨named,idle⟩,-⟩,young⟩ := facts
  refine ⟨r,mem,named,idle,?_,open_⟩
  unfold Time at *
  omega

theorem claimedNew (whole : Whole service s) {id : String} {clock written : Time}
    (won : (claim id clock written s.rows).2 = true) : id ∉ s.claimed.map (·.id) := by
  intro old
  obtain ⟨c,mem,named⟩ := List.mem_map.mp old
  obtain ⟨r,row,same,idle,-⟩ := wonRow won
  have tried := whole.attempted c mem r row (same.trans named.symm)
  rw [idle] at tried
  cases tried

theorem claimedWhole (whole : Whole service s) {request : Nat} {email normalized id : String} {clock written : Time}
    (state : stateOf s request = some ⟨some id,some normalized⟩)
    (address : service.normalizeAccountEmail email = some normalized) (won : (claim id clock written s.rows).2 = true) :
    Whole service { s with
      rows := (claim id clock written s.rows).1, claimed := s.claimed ++ [⟨request,id,email,clock⟩] } :=
  have after := attemptedWhole whole id clock written
  { alone := after.alone
    rowsDrawn := after.rowsDrawn
    grantsDrawn := after.grantsDrawn
    grantedOnce := after.grantedOnce
    grantedRow := after.grantedRow
    states := after.states
    own := by
      intro c mem
      rcases List.mem_append.mp mem with old | last
      · exact after.own c old
      · rw [List.mem_singleton.mp last]
        obtain ⟨g,granted,same,request⟩ := whole.states _ (stateKnown state)
        simp only [RequestState.mk.injEq,Option.some.injEq] at same
        obtain ⟨rfl,rfl⟩ := same
        obtain ⟨r,row,named,-,young,-⟩ := wonRow won
        exact ⟨g,granted,request,rfl,address,whole.grantedRow g granted r row named ▸ young⟩
    claimedOnce := by
      rw [List.map_append]
      refine List.nodup_append.mpr ⟨whole.claimedOnce,List.nodup_singleton _,fun a old b last same => ?_⟩
      have named : a = id := same.trans (List.mem_singleton.mp last)
      exact claimedNew whole won (named ▸ old)
    attempted := by
      intro c mem r row same
      rcases List.mem_append.mp mem with old | last
      · exact after.attempted c old r row same
      · rw [List.mem_singleton.mp last] at same
        obtain ⟨o,old,named,-,-,-,taken,-⟩ := claimedRow row
        obtain ⟨q,found,its,-,-,open_⟩ := wonRow won
        exact taken (whole.alone q found o old (its.trans (same.symm.trans named)) ▸ open_)
    recordsDrawn := after.recordsDrawn
    recordedOnce := after.recordedOnce
    outcomes := after.outcomes
    finished := after.finished
    sent := fun c mem => List.mem_append_left _ (after.sent c mem)
    sentOnce := after.sentOnce }

theorem finishedRow {id : String} {outcome : OtpDeliveryOutcome} {rows after : List OtpSendReservation}
    (ok : finish id outcome rows = .ok after) :
    after = updateWhere (finishable id) (fun r => { r with outcome := some outcome }) rows ∧
      ∃ r ∈ rows, r.id = id ∧ r.outcome = none ∧ finishable id r = true := by
  unfold finish at ok
  split at ok
  · rename_i one
    obtain ⟨r,mem,open_⟩ := List.countP_pos_iff.mp (one ▸ Nat.one_pos)
    have facts := open_
    simp only [finishable,Bool.and_eq_true,beq_iff_eq,Option.isNone_iff_eq_none] at facts
    exact ⟨(Except.ok.inj ok).symm,r,mem,facts.1.1,facts.2,open_⟩
  · cases ok

theorem finishedNew (whole : Whole service s) {id : String} {outcome : OtpDeliveryOutcome}
    {rows : List OtpSendReservation} (ok : finish id outcome s.rows = .ok rows) (o : OtpDeliveryOutcome) :
    (id,o) ∉ s.recorded := by
  intro old
  obtain ⟨-,r,row,rfl,idle,-⟩ := finishedRow ok
  have set := (whole.outcomes r row o).mpr old
  rw [idle] at set
  cases set

theorem finishedKept {id : String} {outcome : OtpDeliveryOutcome} {rows : List OtpSendReservation} :
    ∀ r ∈ updateWhere (finishable id) (fun r => { r with outcome := some outcome }) rows, ∃ o ∈ rows,
      r.id = o.id ∧ r.reservedAt = o.reservedAt ∧ r.attemptedAt = o.attemptedAt ∧
      r = if finishable id o then { o with outcome := some outcome } else o := by
  intro r mem
  obtain ⟨o,old,rfl⟩ := memUpdateWhere.mp mem
  refine ⟨o,old,?_⟩
  split
  · exact ⟨rfl,rfl,rfl,rfl⟩
  · exact ⟨rfl,rfl,rfl,rfl⟩

theorem finishedOutcomes (whole : Whole service s) {id : String} {outcome : OtpDeliveryOutcome}
    {rows : List OtpSendReservation} (ok : finish id outcome s.rows = .ok rows) :
    ∀ r ∈ rows, ∀ o, r.outcome = some o ↔ (r.id,o) ∈ s.recorded ++ [(id,outcome)] := by
  intro r after o
  obtain ⟨rfl,found,row,named,idle,open_⟩ := finishedRow ok
  obtain ⟨q,old,-,-,-,rfl⟩ := finishedKept r after
  split
  · rename_i chosen
    simp only [finishable,Bool.and_eq_true,beq_iff_eq] at chosen
    rw [chosen.1.1,List.mem_append,List.mem_singleton]
    constructor
    · rintro same
      exact .inr (by rw [Option.some.inj same])
    · rintro (mem | same)
      · exact absurd mem (finishedNew whole ok o)
      · rw [(Prod.mk.inj same).2]
  · rename_i other
    rw [whole.outcomes q old o,List.mem_append,List.mem_singleton]
    refine ⟨.inl,fun either => either.elim (fun mem => mem) fun same => ?_⟩
    have its : found = q := whole.alone found row q old (named.trans (Prod.mk.inj same).1.symm)
    exact absurd (its ▸ open_) other

theorem finishedWhole (whole : Whole service s) {id : String} {outcome : OtpDeliveryOutcome}
    {rows : List OtpSendReservation} (ok : finish id outcome s.rows = .ok rows)
    {log : List (String × OtpDeliveryOutcome)} (sub : log.Sublist (s.recorded ++ [(id,outcome)])) :
    Whole service { s with rows := rows, recorded := s.recorded ++ [(id,outcome)], finished := log } := by
  have outcomes := finishedOutcomes whole ok
  obtain ⟨rfl,found,row,named,-,-⟩ := finishedRow ok
  exact
  { alone := by
      intro a ha b hb same
      obtain ⟨o,ho,oid,-,-,rfl⟩ := finishedKept a ha
      obtain ⟨q,hq,qid,-,-,rfl⟩ := finishedKept b hb
      rw [whole.alone o ho q hq (oid.symm.trans (same.trans qid))]
    rowsDrawn := by
      intro r mem
      obtain ⟨o,old,same,-⟩ := finishedKept r mem
      exact same ▸ whole.rowsDrawn o old
    grantsDrawn := whole.grantsDrawn
    grantedOnce := whole.grantedOnce
    grantedRow := by
      intro g mem r after same
      obtain ⟨o,old,its,at_,-⟩ := finishedKept r after
      exact at_.trans (whole.grantedRow g mem o old (its.symm.trans same))
    states := whole.states
    own := whole.own
    claimedOnce := whole.claimedOnce
    attempted := by
      intro c mem r after same
      obtain ⟨o,old,its,-,tried,-⟩ := finishedKept r after
      exact tried ▸ whole.attempted c mem o old (its.symm.trans same)
    recordsDrawn := by
      intro e mem
      rcases List.mem_append.mp mem with old | last
      · exact whole.recordsDrawn e old
      · rw [List.mem_singleton.mp last]
        exact named ▸ whole.rowsDrawn found row
    recordedOnce := by
      rw [List.map_append]
      refine List.nodup_append.mpr ⟨whole.recordedOnce,List.nodup_singleton _,fun a old b last same => ?_⟩
      obtain ⟨⟨key,o⟩,mem,its⟩ := List.mem_map.mp old
      have here : key = id := its.trans (same.trans (List.mem_singleton.mp last))
      exact finishedNew whole ok o (here ▸ mem)
    outcomes := outcomes
    finished := sub
    sent := whole.sent
    sentOnce := whole.sentOnce }

theorem sentWhole (whole : Whole service s) {c : Claimed} (claimed : c ∈ s.claimed) (new : c ∉ s.sent) :
    Whole service { s with sent := s.sent ++ [c] } :=
  { whole with
    sent := by
      intro d mem
      rcases List.mem_append.mp mem with old | last
      · exact whole.sent d old
      · exact List.mem_singleton.mp last ▸ claimed
    sentOnce := by
      refine List.nodup_append.mpr ⟨whole.sentOnce,List.nodup_singleton _,fun a old b last same => ?_⟩
      exact new (List.mem_singleton.mp last ▸ same ▸ old) }

end Statements

section Turns
variable {service : Service} {s : Shared}

theorem wonClaim {type email id : String} {deliveryId : Option String} {request : Nat} {clock written : Time}
    {rows : List OtpSendReservation} (whole : Whole service s)
    (ok : sendVerificationOTP service.normalizeAccountEmail type deliveryId (stateOf s request) email clock written
      s.rows = .ok (rows,id)) :
    rows = (claim id clock written s.rows).1 ∧ (claim id clock written s.rows).2 = true ∧
      ∃ normalized, stateOf s request = some ⟨some id,some normalized⟩ ∧
        service.normalizeAccountEmail email = some normalized := by
  have won := sentClaims ok
  simp only [sendVerificationOTP,bindOk,ensureOk,orFailOk] at ok
  obtain ⟨_,_,_,_,reservation,its,normalized,address,_,agrees,_,_,last⟩ := ok
  cases last
  refine ⟨rfl,congrArg Prod.snd won,normalized,?_,address⟩
  obtain ⟨state,found,reserved⟩ := Option.bind_eq_some_iff.mp its
  obtain ⟨g,-,same,-⟩ := whole.states _ (stateKnown found)
  rw [found] at agrees ⊢
  simp only at same
  subst same
  simp only [Option.bind_some,beq_iff_eq] at agrees reserved
  rw [← reserved,← agrees]

variable {c : Call} {input : Turn}

theorem reservedLogs (request : Nat) (email id : String) (clock : Time) (storage : Storage) :
    (reserved service s request email id clock storage).claimed = s.claimed ∧
      (reserved service s request email id clock storage).sent = s.sent := by
  unfold reserved
  split <;> exact ⟨rfl,rfl⟩

theorem finishedLogs (id : String) (outcome : OtpDeliveryOutcome) (storage : Storage) :
    (finished s id outcome storage).claimed = s.claimed ∧ (finished s id outcome storage).sent = s.sent := by
  unfold finished
  split <;> exact ⟨rfl,rfl⟩

theorem finishedKeeps (whole : Whole service s) (id : String) (outcome : OtpDeliveryOutcome) (storage : Storage) :
    Whole service (finished s id outcome storage) := by
  unfold finished
  split
  · rename_i ok
    exact finishedWhole whole ok (whole.finished.append_right _)
  · rename_i ok
    exact finishedWhole whole ok (whole.finished.trans (List.sublist_append_left _ _))
  · exact whole

structure Moved (service : Service) (s s' : Shared) (c c' : Call) : Prop where
  whole : Whole service s'
  claimed : s.claimed.Sublist s'.claimed
  sent : ∀ d ∈ s'.sent, d ∈ s.sent ∨ c.task = .claimed d
  next : ∀ d, c'.task = .claimed d → d ∈ s'.claimed ∧ (c' = c ∨ d ∉ s.claimed) ∧ d ∉ s'.sent

theorem turnMoved (whole : Whole service s) (one : One s c) (good : Drawn s c input) :
    Moved service s (turn service s c input).1 c (turn service s c input).2 := by
  obtain ⟨request,task⟩ := c
  have stay : Moved service s s ⟨request,task⟩ ⟨request,task⟩ := ⟨whole,List.Sublist.refl _,fun _ mem => .inl mem,
    fun d same => by
      simp only at same
      subst same
      exact ⟨one.1,.inl rfl,one.2⟩⟩
  have done : ∀ task', Moved service s s ⟨request,task'⟩ ⟨request,.done⟩ := fun _ =>
    ⟨whole,List.Sublist.refl _,fun _ mem => .inl mem,nofun⟩
  unfold turn
  split
  · split
    · exact done _
    · obtain ⟨claims,sends⟩ := @reservedLogs service s request _ _ _ _
      exact ⟨reservedWhole whole good,claims ▸ List.Sublist.refl _,fun d mem => .inl (sends ▸ mem),nofun⟩
  · split
    · rename_i ok
      obtain ⟨rfl,won,normalized,state,address⟩ := wonClaim whole ok
      have after := claimedWhole whole state address won
      have new := claimedNew whole won
      have unsent : ∀ d : Claimed, d ∈ s.claimed → d.id ∈ s.claimed.map (·.id) := fun d mem => List.mem_map_of_mem mem
      refine ⟨after,List.sublist_append_left _ _,fun d mem => .inl mem,fun d same => ?_⟩
      obtain rfl := Task.claimed.inj same
      exact ⟨List.mem_append_right _ List.mem_cons_self,.inr fun old => new (unsent _ old),
        fun old => new (unsent _ (whole.sent _ old))⟩
    · rename_i ok
      obtain ⟨rfl,-⟩ := wonClaim whole ok
      exact ⟨attemptedWhole whole _ _ _,List.Sublist.refl _,fun _ mem => .inl mem,nofun⟩
    · exact done _
  · rename_i claim outcome same
    simp only at same
    subst same
    refine ⟨sentWhole whole one.1 one.2,List.Sublist.refl _,fun d mem => ?_,nofun⟩
    rcases List.mem_append.mp mem with old | last
    · exact .inl old
    · exact .inr (List.mem_singleton.mp last ▸ rfl)
  · split
    · exact done _
    · obtain ⟨claims,sends⟩ := finishedLogs (s := s) _ _ _
      exact ⟨finishedKeeps whole _ _ _,claims ▸ List.Sublist.refl _,fun d mem => .inl (sends ▸ mem),nofun⟩
  · exact stay

theorem deliveryDiscipline (service : Service) :
    Discipline opening (turn service) (Whole service) One Apart Drawn where
  symmetric c d apart := by
    obtain ⟨_,left⟩ := c
    obtain ⟨_,right⟩ := d
    cases left <;> cases right <;> first | trivial | exact Ne.symm apart
  opens s request _ := by
    cases request <;> exact ⟨trivial,fun d _ => trivial⟩
  keeps s c input whole one good := by
    have moved := turnMoved whole one good
    refine ⟨moved.whole,?_⟩
    unfold One
    split
    · rename_i d task
      obtain ⟨claimed,-,unsent⟩ := moved.next d task
      exact ⟨claimed,unsent⟩
    · trivial
  frames s c input d whole one good other apart := by
    have moved := turnMoved whole one good
    obtain ⟨_,task⟩ := d
    cases task with
    | claimed claim =>
      refine ⟨⟨moved.claimed.subset other.1,fun mem => ?_⟩,?_⟩
      · rcases moved.sent claim mem with old | mine
        · exact other.2 old
        · simp only [Apart,mine] at apart
          exact apart rfl
      · unfold Apart
        split
        · rename_i left right task same
          cases same
          rcases (moved.next left task).2.1 with stays | new
          · rw [stays] at task
            simp only [Apart,task] at apart
            exact apart
          · exact fun same => new (same ▸ other.1)
        · trivial
    | _ =>
      refine ⟨trivial,?_⟩
      unfold Apart
      split
      · rename_i same
        cases same
      · trivial

end Turns

section Runs
variable {service : Service}

abbrev Drawing (service : Service) : World Shared Call → List (Move Opening Turn) → Prop :=
  Guarded (step opening (turn service)) (Allowed Drawn)

/- What the budget promises about the requests, whatever storage has failed. -/
structure Delivered (service : Service) (s : Shared) : Prop where
  claimedOnce : (s.claimed.map (·.id)).Nodup
  finishedOnce : (s.finished.map (·.1)).Nodup
  own : ∀ c ∈ s.sent, c ∈ s.claimed ∧ Own service s c
  affordable : s.sent.length ≤ s.granted.length

theorem wholeDelivered {s : Shared} (whole : Whole service s) : Delivered service s where
  claimedOnce := whole.claimedOnce
  finishedOnce := whole.recordedOnce.sublist (whole.finished.map _)
  own c mem := ⟨whole.sent c mem,whole.own c (whole.sent c mem)⟩
  affordable := by
    have once : (s.sent.map (·.id)).Nodup :=
      (List.inj_on_of_nodup_map whole.claimedOnce |> fun inj => List.Nodup.map_on
        (fun a ha b hb => inj (whole.sent a ha) (whole.sent b hb)) whole.sentOnce)
    have granted : s.sent.map (·.id) ⊆ s.granted.map (·.id) := by
      intro id mem
      obtain ⟨c,sent,rfl⟩ := List.mem_map.mp mem
      obtain ⟨g,granted,-,named,-⟩ := whole.own c (whole.sent c sent)
      exact List.mem_map.mpr ⟨g,granted,named⟩
    have := (once.subperm granted).length_le
    rwa [List.length_map,List.length_map] at this

theorem turnRecorded (s : Shared) (c : Call) (input : Turn) :
    s.recorded.Sublist (turn service s c input).1.recorded := by
  unfold turn reserved finished
  repeat' split
  all_goals first | exact List.Sublist.refl _ | exact List.sublist_append_left _ _

theorem stepRecorded {e : String × OtpDeliveryOutcome} (w : World Shared Call) (m : Move Opening Turn)
    (mem : e ∈ w.shared.recorded) : e ∈ (step opening (turn service) w m).shared.recorded := by
  cases m with
  | start request => exact mem
  | turn i input =>
    simp only [step]
    split
    · exact mem
    · rename_i c _
      exact (turnRecorded w.shared c input).subset mem

theorem startSafe : Safe (Whole service) One Apart ⟨empty,[]⟩ where
  whole := emptyWhole service
  each i c at_ := by cases at_
  apart i j c d _ at_ := by cases at_

theorem deliveriesOnce (service : Service) (ms later : List (Move Opening Turn))
    (drawing : Drawing service ⟨empty,[]⟩ (ms ++ later)) :
    Delivered service (run (step opening (turn service)) ⟨empty,[]⟩ ms).shared ∧
      ∀ r ∈ (run (step opening (turn service)) ⟨empty,[]⟩ ms).shared.rows, ∀ o, r.outcome = some o →
        ∀ after ∈ (run (step opening (turn service)) ⟨empty,[]⟩ (ms ++ later)).shared.rows, after.id = r.id →
          after.outcome = some o := by
  have first := (guardedAppend _ _ _ _ _).mp drawing
  have before := (runSafe (deliveryDiscipline service) startSafe first.1).whole
  have afterwards := (runSafe (deliveryDiscipline service) startSafe drawing).whole
  refine ⟨wholeDelivered before,fun r row o set after kept same => ?_⟩
  have recorded := (before.outcomes r row o).mp set
  rw [afterwards.outcomes after kept o,same,runAppend]
  exact invariantRun (fun w m mem _ => stepRecorded w m mem) recorded first.2

/- One request whose callback comes twice; the claim of the first is answered, its finish fails
once it has committed, and another address is granted between them. -/
def otherRecipient : Digest :=
  [97,245,202,41,219,215,231,20,150,23,173,168,216,148,71,30,227,
    161,181,137,49,63,50,16,66,21,79,154,157,18,171,10]

def sampleService : Service where
  node := tabled [] [((sampleQuotaKey,"wepuu:otp-send:v1\x00user@example.test"),sampleRecipient),
    ((sampleQuotaKey,"wepuu:otp-send:v1\x00other@example.test"),otherRecipient)] []
  key := sampleQuotaKey
  limits := ⟨3,6,100⟩
  publicOrigin := "https://wepuu.example"
  reader := false
  protectionEnabled := true
  normalizeAccountEmail email := some (String.ofList (email.toList.map Char.toLower))

def sampleDelivery : String := "delivery-0123456789"

def sampleSend (email : String) : SendRequest :=
  ⟨some "https://wepuu.example",some sampleDelivery,[("email",.str email),("type",.str "sign-in")]⟩

def doubledCallback : List (Move Opening Turn) :=
  [.start (.hook 0 (sampleSend "User@example.test")),
    .turn 0 (.reserve "00000000-0000-4000-8000-000000000001" (seconds 1) .answered),
    .start (.callback 0 "sign-in" (some sampleDelivery) "user@example.test"),
    .start (.callback 0 "sign-in" (some sampleDelivery) "user@example.test"),
    .turn 1 (.claim (seconds 2) (seconds 2) .answered),
    .start (.hook 1 (sampleSend "other@example.test")),
    .turn 3 (.reserve "00000000-0000-4000-8000-000000000002" (seconds 3) .answered),
    .turn 2 (.claim (seconds 3) (seconds 3) .answered),
    .turn 1 (.send .accepted),
    .turn 1 (.finish .unanswered)]

theorem doubledOnce : Delivered sampleService
      (run (step opening (turn sampleService)) ⟨empty,[]⟩ (doubledCallback.take 9)).shared ∧
    (run (step opening (turn sampleService)) ⟨empty,[]⟩ doubledCallback).shared.sent.map (·.id) =
      ["00000000-0000-4000-8000-000000000001"] ∧
    (run (step opening (turn sampleService)) ⟨empty,[]⟩ doubledCallback).shared.rows.map (·.outcome) =
      [some .accepted,none] :=
  ⟨(deliveriesOnce sampleService (doubledCallback.take 9) (doubledCallback.drop 9) (by decide)).1,
    by decide,by decide⟩

end Runs
end Wepuu.OtpDeliveries
