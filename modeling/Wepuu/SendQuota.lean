import Wepuu.NodeApi
import Wepuu.RollingWindow
import Wepuu.Runs
import Mathlib.Algebra.Order.Group.Int
import Mathlib.Data.List.Sort

/-! The budget of one-time codes in packages/account-auth: PostgresOtpSendQuota over the table
auth.otp_send_reservations, and the provider's call behind it. A transaction that fails leaves
the table as it is and is no event. -/
namespace Wepuu.SendQuota
open NodeApi Relational RollingWindow Runs Schema

section Source

inductive OtpDeliveryOutcome where | accepted | rejected | unknown deriving DecidableEq, Repr
inductive OtpQuotaDimension where | recipientHour | recipientDay | globalDay deriving DecidableEq, Repr

structure OtpSendLimits where
  recipientHourlyMax : Int
  recipientDailyMax : Int
  globalDailyMax : Int
  deriving DecidableEq, Repr

def limitWithin (value max : Int) : Bool := decide (1 ≤ value) && decide (value ≤ max)

def validateOtpSendLimits (limits : OtpSendLimits) : Except Fault OtpSendLimits := do
  ensure (limitWithin limits.recipientHourlyMax 20) (.thrown "otp_send_limits_invalid")
  ensure (limitWithin limits.recipientDailyMax 100) (.thrown "otp_send_limits_invalid")
  ensure (limitWithin limits.globalDailyMax 10000) (.thrown "otp_send_limits_invalid")
  ensure (decide (limits.recipientHourlyMax ≤ limits.recipientDailyMax)) (.thrown "otp_send_limits_invalid")
  .ok limits

/- The limits that the constructor lets pass. -/
abbrev ValidLimits := { limits : OtpSendLimits // validateOtpSendLimits limits = .ok limits }

/- A row; the outcome 'reserved' is none. -/
structure OtpSendReservation where
  id : String
  recipientHmac : Digest
  reservedAt : Time
  attemptedAt : Option Time
  outcome : Option OtpDeliveryOutcome
  deriving DecidableEq, Repr

def OtpSendReservation.check (r : OtpSendReservation) : Bool :=
  r.recipientHmac.length == 32 && r.attemptedAt.all (fun at_ => decide (r.reservedAt ≤ at_)) &&
  (r.outcome.isNone || r.attemptedAt.isSome)

def sameId (a b : OtpSendReservation) : Bool := a.id == b.id

def ceilSeconds (t : Time) : Int := -(-t / seconds 1)

structure Denial where
  dimension : OtpQuotaDimension
  retryAfterSeconds : Int
  deriving DecidableEq, Repr

inductive OtpQuotaReservation where
  | allowed (id : String)
  | refused (denial : Denial)
  deriving DecidableEq, Repr

def ruleDenial (now : Time) (dimension : OtpQuotaDimension) (events : List OtpSendReservation) (max : Int) (window : Time)
    (denied : Option Denial) : Except Fault (Option Denial) :=
  if (events.length : Int) < max then .ok denied
  else match events[events.length - max.toNat]? with
    | none => .error (.thrown "otp_send_window_invalid")
    | some release =>
      let retryAfterSeconds := Max.max 1 (ceilSeconds (asDate release.reservedAt + window - now))
      if denied.all fun earlier => decide (earlier.retryAfterSeconds < retryAfterSeconds) then
        .ok (some ⟨dimension,retryAfterSeconds⟩)
      else .ok denied

def recipientOf (node : Node) (key : Key) (normalizedEmail : String) : Digest :=
  node.hmacSha256 key ("wepuu:otp-send:v1\x00" ++ normalizedEmail)

def reserveBody (limits : OtpSendLimits) (recipient : Digest) (id : String) (clock : Time)
    (rows : List OtpSendReservation) : Except Fault (List OtpSendReservation × OtpQuotaReservation) := do
  let now := asDate clock
  let kept := deleteWhere (fun r => decide (r.reservedAt ≤ now - hours 48)) rows
  let global := (kept.filter fun r => decide (now - hours 24 < r.reservedAt)).insertionSort
    fun a b => a.reservedAt ≤ b.reservedAt
  let day := global.filter (·.recipientHmac == recipient)
  let hour := day.filter fun r => decide (now - hours 1 < asDate r.reservedAt)
  let first ← ruleDenial now .recipientHour hour limits.recipientHourlyMax (hours 1) none
  let second ← ruleDenial now .recipientDay day limits.recipientDailyMax (hours 24) first
  let denied ← ruleDenial now .globalDay global limits.globalDailyMax (hours 24) second
  match denied with
  | some denial => .ok (kept,.refused denial)
  | none => do
    let row : OtpSendReservation := ⟨id,recipient,now,none,none⟩
    ensure row.check .checkViolation
    let after ← orFail .uniqueViolation (insertRow sameId row kept)
    .ok (after,.allowed id)

def reserve (limits : OtpSendLimits) (recipient : Digest) (id : String) (clock : Time)
    (rows : List OtpSendReservation) : Except Fault (List OtpSendReservation × OtpQuotaReservation) :=
  match reserveBody limits recipient id clock rows with
  | .ok done => .ok done
  | .error _ => .error (.thrown "otp_send_storage_unavailable")

def claimable (id : String) (clock : Time) (r : OtpSendReservation) : Bool :=
  r.id == id && r.attemptedAt.isNone && r.outcome.isNone && decide (clock - minutes 1 < r.reservedAt)

/- written is the later reading of the clock, which SET takes. -/
def claim (id : String) (clock written : Time) (rows : List OtpSendReservation) : List OtpSendReservation × Bool :=
  (updateWhere (claimable id clock) (fun r => { r with attemptedAt := some (max written r.reservedAt) }) rows,
    rows.countP (claimable id clock) == 1)

def finishable (id : String) (r : OtpSendReservation) : Bool := r.id == id && r.attemptedAt.isSome && r.outcome.isNone

def finish (id : String) (outcome : OtpDeliveryOutcome) (rows : List OtpSendReservation) :
    Except Fault (List OtpSendReservation) :=
  if rows.countP (finishable id) = 1 then
    .ok (updateWhere (finishable id) (fun r => { r with outcome := some outcome }) rows)
  else .error (.thrown "otp_send_outcome_not_saved")

def remaining (limits : OtpSendLimits) (clock : Time) (rows : List OtpSendReservation) : Int :=
  max 0 (limits.globalDailyMax - (rows.filter fun r => decide (clock - hours 24 < r.reservedAt)).length)

structure RequestState where
  reservation : Option String
  email : Option String
  deriving DecidableEq, Repr

/- sendVerificationOTP with a quota, up to the call of the provider, which it makes with the
reservation as the idempotency key. -/
def sendVerificationOTP (normalizeAccountEmail : String → Option String) (type : String) (deliveryId : Option String)
    (state : Option RequestState) (email : String) (clock written : Time) (rows : List OtpSendReservation) :
    Except Fault (List OtpSendReservation × String) := do
  ensure (type == "sign-in") (.thrown "otp_delivery_type_invalid")
  ensure (deliveryId.any (matchesClass opaqueChar 16 128)) (.thrown "otp_delivery_context_missing")
  let reservation ← orFail (.thrown "otp_send_reservation_missing") (state.bind (·.reservation))
  let normalized ← orFail (.thrown "ZodError") (normalizeAccountEmail email)
  ensure (state.bind (·.email) == some normalized) (.thrown "otp_send_reservation_missing")
  ensure (claim reservation clock written rows).2 (.thrown "otp_send_unavailable")
  .ok ((claim reservation clock written rows).1,reservation)

end Source

section Histories

structure Entry where
  id : String
  recipientHmac : Digest
  reservedAt : Time
  deriving DecidableEq, Repr

def entryOf (r : OtpSendReservation) : Entry := ⟨r.id,r.recipientHmac,r.reservedAt⟩

structure Claim where
  entry : Entry
  claimedAt : Time
  deriving DecidableEq, Repr

structure Ledger where
  rows : List OtpSendReservation
  clock : Time
  granted : List Entry
  claims : List Claim
  deriving DecidableEq, Repr

def Ledger.empty (clock : Time) : Ledger := ⟨[],clock,[],[]⟩

inductive Event where
  | reserve (key : Key) (normalizedEmail id : String) (clock : Time)
  | claim (id : String) (clock written : Time)
  | finish (id : String) (outcome : OtpDeliveryOutcome)
  deriving DecidableEq, Repr

section Steps
variable (node : Node) (limits : OtpSendLimits)

def step (s : Ledger) : Event → Ledger
  | .reserve key normalizedEmail id clock =>
    match reserve limits (recipientOf node key normalizedEmail) id clock s.rows with
    | .ok (rows,.allowed id) =>
      ⟨rows,clock,s.granted ++ [⟨id,recipientOf node key normalizedEmail,asDate clock⟩],s.claims⟩
    | .ok (rows,.refused _) => ⟨rows,clock,s.granted,s.claims⟩
    | .error _ => { s with clock := clock }
  | .claim id clock written =>
    let (rows,claimed) := claim id clock written s.rows
    let taken := if claimed then (s.rows.filter (claimable id clock)).map fun r => ⟨entryOf r,clock⟩ else []
    ⟨rows,clock,s.granted,s.claims ++ taken⟩
  | .finish id outcome => match finish id outcome s.rows with
    | .ok rows => { s with rows := rows }
    | .error _ => s

def Clocked (s : Ledger) : Event → Prop
  | .reserve _ _ _ clock => s.clock ≤ clock
  | .claim _ clock _ => s.clock ≤ clock
  | .finish _ _ => True

instance clockedDecidable (s : Ledger) (e : Event) : Decidable (Clocked s e) := by
  cases e <;> unfold Clocked <;> infer_instance

end Steps
end Histories
section Admission
variable {limits : OtpSendLimits} {recipient : Digest} {id given : String} {clock : Time}
variable {rows after : List OtpSendReservation}

theorem ruleAdmits {now : Time} {dimension : OtpQuotaDimension} {events : List OtpSendReservation} {max : Int}
    {window : Time} {denied : Option Denial} (ok : ruleDenial now dimension events max window denied = .ok none) :
    (events.length : Int) < max ∧ denied = none := by
  unfold ruleDenial at ok
  split at ok
  · cases ok
    exact ⟨by assumption,rfl⟩
  · split at ok
    · cases ok
    · dsimp only at ok
      split at ok
      · cases ok
      · rename_i later
        cases ok
        exact absurd rfl later

def keptAt (clock : Time) (rows : List OtpSendReservation) : List OtpSendReservation :=
  deleteWhere (fun r => decide (r.reservedAt ≤ asDate clock - hours 48)) rows

theorem reserveRefused {denial : Denial} (ok : reserve limits recipient id clock rows = .ok (after,.refused denial)) :
    after = keptAt clock rows := by
  unfold reserve at ok
  split at ok
  · rename_i done body
    cases ok
    simp only [reserveBody,bindOk] at body
    obtain ⟨_,_,_,_,denied,_,last⟩ := body
    split at last
    · cases last
      rfl
    · simp only [bindOk] at last
      obtain ⟨_,_,_,_,wrong⟩ := last
      cases wrong
  · cases ok

structure Admitted (limits : OtpSendLimits) (recipient : Digest) (clock : Time) (kept : List OtpSendReservation) : Prop where
  hour : ((kept.filter fun r => decide (asDate clock - hours 1 < asDate r.reservedAt) && (r.recipientHmac == recipient &&
    decide (asDate clock - hours 24 < r.reservedAt))).length : Int) < limits.recipientHourlyMax
  day : ((kept.filter fun r => r.recipientHmac == recipient &&
    decide (asDate clock - hours 24 < r.reservedAt)).length : Int) < limits.recipientDailyMax
  global : ((kept.filter fun r => decide (asDate clock - hours 24 < r.reservedAt)).length : Int) < limits.globalDailyMax

theorem reserveAllowed (ok : reserve limits recipient id clock rows = .ok (after,.allowed given)) :
    given = id ∧ Admitted limits recipient clock (keptAt clock rows) ∧
    (∀ r ∈ keptAt clock rows, sameId ⟨id,recipient,asDate clock,none,none⟩ r = false) ∧
    after = keptAt clock rows ++ [⟨id,recipient,asDate clock,none,none⟩] := by
  unfold reserve at ok
  split at ok
  · rename_i done body
    cases ok
    simp only [reserveBody,bindOk] at body
    obtain ⟨first,hourly,second,daily,denied,total,last⟩ := body
    split at last
    · cases last
    · simp only [bindOk,orFailOk] at last
      obtain ⟨_,_,inserted,free,same⟩ := last
      cases same
      obtain ⟨globalBelow,rfl⟩ := ruleAdmits total
      obtain ⟨dayBelow,rfl⟩ := ruleAdmits daily
      obtain ⟨hourBelow,_⟩ := ruleAdmits hourly
      obtain ⟨alone,rfl⟩ := insertRowExact.mp free
      have sorted : ∀ (p : OtpSendReservation → Bool) (l : List OtpSendReservation),
          ((l.insertionSort fun a b => a.reservedAt ≤ b.reservedAt).filter p).length = (l.filter p).length := fun p l =>
        (List.Perm.filter p (List.perm_insertionSort _ l)).length_eq
      rw [List.length_insertionSort] at globalBelow
      rw [sorted,List.filter_filter] at dayBelow
      rw [List.filter_filter,sorted,List.filter_filter] at hourBelow
      simp only [Bool.and_assoc] at hourBelow
      exact ⟨rfl,⟨hourBelow,dayBelow,globalBelow⟩,alone,rfl⟩
  · cases ok

end Admission

section Soundness
variable {node : Node} {limits : OtpSendLimits} {s : Ledger} {clock : Time}

def ofRecipient (recipient : Digest) (log : List Entry) : List Entry := log.filter (·.recipientHmac == recipient)

structure Sound (limits : OtpSendLimits) (s : Ledger) : Prop where
  pkey : Indexed sameId s.rows
  charged : since Entry.reservedAt (s.clock - hours 48) (s.rows.map entryOf) =
    since Entry.reservedAt (s.clock - hours 48) s.granted
  known : ∀ r ∈ s.rows, entryOf r ∈ s.granted
  past : ∀ g ∈ s.granted, g.reservedAt ≤ s.clock ∧ asDate g.reservedAt = g.reservedAt
  distinct : s.granted.Nodup
  hourly : ∀ recipient, Paced Entry.reservedAt (hours 1) limits.recipientHourlyMax.toNat (ofRecipient recipient s.granted)
  daily : ∀ recipient, Paced Entry.reservedAt (hours 24) limits.recipientDailyMax.toNat (ofRecipient recipient s.granted)
  global : Paced Entry.reservedAt (hours 24) limits.globalDailyMax.toNat s.granted
  claimed : ∀ c ∈ s.claims, c.entry ∈ s.granted ∧ c.entry.reservedAt ≤ c.claimedAt ∧
    c.claimedAt < c.entry.reservedAt + minutes 1
  once : (s.claims.map (·.entry)).Nodup
  unclaimed : ∀ r ∈ s.rows, r.attemptedAt = none → entryOf r ∉ s.claims.map (·.entry)

theorem emptySound (limits : OtpSendLimits) (clock : Time) : Sound limits (.empty clock) where
  pkey := indexedNil _
  charged := rfl
  known _ mem := absurd mem List.not_mem_nil
  past _ mem := absurd mem List.not_mem_nil
  distinct := List.nodup_nil
  hourly _ := .nil
  daily _ := .nil
  global := .nil
  claimed _ mem := absurd mem List.not_mem_nil
  once := List.nodup_nil
  unclaimed _ mem := absurd mem List.not_mem_nil

theorem keptEntries (clock : Time) (rows : List OtpSendReservation) :
    (keptAt clock rows).map entryOf = since Entry.reservedAt (asDate clock - hours 48) (rows.map entryOf) := by
  unfold keptAt deleteWhere since
  rw [List.filter_map]
  congr 1
  refine List.filter_congr fun r _ => ?_
  show (!decide (r.reservedAt ≤ asDate clock - hours 48)) = decide (asDate clock - hours 48 < r.reservedAt)
  rw [← decide_not]
  exact decide_eq_decide.mpr Int.not_le

/- Whatever the table has dropped, it charges what has been granted. -/
theorem chargedLater (sound : Sound limits s) {cut : Time} (later : s.clock - hours 48 ≤ cut) :
    since Entry.reservedAt cut (s.rows.map entryOf) = since Entry.reservedAt cut s.granted := by
  rw [← sinceSince later,sound.charged,sinceSince later]

theorem prunedSound (sound : Sound limits s) (order : s.clock ≤ clock) :
    Sound limits ⟨keptAt clock s.rows,clock,s.granted,s.claims⟩ where
  pkey := indexedDelete sound.pkey
  charged := by
    have before : asDate clock - hours 48 ≤ clock - hours 48 := by
      have := asDateLe clock
      unfold Time at *
      omega
    have after : s.clock - hours 48 ≤ clock - hours 48 := by
      unfold Time at *
      omega
    rw [keptEntries,sinceSince before]
    exact chargedLater sound after
  known r mem := sound.known r (memDeleteWhere.mp mem).1
  past g mem := ⟨Int.le_trans (sound.past g mem).1 order,(sound.past g mem).2⟩
  distinct := sound.distinct
  hourly := sound.hourly
  daily := sound.daily
  global := sound.global
  claimed := sound.claimed
  once := sound.once
  unclaimed r mem := sound.unclaimed r (memDeleteWhere.mp mem).1

theorem chargedCount (sound : Sound limits s) {cut : Time} (later : s.clock - hours 48 ≤ cut) (p : Entry → Bool) :
    (since Entry.reservedAt cut (s.granted.filter p)).length =
      (s.rows.filter fun r => p (entryOf r) && decide (cut < r.reservedAt)).length := by
  have swapped : since Entry.reservedAt cut (s.granted.filter p) = (since Entry.reservedAt cut s.granted).filter p := by
    simp only [since,List.filter_filter,Bool.and_comm]
  rw [swapped,← chargedLater sound later,since,List.filter_filter,List.filter_map,List.length_map]
  rfl

theorem ofRecipientAppend (recipient : Digest) (log : List Entry) (e : Entry) : ofRecipient recipient (log ++ [e]) =
    ofRecipient recipient log ++ (if e.recipientHmac == recipient then [e] else []) := by
  unfold ofRecipient
  rw [List.filter_append]
  by_cases own : (e.recipientHmac == recipient) = true
  · simp [own]
  · simp [own]

theorem recipientPaced {width : Time} {max : Nat} {log : List Entry} {e : Entry}
    (earlier : ∀ recipient, Paced Entry.reservedAt width max (ofRecipient recipient log))
    (below : (since Entry.reservedAt (e.reservedAt - width) (ofRecipient e.recipientHmac log)).length < max)
    (recipient : Digest) : Paced Entry.reservedAt width max (ofRecipient recipient (log ++ [e])) := by
  rw [ofRecipientAppend]
  split
  · rename_i own
    rw [← beq_iff_eq.mp own]
    exact .accept (earlier _) below
  · rw [List.append_nil]
    exact earlier recipient

theorem grantedSound {recipient : Digest} {id : String} (sound : Sound limits s)
    (admitted : Admitted limits recipient s.clock s.rows)
    (free : ∀ r ∈ s.rows, sameId ⟨id,recipient,asDate s.clock,none,none⟩ r = false) :
    Sound limits ⟨s.rows ++ [⟨id,recipient,asDate s.clock,none,none⟩],s.clock,
      s.granted ++ [⟨id,recipient,asDate s.clock⟩],s.claims⟩ := by
  have close := asDateWithin s.clock
  have new : (⟨id,recipient,asDate s.clock⟩ : Entry) ∉ s.granted := by
    intro old
    have held : (⟨id,recipient,asDate s.clock⟩ : Entry) ∈ since Entry.reservedAt (s.clock - hours 48) (s.rows.map entryOf) := by
      rw [sound.charged]
      refine List.mem_filter.mpr ⟨old,decide_eq_true ?_⟩
      show s.clock - hours 48 < asDate s.clock
      unfold hours minutes seconds Time at *
      omega
    obtain ⟨r,hr,same⟩ := List.mem_map.mp (List.mem_filter.mp held).1
    have other := free r hr
    have named : r.id = id := congrArg Entry.id same
    simp [sameId,named] at other
  have hourCut : s.clock - hours 48 ≤ asDate s.clock - hours 1 := by
    unfold hours minutes seconds Time at *
    omega
  have dayCut : s.clock - hours 48 ≤ asDate s.clock - hours 24 := by
    unfold hours minutes seconds Time at *
    omega
  have hourBelow : (since Entry.reservedAt (asDate s.clock - hours 1) (ofRecipient recipient s.granted)).length <
      limits.recipientHourlyMax.toNat := by
    unfold ofRecipient
    rw [chargedCount sound hourCut]
    have hour := admitted.hour
    refine lt_of_le_of_lt (filterWeaker fun r mem within => ?_) ((Int.lt_toNat).mpr hour)
    simp only [Bool.and_eq_true,decide_eq_true_eq] at within ⊢
    have whole : asDate r.reservedAt = r.reservedAt := (sound.past _ (sound.known r mem)).2
    rw [whole]
    refine ⟨within.2,within.1,?_⟩
    have recent := within.2
    unfold hours minutes seconds Time at *
    omega
  have dayBelow : (since Entry.reservedAt (asDate s.clock - hours 24) (ofRecipient recipient s.granted)).length <
      limits.recipientDailyMax.toNat := by
    unfold ofRecipient
    rw [chargedCount sound dayCut]
    have day := admitted.day
    simp only [entryOf]
    omega
  have globalBelow : (since Entry.reservedAt (asDate s.clock - hours 24) s.granted).length < limits.globalDailyMax.toNat := by
    have counted := chargedCount sound dayCut fun _ => true
    simp only [List.filter_true,Bool.true_and] at counted
    have global := admitted.global
    omega
  refine ⟨indexedAppend sound.pkey (fun a b => Bool.beq_comm) free,?_,fun r mem => ?_,fun g mem => ?_,?_,
    recipientPaced sound.hourly hourBelow,recipientPaced sound.daily dayBelow,.accept sound.global globalBelow,
    fun c mem => ?_,sound.once,fun r mem untouched => ?_⟩
  · simp only [since,List.map_append,List.filter_append]
    exact congrArg (· ++ _) sound.charged
  · rcases List.mem_append.mp mem with old | new
    · exact List.mem_append_left _ (sound.known r old)
    · rw [List.mem_singleton.mp new]
      exact List.mem_append_right _ (List.mem_singleton_self _)
  · rcases List.mem_append.mp mem with old | new
    · exact sound.past g old
    · rw [List.mem_singleton.mp new]
      exact ⟨asDateLe _,asDateTwice _⟩
  · exact List.nodup_append.mpr ⟨sound.distinct,List.nodup_singleton _,fun a old b last same =>
      new (by rw [← List.mem_singleton.mp last,← same]; exact old)⟩
  · exact ⟨List.mem_append_left _ (sound.claimed c mem).1,(sound.claimed c mem).2⟩
  · rcases List.mem_append.mp mem with old | last
    · exact sound.unclaimed r old untouched
    · rw [List.mem_singleton.mp last]
      intro taken
      obtain ⟨c,hc,same⟩ := List.mem_map.mp taken
      exact new (by rw [← show c.entry = (⟨id,recipient,asDate s.clock⟩ : Entry) from same]; exact (sound.claimed c hc).1)

theorem updatedSound {p : OtpSendReservation → Bool} {f : OtpSendReservation → OtpSendReservation}
    (sound : Sound limits s) (order : s.clock ≤ clock) (kept : ∀ r, entryOf (f r) = entryOf r)
    (attempted : ∀ r, (f r).attemptedAt = none → r.attemptedAt = none) :
    Sound limits ⟨updateWhere p f s.rows,clock,s.granted,s.claims⟩ where
  pkey := indexedUpdate sound.pkey fun a b hit => by
    have same : ∀ r, (if p r then f r else r).id = r.id := columnKept fun r => congrArg Entry.id (kept r)
    simp only [sameId,same] at hit ⊢
    exact hit
  charged := by
    rw [columnMap kept]
    refine chargedLater sound ?_
    show s.clock - hours 48 ≤ clock - hours 48
    unfold Time at *
    omega
  known r mem := by
    have entry : entryOf r ∈ (updateWhere p f s.rows).map entryOf := List.mem_map_of_mem mem
    rw [columnMap kept] at entry
    obtain ⟨o,ho,same⟩ := List.mem_map.mp entry
    rw [← same]
    exact sound.known o ho
  past g mem := ⟨Int.le_trans (sound.past g mem).1 order,(sound.past g mem).2⟩
  distinct := sound.distinct
  hourly := sound.hourly
  daily := sound.daily
  global := sound.global
  claimed := sound.claimed
  once := sound.once
  unclaimed r mem untouched := by
    obtain ⟨o,ho,rfl⟩ := memUpdateWhere.mp mem
    split
    · rename_i chosen
      rw [if_pos chosen] at untouched
      rw [kept]
      exact sound.unclaimed o ho (attempted o untouched)
    · rename_i other
      rw [if_neg other] at untouched
      exact sound.unclaimed o ho untouched

theorem claimSound {id : String} {written : Time} (sound : Sound limits s) (order : s.clock ≤ clock) :
    Sound limits (step node limits s (.claim id clock written)) := by
  have moved : Sound limits ⟨(claim id clock written s.rows).1,clock,s.granted,s.claims⟩ :=
    updatedSound sound order (fun r => rfl) fun r attempted => by cases attempted
  simp only [step]
  split
  · rename_i one
    obtain ⟨r,alone⟩ := List.length_eq_one_iff.mp
      ((List.countP_eq_length_filter (p := claimable id clock)).symm.trans (beq_iff_eq.mp one))
    have mem : r ∈ s.rows.filter (claimable id clock) := by
      rw [alone]
      exact List.mem_singleton_self r
    obtain ⟨hr,chosen⟩ := List.mem_filter.mp mem
    have open_ := chosen
    simp only [claimable,Bool.and_eq_true,beq_iff_eq,Option.isNone_iff_eq_none,decide_eq_true_eq] at open_
    obtain ⟨⟨⟨named,untouched⟩,_⟩,fresh⟩ := open_
    have unclaimed := sound.unclaimed r hr untouched
    rw [alone]
    refine ⟨moved.pkey,moved.charged,moved.known,moved.past,sound.distinct,sound.hourly,sound.daily,sound.global,
      fun c taken => ?_,?_,fun o ho idle => ?_⟩
    · rcases List.mem_append.mp taken with old | last
      · exact sound.claimed c old
      · rw [List.mem_singleton.mp last]
        refine ⟨sound.known r hr,Int.le_trans (sound.past _ (sound.known r hr)).1 order,?_⟩
        show clock < r.reservedAt + minutes 1
        unfold Time at *
        omega
    · simp only [List.map_append,List.map_cons,List.map_nil]
      exact List.nodup_append.mpr ⟨sound.once,List.nodup_singleton _,fun a old b last same =>
        unclaimed (by rw [← List.mem_singleton.mp last,← same]; exact old)⟩
    · simp only [List.map_append,List.map_cons,List.map_nil]
      intro taken
      rcases List.mem_append.mp taken with old | last
      · exact moved.unclaimed o ho idle old
      · -- The claimed row alone has this key, and it has been attempted now.
        obtain ⟨q,hq,rfl⟩ := memUpdateWhere.mp ho
        have entry : entryOf (if claimable id clock q then { q with attemptedAt := some (max written q.reservedAt) } else q) =
            entryOf q := by split <;> rfl
        rw [entry] at last
        have same : q = r := indexedEq sound.pkey (fun a b => Bool.beq_comm) hq hr
          (beq_iff_eq.mpr (congrArg Entry.id (List.mem_singleton.mp last)))
        rw [same,if_pos chosen] at idle
        cases idle
  · rw [List.append_nil]
    exact moved

theorem stepSound {e : Event} (sound : Sound limits s) (clocked : Clocked s e) : Sound limits (step node limits s e) := by
  cases e with
  | reserve key normalizedEmail id clock =>
    have pruned := prunedSound sound clocked
    simp only [step]
    split
    · rename_i rows given ok
      obtain ⟨rfl,admitted,free,rfl⟩ := reserveAllowed ok
      exact grantedSound pruned admitted free
    · rename_i rows denial ok
      rw [reserveRefused ok]
      exact pruned
    · exact ⟨sound.pkey,chargedLater sound (by unfold Time at *; exact Int.sub_le_sub_right clocked _),sound.known,
        fun g mem => ⟨Int.le_trans (sound.past g mem).1 clocked,(sound.past g mem).2⟩,sound.distinct,sound.hourly,
        sound.daily,sound.global,sound.claimed,sound.once,sound.unclaimed⟩
  | claim id clock written => exact claimSound sound clocked
  | finish id outcome =>
    simp only [step,finish]
    split
    · rename_i rows ok
      split at ok <;> cases ok
      exact updatedSound sound (Int.le_refl _) (fun r => rfl) fun r attempted => attempted
    · exact sound

/- No window holds more than its budget, wherever it starts; the table charges every
reservation that a later window can see; and the claims of nearly a day stay within a day's budget. -/
structure WithinBudget (limits : OtpSendLimits) (s : Ledger) : Prop where
  hourly : ∀ recipient start,
    ((fromStart Entry.reservedAt start (hours 1) (ofRecipient recipient s.granted)).length : Int) ≤ limits.recipientHourlyMax ∧
    ((afterStart Entry.reservedAt start (hours 1) (ofRecipient recipient s.granted)).length : Int) ≤ limits.recipientHourlyMax
  daily : ∀ recipient start,
    ((fromStart Entry.reservedAt start (hours 24) (ofRecipient recipient s.granted)).length : Int) ≤ limits.recipientDailyMax ∧
    ((afterStart Entry.reservedAt start (hours 24) (ofRecipient recipient s.granted)).length : Int) ≤ limits.recipientDailyMax
  global : ∀ start, ((fromStart Entry.reservedAt start (hours 24) s.granted).length : Int) ≤ limits.globalDailyMax ∧
    ((afterStart Entry.reservedAt start (hours 24) s.granted).length : Int) ≤ limits.globalDailyMax
  neverBack : ∀ cut, s.clock - hours 48 ≤ cut →
    since Entry.reservedAt cut (s.rows.map entryOf) = since Entry.reservedAt cut s.granted
  claims : ∀ start, ((s.claims.filter fun c => decide (start ≤ c.claimedAt) &&
    decide (c.claimedAt ≤ start + (hours 24 - minutes 1))).length : Int) ≤ limits.globalDailyMax

theorem limitsPositive (limits : ValidLimits) :
    0 < limits.1.recipientHourlyMax ∧ 0 < limits.1.recipientDailyMax ∧ 0 < limits.1.globalDailyMax := by
  have ok := limits.2
  simp only [validateOtpSendLimits,bindOk,ensureOk,limitWithin,Bool.and_eq_true,decide_eq_true_eq] at ok
  obtain ⟨_,hourly,_,daily,_,global,_⟩ := ok
  exact ⟨by omega,by omega,by omega⟩

theorem withinLimit {n : Nat} {limit : Int} (positive : 0 < limit) (le : n ≤ limit.toNat) : (n : Int) ≤ limit := by
  omega

theorem soundWithin {limits : ValidLimits} (sound : Sound limits.1 s) : WithinBudget limits.1 s := by
  obtain ⟨hourly,daily,global⟩ := limitsPositive limits
  refine ⟨fun recipient start => ⟨withinLimit hourly (fromStartBound (sound.hourly recipient) start),
      withinLimit hourly (afterStartBound (sound.hourly recipient) start)⟩,
    fun recipient start => ⟨withinLimit daily (fromStartBound (sound.daily recipient) start),
      withinLimit daily (afterStartBound (sound.daily recipient) start)⟩,
    fun start => ⟨withinLimit global (fromStartBound sound.global start),
      withinLimit global (afterStartBound sound.global start)⟩,
    fun cut later => chargedLater sound later,fun start => withinLimit global ?_⟩
  have lag := laggingBound Claim.entry Claim.claimedAt sound.claimed sound.once start (hours 24 - minutes 1)
  rw [Int.sub_add_cancel] at lag
  exact Nat.le_trans lag (afterStartBound sound.global _)

theorem sendsWithinBudget (node : Node) (limits : ValidLimits) (start : Time) (es : List Event)
    (clocked : Guarded (step node limits.1) Clocked (.empty start) es) :
    WithinBudget limits.1 (run (step node limits.1) (.empty start) es) :=
  soundWithin (invariantRun (fun _ _ inv ok => stepSound inv ok) (emptySound limits.1 start) clocked)

/- HMAC-SHA-256 of one mailbox under a key of the control API. -/
def sampleQuotaKey : Key := List.replicate 32 4
def sampleRecipient : Digest :=
  [188,159,128,177,189,90,248,249,150,85,128,71,163,239,41,188,164,
    58,122,0,141,101,48,164,29,121,228,73,50,32,127,110]

def quotaNode : Node := tabled [] [((sampleQuotaKey,"wepuu:otp-send:v1\x00user@example.test"),sampleRecipient)] []

def fourAttempts : List Event :=
  [.reserve sampleQuotaKey "user@example.test" "00000000-0000-4000-8000-000000000001" (seconds 1),
    .claim "00000000-0000-4000-8000-000000000001" (seconds 2) (seconds 2),
    .finish "00000000-0000-4000-8000-000000000001" .accepted,
    .reserve sampleQuotaKey "user@example.test" "00000000-0000-4000-8000-000000000002" (seconds 30),
    .reserve sampleQuotaKey "user@example.test" "00000000-0000-4000-8000-000000000003" (seconds 60),
    .reserve sampleQuotaKey "user@example.test" "00000000-0000-4000-8000-000000000004" (seconds 61)]

theorem threeGranted : WithinBudget ⟨3,6,100⟩ (run (step quotaNode ⟨3,6,100⟩) (.empty 0) fourAttempts) ∧
    (run (step quotaNode ⟨3,6,100⟩) (.empty 0) fourAttempts).granted.map (·.reservedAt) =
      [seconds 1,seconds 30,seconds 60] :=
  ⟨sendsWithinBudget quotaNode ⟨⟨3,6,100⟩,by decide⟩ 0 fourAttempts (by decide),by decide⟩

end Soundness

section Delivery
variable {normalizeAccountEmail : String → Option String} {type email id : String} {deliveryId : Option String}
variable {state : Option RequestState} {clock written : Time} {rows after : List OtpSendReservation}

theorem sentClaims (ok : sendVerificationOTP normalizeAccountEmail type deliveryId state email clock written rows =
    .ok (after,id)) : claim id clock written rows = (after,true) := by
  simp only [sendVerificationOTP,bindOk,ensureOk,orFailOk] at ok
  obtain ⟨_,_,_,_,reservation,_,_,_,_,_,_,claimed,last⟩ := ok
  cases last
  exact Prod.ext rfl claimed

end Delivery

end Wepuu.SendQuota
