import Wepuu.SendQuota

/-! How long PostgresOtpSendQuota makes a recipient wait, and what remaining tells of the
reservations that would still pass. -/
namespace Wepuu.RetryAfter
open NodeApi Relational RollingWindow Runs Schema SendQuota

section Histories
variable (node : Node)

/- The limits of a deployment can differ from those of the ones before it. -/
def table (s : Ledger) (change : OtpSendLimits × Event) : Ledger := step node change.1 s change.2

def Quiet (later : Time) (s : Ledger) (change : OtpSendLimits × Event) : Prop :=
  (table node s change).granted = s.granted ∧ match change.2 with
    | .reserve _ _ _ clock => clock ≤ later
    | _ => True

end Histories

section Waiting

/- So long the denial says that the condition lasts. -/
def Waits (now : Time) (full : Time → Prop) : Option Denial → Prop
  | none => ∀ later, now ≤ later → ¬full later
  | some denial => 1 ≤ denial.retryAfterSeconds ∧
      (∀ later, now ≤ later → later ≤ now + seconds (denial.retryAfterSeconds - 1) → full later) ∧
      ∀ later, now + seconds denial.retryAfterSeconds ≤ later → ¬full later

def Crowded (window : Time) (events : List OtpSendReservation) (max : Int) (later : Time) : Prop :=
  max ≤ ((since OtpSendReservation.reservedAt (later - window) events).length : Int)

variable {now window : Time} {events : List OtpSendReservation} {max : Int}
variable {denied : Option Denial}

theorem ceilExact (t : Time) : t ≤ seconds (ceilSeconds t) ∧ seconds (ceilSeconds t - 1) < t := by
  unfold ceilSeconds seconds Time at *
  omega

theorem sparse (below : (events.length : Int) < max) (later : Time) : ¬Crowded window events max later := by
  intro many
  have fewer : (since OtpSendReservation.reservedAt (later - window) events).length ≤ events.length :=
    List.length_filter_le _ _
  unfold Crowded at many
  omega

theorem crowdedUntil (window : Time) (sorted : events.Pairwise fun a b => a.reservedAt ≤ b.reservedAt) (positive : 0 < max)
    (enough : max ≤ (events.length : Int)) :
    ∃ release ∈ events, events[events.length - max.toNat]? = some release ∧
      ∀ later, Crowded window events max later ↔ later < release.reservedAt + window := by
  have inside : events.length - max.toNat < events.length := by omega
  refine ⟨events[events.length - max.toNat],List.getElem_mem inside,List.getElem?_eq_getElem inside,fun later => ?_⟩
  have bound := releaseBound (later - window) sorted (by omega : max.toNat ≤ events.length)
    (List.getElem?_eq_getElem inside)
  rw [Int.sub_lt_iff] at bound
  rw [← bound]
  unfold Crowded
  omega

theorem sparseWaits {full : Time → Prop} (below : (events.length : Int) < max) (earlier : Waits now full denied) :
    Waits now (fun later => full later ∨ Crowded window events max later) denied := by
  cases denied with
  | none => exact fun later after => not_or.mpr ⟨earlier later after,sparse below later⟩
  | some denial =>
    obtain ⟨one,lasts,ends⟩ := earlier
    exact ⟨one,fun later after within => .inl (lasts later after within),fun later after =>
      not_or.mpr ⟨ends later after,sparse below later⟩⟩

theorem crowdedSeconds {release : OtpSendReservation} (waits : now - window < release.reservedAt)
    (crowded : ∀ later, Crowded window events max later ↔ later < release.reservedAt + window) :
    1 ≤ ceilSeconds (release.reservedAt + window - now) ∧
      (∀ later, later ≤ now + seconds (ceilSeconds (release.reservedAt + window - now) - 1) →
        Crowded window events max later) ∧
      ∀ later, now + seconds (ceilSeconds (release.reservedAt + window - now)) ≤ later →
        ¬Crowded window events max later := by
  obtain ⟨most,least⟩ := ceilExact (release.reservedAt + window - now)
  refine ⟨?_,fun later within => (crowded later).mpr ?_,fun later after still => ?_⟩
  · unfold seconds Time at *
    omega
  · unfold Time at *
    omega
  · have before := (crowded later).mp still
    unfold Time at *
    omega

theorem ruleWaits (dimension : OtpQuotaDimension) (window : Time) {full : Time → Prop} (sorted : events.Pairwise fun a b => a.reservedAt ≤ b.reservedAt)
    (dated : ∀ r ∈ events, asDate r.reservedAt = r.reservedAt) (inside : ∀ r ∈ events, now - window < r.reservedAt)
    (positive : 0 < max) (earlier : Waits now full denied) :
    ∃ next, ruleDenial now dimension events max window denied = .ok next ∧
      Waits now (fun later => full later ∨ Crowded window events max later) next := by
  unfold ruleDenial
  split
  · rename_i below
    exact ⟨denied,rfl,sparseWaits below earlier⟩
  · rename_i enough
    obtain ⟨release,mem,found,crowded⟩ := crowdedUntil window sorted positive (Int.not_lt.mp enough)
    obtain ⟨one,lasts,ends⟩ := crowdedSeconds (inside release mem) crowded
    rw [found]
    simp only [dated release mem]
    rw [max_eq_right one]
    split
    · rename_i longer
      refine ⟨_,rfl,one,fun later _ within => .inr (lasts later within),fun later after =>
        not_or.mpr ⟨?_,ends later after⟩⟩
      have passed : now + seconds (ceilSeconds (release.reservedAt + window - now)) ≤ later := after
      cases denied with
      | none =>
        refine earlier later ?_
        unfold seconds Time at *
        omega
      | some denial =>
        have more : denial.retryAfterSeconds < ceilSeconds (release.reservedAt + window - now) := of_decide_eq_true longer
        refine earlier.2.2 later ?_
        unfold seconds Time at *
        omega
    · rename_i shorter
      cases denied with
      | none => exact absurd rfl shorter
      | some denial =>
        have more : ¬denial.retryAfterSeconds < ceilSeconds (release.reservedAt + window - now) := fun less =>
          shorter (decide_eq_true less)
        obtain ⟨least,full,done⟩ := earlier
        refine ⟨_,rfl,least,fun later after within => .inl (full later after within),fun later after =>
          not_or.mpr ⟨done later after,ends later ?_⟩⟩
        unfold seconds Time at *
        omega

theorem waitsNow {full : Time → Prop} (waits : Waits now full denied) : denied = none ↔ ¬full now := by
  cases denied with
  | none => exact ⟨fun _ => waits now (Int.le_refl now),fun _ => rfl⟩
  | some denial =>
    refine ⟨nofun,fun free => absurd (waits.2.1 now (Int.le_refl now) ?_) free⟩
    have one := waits.1
    unfold seconds Time at *
    omega

theorem waitsCongr {full other : Time → Prop} (same : ∀ later, now ≤ later → (full later ↔ other later))
    (waits : Waits now full denied) : Waits now other denied := by
  cases denied with
  | none => exact fun later after still => waits later after ((same later after).mpr still)
  | some denial =>
    obtain ⟨one,lasts,ends⟩ := waits
    refine ⟨one,fun later after within => (same later after).mp (lasts later after within),fun later after still => ?_⟩
    refine ends later after ((same later ?_).mpr still)
    unfold seconds Time at *
    omega

end Waiting

section Reservations
variable {limits : OtpSendLimits} {recipient : Digest} {clock : Time} {rows : List OtpSendReservation}

def Full (limits : OtpSendLimits) (recipient : Digest) (log : List Entry) (later : Time) : Prop :=
  limits.recipientHourlyMax ≤ ((since Entry.reservedAt (later - hours 1) (ofRecipient recipient log)).length : Int) ∨
  limits.recipientDailyMax ≤ ((since Entry.reservedAt (later - hours 24) (ofRecipient recipient log)).length : Int) ∨
  limits.globalDailyMax ≤ ((since Entry.reservedAt (later - hours 24) log).length : Int)

/- What the service writes are whole milliseconds. -/
def Dated (rows : List OtpSendReservation) : Prop := ∀ r ∈ rows, asDate r.reservedAt = r.reservedAt

def globalRows (clock : Time) (rows : List OtpSendReservation) : List OtpSendReservation :=
  ((keptAt clock rows).filter fun r => decide (asDate clock - hours 24 < r.reservedAt)).insertionSort
    fun a b => a.reservedAt ≤ b.reservedAt
def dayRows (recipient : Digest) (clock : Time) (rows : List OtpSendReservation) : List OtpSendReservation :=
  (globalRows clock rows).filter (·.recipientHmac == recipient)
def hourRows (recipient : Digest) (clock : Time) (rows : List OtpSendReservation) : List OtpSendReservation :=
  (dayRows recipient clock rows).filter fun r => decide (asDate clock - hours 1 < asDate r.reservedAt)

theorem globalMember {r : OtpSendReservation} (mem : r ∈ globalRows clock rows) :
    r ∈ rows ∧ asDate clock - hours 24 < r.reservedAt := by
  obtain ⟨kept,within⟩ := List.mem_filter.mp ((List.perm_insertionSort _ _).mem_iff.mp mem)
  exact ⟨(memDeleteWhere.mp kept).1,of_decide_eq_true within⟩

theorem globalCount {later : Time} (after : asDate clock ≤ later) :
    (since OtpSendReservation.reservedAt (later - hours 24) (globalRows clock rows)).length =
      (since Entry.reservedAt (later - hours 24) (rows.map entryOf)).length := by
  simp only [since,globalRows,keptAt,deleteWhere,← List.countP_eq_length_filter,List.countP_filter,List.countP_map,
    (List.perm_insertionSort _ _).countP_eq]
  refine List.countP_congr fun r _ => ?_
  simp only [Bool.and_eq_true,Bool.not_eq_true',decide_eq_true_eq,decide_eq_false_iff_not,Function.comp]
  simp only [entryOf]
  unfold hours minutes seconds Time at *
  omega

theorem dayCount {later : Time} (after : asDate clock ≤ later) :
    (since OtpSendReservation.reservedAt (later - hours 24) (dayRows recipient clock rows)).length =
      (since Entry.reservedAt (later - hours 24) (ofRecipient recipient (rows.map entryOf))).length := by
  simp only [since,ofRecipient,dayRows,globalRows,keptAt,deleteWhere,← List.countP_eq_length_filter,List.countP_filter,
    List.countP_map,(List.perm_insertionSort _ _).countP_eq]
  refine List.countP_congr fun r _ => ?_
  simp only [Bool.and_eq_true,Bool.not_eq_true',decide_eq_true_eq,decide_eq_false_iff_not,Function.comp]
  simp only [entryOf]
  have young : later - hours 24 < r.reservedAt →
      asDate clock - hours 24 < r.reservedAt ∧ ¬r.reservedAt ≤ asDate clock - hours 48 := by
    unfold hours minutes seconds Time at *
    omega
  exact ⟨fun counted => counted.1.1,fun counted => ⟨⟨counted,(young counted.1).1⟩,(young counted.1).2⟩⟩

theorem hourCount (dated : Dated rows) {later : Time} (after : asDate clock ≤ later) :
    (since OtpSendReservation.reservedAt (later - hours 1) (hourRows recipient clock rows)).length =
      (since Entry.reservedAt (later - hours 1) (ofRecipient recipient (rows.map entryOf))).length := by
  simp only [since,ofRecipient,hourRows,dayRows,globalRows,keptAt,deleteWhere,← List.countP_eq_length_filter,
    List.countP_filter,List.countP_map,(List.perm_insertionSort _ _).countP_eq]
  refine List.countP_congr fun r mem => ?_
  simp only [Bool.and_eq_true,Bool.not_eq_true',decide_eq_true_eq,decide_eq_false_iff_not,Function.comp]
  simp only [entryOf,dated r mem]
  have young : later - hours 1 < r.reservedAt → asDate clock - hours 1 < r.reservedAt ∧
      asDate clock - hours 24 < r.reservedAt ∧ ¬r.reservedAt ≤ asDate clock - hours 48 := by
    unfold hours minutes seconds Time at *
    omega
  exact ⟨fun counted => ⟨counted.1.1.1.1,counted.1.1.2⟩,fun counted =>
    ⟨⟨⟨⟨counted.1,(young counted.1).1⟩,counted.2⟩,(young counted.1).2.1⟩,(young counted.1).2.2⟩⟩

def settled (recipient : Digest) (id : String) (clock : Time) (rows : List OtpSendReservation) :
    Option Denial → Except Fault (List OtpSendReservation × OtpQuotaReservation)
  | some denial => .ok (keptAt clock rows,.refused denial)
  | none => match insertRow sameId ⟨id,recipient,asDate clock,none,none⟩ (keptAt clock rows) with
    | some after => .ok (after,.allowed id)
    | none => .error (.thrown "otp_send_storage_unavailable")

theorem rulesSettled {first second denied : Option Denial} {limits : OtpSendLimits} (length : recipient.length = 32)
    (firstOk : ruleDenial (asDate clock) .recipientHour (hourRows recipient clock rows) limits.recipientHourlyMax
      (hours 1) none = .ok first)
    (secondOk : ruleDenial (asDate clock) .recipientDay (dayRows recipient clock rows) limits.recipientDailyMax
      (hours 24) first = .ok second)
    (deniedOk : ruleDenial (asDate clock) .globalDay (globalRows clock rows) limits.globalDailyMax (hours 24) second =
      .ok denied) (id : String) :
    reserve limits recipient id clock rows = settled recipient id clock rows denied := by
  let answer : Option Denial → Except Fault (List OtpSendReservation × OtpQuotaReservation)
    | some denial => .ok (keptAt clock rows,.refused denial)
    | none => ensure (OtpSendReservation.check ⟨id,recipient,asDate clock,none,none⟩) .checkViolation >>= fun _ =>
      orFail .uniqueViolation (insertRow sameId ⟨id,recipient,asDate clock,none,none⟩ (keptAt clock rows)) >>= fun after =>
      .ok (after,.allowed id)
  have body : reserveBody limits recipient id clock rows = answer denied := by
    unfold reserveBody
    change (ruleDenial _ _ (hourRows recipient clock rows) _ _ _ >>= _) = _
    rw [firstOk]
    change (ruleDenial _ _ (dayRows recipient clock rows) _ _ first >>= _) = _
    rw [secondOk]
    change (ruleDenial _ _ (globalRows clock rows) _ _ second >>= _) = _
    rw [deniedOk]
    cases denied <;> rfl
  have fits : OtpSendReservation.check ⟨id,recipient,asDate clock,none,none⟩ = true := by
    simp [OtpSendReservation.check,length]
  unfold reserve settled
  rw [body]
  cases denied with
  | some denial => rfl
  | none =>
    simp only [answer,fits]
    cases insertRow sameId ⟨id,recipient,asDate clock,none,none⟩ (keptAt clock rows) <;> rfl

theorem reserveSettled (limits : ValidLimits) (length : recipient.length = 32) (dated : Dated rows) :
    ∃ denied, Waits (asDate clock) (Full limits.1 recipient (rows.map entryOf)) denied ∧
      ∀ id, reserve limits.1 recipient id clock rows = settled recipient id clock rows denied := by
  obtain ⟨hourly,daily,total⟩ := limitsPositive limits
  have globalSorted : (globalRows clock rows).Pairwise fun a b => a.reservedAt ≤ b.reservedAt :=
    List.pairwise_insertionSort _ _
  have daySorted : (dayRows recipient clock rows).Pairwise fun a b => a.reservedAt ≤ b.reservedAt :=
    globalSorted.sublist List.filter_sublist
  have hourSorted : (hourRows recipient clock rows).Pairwise fun a b => a.reservedAt ≤ b.reservedAt :=
    daySorted.sublist List.filter_sublist
  have dayMember : ∀ r ∈ dayRows recipient clock rows, r ∈ globalRows clock rows := fun r mem => (List.mem_filter.mp mem).1
  have hourMember : ∀ r ∈ hourRows recipient clock rows, r ∈ dayRows recipient clock rows ∧
      asDate clock - hours 1 < asDate r.reservedAt := fun r mem => by
    obtain ⟨within,young⟩ := List.mem_filter.mp mem
    exact ⟨within,of_decide_eq_true young⟩
  have whole : ∀ r ∈ globalRows clock rows, asDate r.reservedAt = r.reservedAt := fun r mem =>
    dated r (globalMember mem).1
  have start : Waits (asDate clock) (fun _ => False) none := fun _ _ false => false
  obtain ⟨first,firstOk,firstWaits⟩ := ruleWaits .recipientHour (hours 1) hourSorted
    (fun r mem => whole r (dayMember r (hourMember r mem).1))
    (fun r mem => whole r (dayMember r (hourMember r mem).1) ▸ (hourMember r mem).2) hourly start
  obtain ⟨second,secondOk,secondWaits⟩ := ruleWaits .recipientDay (hours 24) daySorted
    (fun r mem => whole r (dayMember r mem)) (fun r mem => (globalMember (dayMember r mem)).2) daily firstWaits
  obtain ⟨denied,deniedOk,deniedWaits⟩ := ruleWaits .globalDay (hours 24) globalSorted whole
    (fun r mem => (globalMember mem).2) total secondWaits
  refine ⟨denied,waitsCongr (fun later after => ?_) deniedWaits,rulesSettled length firstOk secondOk deniedOk⟩
  unfold Crowded Full
  rw [hourCount dated after,dayCount after,globalCount after,false_or,or_assoc]

theorem fullWindow {log other : List Entry} {cut later : Time} (day : cut ≤ later - hours 24)
    (same : since Entry.reservedAt cut log = since Entry.reservedAt cut other) :
    Full limits recipient log later ↔ Full limits recipient other later := by
  have hour : cut ≤ later - hours 1 := by
    unfold hours minutes seconds Time at *
    omega
  have own : ∀ (log : List Entry) {start : Time}, cut ≤ start → since Entry.reservedAt start (ofRecipient recipient log) =
      since Entry.reservedAt start (ofRecipient recipient (since Entry.reservedAt cut log)) := by
    intro log start within
    have swapped : ofRecipient recipient (since Entry.reservedAt cut log) =
        since Entry.reservedAt cut (ofRecipient recipient log) := by
      simp only [ofRecipient,since,List.filter_filter,Bool.and_comm]
    rw [swapped,sinceSince within]
  have all : since Entry.reservedAt (later - hours 24) log = since Entry.reservedAt (later - hours 24) other := by
    rw [← sinceSince day,same,sinceSince day]
  unfold Full
  rw [own log hour,own log day,own other hour,own other day,same,all]

theorem settledRefused {denied : Option Denial} {id : String} {after : List OtpSendReservation} {denial : Denial}
    (ok : settled recipient id clock rows denied = .ok (after,.refused denial)) :
    denied = some denial ∧ after = keptAt clock rows := by
  cases denied with
  | some _ =>
    cases ok
    exact ⟨rfl,rfl⟩
  | none =>
    simp only [settled] at ok
    split at ok <;> cases ok

theorem settledNew {id : String} (fresh : ∀ r ∈ rows, r.id ≠ id) : settled recipient id clock rows none =
    .ok (keptAt clock rows ++ [⟨id,recipient,asDate clock,none,none⟩],.allowed id) := by
  have alone : ∀ r ∈ keptAt clock rows, sameId ⟨id,recipient,asDate clock,none,none⟩ r = false := fun r mem =>
    beq_eq_false_iff_ne.mpr (fresh r (memDeleteWhere.mp mem).1).symm
  simp only [settled,insertRowExact.mpr ⟨alone,rfl⟩]

theorem keptDated (dated : Dated rows) : Dated (keptAt clock rows) := fun r mem => dated r (memDeleteWhere.mp mem).1

end Reservations

section Retries
variable {node : Node} {s : Ledger} {change : OtpSendLimits × Event} {later : Time}

theorem tableDated (dated : Dated s.rows) : Dated (table node s change).rows := by
  obtain ⟨limits,event⟩ := change
  have kept : ∀ {p : OtpSendReservation → Bool} {f : OtpSendReservation → OtpSendReservation},
      (∀ r, (f r).reservedAt = r.reservedAt) → Dated (updateWhere p f s.rows) := fun same r mem => by
    obtain ⟨o,old,rfl⟩ := memUpdateWhere.mp mem
    rw [columnKept same]
    exact dated o old
  cases event with
  | reserve key email id clock =>
    simp only [table,step]
    split
    · rename_i ok
      obtain ⟨-,-,-,rfl⟩ := reserveAllowed ok
      intro r mem
      rcases List.mem_append.mp mem with old | new
      · exact keptDated dated r old
      · rw [List.mem_singleton.mp new]
        exact asDateTwice clock
    · rename_i ok
      rw [reserveRefused ok]
      exact keptDated dated
    · exact dated
  | claim id clock written => exact kept fun _ => rfl
  | finish id outcome =>
    simp only [table,step,finish]
    split
    · rename_i ok
      split at ok <;> cases ok
      exact kept fun _ => rfl
    · exact dated

theorem quietWindow (quiet : Quiet node later s change) :
    since Entry.reservedAt (asDate later - hours 24) ((table node s change).rows.map entryOf) =
      since Entry.reservedAt (asDate later - hours 24) (s.rows.map entryOf) := by
  obtain ⟨limits,event⟩ := change
  obtain ⟨same,early⟩ := quiet
  cases event with
  | reserve key email id clock =>
    simp only [table,step] at same early ⊢
    split at same
    · have longer := congrArg List.length same
      rw [List.length_append,List.length_singleton] at longer
      omega
    · rename_i ok
      simp only
      rw [reserveRefused ok,keptEntries,sinceSince]
      unfold asDate hours minutes seconds Time at *
      omega
    · rfl
  | claim id clock written => exact congrArg _ (columnMap fun _ => rfl)
  | finish id outcome =>
    simp only [table,step,finish]
    split
    · rename_i ok
      split at ok <;> cases ok
      exact congrArg _ (columnMap fun _ => rfl)
    · rfl

theorem runDated {changes : List (OtpSendLimits × Event)} (dated : Dated s.rows) :
    Dated (run (table node) s changes).rows :=
  @invariantRun _ _ (table node) (fun _ _ => True) (fun after => Dated after.rows) _ _
    (fun _ _ kept _ => tableDated kept) dated (guardedAlways _ (fun _ _ => trivial) _ _)

theorem quietRun {between : List (OtpSendLimits × Event)} (quiet : Guarded (table node) (Quiet node later) s between) :
    since Entry.reservedAt (asDate later - hours 24) ((run (table node) s between).rows.map entryOf) =
      since Entry.reservedAt (asDate later - hours 24) (s.rows.map entryOf) :=
  @invariantRun _ _ (table node) (Quiet node later)
    (fun after => since Entry.reservedAt (asDate later - hours 24) (after.rows.map entryOf) =
      since Entry.reservedAt (asDate later - hours 24) (s.rows.map entryOf)) _ _
    (fun _ _ same quiet => (quietWindow quiet).trans same) rfl quiet

variable {limits : ValidLimits} {key : Key} {email id : String} {clock : Time} {denial : Denial}
variable {rows : List OtpSendReservation} {between : List (OtpSendLimits × Event)}

def meanwhile (node : Node) (limits : OtpSendLimits) (key : Key) (email id : String) (clock : Time) (s : Ledger)
    (between : List (OtpSendLimits × Event)) : Ledger :=
  run (table node) s ((limits,.reserve key email id clock) :: between)

theorem retrySettled (dated : Dated s.rows) (order : clock ≤ later)
    (refused : reserve limits.1 (recipientOf node key email) id clock s.rows = .ok (rows,.refused denial))
    (quiet : Guarded (table node) (Quiet node later) (table node s (limits.1,.reserve key email id clock)) between) :
    Waits (asDate clock) (Full limits.1 (recipientOf node key email) (s.rows.map entryOf)) (some denial) ∧
    ∃ denied, (denied = none ↔ ¬Full limits.1 (recipientOf node key email) (s.rows.map entryOf) (asDate later)) ∧
      ∀ retry, reserve limits.1 (recipientOf node key email) retry later
        (meanwhile node limits.1 key email id clock s between).rows =
          settled (recipientOf node key email) retry later (meanwhile node limits.1 key email id clock s between).rows
            denied := by
  have length : (recipientOf node key email).length = 32 := node.hmacLength key _
  obtain ⟨first,waits,firstSettled⟩ := @reserveSettled _ clock _ limits length dated
  have known := refused
  rw [firstSettled] at known
  obtain ⟨rfl,-⟩ := settledRefused known
  have first : Quiet node later s (limits.1,.reserve key email id clock) := by
    refine ⟨?_,order⟩
    simp only [table,step,refused]
  have window := @quietRun node s later ((limits.1,.reserve key email id clock) :: between) ⟨first,quiet⟩
  obtain ⟨denied,now,settles⟩ := @reserveSettled _ later _ limits length
    (@runDated node s ((limits.1,.reserve key email id clock) :: between) dated)
  exact ⟨waits,denied,(waitsNow now).trans (not_congr (fullWindow (Int.le_refl _) window)),settles⟩

theorem asDateShift (t : Time) (n : Int) : asDate (t + seconds n) = asDate t + seconds n := by
  unfold asDate seconds Time at *
  omega

theorem asDateMono {t u : Time} (le : t ≤ u) : asDate t ≤ asDate u := by
  unfold asDate Time at *
  omega

theorem refusedUntil (dated : Dated s.rows) (order : clock ≤ later)
    (refused : reserve limits.1 (recipientOf node key email) id clock s.rows = .ok (rows,.refused denial))
    (quiet : Guarded (table node) (Quiet node later) (table node s (limits.1,.reserve key email id clock)) between)
    (early : later ≤ clock + seconds (denial.retryAfterSeconds - 1)) (retry : String) :
    ∃ after again, reserve limits.1 (recipientOf node key email) retry later
      (meanwhile node limits.1 key email id clock s between).rows = .ok (after,.refused again) := by
  obtain ⟨⟨-,lasts,-⟩,denied,now,settles⟩ := retrySettled dated order refused quiet
  have within := asDateMono early
  rw [asDateShift] at within
  rw [settles]
  cases denied with
  | none => exact absurd (lasts _ (asDateMono order) within) (now.mp rfl)
  | some again => exact ⟨_,again,rfl⟩

theorem allowedFrom (dated : Dated s.rows) (order : clock ≤ later)
    (refused : reserve limits.1 (recipientOf node key email) id clock s.rows = .ok (rows,.refused denial))
    (quiet : Guarded (table node) (Quiet node later) (table node s (limits.1,.reserve key email id clock)) between)
    (late : clock + seconds denial.retryAfterSeconds ≤ later) {retry : String}
    (fresh : ∀ r ∈ (meanwhile node limits.1 key email id clock s between).rows, r.id ≠ retry) :
    ∃ after, reserve limits.1 (recipientOf node key email) retry later
      (meanwhile node limits.1 key email id clock s between).rows = .ok (after,.allowed retry) := by
  obtain ⟨⟨-,-,ends⟩,denied,now,settles⟩ := retrySettled dated order refused quiet
  have passed := asDateMono late
  rw [asDateShift] at passed
  obtain rfl := now.mpr (ends _ passed)
  exact ⟨_,(settles retry).trans (settledNew fresh)⟩

end Retries

section Remaining
variable {node : Node} {limits : ValidLimits} {key : Key} {clock : Time} {rows : List OtpSendReservation}

/- Addresses with the identifiers that randomUUID draws for them: no recipient has a row yet. -/
structure Fresh (node : Node) (key : Key) (rows : List OtpSendReservation) (fresh : List (String × String)) : Prop where
  recipients : (fresh.map fun f => recipientOf node key f.1).Nodup
  ids : (fresh.map (·.2)).Nodup
  absent : ∀ f ∈ fresh, ∀ r ∈ rows, r.recipientHmac ≠ recipientOf node key f.1 ∧ r.id ≠ f.2

theorem remainingCount (dated : Dated rows) : remaining limits.1 clock rows =
    max 0 (limits.1.globalDailyMax - ((since Entry.reservedAt (asDate clock - hours 24) (rows.map entryOf)).length : Int)) := by
  have same : (rows.filter fun r => decide (clock - hours 24 < r.reservedAt)).length =
      (since Entry.reservedAt (asDate clock - hours 24) (rows.map entryOf)).length := by
    simp only [since,← List.countP_eq_length_filter,List.countP_map]
    refine List.countP_congr fun r mem => ?_
    have whole := dated r mem
    simp only [Function.comp,decide_eq_true_eq]
    simp only [entryOf]
    unfold asDate hours minutes seconds Time at *
    omega
  unfold remaining
  rw [same]

theorem freshFull {recipient : Digest} (absent : ∀ r ∈ rows, r.recipientHmac ≠ recipient) (later : Time) :
    Full limits.1 recipient (rows.map entryOf) later ↔
      limits.1.globalDailyMax ≤ ((since Entry.reservedAt (later - hours 24) (rows.map entryOf)).length : Int) := by
  have none_ : ofRecipient recipient (rows.map entryOf) = [] := by
    refine List.filter_eq_nil_iff.mpr fun e mem own => ?_
    obtain ⟨r,row,rfl⟩ := List.mem_map.mp mem
    exact absent r row (beq_iff_eq.mp own)
  obtain ⟨hourly,daily,-⟩ := limitsPositive limits
  unfold Full
  rw [none_]
  refine ⟨fun full => ?_,fun full => .inr (.inr full)⟩
  rcases full with hour | day | total
  · exact absurd hour (Int.not_le.mpr hourly)
  · exact absurd day (Int.not_le.mpr daily)
  · exact total

theorem freshReserve (dated : Dated rows) {recipient : Digest} {id : String} (length : recipient.length = 32)
    (absent : ∀ r ∈ rows, r.recipientHmac ≠ recipient ∧ r.id ≠ id) :
    (remaining limits.1 clock rows = 0 ∧ ∃ denial, reserve limits.1 recipient id clock rows =
      .ok (keptAt clock rows,.refused denial)) ∨
    (0 < remaining limits.1 clock rows ∧ reserve limits.1 recipient id clock rows =
      .ok (keptAt clock rows ++ [⟨id,recipient,asDate clock,none,none⟩],.allowed id)) := by
  obtain ⟨denied,waits,settles⟩ := @reserveSettled _ clock _ limits length dated
  have now := (waitsNow waits).trans (not_congr (freshFull (fun r mem => (absent r mem).1) _))
  rw [settles,remainingCount dated]
  cases denied with
  | some denial =>
    refine .inl ⟨?_,denial,rfl⟩
    have full := not_not.mp (mt now.mpr nofun)
    omega
  | none =>
    have free := now.mp rfl
    exact .inr ⟨by omega,settledNew fun r mem => (absent r mem).2⟩

theorem remainingKept : remaining limits.1 clock (keptAt clock rows) = remaining limits.1 clock rows := by
  unfold remaining keptAt deleteWhere
  rw [List.filter_filter]
  congr 4
  refine List.filter_congr fun r _ => ?_
  simp only [Bool.and_eq_left_iff_imp,decide_eq_true_eq,Bool.not_eq_true',decide_eq_false_iff_not]
  unfold asDate hours minutes seconds Time at *
  omega

theorem remainingTaken (some_ : 0 < remaining limits.1 clock rows) (recipient : Digest) (id : String) :
    remaining limits.1 clock (rows ++ [⟨id,recipient,asDate clock,none,none⟩]) = remaining limits.1 clock rows - 1 := by
  have counted : clock - hours 24 < asDate clock := by
    unfold asDate hours minutes seconds Time at *
    omega
  unfold remaining at some_ ⊢
  simp only [List.filter_append,List.length_append,List.filter_cons,counted,decide_true,if_true,List.filter_nil,
    List.length_singleton]
  omega

def further (node : Node) (limits : OtpSendLimits) (key : Key) (clock : Time) (s : Ledger)
    (fresh : List (String × String)) : Ledger :=
  run (step node limits) s (fresh.map fun f => .reserve key f.1 f.2 clock)

theorem furtherGranted {s : Ledger} {fresh : List (String × String)} (dated : Dated s.rows)
    (new : Fresh node key s.rows fresh) : ((further node limits.1 key clock s fresh).granted.length : Int) =
      s.granted.length + min (fresh.length : Int) (remaining limits.1 clock s.rows) := by
  induction fresh generalizing s with
  | nil =>
    have nonneg : 0 ≤ remaining limits.1 clock s.rows := le_max_left _ _
    simp only [further,List.map_nil,runNil,List.length_nil]
    omega
  | cons f rest ih =>
    obtain ⟨recipients,ids,absent⟩ := new
    simp only [List.map_cons,List.nodup_cons] at recipients ids
    have restAbsent : ∀ g ∈ rest, ∀ r ∈ keptAt clock s.rows, r.recipientHmac ≠ recipientOf node key g.1 ∧ r.id ≠ g.2 :=
      fun g mem r kept => absent g (List.mem_cons_of_mem _ mem) r (memDeleteWhere.mp kept).1
    have unfolded : further node limits.1 key clock s (f :: rest) =
        further node limits.1 key clock (step node limits.1 s (.reserve key f.1 f.2 clock)) rest := rfl
    rw [unfolded]
    rcases @freshReserve limits clock _ dated _ _ (node.hmacLength key _) (absent f List.mem_cons_self) with
      ⟨nothing,denial,refused⟩ | ⟨some_,allowed⟩
    · have stepped : step node limits.1 s (.reserve key f.1 f.2 clock) =
          ⟨keptAt clock s.rows,clock,s.granted,s.claims⟩ := by
        simp only [step,recipientOf,refused]
      rw [stepped,ih (keptDated dated) ⟨recipients.2,ids.2,restAbsent⟩,remainingKept,nothing]
      simp only [List.length_cons]
      omega
    · have stepped : step node limits.1 s (.reserve key f.1 f.2 clock) =
          ⟨keptAt clock s.rows ++ [⟨f.2,recipientOf node key f.1,asDate clock,none,none⟩],clock,
            s.granted ++ [⟨f.2,recipientOf node key f.1,asDate clock⟩],s.claims⟩ := by
        simp only [step,recipientOf,allowed]
      have dated' : Dated (keptAt clock s.rows ++ [⟨f.2,recipientOf node key f.1,asDate clock,none,none⟩]) := by
        intro r mem
        rcases List.mem_append.mp mem with old | last
        · exact keptDated dated r old
        · rw [List.mem_singleton.mp last]
          exact asDateTwice clock
      have new : Fresh node key (keptAt clock s.rows ++ [⟨f.2,recipientOf node key f.1,asDate clock,none,none⟩]) rest := by
        refine ⟨recipients.2,ids.2,fun g mem r after => ?_⟩
        rcases List.mem_append.mp after with old | last
        · exact restAbsent g mem r old
        · rw [List.mem_singleton.mp last]
          exact ⟨fun same => recipients.1 (List.mem_map.mpr ⟨g,mem,same.symm⟩),
            fun same => ids.1 (List.mem_map.mpr ⟨g,mem,same.symm⟩)⟩
      have left : 0 < remaining limits.1 clock (keptAt clock s.rows) := by
        rw [remainingKept]
        exact some_
      rw [stepped,ih dated' new,remainingTaken left,remainingKept]
      simp only [List.length_append,List.length_cons,List.length_nil]
      omega

end Remaining

section Histories
variable {node : Node}

structure Exact (node : Node) (limits : OtpSendLimits) (key : Key) (s : Ledger) : Prop where
  retry : ∀ email id clock rows denial,
    reserve limits (recipientOf node key email) id clock s.rows = .ok (rows,.refused denial) →
    ∀ later between, clock ≤ later →
      Guarded (table node) (Quiet node later) (table node s (limits,.reserve key email id clock)) between →
    (later ≤ clock + seconds (denial.retryAfterSeconds - 1) → ∀ retry, ∃ after again,
      reserve limits (recipientOf node key email) retry later (meanwhile node limits key email id clock s between).rows =
        .ok (after,.refused again)) ∧
    (clock + seconds denial.retryAfterSeconds ≤ later → ∀ retry,
      (∀ r ∈ (meanwhile node limits key email id clock s between).rows, r.id ≠ retry) → ∃ after,
      reserve limits (recipientOf node key email) retry later (meanwhile node limits key email id clock s between).rows =
        .ok (after,.allowed retry))
  remaining : ∀ clock fresh, Fresh node key s.rows fresh → ∀ k < fresh.length, remaining limits clock s.rows = k ↔
    (further node limits key clock s fresh).granted.length = s.granted.length + k

/- Any history: other limits before, clocks in any order. -/
theorem waitsExact (node : Node) (limits : ValidLimits) (key : Key) (start : Time)
    (history : List (OtpSendLimits × Event)) : Exact node limits.1 key (run (table node) (.empty start) history) := by
  have dated : Dated (run (table node) (.empty start) history).rows := runDated fun r mem => absurd mem List.not_mem_nil
  refine ⟨fun email id clock rows denial refused later between order quiet => ⟨fun early retry =>
    refusedUntil dated order refused quiet early retry,fun late retry fresh =>
    allowedFrom dated order refused quiet late fresh⟩,fun clock fresh new k within => ?_⟩
  have granted := @furtherGranted node limits key clock _ _ dated new
  omega

example : reserve ⟨1,6,100⟩ (List.replicate 32 7) "second" (seconds 61 + 999)
    [⟨"first",List.replicate 32 7,seconds 1,none,none⟩] =
    .ok ([⟨"first",List.replicate 32 7,seconds 1,none,none⟩],.refused ⟨.recipientHour,3540⟩) := by decide

end Histories
end Wepuu.RetryAfter
