import Wepuu.FixedWindow
import Wepuu.Frames
import Wepuu.JsValues

/-! oauth.consume_rate_limit under any calls: the buckets of a policy refine a counter for
each subject and window. extract(epoch) is numeric, and its quotient carries enough digits
for the floor to be that of the exact quotient. -/
namespace Wepuu.RateLimits
open Artifacts FixedWindow Frames JsValues NodeApi Outbox Relational Runs Schema
open Wepuu.System

structure Policy where
  name : String
  limit : Nat
  windowSeconds : Nat
  accepted : policyShape name = true ∧ (1 ≤ limit ∧ limit ≤ 10000) ∧ 1 ≤ windowSeconds ∧ windowSeconds ≤ 3600

abbrev Subject := { hash : Digest // hash.length = 32 }

structure Call where
  policy : String
  subject : Digest
  limit : Int
  windowSeconds : Int
  observedAt : Time
  deriving DecidableEq, Repr

def answer (db : Db) (c : Call) : Db × Bool :=
  consumeRateLimit c.policy c.subject c.limit c.windowSeconds c.observedAt db

def turn (db : Db) (c : Call) : Db := (answer db c).1

def answers (db : Db) (calls : List Call) : List (Call × Bool) :=
  collect turn (fun db c => [(c,(answer db c).2)]) db calls

def acceptable (c : Call) : Bool :=
  policyShape c.policy && decide (c.subject.length = 32) && decide (1 ≤ c.limit) && decide (c.limit ≤ 10000) &&
  decide (1 ≤ c.windowSeconds) && decide (c.windowSeconds ≤ 3600)

def startOf (c : Call) : Time := windowStart c.windowSeconds c.observedAt

def counterAt (policy : String) (subject : Digest) (start : Time) (db : Db) : Nat :=
  ((db.rateLimitBuckets.find? (bucketAt policy subject start)).map (·.counter)).getD 0

section Buckets
variable {db : Db} {c : Call} {policy : String} {subject : Digest} {start : Time}

theorem bucketsApart {b : RateLimitBucket} (other : (policy,subject,start) ≠ (c.policy,c.subject,startOf c))
    (here : bucketAt policy subject start b = true) : bucketAt c.policy c.subject (startOf c) b = false := by
  by_contra also
  rw [Bool.not_eq_false] at also
  simp only [bucketAt,Bool.and_eq_true,beq_iff_eq] at here also
  obtain ⟨⟨rfl,rfl⟩,rfl⟩ := here
  obtain ⟨⟨first,second⟩,third⟩ := also
  exact other (by rw [first,second,third])

def opened (c : Call) (db : Db) : Db := { db with
  rateLimitBuckets := db.rateLimitBuckets ++
    [⟨c.policy,c.subject,startOf c,1,startOf c + seconds (c.windowSeconds * 2)⟩] }
def bump (b : RateLimitBucket) : RateLimitBucket := { b with counter := b.counter + 1 }
def counted (c : Call) (db : Db) : Db := { db with
  rateLimitBuckets := updateWhere (bucketAt c.policy c.subject (startOf c)) bump db.rateLimitBuckets }

theorem bumpKeeps (b : RateLimitBucket) : bucketAt policy subject start (bump b) = bucketAt policy subject start b := rfl

theorem answerExact (db : Db) (c : Call) : answer db c =
    if acceptable c = true then
      match db.rateLimitBuckets.find? (bucketAt c.policy c.subject (startOf c)) with
      | none => (opened c db,true)
      | some bucket => if bucket.counter < c.limit then (counted c db,true) else (db,false)
    else (db,false) := rfl

structure Adds (c : Call) (db next : Db) : Prop where
  own : counterAt c.policy c.subject (startOf c) next = counterAt c.policy c.subject (startOf c) db + 1
  others : ∀ policy subject start, (policy,subject,start) ≠ (c.policy,c.subject,startOf c) →
    counterAt policy subject start next = counterAt policy subject start db

theorem openedAdds (none_ : db.rateLimitBuckets.find? (bucketAt c.policy c.subject (startOf c)) = none) :
    Adds c db (opened c db) where
  own := by simp [opened,counterAt,none_,bucketAt]
  others policy subject start other := by
    have apart : bucketAt policy subject start
        ⟨c.policy,c.subject,startOf c,1,startOf c + seconds (c.windowSeconds * 2)⟩ = false := by
      by_contra here
      rw [Bool.not_eq_false] at here
      have bad := bucketsApart other here
      simp [bucketAt] at bad
    simp [opened,counterAt,List.find?_append,apart]

theorem countedAdds {bucket : RateLimitBucket}
    (found : db.rateLimitBuckets.find? (bucketAt c.policy c.subject (startOf c)) = some bucket) :
    Adds c db (counted c db) where
  own := by
    simp only [counted,counterAt]
    rw [findChanged bumpKeeps,found]
    rfl
  others policy subject start other := by
    have skips : ∀ b ∈ db.rateLimitBuckets, bucketAt policy subject start b = true →
        bucketAt c.policy c.subject (startOf c) b = false := fun _ _ here => bucketsApart other here
    simp only [counted,counterAt]
    rw [findUpdated skips bumpKeeps]

theorem turnCases (db : Db) (c : Call) :
    (answer db c = (db,false) ∧ (acceptable c = true → c.limit ≤ counterAt c.policy c.subject (startOf c) db)) ∨
    ((answer db c).2 = true ∧ (acceptable c = true ∧ counterAt c.policy c.subject (startOf c) db < c.limit) ∧
      Adds c db (turn db c)) := by
  unfold turn
  rw [answerExact]
  by_cases fine : acceptable c = true
  · rw [if_pos fine]
    cases found : db.rateLimitBuckets.find? (bucketAt c.policy c.subject (startOf c)) with
    | none =>
      have zero : counterAt c.policy c.subject (startOf c) db = 0 := by simp [counterAt,found]
      have positive : 1 ≤ c.limit := by
        simp only [acceptable,Bool.and_eq_true,decide_eq_true_eq] at fine
        omega
      exact .inr ⟨rfl,⟨fine,by omega⟩,openedAdds found⟩
    | some bucket =>
      have value : counterAt c.policy c.subject (startOf c) db = bucket.counter := by simp [counterAt,found]
      by_cases below : bucket.counter < c.limit
      · dsimp only
        rw [if_pos below]
        exact .inr ⟨rfl,⟨fine,by rw [value]; exact below⟩,countedAdds found⟩
      · dsimp only
        rw [if_neg below]
        exact .inl ⟨rfl,fun _ => by rw [value]; omega⟩
  · rw [if_neg fine]
    exact .inl ⟨rfl,fun bad => absurd bad fine⟩

end Buckets

/- The calls of a policy that its limiter counts, and the counter that each of them is under. -/
def charges (policy : Policy) (c : Call) : Bool := c.policy == policy.name && decide (c.subject.length = 32)
def keyOf (c : Call) : Digest × Time := (c.subject,startOf c)

def Fixed (policy : Policy) (c : Call) : Prop :=
  c.policy = policy.name → c.limit = policy.limit ∧ c.windowSeconds = policy.windowSeconds
instance (policy c) : Decidable (Fixed policy c) := by
  unfold Fixed; infer_instance

structure Counting (policy : Policy) (db : Db) (log : List (Call × Bool)) : Prop where
  metered : Metered keyOf policy.limit (log.filter fun e => charges policy e.1)
  counters : ∀ subject start, counterAt policy.name subject start db =
    granted keyOf (subject,start) (log.filter fun e => charges policy e.1)

section Runs
variable {policy : Policy} {db : Db} {log : List (Call × Bool)} {c : Call} {calls : List Call}

theorem chargedAcceptable (fixed : Fixed policy c) (charged : charges policy c = true) :
    acceptable c = true ∧ c.limit = policy.limit := by
  simp only [charges,Bool.and_eq_true,beq_iff_eq,decide_eq_true_eq] at charged
  obtain ⟨limit,window⟩ := fixed charged.1
  have fine := policy.accepted
  refine ⟨?_,limit⟩
  simp only [acceptable,charged.1,fine.1,charged.2,limit,window,Bool.true_and,Bool.and_eq_true,
    decide_eq_true_eq,true_and]
  omega

theorem unchargedKeeps (apart : charges policy c = false) (subject : Digest) (start : Time) :
    counterAt policy.name subject start (turn db c) = counterAt policy.name subject start db := by
  rcases turnCases db c with ⟨same,-⟩ | ⟨-,⟨fine,-⟩,adds⟩
  · rw [turn,same]
  · refine adds.others _ _ _ fun same => ?_
    simp only [Prod.mk.injEq] at same
    simp only [acceptable,Bool.and_eq_true,decide_eq_true_eq] at fine
    simp [charges,← same.1,fine] at apart

theorem stepCounting (fixed : Fixed policy c) (counting : Counting policy db log) :
    Counting policy (turn db c) (log ++ [(c,(answer db c).2)]) := by
  cases charged : charges policy c with
  | false =>
    refine ⟨?_,fun subject start => ?_⟩
    · simp only [List.filter_append,List.filter_singleton,charged,cond_false,List.append_nil]
      exact counting.metered
    · simp only [List.filter_append,List.filter_singleton,charged,cond_false,List.append_nil]
      rw [unchargedKeeps charged,counting.counters]
  | true =>
    obtain ⟨fine,limit⟩ := chargedAcceptable fixed charged
    have named : c.policy = policy.name := by
      simp only [charges,Bool.and_eq_true,beq_iff_eq] at charged
      exact charged.1
    have own : counterAt c.policy c.subject (startOf c) db =
        granted keyOf (keyOf c) (log.filter fun e => charges policy e.1) := by
      rw [named]
      exact counting.counters c.subject (startOf c)
    have decided : (answer db c).2 =
        decide (granted keyOf (keyOf c) (log.filter fun e => charges policy e.1) < policy.limit) := by
      rcases turnCases db c with ⟨same,full⟩ | ⟨yes,⟨-,below⟩,-⟩
      · rw [same]
        have above := full fine
        exact (decide_eq_false (by omega)).symm
      · rw [yes]
        exact (decide_eq_true (by omega)).symm
    refine ⟨?_,fun subject start => ?_⟩
    · simp only [List.filter_append,List.filter_singleton,charged,cond_true]
      rw [decided]
      exact .answer c counting.metered
    · simp only [List.filter_append,List.filter_singleton,charged,cond_true]
      rw [grantedAppend,← counting.counters]
      rcases turnCases db c with ⟨same,-⟩ | ⟨yes,-,adds⟩
      · simp [turn,same]
      · rw [yes]
        by_cases here : keyOf c = (subject,start)
        · simp only [keyOf,Prod.mk.injEq] at here
          obtain ⟨rfl,rfl⟩ := here
          rw [← named,adds.own]
          simp [keyOf]
        · have other : (policy.name,subject,start) ≠ (c.policy,c.subject,startOf c) := by
            intro same
            simp only [Prod.mk.injEq] at same
            exact here (by rw [keyOf,same.2.1,same.2.2])
          rw [adds.others _ _ _ other]
          simp [here]

theorem runCounting (fixed : ∀ c ∈ calls, Fixed policy c) (counting : Counting policy db log) :
    Counting policy (run turn db calls) (log ++ answers db calls) := by
  induction calls generalizing db log with
  | nil =>
    rw [answers,collect,List.append_nil]
    exact counting
  | cons c rest ih =>
    have next := stepCounting (fixed c List.mem_cons_self) counting
    have last := ih (fun c mem => fixed c (List.mem_cons_of_mem _ mem)) next
    rw [List.append_assoc] at last
    exact last

def Unused (policy : Policy) (db : Db) : Prop := ∀ b ∈ db.rateLimitBuckets, b.policy ≠ policy.name
instance (policy db) : Decidable (Unused policy db) := by
  unfold Unused; infer_instance

theorem unusedCounting (unused : Unused policy db) : Counting policy db [] where
  metered := .nil
  counters subject start := by
    have none_ : db.rateLimitBuckets.find? (bucketAt policy.name subject start) = none := by
      refine List.find?_eq_none.mpr fun b mem here => unused b mem ?_
      simp only [bucketAt,Bool.and_eq_true,beq_iff_eq] at here
      exact here.1.1
    simp [counterAt,none_,granted]

theorem answersCounting (unused : Unused policy db) (fixed : ∀ c ∈ calls, Fixed policy c) :
    Counting policy (run turn db calls) (answers db calls) :=
  runCounting fixed (unusedCounting unused)

theorem answersCalls (db : Db) (calls : List Call) : (answers db calls).map (·.1) = calls := by
  induction calls generalizing db with
  | nil => rfl
  | cons c rest ih =>
    rw [answers,collect,List.map_append]
    exact congrArg (c :: ·) (ih (turn db c))

def ofSubject (policy : Policy) (subject : Subject) (c : Call) : Bool :=
  c.policy == policy.name && c.subject == subject.val
def inWindow (policy : Policy) (subject : Subject) (start : Time) (c : Call) : Bool :=
  ofSubject policy subject c && decide (startOf c = start)
def inInterval (policy : Policy) (subject : Subject) (start : Time) (c : Call) : Bool :=
  ofSubject policy subject c && decide (start ≤ c.observedAt) &&
  decide (c.observedAt < start + seconds policy.windowSeconds)

def asked (chosen : Call → Bool) (log : List (Call × Bool)) : Nat := log.countP fun e => chosen e.1
def allowed (chosen : Call → Bool) (log : List (Call × Bool)) : Nat := log.countP fun e => e.2 && chosen e.1

theorem ofSubjectCharged {subject : Subject} (own : ofSubject policy subject c = true) : charges policy c = true := by
  simp only [ofSubject,Bool.and_eq_true,beq_iff_eq] at own
  simp [charges,own.1,own.2,subject.property]

theorem windowCounted (policy : Policy) (subject : Subject) (start : Time) (log : List (Call × Bool)) :
    asked (inWindow policy subject start) log =
      FixedWindow.asked keyOf (subject.val,start) (log.filter fun e => charges policy e.1) ∧
    allowed (inWindow policy subject start) log =
      granted keyOf (subject.val,start) (log.filter fun e => charges policy e.1) := by
  have same : ∀ c : Call, inWindow policy subject start c =
      (decide (keyOf c = (subject.val,start)) && charges policy c) := by
    intro c
    rw [Bool.eq_iff_iff]
    simp only [inWindow,ofSubject,charges,keyOf,Bool.and_eq_true,beq_iff_eq,decide_eq_true_eq,Prod.mk.injEq]
    constructor
    · rintro ⟨⟨named,own⟩,here⟩
      exact ⟨⟨own,here⟩,named,by rw [own]; exact subject.property⟩
    · rintro ⟨⟨own,here⟩,named,-⟩
      exact ⟨⟨named,own⟩,here⟩
  unfold asked allowed FixedWindow.asked granted
  rw [List.countP_filter,List.countP_filter]
  simp only [same,Bool.and_assoc,and_self]

theorem intervalBounded {subject : Subject} (counting : Counting policy db log)
    (fixed : ∀ e ∈ log, Fixed policy e.1) (start : Time) :
    allowed (inInterval policy subject start) log ≤ 2 * policy.limit := by
  have positive : 0 < seconds policy.windowSeconds := by
    have fine := policy.accepted.2.2.1
    unfold seconds Time
    omega
  have within : allowed (inInterval policy subject start) log =
      (log.filter fun e => charges policy e.1).countP fun e => e.2 && inInterval policy subject start e.1 := by
    rw [allowed,List.countP_filter]
    refine List.countP_congr fun e _ => ?_
    simp only [Bool.and_eq_true,iff_self_and]
    intro here
    simp only [inInterval,Bool.and_eq_true] at here
    exact ofSubjectCharged here.2.1.1
  rw [within]
  refine twoBudgets (k := (subject.val,windowStart policy.windowSeconds start))
    (l := (subject.val,(start / seconds policy.windowSeconds + 1) * seconds policy.windowSeconds))
    counting.metered fun e mem here => ?_
  simp only [inInterval,ofSubject,Bool.and_eq_true,beq_iff_eq,decide_eq_true_eq] at here
  obtain ⟨⟨⟨named,own⟩,after⟩,before⟩ := here
  have width := (fixed e (List.mem_filter.mp mem).1 named).2
  simp only [keyOf,startOf,windowStart,own,width]
  rcases twoWindows positive after before with same | next
  · exact .inl (by rw [same])
  · exact .inr (by rw [next])

/- What a subject is answered is what it would be answered without all other calls. -/
theorem subjectAlone {subject : Subject} (unused : Unused policy db) (fixed : ∀ c ∈ calls, Fixed policy c) :
    (answers db calls).filter (fun e => ofSubject policy subject e.1) =
      answers db (calls.filter (ofSubject policy subject)) := by
  have parts : ∀ log : List (Call × Bool), (log.filter fun e => charges policy e.1).filter
      (fun e => e.1.subject == subject.val) = log.filter fun e => ofSubject policy subject e.1 := by
    intro log
    rw [List.filter_filter]
    refine List.filter_congr fun e _ => ?_
    rw [Bool.eq_iff_iff]
    simp only [Bool.and_eq_true,beq_iff_eq]
    constructor
    · rintro ⟨own,charged⟩
      simp only [charges,Bool.and_eq_true,beq_iff_eq] at charged
      simp [ofSubject,charged.1,own]
    · intro own
      have charged := ofSubjectCharged own
      simp only [ofSubject,Bool.and_eq_true,beq_iff_eq] at own
      exact ⟨own.2,charged⟩
  have whole : Metered keyOf policy.limit ((answers db calls).filter fun e => ofSubject policy subject e.1) := by
    rw [← parts]
    exact meteredFilter (answersCounting unused fixed).metered (fun c => c.subject == subject.val)
      fun a b same => by rw [(Prod.mk.inj same).1]
  have own : ∀ e ∈ answers db (calls.filter (ofSubject policy subject)), ofSubject policy subject e.1 = true := by
    intro e mem
    have called : e.1 ∈ calls.filter (ofSubject policy subject) := by
      rw [← answersCalls db (calls.filter (ofSubject policy subject))]
      exact List.mem_map_of_mem mem
    exact (List.mem_filter.mp called).2
  have others : ∀ c ∈ calls.filter (ofSubject policy subject), Fixed policy c :=
    fun c mem => fixed c (List.mem_filter.mp mem).1
  have alone := (answersCounting unused others).metered
  rw [List.filter_eq_self.mpr fun e mem => ofSubjectCharged (own e mem)] at alone
  refine meteredUnique whole alone ?_
  rw [answersCalls]
  have named : ((answers db calls).filter fun e => ofSubject policy subject e.1).map (·.1) =
      ((answers db calls).map (·.1)).filter (ofSubject policy subject) := by
    rw [List.filter_map]
    rfl
  rw [named,answersCalls]

end Runs

theorem limitsMetered (policy : Policy) (subject : Subject) (db : Db) (calls : List Call)
    (unused : Unused policy db) (fixed : ∀ c ∈ calls, Fixed policy c) :
    (∀ start, allowed (inWindow policy subject start) (answers db calls) ≤ policy.limit ∧
      allowed (inWindow policy subject start) (answers db calls) =
        min policy.limit (asked (inWindow policy subject start) (answers db calls))) ∧
    (∀ start, allowed (inInterval policy subject start) (answers db calls) ≤ 2 * policy.limit) ∧
    (∀ db c, (answer db c).2 = false → turn db c = db) ∧
    (answers db calls).filter (fun e => ofSubject policy subject e.1) =
      answers db (calls.filter (ofSubject policy subject)) := by
  have counting := answersCounting unused fixed
  refine ⟨fun start => ?_,fun start => ?_,fun db c denied => ?_,subjectAlone unused fixed⟩
  · obtain ⟨all,some_⟩ := windowCounted policy subject start (answers db calls)
    rw [all,some_]
    exact ⟨meteredWithin counting.metered _,meteredExactly counting.metered _⟩
  · refine intervalBounded counting (fun e mem => fixed e.1 ?_) start
    rw [← answersCalls db calls]
    exact List.mem_map_of_mem mem
  · rcases turnCases db c with ⟨same,-⟩ | ⟨yes,-⟩
    · rw [turn,same]
    · rw [yes] at denied
      contradiction

def samplePolicy : Policy := ⟨"token",1,60,by decide⟩
def sampleSubject : Subject := ⟨List.replicate 32 1,rfl⟩
def sampleCalls : List Call :=
  [⟨"token",List.replicate 32 1,1,60,seconds 61⟩,⟨"token",List.replicate 32 2,1,60,seconds 62⟩,
    ⟨"token",List.replicate 32 1,1,60,seconds 119⟩,⟨"token",List.replicate 32 1,1,60,seconds 120⟩]

theorem sampleMetered :
    (answers Db.empty sampleCalls).map (·.2) = [true,true,false,true] ∧
    allowed (inWindow samplePolicy sampleSubject (seconds 60)) (answers Db.empty sampleCalls) = 1 ∧
    allowed (inInterval samplePolicy sampleSubject (seconds 61)) (answers Db.empty sampleCalls) ≤ 2 ∧
    (answers Db.empty sampleCalls).filter (fun e => ofSubject samplePolicy sampleSubject e.1) =
      answers Db.empty (sampleCalls.filter (ofSubject samplePolicy sampleSubject)) :=
  have metered := limitsMetered samplePolicy sampleSubject Db.empty sampleCalls (by decide) (by decide)
  ⟨by decide,(metered.1 (seconds 60)).2.trans (by decide),metered.2.1 (seconds 61),metered.2.2.2⟩

/- PostgresOAuthRateLimiter.allow; the limits of its policy are numbers of any kind, and the
function takes int4. -/
structure RateLimitPolicy where
  name : String
  limit : JsValue
  windowSeconds : JsValue

def int4 (value : Int) : Bool := decide (-2147483648 ≤ value) && decide (value ≤ 2147483647)

def allow (node : Node) (codec : RateLimitSubjectCodec) (policy : RateLimitPolicy) (subject : String)
    (observedAt : Time) (db : Db) : Except Fault (Db × Bool) := do
  let digest ← codec.digest node policy.name subject
  match policy.limit, policy.windowSeconds with
  | .int limit, .int windowSeconds => do
    ensure (int4 limit && int4 windowSeconds) (.raised "integer out of range" "22003")
    .ok (consumeRateLimit policy.name digest limit windowSeconds observedAt db)
  | _, _ => .ok (db,false)

theorem allowCalls {node : Node} {codec : RateLimitSubjectCodec} {policy : RateLimitPolicy} {subject : String}
    {observedAt : Time} {db : Db} {out : Db × Bool} (ok : allow node codec policy subject observedAt db = .ok out) :
    out = (db,false) ∨ ∃ c : Call, c.policy = policy.name ∧ c.observedAt = observedAt ∧
      codec.digest node policy.name subject = .ok c.subject ∧ out = answer db c := by
  obtain ⟨digest,hashed,rest⟩ := bindOk.mp ok
  split at rest
  · obtain ⟨-,-,last⟩ := bindOk.mp rest
    cases last
    exact .inr ⟨⟨_,digest,_,_,_⟩,rfl,rfl,hashed,rfl⟩
  · cases rest
    exact .inl rfl

def lookupCalls (node : Node) (adapter : OidcAdapter) (now : Time) (db : Db) : List SecretArtifactLookup → List Call
  | [] => []
  | lookup :: rest => match db.secretArtifacts.find? (consumable adapter.model lookup now) with
    | none => lookupCalls node adapter now db rest
    | some stored => if refreshModel adapter then
        match member stored.payload "grantId", adapter.rateLimitCodec with
        | some (.str grantId), some subjects => match subjects.digest node "oauth.refresh_family" grantId with
          | .ok subject => [⟨"oauth.refresh_family",subject,10,60,now⟩]
          | .error _ => []
        | _, _ => []
      else []

def callsOf (node : Node) (db : Db) (e : Event) : List Call := match e.op with
  | .consumeRateLimit policy subject limit windowSeconds observedAt =>
    [⟨policy,subject,limit,windowSeconds,observedAt⟩]
  | .consume adapter id _ =>
    if secretModel adapter then lookupCalls node adapter e.now db (candidates node adapter.codec id) else []
  | _ => []

section Operations
variable {node : Node} {db next : Db} {adapter : OidcAdapter} {now : Time}

def namedSubjects (adapter : OidcAdapter) (stored : SecretArtifact) : Option (String × RateLimitSubjectCodec) :=
  match member stored.payload "grantId", adapter.rateLimitCodec with
  | some (.str grantId), some subjects => some (grantId,subjects)
  | _, _ => none

section Lookups
variable {lookup : SecretArtifactLookup} {rest : List SecretArtifactLookup} {stored : SecretArtifact}
variable {grantId : String} {subjects : RateLimitSubjectCodec}

theorem namedParts (named : namedSubjects adapter stored = some (grantId,subjects)) :
    member stored.payload "grantId" = some (.str grantId) ∧ adapter.rateLimitCodec = some subjects := by
  unfold namedSubjects at named
  split at named
  · rename_i granted coded
    cases named
    exact ⟨granted,coded⟩
  · cases named

theorem unnamedParts (named : namedSubjects adapter stored = none) (grantId : String) (subjects : RateLimitSubjectCodec)
    (granted : member stored.payload "grantId" = some (.str grantId)) : adapter.rateLimitCodec ≠ some subjects := by
  intro coded
  rw [namedSubjects,granted,coded] at named
  cases named

variable (found : db.secretArtifacts.find? (consumable adapter.model lookup now) = some stored)
include found

theorem consumeNamed (refresh : refreshModel adapter = true) (named : namedSubjects adapter stored = some (grantId,subjects)) :
    consumeLookups node adapter now (lookup :: rest) db = (do
      let subject ← subjects.digest node "oauth.refresh_family" grantId
      let limited := consumeRateLimit "oauth.refresh_family" subject 10 60 now db
      if limited.2 then .ok (consumeAt adapter.model lookup now limited.1,some .consumed)
      else .ok (limited.1,some .rateLimited)) := by
  obtain ⟨granted,coded⟩ := namedParts named
  simp only [consumeLookups,found,if_pos refresh,granted,coded]

theorem callsNamed (refresh : refreshModel adapter = true) (named : namedSubjects adapter stored = some (grantId,subjects)) :
    lookupCalls node adapter now db (lookup :: rest) = match subjects.digest node "oauth.refresh_family" grantId with
      | .ok subject => [⟨"oauth.refresh_family",subject,10,60,now⟩]
      | .error _ => [] := by
  obtain ⟨granted,coded⟩ := namedParts named
  simp only [lookupCalls,found,if_pos refresh,granted,coded]

theorem consumeUnnamed (refresh : refreshModel adapter = true) (named : namedSubjects adapter stored = none) :
    consumeLookups node adapter now (lookup :: rest) db = .ok (db,some .rateLimited) := by
  have parts := unnamedParts named
  simp only [consumeLookups,found,if_pos refresh]

theorem callsUnnamed (refresh : refreshModel adapter = true) (named : namedSubjects adapter stored = none) :
    lookupCalls node adapter now db (lookup :: rest) = [] := by
  have parts := unnamedParts named
  simp only [lookupCalls,found,if_pos refresh]

end Lookups

theorem lookupsCalled {lookups : List SecretArtifactLookup} {out : Option ConsumeOutcome}
    (ok : consumeLookups node adapter now lookups db = .ok (next,out)) :
    next.rateLimitBuckets = (run turn db (lookupCalls node adapter now db lookups)).rateLimitBuckets ∧
    (out = none → lookupCalls node adapter now db lookups = []) := by
  induction lookups with
  | nil =>
    cases ok
    exact ⟨rfl,fun _ => rfl⟩
  | cons lookup rest ih =>
    cases found : db.secretArtifacts.find? (consumable adapter.model lookup now) with
    | none =>
      simp only [consumeLookups,found] at ok
      simp only [lookupCalls,found]
      exact ih ok
    | some stored =>
      by_cases refresh : refreshModel adapter = true
      · cases named : namedSubjects adapter stored with
        | none =>
          rw [consumeUnnamed found refresh named] at ok
          rw [callsUnnamed found refresh named]
          cases ok
          exact ⟨rfl,fun bad => by cases bad⟩
        | some pair =>
          obtain ⟨grantId,subjects⟩ := pair
          rw [consumeNamed found refresh named] at ok
          obtain ⟨subject,hashed,ok⟩ := bindOk.mp ok
          rw [callsNamed found refresh named,hashed]
          dsimp only at ok
          split at ok <;> cases ok
          · exact ⟨rfl,fun bad => by cases bad⟩
          · exact ⟨rfl,fun bad => by cases bad⟩
      · simp only [consumeLookups,found,if_neg refresh] at ok
        simp only [lookupCalls,found,if_neg refresh]
        cases ok
        exact ⟨rfl,fun _ => trivial⟩

theorem lookupsFailed {lookups : List SecretArtifactLookup} {fault : Fault}
    (failed : consumeLookups node adapter now lookups db = .error fault) :
    lookupCalls node adapter now db lookups = [] := by
  induction lookups with
  | nil => rfl
  | cons lookup rest ih =>
    cases found : db.secretArtifacts.find? (consumable adapter.model lookup now) with
    | none =>
      simp only [consumeLookups,found] at failed
      simp only [lookupCalls,found]
      exact ih failed
    | some stored =>
      by_cases refresh : refreshModel adapter = true
      · cases named : namedSubjects adapter stored with
        | none => rw [callsUnnamed found refresh named]
        | some pair =>
          obtain ⟨grantId,subjects⟩ := pair
          rw [consumeNamed found refresh named] at failed
          rw [callsNamed found refresh named]
          rcases bindError failed with unhashed | ⟨subject,-,failed⟩
          · rw [unhashed]
          · dsimp only at failed
            split at failed <;> cases failed
      · simp only [lookupCalls,found,if_neg refresh]

theorem consumeCalled {id : String} {dateNow : Time} {out : ConsumeOutcome} (secret : secretModel adapter = true)
    (ok : consume node adapter id dateNow now db = .ok (next,out)) :
    next.rateLimitBuckets =
      (run turn db (lookupCalls node adapter now db (candidates node adapter.codec id))).rateLimitBuckets := by
  simp only [consume,if_pos secret,bindOk] at ok
  obtain ⟨⟨tried,outcome⟩,looked,ok⟩ := ok
  have called := lookupsCalled looked
  cases outcome with
  | some outcome =>
    cases ok
    exact called.1
  | none =>
    split at ok
    · contradiction
    · have kept : next.rateLimitBuckets = tried.rateLimitBuckets := by
        split at ok
        · exact replayLookupsOnly ok .rateLimitBuckets (by decide)
        · cases ok
          rfl
      rw [kept]
      exact called.1

theorem consumeFailed {id : String} {dateNow : Time} {fault : Fault} (secret : secretModel adapter = true)
    (failed : consume node adapter id dateNow now db = .error fault) :
    lookupCalls node adapter now db (candidates node adapter.codec id) = [] := by
  simp only [consume,if_pos secret] at failed
  rcases bindError failed with early | ⟨⟨tried,outcome⟩,looked,late⟩
  · exact lookupsFailed early
  · cases outcome with
    | some outcome => cases late
    | none => exact (lookupsCalled looked).2 rfl

theorem stepCalled {e : Event} :
    (step node db e).rateLimitBuckets = (run turn db (callsOf node db e)).rateLimitBuckets := by
  by_cases limits : Table.rateLimitBuckets ∈ touches e.op
  · obtain ⟨now,op⟩ := e
    cases op <;> simp only [touches,List.mem_cons,List.not_mem_nil,reduceCtorEq,or_false,or_self] at limits
    case consume adapter id dateNow =>
      simp only [callsOf]
      by_cases secret : secretModel adapter = true
      · rw [if_pos secret]
        cases ran : consume node adapter id dateNow now db with
        | ok pair =>
          have moved : step node db ⟨now,.consume adapter id dateNow⟩ = pair.1 := by
            simp only [step,exec,ran,answered,Except.map,settle]
          rw [moved]
          exact consumeCalled secret ran
        | error fault =>
          have stayed : step node db ⟨now,.consume adapter id dateNow⟩ = db := by
            simp only [step,exec,ran,answered,Except.map,settle]
          rw [stayed,consumeFailed secret ran]
          rfl
      · simp only [step,exec,consume,if_neg secret,answered,Except.map,settle]
        rfl
    case consumeRateLimit policy subject limit windowSeconds observedAt => rfl
    case advanceDeletionJob => exact absurd limits (by decide)
  · have same : (step node db e).rateLimitBuckets = db.rateLimitBuckets := stepOnly .rateLimitBuckets limits
    have none_ : callsOf node db e = [] := by
      obtain ⟨now,op⟩ := e
      cases op <;> first | rfl | exact absurd (by simp [touches]) limits
    rw [same,none_]
    rfl

end Operations

section Systems
variable {node : Node} {policy : Policy} {db next : Db} {log : List (Call × Bool)} {es : List Event}

theorem countingSame (same : next.rateLimitBuckets = db.rateLimitBuckets) (counting : Counting policy db log) :
    Counting policy next log where
  metered := counting.metered
  counters subject start := by
    rw [← counting.counters,counterAt,counterAt,same]

def systemLog (node : Node) (db : Db) (es : List Event) : List (Call × Bool) :=
  collect (step node) (fun db e => answers db (callsOf node db e)) db es

theorem systemCounting (fixed : ∀ e ∈ systemLog node db es, Fixed policy e.1) (counting : Counting policy db log) :
    Counting policy (run (step node) db es) (log ++ systemLog node db es) := by
  induction es generalizing db log with
  | nil =>
    rw [systemLog,collect,List.append_nil]
    exact counting
  | cons e rest ih =>
    rw [systemLog,collect] at fixed ⊢
    have here : ∀ c ∈ callsOf node db e, Fixed policy c := by
      intro c mem
      rw [← answersCalls db (callsOf node db e)] at mem
      obtain ⟨entry,logged,rfl⟩ := List.mem_map.mp mem
      exact fixed entry (List.mem_append_left _ logged)
    have stepped := countingSame stepCalled (runCounting here counting)
    rw [← List.append_assoc]
    exact ih (fun entry logged => fixed entry (List.mem_append_right _ logged)) stepped

/- The same budgets in every run of the system in which a policy keeps its limits. -/
theorem systemMetered (subject : Subject) (fixed : ∀ e ∈ systemLog node Db.empty es, Fixed policy e.1) (start : Time) :
    allowed (inWindow policy subject start) (systemLog node Db.empty es) =
      min policy.limit (asked (inWindow policy subject start) (systemLog node Db.empty es)) ∧
    allowed (inInterval policy subject start) (systemLog node Db.empty es) ≤ 2 * policy.limit := by
  have unused : Unused policy Db.empty := fun b mem => by simp [Db.empty] at mem
  have counting := systemCounting fixed (unusedCounting unused)
  rw [List.nil_append] at counting
  obtain ⟨all,some_⟩ := windowCounted policy subject start (systemLog node Db.empty es)
  rw [all,some_]
  exact ⟨meteredExactly counting.metered _,intervalBounded counting fixed start⟩

end Systems
end Wepuu.RateLimits
