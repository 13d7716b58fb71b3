import Mathlib.Data.List.Sort
import Wepuu.Frames

/-! The rotation of signing keys under one clock: what an operation does to each key, and
how long a key that was active stays in the answers of loadUsable. -/
namespace Wepuu.SigningWindow
open Footprint Frames NodeApi Relational Runs Schema SigningKeys Wepuu.System

structure SigningKeyLifecycleRecord where
  kid : KeyId
  custodyProvider : CustodyProvider
  custodyReference : String
  publicJwk : ProviderPayload
  status : KeyStatus
  deriving DecidableEq, Repr

structure UsableKeys where
  active : SigningKeyLifecycleRecord
  verification : List SigningKeyLifecycleRecord
  deriving DecidableEq, Repr

def lifecycleRecord (k : SigningKey) : SigningKeyLifecycleRecord :=
  ⟨k.kid,k.custodyProvider,k.custodyReference,k.publicJwk,k.status⟩

def loadable (now : Time) (k : SigningKey) : Bool :=
  k.status != .revoked && decide (k.publishAt ≤ now) &&
  (k.status != .active || k.activateAt.any fun at_ => decide (at_ ≤ now)) &&
  (k.status != .retiring || k.retireAt.all fun at_ => decide (now < at_))

def statusRank : KeyStatus → Nat
  | .active => 0
  | .published => 1
  | .retiring | .revoked => 2

/- ORDER BY … publish_at, kid. How the database orders texts is a parameter. -/
def loadedFirst (collation : String → String → Bool) (a b : SigningKey) : Bool :=
  decide (statusRank a.status < statusRank b.status) || statusRank a.status == statusRank b.status &&
    (decide (a.publishAt < b.publishAt) || a.publishAt == b.publishAt && collation a.kid b.kid)

def loadUsable (collation : String → String → Bool) (now : Time) (db : Db) : Except Fault UsableKeys :=
  let records := ((db.signingKeys.filter (loadable now)).insertionSort fun a b =>
    loadedFirst collation a b = true).map lifecycleRecord
  match records.filter fun record => record.status == .active with
  | [active] => .ok ⟨active,records.filter fun record => record.status != .active⟩
  | _ => .error (.thrown "single_active_signing_key_required")

def accessTokenTtl : Int := 300
def clockTolerance : Int := 60

inductive StatusMove : KeyStatus → KeyStatus → Prop
  | activated : StatusMove .published .active
  | retiring : StatusMove .active .retiring
  | retired : StatusMove .retiring .revoked
  | revoked {status : KeyStatus} (usable : status ≠ .revoked) : StatusMove status .revoked

structure KeyMove (now : Time) (k later : SigningKey) : Prop where
  kid : later.kid = k.kid
  publicJwk : later.publicJwk = k.publicJwk
  publishAt : later.publishAt = k.publishAt
  status : later.status = k.status ∨ StatusMove k.status later.status
  activated : k.status ≠ .active → later.status = .active → k.publishAt + minutes 20 ≤ now

structure KeysMove (now : Time) (keys after : List SigningKey) : Prop where
  kept : ∀ k ∈ keys, ∃ later ∈ after, KeyMove now k later
  origin : ∀ later ∈ after, (∃ k ∈ keys, KeyMove now k later) ∨
    (later.status = .published ∧ ∀ k ∈ keys, k.kid ≠ later.kid)

def singleActive (keys : List SigningKey) : Prop := keys.countP (fun k => k.status == .active) ≤ 1

/- The operator and the functions of migrations 005 and 009 read the clock of the transaction. -/
def oneClock (e : Event) : Prop := match e.op with
  | .activateSigningKey _ observedAt | .revokeSigningKey _ observedAt | .retireKey _ observedAt => observedAt = e.now
  | _ => True

instance (e) : Decidable (oneClock e) := by unfold oneClock; split <;> infer_instance

def emergencyRevoke (e : Event) : Bool := match e.op with
  | .revokeSigningKey _ _ => true
  | _ => false

structure CutAt (before after : List Event) (time : Time) : Prop where
  past : ∀ e ∈ before, e.now ≤ time
  future : ∀ e ∈ after, time ≤ e.now

def Usable (collation : String → String → Bool) (now : Time) (db : Db) (k : SigningKey) : Prop :=
  ∃ usable, loadUsable collation now db = .ok usable ∧
    ∃ record ∈ usable.active :: usable.verification, record.kid = k.kid ∧ record.publicJwk = k.publicJwk

section Steps
variable {node : Node} {e : Event} {db next : Db} {target : KeyId} {observedAt : Time}

def rotated (current : Option KeyId) (target : KeyId) (observedAt : Time) (k : SigningKey) : SigningKey :=
  if k.kid == target && k.status == .published then { k with status := .active, activateAt := some observedAt }
  else if some k.kid == current && k.status == .active then
    { k with status := .retiring, retireAt := some (observedAt + minutes 20) }
  else k

def shut (observedAt : Time) (k : SigningKey) : SigningKey := { k with status := .revoked, revokeAt := some observedAt }

def revocable (target : KeyId) (k : SigningKey) : Bool := k.kid == target && k.status != .revoked

def ripe (target : KeyId) (observedAt : Time) (k : SigningKey) : Bool :=
  k.kid == target && k.status == .retiring &&
    (match k.retireAt with
      | some at_ => decide (at_ ≤ observedAt)
      | none => false)

def currentKid (keys : List SigningKey) : Option KeyId := (keys.find? fun k => k.status == .active).map (·.kid)

inductive KeysAfter (e : Event) (keys : List SigningKey) : List SigningKey → Prop
  | same : KeysAfter e keys keys
  | published (row : SigningKey) (status : row.status = .published) (fresh : ∀ k ∈ keys, k.kid ≠ row.kid) :
      KeysAfter e keys (keys ++ [row])
  | activated (target : KeyId) (observedAt : Time) (clock : oneClock e → observedAt = e.now)
      (other : currentKid keys ≠ some target) (ready : ∃ k ∈ keys, activatable target observedAt k = true) :
      KeysAfter e keys (keys.map (rotated (currentKid keys) target observedAt))
  | revoked (target : KeyId) (observedAt : Time) (emergency : emergencyRevoke e = true) :
      KeysAfter e keys (updateWhere (revocable target) (shut observedAt) keys)
  | retired (target : KeyId) (observedAt : Time) (clock : oneClock e → observedAt = e.now) :
      KeysAfter e keys (updateWhere (ripe target observedAt) (shut observedAt) keys)

theorem publishKeys {input : NewKey} (ok : publish input db = .ok next) : ∃ row : SigningKey, row.status = .published ∧
    (∀ k ∈ db.signingKeys, k.kid ≠ row.kid) ∧ next.signingKeys = db.signingKeys ++ [row] := by
  simp only [publish,bindOk,orFailOk] at ok
  obtain ⟨_,_,keys,inserted,last⟩ := ok
  cases last
  obtain ⟨free,rfl⟩ := insertRowExact.mp inserted
  exact ⟨_,rfl,fun k mem same => by simpa [same] using free k mem,rfl⟩

theorem activateKeys : (activateSigningKey target observedAt db).1.signingKeys = db.signingKeys ∨
    (currentKid db.signingKeys ≠ some target ∧ (∃ k ∈ db.signingKeys, activatable target observedAt k = true) ∧
      (activateSigningKey target observedAt db).1.signingKeys =
        db.signingKeys.map (rotated (currentKid db.signingKeys) target observedAt)) := by
  unfold activateSigningKey
  dsimp only
  split
  · exact .inl rfl
  · rename_i goes
    simp only [Bool.or_eq_true,Bool.not_eq_true',not_or,beq_iff_eq,Bool.not_eq_false,List.any_eq_true] at goes
    refine .inr ⟨goes.1,goes.2,?_⟩
    simp only [updateWhere,List.map_map]
    refine List.map_congr_left fun k _ => ?_
    -- A row that the first update retires is not published, so the second one skips it.
    simp only [Function.comp,rotated,currentKid]
    by_cases published : (k.kid == target && k.status == .published) = true
    · have passive : (k.status == .active) = false := by
        simp only [Bool.and_eq_true,beq_iff_eq] at published
        simp [published.2]
      simp [published,passive]
    · by_cases current : (some k.kid == currentKid db.signingKeys && k.status == .active) = true
      · simp only [currentKid] at current
        simp [published,current]
      · simp only [currentKid] at current
        simp [published,current]

theorem announceKeys {sites : List Site} {now : Time} (ok : announceKey target now sites db = .ok next) :
    next.signingKeys = db.signingKeys := by
  induction sites generalizing db with
  | nil =>
    cases ok
    rfl
  | cons s rest ih =>
    simp only [announceKey,bindOk] at ok
    obtain ⟨mid,inserted,later⟩ := ok
    exact (ih later).trans (insertEventOnly inserted .signingKeys (by decide))

theorem stepKeys : KeysAfter e db.signingKeys (step node db e).signingKeys := by
  by_cases touched : Table.signingKeys ∈ touches e.op
  · rcases settleCases db (exec node e db) with same | ⟨next,reply,ok,done⟩
    · rw [step,same]
      exact .same
    · obtain ⟨now,op⟩ := e
      rw [step,done]
      cases op <;> simp only [touches,deletionTables,List.mem_cons,List.not_mem_nil,or_false,reduceCtorEq] at touched
      case publishKey input =>
        obtain ⟨row,status,fresh,shape⟩ := publishKeys (silentOk ok)
        rw [shape]
        exact .published row status fresh
      case activateSigningKey target observedAt =>
        obtain ⟨_,made,_⟩ := answeredOk ok
        have after : (activateSigningKey target observedAt db).1 = next := congrArg Prod.fst (Except.ok.inj made)
        rw [← after]
        rcases @activateKeys db target observedAt with same | ⟨other,ready,shape⟩
        · rw [same]
          exact .same
        · rw [shape]
          exact .activated target observedAt id other ready
      case revokeSigningKey target observedAt =>
        obtain ⟨_,made,_⟩ := answeredOk ok
        unfold revokeSigningKey at made
        dsimp only at made
        split at made
        · simp only [bindOk] at made
          obtain ⟨announced,events,last⟩ := made
          cases last
          rw [announceKeys events]
          exact .revoked target observedAt rfl
        · cases made
          exact .same
      case retireKey target observedAt =>
        cases ok
        exact .retired target observedAt id
  · have same : (step node db e).signingKeys = db.signingKeys := stepOnly .signingKeys touched
    rw [same]
    exact .same

end Steps

section Invariant
variable {e : Event} {keys after : List SigningKey} {now : Time} {target : KeyId} {observedAt : Time}

def sameKid (a b : SigningKey) : Bool := a.kid == b.kid

theorem publishedBefore {publishAt observedAt now : Time} (waited : publishAt + minutes 20 ≤ observedAt)
    (past : observedAt ≤ now) : publishAt ≤ now := by
  have positive : (0 : Int) ≤ minutes 20 := by decide
  exact (Int.le_add_of_nonneg_right positive).trans (waited.trans past)

theorem sameKidSymm (a b : SigningKey) : sameKid a b = sameKid b a := by
  simp only [sameKid,Bool.beq_comm (a := a.kid)]

structure KeysOk (now : Time) (keys : List SigningKey) : Prop where
  kids : Indexed sameKid keys
  single : ∀ a ∈ keys, ∀ b ∈ keys, a.status = .active → b.status = .active → a.kid = b.kid
  begun : ∀ k ∈ keys, k.status = .active → ∃ at_, k.activateAt = some at_ ∧ at_ ≤ now
  shown : ∀ k ∈ keys, k.status = .active ∨ k.status = .retiring → k.publishAt ≤ now

theorem keyAlone (ok : KeysOk now keys) {a b : SigningKey} (left : a ∈ keys) (right : b ∈ keys)
    (same : a.kid = b.kid) : a = b := indexedEq ok.kids sameKidSymm left right (by simp [sameKid,same])

theorem keyStays (now : Time) (k : SigningKey) : KeyMove now k k :=
  ⟨rfl,rfl,rfl,.inl rfl,fun idle active => absurd active idle⟩

theorem mapMove {f : SigningKey → SigningKey} (moves : ∀ k ∈ keys, KeyMove now k (f k)) : KeysMove now keys (keys.map f) where
  kept k mem := ⟨f k,List.mem_map_of_mem mem,moves k mem⟩
  origin later mem := by
    obtain ⟨k,hk,rfl⟩ := List.mem_map.mp mem
    exact .inl ⟨k,hk,moves k hk⟩

theorem rotatedMove (ok : KeysOk now keys) (ready : ∃ k ∈ keys, activatable target observedAt k = true)
    {current : Option KeyId} {k : SigningKey} (mem : k ∈ keys) : KeyMove observedAt k (rotated current target observedAt k) := by
  obtain ⟨row,hrow,can⟩ := ready
  simp only [activatable,Bool.and_eq_true,beq_iff_eq,decide_eq_true_eq] at can
  obtain ⟨⟨⟨kid,_⟩,_⟩,aged⟩ := can
  unfold rotated
  split
  · rename_i chosen
    simp only [Bool.and_eq_true,beq_iff_eq] at chosen
    have same : k = row := keyAlone ok mem hrow (chosen.1.trans kid.symm)
    subst same
    have waited : k.publishAt + minutes 20 ≤ observedAt := Int.add_le_of_le_sub_right aged
    exact ⟨rfl,rfl,rfl,.inr (by rw [chosen.2]; exact .activated),fun _ _ => waited⟩
  · split
    · rename_i chosen
      simp only [Bool.and_eq_true,beq_iff_eq] at chosen
      exact ⟨rfl,rfl,rfl,.inr (by rw [chosen.2]; exact .retiring),fun idle _ => absurd chosen.2 idle⟩
    · exact keyStays _ k

theorem shutMove {p : SigningKey → Bool} (usable : ∀ k, p k = true → k.status ≠ .revoked) (k : SigningKey) :
    KeyMove now k (if p k then shut observedAt k else k) := by
  by_cases chosen : p k = true
  · rw [if_pos chosen]
    exact ⟨rfl,rfl,rfl,.inr (.revoked (usable k chosen)),fun _ active => (by cases active)⟩
  · rw [if_neg chosen]
    exact keyStays _ k

theorem ripeUsable (k : SigningKey) (chosen : ripe target observedAt k = true) : k.status ≠ .revoked := by
  intro revoked
  simp [ripe,revoked] at chosen

theorem afterMove (ok : KeysOk now keys) (clock : oneClock e) (change : KeysAfter e keys after) :
    KeysMove e.now keys after := by
  cases change with
  | same => exact ⟨fun k mem => ⟨k,mem,keyStays _ k⟩,fun k mem => .inl ⟨k,mem,keyStays _ k⟩⟩
  | published row status fresh =>
    refine ⟨fun k mem => ⟨k,List.mem_append_left _ mem,keyStays _ k⟩,fun later mem => ?_⟩
    rcases List.mem_append.mp mem with old | new
    · exact .inl ⟨later,old,keyStays _ later⟩
    · rw [List.mem_singleton.mp new]
      exact .inr ⟨status,fresh⟩
  | activated target observedAt clocked _ ready =>
    rw [← clocked clock]
    exact mapMove fun k mem => rotatedMove ok ready mem
  | revoked target observedAt _ =>
    refine mapMove fun k _ => shutMove (fun k chosen => ?_) k
    simp only [revocable,Bool.and_eq_true,bne_iff_ne] at chosen
    exact chosen.2
  | retired target observedAt _ => exact mapMove fun k _ => shutMove ripeUsable k

theorem keysEmpty (now : Time) : KeysOk now [] where
  kids := indexedNil _
  single _ mem := absurd mem List.not_mem_nil
  begun _ mem := absurd mem List.not_mem_nil
  shown _ mem := absurd mem List.not_mem_nil

theorem rotatedKid (current : Option KeyId) (k : SigningKey) : (rotated current target observedAt k).kid = k.kid := by
  unfold rotated
  split
  · rfl
  · split <;> rfl

theorem rotatedActive (ok : KeysOk now keys) {k : SigningKey} (mem : k ∈ keys)
    (active : (rotated (currentKid keys) target observedAt k).status = .active) :
    k.kid = target ∧ (rotated (currentKid keys) target observedAt k).activateAt = some observedAt := by
  unfold rotated at active ⊢
  split at active
  · rename_i chosen
    rw [if_pos chosen]
    simp only [Bool.and_eq_true,beq_iff_eq] at chosen
    exact ⟨chosen.1,rfl⟩
  · split at active
    · cases active
    · rename_i skipped
      exfalso
      apply skipped
      have found : (keys.find? fun k => k.status == .active).isSome = true :=
        List.find?_isSome.mpr ⟨k,mem,by simp [active]⟩
      obtain ⟨first,found⟩ := Option.isSome_iff_exists.mp found
      have isActive : first.status = .active := by simpa using List.find?_some found
      have same := ok.single k mem first (List.mem_of_find?_eq_some found) active isActive
      simp [currentKid,found,same,active]

theorem rotatedOk (ok : KeysOk now keys) (ready : ∃ k ∈ keys, activatable target observedAt k = true)
    (past : observedAt ≤ now) : KeysOk now (keys.map (rotated (currentKid keys) target observedAt)) where
  kids := by
    refine List.pairwise_map.mpr (List.Pairwise.imp (fun free => ?_) ok.kids)
    simpa [sameKid,rotatedKid] using free
  single := by
    intro a left b right leftActive rightActive
    obtain ⟨k,hk,rfl⟩ := List.mem_map.mp left
    obtain ⟨l,hl,rfl⟩ := List.mem_map.mp right
    rw [rotatedKid,rotatedKid,(rotatedActive ok hk leftActive).1,(rotatedActive ok hl rightActive).1]
  begun := by
    intro k mem active
    obtain ⟨l,hl,rfl⟩ := List.mem_map.mp mem
    exact ⟨observedAt,(rotatedActive ok hl active).2,past⟩
  shown := by
    intro k mem live
    obtain ⟨l,hl,rfl⟩ := List.mem_map.mp mem
    have move := @rotatedMove keys now target observedAt ok ready (currentKid keys) l hl
    rw [move.publishAt]
    by_cases idle : l.status = .active ∨ l.status = .retiring
    · exact ok.shown l hl idle
    · -- A key that was neither has just become active, long after its publication.
      have fresh : (rotated (currentKid keys) target observedAt l).status = .active := by
        rcases live with active | retiring
        · exact active
        · rcases move.status with same | moved
          · rw [retiring] at same
            exact absurd (.inr same.symm) idle
          · rw [retiring] at moved
            generalize before : l.status = status at moved
            cases moved
            exact absurd (.inl before) idle
      have waited := move.activated (fun was => idle (.inl was)) fresh
      exact publishedBefore waited past

theorem shutOk {p : SigningKey → Bool} (ok : KeysOk now keys) : KeysOk now (updateWhere p (shut observedAt) keys) := by
  have origin : ∀ k ∈ updateWhere p (shut observedAt) keys, k.status ≠ .revoked → k ∈ keys := by
    intro k mem open_
    obtain ⟨l,hl,rfl⟩ := memUpdateWhere.mp mem
    by_cases chosen : p l = true
    · rw [if_pos chosen] at open_
      exact absurd rfl open_
    · rw [if_neg chosen]
      exact hl
  refine ⟨indexedUpdate ok.kids fun a b hit => ?_,?_,?_,?_⟩
  · have kid : ∀ k : SigningKey, (if p k then shut observedAt k else k).kid = k.kid := columnKept fun _ => rfl
    simpa [sameKid,kid] using hit
  · intro a left b right leftActive rightActive
    exact ok.single a (origin a left (by simp [leftActive])) b (origin b right (by simp [rightActive])) leftActive rightActive
  · intro k mem active
    exact ok.begun k (origin k mem (by simp [active])) active
  · intro k mem live
    refine ok.shown k (origin k mem ?_) live
    rcases live with active | retiring
    · simp [active]
    · simp [retiring]

theorem afterOk (ok : KeysOk now keys) (clock : oneClock e) (past : e.now ≤ now) (change : KeysAfter e keys after) :
    KeysOk now after := by
  cases change with
  | same => exact ok
  | published row status fresh =>
    have origin : ∀ k ∈ keys ++ [row], k.status ≠ .published → k ∈ keys := by
      intro k mem open_
      rcases List.mem_append.mp mem with old | new
      · exact old
      · rw [List.mem_singleton.mp new] at open_
        exact absurd status open_
    refine ⟨indexedAppend ok.kids sameKidSymm fun k mem => ?_,?_,?_,?_⟩
    · exact beq_false_of_ne (fresh k mem).symm
    · intro a left b right leftActive rightActive
      exact ok.single a (origin a left (by simp [leftActive])) b (origin b right (by simp [rightActive])) leftActive
        rightActive
    · intro k mem active
      exact ok.begun k (origin k mem (by simp [active])) active
    · intro k mem live
      refine ok.shown k (origin k mem ?_) live
      rcases live with active | retiring
      · simp [active]
      · simp [retiring]
  | activated target observedAt clocked _ ready =>
    refine rotatedOk ok ready ?_
    rw [clocked clock]
    exact past
  | revoked target observedAt _ => exact shutOk ok
  | retired target observedAt _ => exact shutOk ok

end Invariant

section Window
variable {e : Event} {keys after : List SigningKey} {now until_ : Time} {k : SigningKey}

structure Held (until_ : Time) (k : SigningKey) (keys : List SigningKey) : Prop where
  active : ∃ a ∈ keys, a.status = .active
  key : ∃ later ∈ keys, later.kid = k.kid ∧ later.publicJwk = k.publicJwk ∧
    (later.status = .active ∨ later.status = .retiring ∧ ∃ at_, later.retireAt = some at_ ∧ until_ ≤ at_)

theorem rotatedHeld {current : Option KeyId} {target : KeyId} {observedAt : Time} {later : SigningKey}
    (kid : later.kid = k.kid) (jwk : later.publicJwk = k.publicJwk)
    (status : later.status = .active ∨ later.status = .retiring ∧ ∃ at_, later.retireAt = some at_ ∧ until_ ≤ at_)
    (fits : until_ ≤ observedAt + minutes 20) :
    let moved := rotated current target observedAt later
    moved.kid = k.kid ∧ moved.publicJwk = k.publicJwk ∧
      (moved.status = .active ∨ moved.status = .retiring ∧ ∃ at_, moved.retireAt = some at_ ∧ until_ ≤ at_) := by
  dsimp only [rotated]
  split
  · exact ⟨kid,jwk,.inl rfl⟩
  · split
    · exact ⟨kid,jwk,.inr ⟨rfl,_,rfl,fits⟩⟩
    · exact ⟨kid,jwk,status⟩

theorem activeUnripe {target : KeyId} {observedAt : Time} {a : SigningKey} (active : a.status = .active) :
    ripe target observedAt a = false := by
  simp [ripe,active]

theorem heldAfter (held : Held until_ k keys) (clock : oneClock e) (calm : emergencyRevoke e = false)
    (early : e.now < until_) (fits : until_ ≤ e.now + minutes 20) (change : KeysAfter e keys after) :
    Held until_ k after := by
  obtain ⟨⟨a,ha,active⟩,later,hl,kid,jwk,status⟩ := held
  cases change with
  | same => exact ⟨⟨a,ha,active⟩,later,hl,kid,jwk,status⟩
  | published row _ _ =>
    exact ⟨⟨a,List.mem_append_left _ ha,active⟩,later,List.mem_append_left _ hl,kid,jwk,status⟩
  | activated target observedAt clocked _ ready =>
    obtain ⟨row,hrow,can⟩ := ready
    simp only [activatable,Bool.and_eq_true] at can
    refine ⟨⟨_,List.mem_map_of_mem hrow,?_⟩,_,List.mem_map_of_mem hl,rotatedHeld kid jwk status ?_⟩
    · rw [rotated,if_pos (by simp only [can.1.1,Bool.and_self])]
    · rw [clocked clock]
      exact fits
  | revoked target observedAt emergency =>
    rw [calm] at emergency
    contradiction
  | retired target observedAt clocked =>
    refine ⟨⟨a,untouchedRow ha (activeUnripe active),active⟩,later,untouchedRow hl ?_,kid,jwk,status⟩
    rcases status with active | ⟨_,at_,retires,kept⟩
    · exact activeUnripe active
    · -- It would have to retire before its time.
      have open_ : ¬at_ ≤ observedAt := by
        rw [clocked clock]
        exact not_le_of_gt (lt_of_lt_of_le early kept)
      simp [ripe,retires,open_]

theorem filterAlone {α : Type} {p : α → Bool} {rows : List α} {a : α} (nodup : rows.Nodup) (mem : a ∈ rows)
    (chosen : p a = true) (alone : ∀ b ∈ rows, p b = true → b = a) : rows.filter p = [a] := by
  have unique : (rows.filter p).Nodup := nodup.filter p
  have only : ∀ b ∈ rows.filter p, b = a := fun b hb => alone b (List.mem_of_mem_filter hb) (List.of_mem_filter hb)
  have here : a ∈ rows.filter p := List.mem_filter.mpr ⟨mem,chosen⟩
  generalize rows.filter p = chosenRows at unique only here
  match chosenRows, unique, only, here with
  | [b], _, only, _ => rw [only b (List.mem_singleton_self b)]
  | b :: c :: rest, unique, only, _ =>
    have same : b = c := (only b (by simp)).trans (only c (by simp)).symm
    exact absurd (by simp [same]) (List.nodup_cons.mp unique).1

theorem keysNodup (ok : KeysOk now keys) : keys.Nodup :=
  List.Pairwise.imp (fun {a b} (free : sameKid a b = false) same => by simp [sameKid,same] at free) ok.kids

theorem activeAlone (ok : KeysOk now keys) {a : SigningKey} (mem : a ∈ keys) (active : a.status = .active)
    {b : SigningKey} (other : b ∈ keys) (also : b.status = .active) : b = a :=
  keyAlone ok other mem (ok.single b other a mem also active)

theorem singleOk (ok : KeysOk now keys) : singleActive keys := by
  refine indexedCount ok.kids fun a left b right leftActive rightActive => ?_
  have same := ok.single a left b right (by simpa using leftActive) (by simpa using rightActive)
  simp [sameKid,same]

theorem activeLoadable (ok : KeysOk now keys) {a : SigningKey} (mem : a ∈ keys) (active : a.status = .active) :
    loadable now a = true := by
  obtain ⟨at_,activated,past⟩ := ok.begun a mem active
  have shown := ok.shown a mem (.inl active)
  simp [loadable,active,activated,past,shown]

theorem retiringLoadable (ok : KeysOk now keys) {a : SigningKey} (mem : a ∈ keys) (retiring : a.status = .retiring)
    {at_ : Time} (retires : a.retireAt = some at_) (early : now < at_) : loadable now a = true := by
  have shown := ok.shown a mem (.inr retiring)
  simp [loadable,retiring,retires,early,shown]

theorem heldUsable {db : Db} (ok : KeysOk now db.signingKeys) (held : Held until_ k db.signingKeys) (early : now < until_)
    (collation : String → String → Bool) : Usable collation now db k := by
  obtain ⟨⟨a,ha,active⟩,later,hl,kid,jwk,status⟩ := held
  let loaded := (db.signingKeys.filter (loadable now)).insertionSort fun a b => loadedFirst collation a b = true
  have sorted : ∀ b, b ∈ loaded ↔ b ∈ db.signingKeys ∧ loadable now b = true := by
    intro b
    rw [(List.perm_insertionSort _ _).mem_iff,List.mem_filter]
  have nodup : loaded.Nodup := (List.perm_insertionSort _ _).nodup_iff.mpr ((keysNodup ok).filter _)
  have one : (loaded.map lifecycleRecord).filter (fun record => record.status == .active) = [lifecycleRecord a] := by
    rw [List.filter_map]
    have rows : loaded.filter ((fun record => record.status == .active) ∘ lifecycleRecord) = [a] := by
      refine filterAlone nodup ((sorted a).mpr ⟨ha,activeLoadable ok ha active⟩) ?_ fun b hb also => ?_
      · simp [lifecycleRecord,active]
      · exact activeAlone ok ha active ((sorted b).mp hb).1 (by simpa [lifecycleRecord] using also)
    rw [rows]
    rfl
  refine ⟨⟨lifecycleRecord a,(loaded.map lifecycleRecord).filter fun record => record.status != .active⟩,?_,
    lifecycleRecord later,?_,kid,jwk⟩
  · unfold loadUsable
    dsimp only
    rw [one]
  · rcases status with isActive | ⟨retiring,at_,retires,kept⟩
    · rw [activeAlone ok ha active hl isActive]
      exact List.mem_cons_self
    · refine List.mem_cons_of_mem _ (List.mem_filter.mpr ⟨List.mem_map_of_mem ?_,?_⟩)
      · exact (sorted later).mpr ⟨hl,retiringLoadable ok hl retiring retires (lt_of_lt_of_le early kept)⟩
      · simp [lifecycleRecord,retiring]

end Window

section Runs
variable {node : Node}

theorem keysReached {es : List Event} {now : Time} {db : Db} (ok : KeysOk now db.signingKeys)
    (clock : ∀ e ∈ es, oneClock e) (past : ∀ e ∈ es, e.now ≤ now) :
    KeysOk now (run (step node) db es).signingKeys := by
  induction es generalizing db with
  | nil => exact ok
  | cons e es ih =>
    have next := afterOk ok (clock e List.mem_cons_self) (past e List.mem_cons_self) (@stepKeys node e db)
    exact ih next (fun o mem => clock o (List.mem_cons_of_mem _ mem)) fun o mem => past o (List.mem_cons_of_mem _ mem)

theorem heldReached {es : List Event} {until_ : Time} {k : SigningKey} {db : Db} (held : Held until_ k db.signingKeys)
    (clock : ∀ e ∈ es, oneClock e) (calm : ∀ e ∈ es, emergencyRevoke e = false)
    (within : ∀ e ∈ es, e.now < until_ ∧ until_ ≤ e.now + minutes 20) :
    Held until_ k (run (step node) db es).signingKeys := by
  induction es generalizing db with
  | nil => exact held
  | cons e es ih =>
    obtain ⟨early,fits⟩ := within e List.mem_cons_self
    have next := heldAfter held (clock e List.mem_cons_self) (calm e List.mem_cons_self) early fits (@stepKeys node e db)
    exact ih next (fun o mem => clock o (List.mem_cons_of_mem _ mem)) (fun o mem => calm o (List.mem_cons_of_mem _ mem))
      fun o mem => within o (List.mem_cons_of_mem _ mem)

theorem latestOf (es : List Event) : ∃ latest, ∀ e ∈ es, e.now ≤ latest := by
  induction es with
  | nil => exact ⟨0,fun e mem => absurd mem List.not_mem_nil⟩
  | cons e es ih =>
    obtain ⟨latest,bound⟩ := ih
    refine ⟨max e.now latest,fun o mem => ?_⟩
    rcases List.mem_cons.mp mem with rfl | later
    · exact le_max_left _ _
    · exact (bound o later).trans (le_max_right _ _)

/- At every cut of a run; between the two cuts no key is revoked in an emergency. -/
theorem keysRotate (node : Node) (before after : List Event) (clock : ∀ e ∈ before ++ after, oneClock e) :
    let db := run (step node) Db.empty before
    singleActive db.signingKeys ∧
    (∀ e rest, after = e :: rest → KeysMove e.now db.signingKeys (step node db e).signingKeys) ∧
    ∀ mid rest, after = mid ++ rest → (∀ e ∈ mid, emergencyRevoke e = false) →
      ∀ time later, CutAt before after time → CutAt (before ++ mid) rest later → time ≤ later →
      later < time + minutes 20 ∨ later ≤ time + seconds (accessTokenTtl + clockTolerance) →
      ∀ k ∈ db.signingKeys, k.status = .active → ∀ collation, Usable collation later (run (step node) db mid) k := by
  intro db
  have known : ∀ e ∈ before, oneClock e := fun e mem => clock e (List.mem_append_left _ mem)
  have reached : ∀ now, (∀ e ∈ before, e.now ≤ now) → KeysOk now db.signingKeys := fun now past =>
    @keysReached node before now Db.empty (keysEmpty now) known past
  obtain ⟨latest,bound⟩ := latestOf before
  refine ⟨singleOk (reached latest bound),?_,?_⟩
  · rintro e rest rfl
    exact afterMove (reached latest bound) (clock e (by simp)) (@stepKeys node e db)
  · rintro mid rest rfl calm time later first second _ window k mem active collation
    have clocked : ∀ e ∈ mid, oneClock e := fun e inMid => clock e (by simp [inMid])
    have early : later < time + minutes 20 := by
      rcases window with within | token
      · exact within
      · have short : seconds (accessTokenTtl + clockTolerance) < minutes 20 := by decide
        exact lt_of_le_of_lt token (Int.add_lt_add_left short time)
    have past : ∀ e ∈ mid, e.now ≤ later := fun e inMid => second.past e (List.mem_append_right _ inMid)
    have ok : KeysOk later (run (step node) db mid).signingKeys :=
      keysReached (reached later fun e inBefore => second.past e (List.mem_append_left _ inBefore)) clocked past
    refine heldUsable ok (heldReached ⟨⟨k,mem,active⟩,k,mem,rfl,rfl,.inl active⟩ clocked calm fun e inMid => ?_) early collation
    exact ⟨lt_of_le_of_lt (past e inMid) early,Int.add_le_add_right (first.future e (List.mem_append_left _ inMid)) _⟩

end Runs

def rsaJwk : ProviderPayload := [("kty",.str "RSA"),("alg",.str "RS256"),("use",.str "sig"),("n",.str "modulus_0001")]
def firstKey : NewKey := ⟨"rsa_key_0001",.localPkcs8,"first",rsaJwk,0⟩
def secondKey : NewKey := ⟨"rsa_key_0002",.localPkcs8,"second",rsaJwk,minutes 2⟩

def firstRotation : List Event :=
  [⟨0,.publishKey firstKey⟩,⟨minutes 2,.publishKey secondKey⟩,
    ⟨minutes 22,.activateSigningKey "rsa_key_0001" (minutes 22)⟩]
def secondRotation : List Event :=
  [⟨minutes 22,.activateSigningKey "rsa_key_0002" (minutes 22)⟩,⟨minutes 41,.retireKey "rsa_key_0001" (minutes 41)⟩]
def lastRetirement : List Event := [⟨minutes 42,.retireKey "rsa_key_0001" (minutes 42)⟩]

def firstActive : SigningKey := ⟨"rsa_key_0001",.localPkcs8,"first",rsaJwk,.active,0,some (minutes 22),none,none⟩

theorem firstKeyRotated : Usable (fun _ _ => true) (minutes 41)
    (run (step (sampleNode [] [])) Db.empty (firstRotation ++ secondRotation)) firstActive := by
  have window := (keysRotate (sampleNode [] []) firstRotation (secondRotation ++ lastRetirement) (by decide)).2.2
    secondRotation lastRetirement rfl (by decide) (minutes 22) (minutes 41) ⟨by decide,by decide⟩ ⟨by decide,by decide⟩
    (by decide) (.inl (by decide)) firstActive (by decide) rfl fun _ _ => true
  rw [runAppend]
  exact window

end Wepuu.SigningWindow
