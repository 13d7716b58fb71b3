import Wepuu.GrantLifecycle
import Wepuu.Secrets

/-! Refresh tokens of a revoked grant. revoke_refresh_grant expires the tokens of the
grant it revokes; the other revocations leave them as they are, and storing a token never
looks at its grant. Watching one grant over a run says when its tokens stay down. -/
namespace Wepuu.RefreshRevocation
open Artifacts Footprint GrantLifecycle Grants NodeApi Outbox Relational Runs Schema Secrets Statements
open Wepuu.System

/- A run with the time it has reached and whether the grant was ever seen revoked. -/
structure Watch where
  db : Db
  ended : Bool
  clock : Time

def seenRevoked (grantId : GrantId) (db : Db) : Bool :=
  db.grants.any fun g => g.id == grantId && g.status == .revoked

def watchStep (node : Node) (grantId : GrantId) (w : Watch) (e : Event) : Watch where
  db := step node w.db e
  ended := w.ended || seenRevoked grantId (step node w.db e)
  clock := e.now

def started (at_ : Time) : Watch := ⟨Db.empty,false,at_⟩

def TokensDown (node : Node) (grantId : GrantId) (w : Watch) : Prop :=
  ∀ now, w.clock ≤ now → ∀ adapter, refreshModel adapter = true →
    (∀ id payload, find node adapter id now w.db = some payload → memberText payload "grantId" ≠ some grantId) ∧
    ∀ id dateNow next, consume node adapter id dateNow now w.db = .ok (next,.consumed) →
      next.secretArtifacts.filter (refreshArtifactOf grantId) =
        w.db.secretArtifacts.filter (refreshArtifactOf grantId)

def usableToken (grantId : GrantId) (now : Time) (a : SecretArtifact) : Bool :=
  refreshArtifactOf grantId a && unexpired now a.expiresAt

def revokesHere (node : Node) (grantId : GrantId) (db : Db) (e : Event) : Bool :=
  db.grants.any (fun g => g.id == grantId && g.live) && seenRevoked grantId (step node db e)

/- What a step has to respect for the tokens of the grant to stay down: time goes on, no
usable token is stored once the grant is over, and the operations that do not expire its
tokens revoke it only when it has none. -/
def keepsTokensDown (node : Node) (grantId : GrantId) (w : Watch) (e : Event) : Bool :=
  decide (w.clock ≤ e.now) && match e.op with
  | .upsert adapter id payload expiresIn dateNow =>
    !(w.ended && (storedRow node adapter id payload expiresIn dateNow).any
      fun row => row.check && usableToken grantId e.now row)
  | .revokeRefreshGrant _ observedAt _ => decide (observedAt ≤ e.now)
  | .consume _ _ _ | .revokeByGrantId _ _ _ => true
  | _ => !(revokesHere node grantId w.db e && w.db.secretArtifacts.any (usableToken grantId e.now))

theorem unexpiredLater {first later : Time} {expiresAt : Option Time} (order : first ≤ later)
    (past : unexpired first expiresAt = false) : unexpired later expiresAt = false := by
  cases expiresAt with
  | none => simp [unexpired] at past
  | some at_ =>
    simp only [unexpired,decide_eq_false_iff_not] at past ⊢
    exact fun ahead => past (Int.lt_of_le_of_lt order ahead)

theorem unexpiredSet {now t : Time} (order : t ≤ now) : unexpired now (some t) = false := by
  simp only [unexpired,decide_eq_false_iff_not]
  exact Int.not_lt.mpr order

theorem sameRefreshArtifact {grantId : GrantId} {a b : SecretArtifact} (same : SameSecret a b) :
    refreshArtifactOf grantId b = refreshArtifactOf grantId a := by
  simp only [refreshArtifactOf,same.model,same.payload]

def Revoked (grantId : GrantId) (db next : Db) : Prop :=
  (∃ g ∈ db.grants, g.id = grantId ∧ g.live = true) ∧ ∃ r ∈ next.grants, r.id = grantId ∧ r.status = .revoked

section Revoking
variable {grantId : GrantId} {db next : Db}

theorem revokedWithin {ends : Grant → Prop} (wf : WellFormed db) (writes : Writes (ending ends) db next)
    (revoked : Revoked grantId db next) : ∃ o : Grant, o.id = grantId ∧ ends o := by
  obtain ⟨⟨g,hg,named,live⟩,r,hr,same,ended⟩ := revoked
  obtain ⟨o,moved,ended⟩ := revokedInScope wf hg live writes (fun _ opened => opened) hr (same.trans named.symm) ended
  exact ⟨o,(advancesKeeps moved).id.trans named,ended⟩

theorem notRevoked (wf : WellFormed db) (writes : Writes (ending fun _ => False) db next)
    (revoked : Revoked grantId db next) : False := by
  obtain ⟨_,_,never⟩ := revokedWithin wf writes revoked
  exact never

def Expired (grantId : GrantId) (now : Time) (db : Db) : Prop :=
  ∀ a ∈ db.secretArtifacts, refreshArtifactOf grantId a = true → unexpired now a.expiresAt = false

theorem refreshGrantExpires {target : GrantId} {observedAt now : Time} {reason : String} {flag : Bool}
    (wf : WellFormed db) (past : observedAt ≤ now)
    (ok : revokeRefreshGrant target observedAt reason now db = .ok (next,flag))
    (revoked : Revoked grantId db next) : target = grantId ∧ Expired grantId now next := by
  have writes : Writes (ending fun o => o.id = target) db next :=
    revokeRefreshGrantWrites (fun _ named => named) trivial ok
  obtain ⟨o,named,aimed⟩ := revokedWithin wf writes revoked
  have same : target = grantId := aimed.symm.trans named
  subst same
  refine ⟨rfl,?_⟩
  have moved : ∀ d : Db, d.secretArtifacts = (updateWhere (refreshArtifactOf target)
      (fun a => { a with expiresAt := some observedAt }) db.secretArtifacts) → Expired target now d := by
    intro d rows b mem hit
    rw [rows] at mem
    obtain ⟨a,ha,rfl⟩ := memUpdateWhere.mp mem
    by_cases chosen : refreshArtifactOf target a = true
    · rw [if_pos chosen]
      exact unexpiredSet past
    · rw [if_neg chosen] at hit
      exact absurd hit chosen
  unfold revokeRefreshGrant at ok
  split at ok
  · rename_i none
    obtain ⟨⟨g,hg,gid,_⟩,_⟩ := revoked
    have absent := List.find?_eq_none.mp none g hg
    simp [gid] at absent
  · split at ok
    · simp only [bindOk,orFailOk] at ok
      obtain ⟨site,_,emitted,he,last⟩ := ok
      cases last
      obtain ⟨_,rfl⟩ := insertEventExact (by exact wf.numbered) he
      exact moved _ rfl
    · cases ok
      exact moved _ rfl

theorem consumeExpires {node : Node} {adapter : OidcAdapter} {id : String} {dateNow now : Time}
    {out : ConsumeOutcome} (wf : WellFormed db) (ok : consume node adapter id dateNow now db = .ok (next,out))
    (revoked : Revoked grantId db next) : Expired grantId now next := by
  by_cases secret : secretModel adapter = true
  · rcases consumeCases secret ok with tried | ⟨_,⟨_,replayed⟩ | ⟨_,rfl⟩⟩
    · exact (notRevoked wf (consumeLookupsWrites tried) revoked).elim
    · rcases replayLookupsCases replayed with ⟨_,rfl⟩ | ⟨_,_,_,_,_,_,hr⟩
      · exact (notRevoked wf .refl revoked).elim
      · exact (refreshGrantExpires wf (Int.le_refl _) hr revoked).2
    · exact (notRevoked wf .refl revoked).elim
  · unfold consume at ok
    rw [if_neg secret] at ok
    cases ok
    refine (notRevoked wf (elsewhereWrites ?_) revoked).elim
    exact ⟨rfl,rfl,rfl,rfl,rfl,rfl,fun _ known => known⟩

theorem revokeByGrantIdExpires {adapter : OidcAdapter} {reason : GrantRevocationReason} {target : GrantId}
    {now : Time} (wf : WellFormed db) (ok : revokeByGrantId adapter reason target now db = .ok next)
    (revoked : Revoked grantId db next) : Expired grantId now next := by
  simp only [revokeByGrantId,bindOk] at ok
  obtain ⟨⟨after,flag⟩,hr,last⟩ := ok
  cases last
  unfold revokePlatformGrant at hr
  split at hr
  · obtain ⟨rfl,_⟩ := refreshGrantExpires wf (Int.le_refl _) hr revoked
    intro a mem hit
    obtain ⟨_,kept⟩ := memDeleteWhere.mp mem
    simp only [refreshArtifactOf,Bool.and_eq_true] at hit
    rw [hit.2] at kept
    contradiction
  · cases hr
    exact (notRevoked wf .refl revoked).elim

end Revoking

structure Down (grantId : GrantId) (w : Watch) : Prop where
  wf : WellFormed w.db
  fresh : w.ended = false → seenRevoked grantId w.db = false
  down : w.ended = true → Expired grantId w.clock w.db

section Watching
variable {node : Node} {grantId : GrantId} {w : Watch} {e : Event}

theorem firstRevoked (inv : Down grantId w) (open_ : w.ended = false)
    (seen : seenRevoked grantId (step node w.db e) = true) : Revoked grantId w.db (step node w.db e) := by
  obtain ⟨r,hr,hit⟩ := List.any_eq_true.mp seen
  simp only [Bool.and_eq_true,beq_iff_eq] at hit
  refine ⟨?_,r,hr,hit⟩
  have known : ∃ g ∈ w.db.grants, g.id = r.id := by
    by_contra absent
    have pending := stepOpens inv.wf hr fun g hg same => absent ⟨g,hg,same⟩
    rw [hit.2] at pending
    cases pending
  obtain ⟨g,hg,same⟩ := known
  refine ⟨g,hg,same.trans hit.1,?_⟩
  by_contra dead
  have ended : g.status = .revoked := by
    cases status : g.status <;> simp [Grant.live,status] at dead ⊢
  have before := inv.fresh open_
  rw [seenRevoked,List.any_eq_false] at before
  exact before g hg (by simp [ended,same,hit.1])

theorem keptExpired (inv : Down grantId w) (before : Expired grantId e.now w.db)
    (sets : ∀ t, (footprint node e w.db).expires t → t ≤ e.now)
    (stores : ∀ a, ¬(footprint node e w.db).stores a) : Expired grantId e.now (step node w.db e) := by
  intro b mem hit
  rcases writesSecrets (stepWrites inv.wf) b mem with ⟨a,ha,stems⟩ | ⟨a,stored,_⟩
  · rw [sameRefreshArtifact stems.same] at hit
    rcases stems.expiry with kept | ⟨t,moved,set⟩
    · rw [kept]
      exact before a ha hit
    · rw [moved]
      exact unexpiredSet (sets t set)
  · exact absurd stored (stores a)

def ordinary (e : Event) : Bool := match e.op with
  | .upsert _ _ _ _ _ | .revokeRefreshGrant _ _ _ | .consume _ _ _ | .revokeByGrantId _ _ _ => false
  | _ => true

theorem ordinaryFootprint {db : Db} (plain : ordinary e = true) :
    (∀ t, ¬(footprint node e db).expires t) ∧ ∀ a, ¬(footprint node e db).stores a := by
  obtain ⟨now,op⟩ := e
  cases op <;> first | exact ⟨fun _ sets => sets,fun _ stores => stores⟩ | cases plain

theorem ordinaryRule (plain : ordinary e = true) (good : keepsTokensDown node grantId w e = true)
    (revokes : revokesHere node grantId w.db e = true) :
    w.db.secretArtifacts.any (usableToken grantId e.now) = false := by
  obtain ⟨now,op⟩ := e
  cases op <;> first
    | simp only [keepsTokensDown,revokes,Bool.true_and,Bool.and_eq_true,Bool.not_eq_true'] at good
      exact good.2
    | cases plain

theorem stepSettles {db : Db} (moved : step node db e ≠ db) :
    ∃ reply, exec node e db = .ok (step node db e,reply) := by
  rcases settleCases db (exec node e db) with same | ⟨next,reply,ok,done⟩
  · exact absurd same moved
  · exact ⟨reply,by rw [step,done]; exact ok⟩

theorem revokedSettles {db : Db} (wf : WellFormed db) (revoked : Revoked grantId db (step node db e)) :
    ∃ reply, exec node e db = .ok (step node db e,reply) := by
  refine stepSettles fun same => ?_
  rw [same] at revoked
  exact notRevoked wf .refl revoked

theorem revocationExpires (inv : Down grantId w) (good : keepsTokensDown node grantId w e = true)
    (revoked : Revoked grantId w.db (step node w.db e)) : Expired grantId e.now (step node w.db e) := by
  by_cases plain : ordinary e = true
  · obtain ⟨sets,stores⟩ := @ordinaryFootprint node e w.db plain
    refine keptExpired inv ?_ (fun t set => absurd set (sets t)) stores
    intro a mem hit
    obtain ⟨⟨g,hg,named,live⟩,r,hr,same,ended⟩ := revoked
    have revokes : revokesHere node grantId w.db e = true := by
      simp only [revokesHere,seenRevoked,Bool.and_eq_true,List.any_eq_true,beq_iff_eq]
      exact ⟨⟨g,hg,named,live⟩,r,hr,same,ended⟩
    have none := ordinaryRule plain good revokes
    rw [List.any_eq_false] at none
    have unusable := none a mem
    simpa [usableToken,hit] using unusable
  · obtain ⟨reply,ok⟩ := revokedSettles inv.wf revoked
    obtain ⟨now,op⟩ := e
    cases op <;> try exact absurd rfl plain
    case upsert adapter id payload expiresIn dateNow =>
      exact (notRevoked inv.wf (upsertWrites (fun _ _ => trivial) (silentOk ok)) revoked).elim
    case revokeRefreshGrant target observedAt reason =>
      obtain ⟨_,run,_⟩ := answeredOk ok
      simp only [keepsTokensDown,Bool.and_eq_true,decide_eq_true_eq] at good
      exact (refreshGrantExpires inv.wf good.2 run revoked).2
    case consume adapter id dateNow =>
      obtain ⟨_,run,_⟩ := answeredOk ok
      exact consumeExpires inv.wf run revoked
    case revokeByGrantId adapter reason target => exact revokeByGrantIdExpires inv.wf (silentOk ok) revoked

theorem overStays (inv : Down grantId w) (good : keepsTokensDown node grantId w e = true)
    (ended : w.ended = true) : Expired grantId e.now (step node w.db e) := by
  have time : w.clock ≤ e.now := by
    simp only [keepsTokensDown,Bool.and_eq_true,decide_eq_true_eq] at good
    exact good.1
  have before : Expired grantId e.now w.db :=
    fun a mem hit => unexpiredLater time (inv.down ended a mem hit)
  by_cases plain : ordinary e = true
  · obtain ⟨sets,stores⟩ := @ordinaryFootprint node e w.db plain
    exact keptExpired inv before (fun t set => absurd set (sets t)) stores
  · obtain ⟨now,op⟩ := e
    cases op <;> try exact absurd rfl plain
    case upsert adapter id payload expiresIn dateNow =>
      rcases settleCases w.db (exec node ⟨now,.upsert adapter id payload expiresIn dateNow⟩ w.db) with
        same | ⟨next,reply,ok,done⟩
      · rw [step,same]
        exact before
      · rw [step,done]
        rcases upsertCases (silentOk ok) with ⟨_,same⟩ | ⟨row,named,checked,rfl⟩
        · intro a mem
          rw [same.secrets] at mem
          exact before a mem
        · simp only [keepsTokensDown,ended,named,Option.any_some,checked,Bool.true_and,Bool.and_eq_true,
            Bool.not_eq_true'] at good
          have stale : refreshArtifactOf grantId row = true → unexpired now row.expiresAt = false := by
            intro hit
            simpa [usableToken,hit] using good.2
          intro b mem hit
          rcases memUpsertRow mem with old | rfl | ⟨_,_,_,rfl⟩
          · exact before b old hit
          · exact stale hit
          · exact stale hit
    case revokeRefreshGrant target observedAt reason =>
      simp only [keepsTokensDown,Bool.and_eq_true,decide_eq_true_eq] at good
      exact keptExpired inv before (fun t set => by rw [set]; exact good.2) (fun _ stores => stores)
    case consume adapter id dateNow =>
      exact keptExpired inv before (fun t set => Int.le_of_eq set) (fun _ stores => stores)
    case revokeByGrantId adapter reason target =>
      exact keptExpired inv before (fun t set => Int.le_of_eq set) (fun _ stores => stores)

theorem downStep (inv : Down grantId w) (good : keepsTokensDown node grantId w e = true) :
    Down grantId (watchStep node grantId w e) where
  wf := stepWellFormed inv.wf
  fresh open_ := by
    simp only [watchStep,Bool.or_eq_false_iff] at open_
    exact open_.2
  down ended := by
    by_cases before : w.ended = true
    · exact overStays inv good before
    · simp only [watchStep,before,Bool.false_or] at ended
      exact revocationExpires inv good (firstRevoked inv (by simpa using before) ended)

end Watching

theorem setMemberOther {payload : ProviderPayload} {field other : String} {value : JsonValue}
    (different : other ≠ field) : member (setMember payload field value) other = member payload other := by
  have apart : (other == field) = false := beq_eq_false_iff_ne.mpr different
  unfold setMember member
  split
  · rename_i known
    clear known
    induction payload with
    | nil => rfl
    | cons head tail ih =>
      obtain ⟨name,old⟩ := head
      simp only [List.map_cons]
      by_cases here : (name == field) = true
      · rw [if_pos here,List.lookup_cons,List.lookup_cons,apart,beq_iff_eq.mp here,apart]
        exact ih
      · rw [if_neg here,List.lookup_cons,List.lookup_cons,ih]
  · simp [List.lookup_append,List.lookup_cons,apart]

theorem presentedGrant {id : String} {a : SecretArtifact} :
    memberText (presented id a) "grantId" = memberText a.payload "grantId" := by
  unfold memberText presented
  dsimp only
  split
  · rw [setMemberOther (by decide)]
  · rw [setMemberOther (by decide),setMemberOther (by decide)]

theorem downTokens {node : Node} {grantId : GrantId} {w : Watch} (inv : Down grantId w) (ended : w.ended = true) :
    TokensDown node grantId w := by
  intro now later adapter refresh
  have secret : secretModel adapter = true := by
    simp only [refreshModel,beq_iff_eq] at refresh
    rw [secretModel,refresh]
    decide
  have stale : Expired grantId now w.db := fun a mem hit => unexpiredLater later (inv.down ended a mem hit)
  constructor
  · intro id payload found named
    unfold find at found
    rw [if_pos secret] at found
    obtain ⟨lookup,_,hit⟩ := List.exists_of_findSome?_eq_some found
    obtain ⟨a,first,rfl⟩ := Option.map_eq_some_iff.mp hit
    have at_ := List.find?_some first
    simp only [atLookup,Bool.and_eq_true,beq_iff_eq,refreshModel] at at_ refresh
    rw [presentedGrant] at named
    have ours : refreshArtifactOf grantId a = true := by simp [refreshArtifactOf,at_.1.1.1,refresh,named]
    rw [stale a (List.mem_of_find?_eq_some first) ours] at at_
    cases at_.2
  · intro id dateNow next ok
    obtain ⟨lookup,_,_,_,_,⟨_,rows⟩ | ⟨bad,_⟩⟩ := consumeStopped secret ok (.inl rfl)
    · rw [rows]
      refine filterUpdate ?_ fun _ => rfl
      intro a mem hit
      simp [consumable,stale a mem hit]
    · cases bad

theorem revokedTokensDown (node : Node) (grantId : GrantId) (at_ : Time) (es : List Event)
    (ok : Guarded (watchStep node grantId) (fun w e => keepsTokensDown node grantId w e = true) (started at_) es)
    (ended : (run (watchStep node grantId) (started at_) es).ended = true) :
    TokensDown node grantId (run (watchStep node grantId) (started at_) es) := by
  have start : Down grantId (started at_) :=
    ⟨wellFormedEmpty,fun _ => rfl,fun bad => by cases bad⟩
  exact downTokens (invariantRun (fun _ _ inv good => downStep inv good) start ok) ended

def userRevokes (at_ : Time) : Event := ⟨at_,.revokeGrantWithEvent sampleContext sampleTenant "grant_0001"⟩

/- revoke_grant_with_event leaves the token where find still returns it. -/
theorem revokedTokenFound :
    ¬((run (watchStep refreshNode "grant_0001") (started 0)
        (approvedHistory ++ [issueToken (seconds 30),userRevokes (seconds 40)])).ended = true →
      TokensDown refreshNode "grant_0001" (run (watchStep refreshNode "grant_0001") (started 0)
        (approvedHistory ++ [issueToken (seconds 30),userRevokes (seconds 40)]))) := by
  intro claimed
  have later : (run (watchStep refreshNode "grant_0001") (started 0)
      (approvedHistory ++ [issueToken (seconds 30),userRevokes (seconds 40)])).clock ≤ seconds 50 := by decide
  have down := (claimed (by decide) (seconds 50) later refreshAdapter rfl).1
  exact down "refresh_0001" (setMember refreshPayload "jti" (.str "refresh_0001")) (by decide) (by decide)

/- A replay revokes the grant and takes its tokens down. -/
theorem replayTakesTokensDown :
    TokensDown refreshNode "grant_0001" (run (watchStep refreshNode "grant_0001") (started 0)
      (approvedHistory ++ [issueToken (seconds 30),redeemToken (seconds 40),redeemToken (seconds 50)])) :=
  revokedTokensDown refreshNode "grant_0001" 0
    (approvedHistory ++ [issueToken (seconds 30),redeemToken (seconds 40),redeemToken (seconds 50)])
    (by decide) (by decide)

end Wepuu.RefreshRevocation
