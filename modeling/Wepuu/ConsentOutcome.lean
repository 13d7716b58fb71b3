import Wepuu.GrantLifecycle
import Wepuu.Interleaving
import Wepuu.SiteProofs

/-! GrantService.complete as calls in flight, with every other operation of the system between
their turns. A call finds its grant and checks the proof in one turn and settles the consent
in the next; activate and deny share one digest, which leaves the decision out. -/
namespace Wepuu.ConsentOutcome
open Footprint GrantLifecycle Grants Interleaving JsValues NodeApi Relational Runs Schema SiteProofs Statements Tenancy

section Service

inductive ConsentError where
  | diagnosed (error : PairingDiagnosticError)
  | fault (cause : Fault)
  deriving DecidableEq, Repr

def consentError {α : Type} (message : String) : Except ConsentError α := .error (.fault (.thrown message))

structure CompleteInput where
  tenantId : TenantId
  grantId : GrantId
  proof : String
  challenge : String
  decision : ProofDecision
  idempotencyKey : String
  deriving DecidableEq, Repr

structure Service (K : Type) where
  node : Node
  api : ProofApi K
  platformIssuer : String

variable {K : Type} (service : Service K)

/- now() of a transaction, and the two readings of the service's clock. -/
structure Turn where
  now : Time
  dateNow : Time
  proofNow : Time
  deriving DecidableEq, Repr

def siteJwk (jwk : SitePublicJwk) : JsValue :=
  .obj [("kty",.str "OKP"),("crv",.str "Ed25519"),("x",.str jwk.x),("kid",.str jwk.kid)]

def checkProof (input : CompleteInput) (t : Turn) (grant : PendingGrantRecord) : Except ConsentError VerifiedSiteProof :=
  if !grant.completionReplay && decide (grant.expiresAt ≤ t.dateNow) then consentError "grant_not_pending"
  else if service.node.sha256 input.challenge ≠ grant.challengeHash then consentError "consent_challenge_invalid"
  else match verifySiteProof service.node service.api input.proof (siteJwk grant.publicJwk)
      (consentExpectation service.platformIssuer grant input.challenge input.decision t.proofNow) t.proofNow with
    | .ok proof => .ok proof
    | .error error => .error (.diagnosed error)

inductive Stage where
  | finding
  | settling (grant : PendingGrantRecord) (proof : VerifiedSiteProof)
  | ended (outcome : Except ConsentError VerifiedSiteProof)

def findTurn (context : TenantContext) (input : CompleteInput) (t : Turn) (db : Db) : Stage :=
  match findPending context input.tenantId input.grantId input.idempotencyKey db with
  | .error cause => .ended (.error (.fault cause))
  | .ok none => .ended (consentError "grant_not_pending")
  | .ok (some grant) => match checkProof service input t grant with
    | .ok proof => .settling grant proof
    | .error error => .ended (.error error)

def settleProof (context : TenantContext) (input : CompleteInput) (grant : PendingGrantRecord) (proof : VerifiedSiteProof)
    (now : Time) (db : Db) : Except Fault Db := match input.decision with
  | .approved => activate service.node context grant.tenantId grant.id input.idempotencyKey proof.thumbprint now db
  | .denied => deny service.node context grant.tenantId grant.id input.idempotencyKey proof.thumbprint now db

def completeTurn (context : TenantContext) (input : CompleteInput) (t : Turn) (db : Db) : Stage → Db × Stage
  | .finding => (db,findTurn service context input t db)
  | .settling grant proof => match settleProof service context input grant proof t.now db with
    | .ok next => (next,.ended (.ok proof))
    | .error cause => (db,.ended (.error (.fault cause)))
  | .ended outcome => (db,.ended outcome)

end Service

section Calls
variable {K : Type} (service : Service K)

def settlesConsent (e : System.Event) : Bool := match e.op with
  | .activate _ _ _ _ _ | .deny _ _ _ _ _ => true
  | _ => false

abbrev OtherEvent := { e : System.Event // settlesConsent e = false }

inductive Request where
  | complete (context : TenantContext) (input : CompleteInput)
  | other (event : OtherEvent)

inductive Call where
  | complete (context : TenantContext) (input : CompleteInput) (stage : Stage)
  | other (event : OtherEvent) (done : Bool)

def opening : Request → Call
  | .complete context input => .complete context input .finding
  | .other event => .other event false

def callTurn (t : Turn) (db : Db) : Call → Db × Call
  | .complete context input stage =>
    let (next,later) := completeTurn service context input t db stage
    (next,.complete context input later)
  | .other event false => (System.step service.node db event.1,.other event true)
  | .other event true => (db,.other event true)

structure Completion where
  tenantId : TenantId
  key : String
  grantId : GrantId
  decision : ProofDecision
  deriving DecidableEq, Repr

def completed : Call → Call → List Completion
  | .complete _ input (.settling _ _), .complete _ _ (.ended (.ok _)) =>
    [⟨input.tenantId,input.idempotencyKey,input.grantId,input.decision⟩]
  | _, _ => []

def revoked (c : Call) (db next : Db) : List (TenantId × GrantId) := match c with
  | .other _ _ => (next.grants.filter fun g => g.status == .revoked && !db.grants.contains g).map fun g => (g.tenantId,g.id)
  | _ => []

def contradicts (input : CompleteInput) (done : Completion) : Bool :=
  done.tenantId == input.tenantId && done.key == input.idempotencyKey && done.decision != input.decision

/- How a call ends, in either of its turns, whose key has completed a consent with the other decision before. -/
def reused (completions : List Completion) : Call → Call → List (Except ConsentError VerifiedSiteProof)
  | .complete _ _ (.ended _), _ => []
  | .complete _ input _, .complete _ _ (.ended outcome) =>
    if completions.any (contradicts input) then [outcome] else []
  | _, _ => []

/- The database, and three logs that no call reads. -/
structure Shared where
  db : Db
  completions : List Completion
  revocations : List (TenantId × GrantId)
  reuses : List (Except ConsentError VerifiedSiteProof)

def turn (s : Shared) (c : Call) (t : Turn) : Shared × Call :=
  let (next,later) := callTurn service t s.db c
  (⟨next,s.completions ++ completed c later,s.revocations ++ revoked c s.db next,s.reuses ++ reused s.completions c later⟩,
    later)

abbrev Consents := World Shared Call
abbrev ConsentMove := Move Request Turn

def consentStep : Consents → ConsentMove → Consents := step opening (turn service)

def idle (db : Db) : Consents := ⟨⟨db,[],[],[]⟩,[]⟩

def unsettled (db : Db) : Prop := ∀ r ∈ db.idempotencyRecords, r.operation ≠ .grantComplete

/- A new consent takes no id that a completed one has had; the control API draws them at random. -/
def freshId (s : Shared) (c : Call) (_ : Turn) : Prop := match c with
  | .other event false => ∀ target, proposedGrant event.1 = some target → ∀ done ∈ s.completions, done.grantId ≠ target
  | _ => True

/- The consent is in sight with its site, the time for it is not over unless the key has
completed it, and challenge and proof are the site's own. -/
structure Answerable (context : TenantContext) (input : CompleteInput) (t : Turn) (db : Db) (grant : PendingGrantRecord) :
    Prop where
  found : findPending context input.tenantId input.grantId input.idempotencyKey db = .ok (some grant)
  inTime : grant.completionReplay = true ∨ t.dateNow < grant.expiresAt
  challenge : service.node.sha256 input.challenge = grant.challengeHash
  proof : ∃ proof, verifySiteProof service.node service.api input.proof (siteJwk grant.publicJwk)
    (consentExpectation service.platformIssuer grant input.challenge input.decision t.proofNow) t.proofNow = .ok proof

/- Where the key has completed a consent of the tenant with the other decision, the new call
gets as far as the record of the key, which is in sight and is that of another grant or of
another key of the site. -/
def separates (s : Shared) (c : Call) (t : Turn) : Prop := match c with
  | .complete context input .finding => s.completions.any (contradicts input) = true →
    ∃ grant, Answerable service context input t s.db grant
  | .complete context input (.settling grant proof) => s.completions.any (contradicts input) = true →
    ∃ prior, completionRecord context grant.tenantId input.idempotencyKey s.db = some prior ∧
      ¬(prior.requestDigest = completionDigest service.node grant.id proof.thumbprint ∧ prior.resultReference = grant.id)
  | _ => True

def Recorded (revocations : List (TenantId × GrantId)) (done : Completion) (g : Grant) : Prop := match done.decision with
  | .approved => g.status = .active ∨ (g.status = .revoked ∧ (g.tenantId,g.id) ∈ revocations)
  | .denied => g.status = .revoked ∧ g.revocationReason = some "consent_denied"

structure Agreed (s : Shared) : Prop where
  recorded : ∀ done ∈ s.completions, ∀ g ∈ s.db.grants, g.tenantId = done.tenantId → g.id = done.grantId →
    Recorded s.revocations done g
  oneDecision : ∀ a ∈ s.completions, ∀ b ∈ s.completions, a.tenantId = b.tenantId → a.key = b.key →
    a.decision = b.decision
  conflicts : ∀ outcome ∈ s.reuses, outcome = consentError "idempotency_conflict"

end Calls

section Settling
variable {K : Type} {service : Service K} {context : TenantContext} {input : CompleteInput} {grant : PendingGrantRecord}
variable {proof : VerifiedSiteProof} {now : Time} {db next : Db}

def outcomeOf (now : Time) : ProofDecision → Grant → Grant
  | .approved => approvedGrant
  | .denied => deniedGrant now

def answers (service : Service K) (grant : PendingGrantRecord) (proof : VerifiedSiteProof) (prior : IdempotencyRecord) : Prop :=
  prior.requestDigest = completionDigest service.node grant.id proof.thumbprint ∧ prior.resultReference = grant.id

instance (service : Service K) (grant proof prior) : Decidable (answers service grant proof prior) := by
  unfold answers
  infer_instance

theorem settleShared : settleProof service context input grant proof now db =
    settleConsent (outcomeOf now input.decision) context grant.tenantId grant.id input.idempotencyKey
      (completionDigest service.node grant.id proof.thumbprint) now db := by
  unfold settleProof
  split <;> (rename_i decision; rw [decision]; rfl)

theorem settleCases (ok : settleProof service context input grant proof now db = .ok next) :
    (∃ prior, completionRecord context grant.tenantId input.idempotencyKey db = some prior ∧
      answers service grant proof prior ∧ next = db) ∨
    (completionRecord context grant.tenantId input.idempotencyKey db = none ∧
      (∃ g ∈ db.grants, pendingTarget context grant.tenantId grant.id now db g = true) ∧
      next = { db with
        grants := updateWhere (pendingTarget context grant.tenantId grant.id now db) (outcomeOf now input.decision) db.grants
        idempotencyRecords := db.idempotencyRecords ++ [⟨grant.tenantId,.grantComplete,input.idempotencyKey,
          completionDigest service.node grant.id proof.thumbprint,grant.id⟩] }) := by
  rw [settleShared] at ok
  unfold settleConsent at ok
  split at ok
  · rename_i prior found
    split at ok <;> cases ok
    exact .inl ⟨prior,found,by assumption,rfl⟩
  · rename_i absent
    simp only [bindOk,ensureOk] at ok
    obtain ⟨_,one,recorded⟩ := ok
    obtain ⟨_,_,_,_,rfl⟩ := insertIdempotencyExact recorded
    refine .inr ⟨absent,List.countP_pos_iff.mp ?_,rfl⟩
    rw [beq_iff_eq.mp one]
    exact Nat.one_pos

theorem settleAnswers {prior : IdempotencyRecord}
    (found : completionRecord context grant.tenantId input.idempotencyKey db = some prior)
    (hit : answers service grant proof prior) : settleProof service context input grant proof now db = .ok db := by
  rw [settleShared]
  unfold settleConsent
  rw [found]
  exact if_pos hit

theorem settleConflicts {prior : IdempotencyRecord}
    (found : completionRecord context grant.tenantId input.idempotencyKey db = some prior)
    (miss : ¬answers service grant proof prior) :
    settleProof service context input grant proof now db = .error (.thrown "idempotency_conflict") := by
  rw [settleShared]
  unfold settleConsent
  rw [found]
  exact if_neg miss

theorem settleUnrecorded (absent : completionRecord context grant.tenantId input.idempotencyKey db = none) :
    settleProof service context input grant proof now db ≠ .error (.thrown "idempotency_conflict") := by
  rw [settleShared]
  unfold settleConsent
  rw [absent]
  intro refused
  rcases bindError refused with uncounted | ⟨_,_,unrecorded⟩
  · exact absurd (ensureError uncounted) (by decide)
  · rcases bindError unrecorded with denied | ⟨_,_,unchecked⟩
    · cases ensureError denied
    · rcases bindError unchecked with misshapen | ⟨_,_,uninserted⟩
      · cases ensureError misshapen
      · rcases bindError uninserted with taken | ⟨_,_,homeless⟩
        · cases orFailError taken
        · rcases bindError homeless with orphan | ⟨_,_,last⟩
          · cases ensureError orphan
          · cases last

theorem settleEvent (ok : settleProof service context input grant proof now db = .ok next) :
    ∃ e : System.Event, System.step service.node db e = next := by
  unfold settleProof at ok
  split at ok
  · refine ⟨⟨now,.activate context grant.tenantId grant.id input.idempotencyKey proof.thumbprint⟩,?_⟩
    simp only [System.step,System.exec,ok]
    rfl
  · refine ⟨⟨now,.deny context grant.tenantId grant.id input.idempotencyKey proof.thumbprint⟩,?_⟩
    simp only [System.step,System.exec,ok]
    rfl

end Settling

structure Sound (s : Shared) : Prop where
  wf : WellFormed s.db
  logged : ∀ r ∈ s.db.idempotencyRecords, r.operation = .grantComplete → ∃ done ∈ s.completions,
    done.tenantId = r.tenantId ∧ done.key = r.idempotencyKey ∧ done.grantId = r.resultReference
  agreed : Agreed s

def holds (_ : Shared) : Call → Prop
  | .complete _ input (.settling grant _) => grant.tenantId = input.tenantId ∧ grant.id = input.grantId
  | _ => True

section Turns
variable {K : Type} {service : Service K} {s : Shared} {context : TenantContext} {input : CompleteInput}
variable {grant : PendingGrantRecord} {proof : VerifiedSiteProof} {t : Turn} {next : Db}

def completionOf (input : CompleteInput) : Completion :=
  ⟨input.tenantId,input.idempotencyKey,input.grantId,input.decision⟩

theorem foundGrant (found : findPending context input.tenantId input.grantId input.idempotencyKey s.db = .ok (some grant)) :
    grant.tenantId = input.tenantId ∧ grant.id = input.grantId := by
  unfold findPending at found
  dsimp only at found
  split at found
  · cases found
  · rename_i g site row
    split at found <;> cases found
    obtain ⟨o,_,hit⟩ := List.exists_of_findSome?_eq_some row
    split at hit
    · rename_i chosen
      obtain ⟨_,_,last⟩ := Option.map_eq_some_iff.mp hit
      cases last
      simp only [Bool.and_eq_true,beq_iff_eq] at chosen
      exact ⟨chosen.1.1.1,chosen.1.1.2⟩
    · cases hit

theorem checkProofOk : checkProof service input t grant = .ok proof ↔
    (grant.completionReplay = true ∨ t.dateNow < grant.expiresAt) ∧
      service.node.sha256 input.challenge = grant.challengeHash ∧
      verifySiteProof service.node service.api input.proof (siteJwk grant.publicJwk)
        (consentExpectation service.platformIssuer grant input.challenge input.decision t.proofNow) t.proofNow = .ok proof := by
  have late : (!grant.completionReplay && decide (grant.expiresAt ≤ t.dateNow)) = false ↔
      grant.completionReplay = true ∨ t.dateNow < grant.expiresAt := by
    cases grant.completionReplay <;> simp
  unfold checkProof
  split
  · rename_i expired
    refine ⟨nofun,fun ⟨inTime,_⟩ => ?_⟩
    rw [late.mpr inTime] at expired
    contradiction
  · rename_i running
    split
    · rename_i other
      exact ⟨nofun,fun ⟨_,same,_⟩ => absurd same other⟩
    · rename_i same
      have inTime := late.mp (by simpa using running)
      split
      · rename_i found verified
        refine ⟨fun done => ?_,fun ⟨_,_,again⟩ => ?_⟩
        · cases done
          exact ⟨inTime,not_ne_iff.mp same,verified⟩
        · cases verified.symm.trans again
          rfl
      · rename_i cause refused
        refine ⟨nofun,fun ⟨_,_,again⟩ => ?_⟩
        cases refused.symm.trans again

theorem findSettling : findTurn service context input t db = .settling grant proof ↔
    findPending context input.tenantId input.grantId input.idempotencyKey db = .ok (some grant) ∧
      checkProof service input t grant = .ok proof := by
  unfold findTurn
  split
  · rename_i cause fault
    exact ⟨nofun,fun ⟨found,_⟩ => by cases fault.symm.trans found⟩
  · rename_i absent
    exact ⟨nofun,fun ⟨found,_⟩ => by cases absent.symm.trans found⟩
  · rename_i g found
    split
    · rename_i p checked
      refine ⟨fun same => ?_,fun ⟨again,accepted⟩ => ?_⟩
      · cases same
        exact ⟨found,checked⟩
      · cases found.symm.trans again
        cases checked.symm.trans accepted
        rfl
    · rename_i error refused
      refine ⟨nofun,fun ⟨again,accepted⟩ => ?_⟩
      cases found.symm.trans again
      cases refused.symm.trans accepted

theorem findCases : (∃ grant proof, findTurn service context input t db = .settling grant proof ∧
      Answerable service context input t db grant) ∨
    ∃ outcome, findTurn service context input t db = .ended outcome ∧ outcome ≠ consentError "idempotency_conflict" ∧
      ∀ grant, ¬Answerable service context input t db grant := by
  cases later : findTurn service context input t db with
  | settling grant proof =>
    obtain ⟨found,checked⟩ := findSettling.mp later
    obtain ⟨inTime,challenge,verified⟩ := checkProofOk.mp checked
    exact .inl ⟨grant,proof,rfl,found,inTime,challenge,proof,verified⟩
  | finding =>
    unfold findTurn at later
    split at later <;> try contradiction
    split at later <;> contradiction
  | ended outcome =>
    refine .inr ⟨outcome,rfl,?_,fun grant answerable => ?_⟩
    · unfold findTurn at later
      split at later
      · rename_i cause fault
        cases later
        unfold findPending at fault
        dsimp only at fault
        split at fault
        · cases fault
        · split at fault <;> cases fault
          decide
      · cases later
        decide
      · rename_i grant found
        split at later
        · cases later
        · rename_i error refused
          cases later
          unfold checkProof at refused
          split at refused
          · cases refused
            decide
          · split at refused
            · cases refused
              decide
            · split at refused <;> cases refused
              nofun
    · obtain ⟨proof,verified⟩ := answerable.proof
      have settles := findSettling.mpr ⟨answerable.found,
        checkProofOk.mpr ⟨answerable.inTime,answerable.challenge,verified⟩⟩
      cases later.symm.trans settles

theorem findHolds : holds s (.complete context input (findTurn service context input t s.db)) := by
  unfold findTurn
  split
  · trivial
  · trivial
  · rename_i grant found
    split
    · exact foundGrant found
    · trivial

theorem sameDecision {done : Completion} (calm : s.completions.any (contradicts input) = false) (mem : done ∈ s.completions)
    (tenant : done.tenantId = input.tenantId) (key : done.key = input.idempotencyKey) : done.decision = input.decision := by
  by_contra other
  have hit : s.completions.any (contradicts input) = true :=
    List.any_eq_true.mpr ⟨done,mem,by simp [contradicts,tenant,key,other]⟩
  rw [calm] at hit
  contradiction

theorem recordedMove {revocations more : List (TenantId × GrantId)} {done : Completion} {g : Grant}
    (recorded : Recorded revocations done g) : Recorded (revocations ++ more) done g := by
  unfold Recorded at recorded ⊢
  split at recorded
  · exact recorded.imp id fun revoked => ⟨revoked.1,List.mem_append_left _ revoked.2⟩
  · exact recorded

theorem recordedIdle {revocations : List (TenantId × GrantId)} {done : Completion} {g : Grant}
    (recorded : Recorded revocations done g) : g.status ≠ .pending := by
  unfold Recorded at recorded
  intro pending
  split at recorded
  · rcases recorded with active | revoked
    · rw [pending] at active
      cases active
    · rw [pending] at revoked
      cases revoked.1
  · rw [pending] at recorded
    cases recorded.1

theorem outcomeRecorded (revocations : List (TenantId × GrantId)) (now : Time) (g : Grant) :
    Recorded revocations (completionOf input) (outcomeOf now input.decision g) := by
  unfold Recorded outcomeOf completionOf
  cases input.decision with
  | approved => exact .inl rfl
  | denied => exact ⟨rfl,rfl⟩

theorem settledSound (sound : Sound s) (asked : grant.tenantId = input.tenantId ∧ grant.id = input.grantId)
    (calm : s.completions.any (contradicts input) = false)
    (ok : settleProof service context input grant proof t.now s.db = .ok next) :
    Sound ⟨next,s.completions ++ [completionOf input],s.revocations,s.reuses⟩ := by
  obtain ⟨tenant,id⟩ := asked
  have wf : WellFormed next := by
    obtain ⟨e,same⟩ := settleEvent ok
    rw [← same]
    exact stepWellFormed sound.wf
  have oneDecision : ∀ a ∈ s.completions ++ [completionOf input], ∀ b ∈ s.completions ++ [completionOf input],
      a.tenantId = b.tenantId → a.key = b.key → a.decision = b.decision := by
    intro a left b right sameTenant sameKey
    rcases List.mem_append.mp left with oldLeft | newLeft
    · rcases List.mem_append.mp right with oldRight | newRight
      · exact sound.agreed.oneDecision a oldLeft b oldRight sameTenant sameKey
      · rw [List.mem_singleton.mp newRight] at sameTenant sameKey ⊢
        exact sameDecision calm oldLeft sameTenant sameKey
    · rw [List.mem_singleton.mp newLeft] at sameTenant sameKey ⊢
      rcases List.mem_append.mp right with oldRight | newRight
      · exact (sameDecision calm oldRight sameTenant.symm sameKey.symm).symm
      · rw [List.mem_singleton.mp newRight]
  rcases settleCases ok with ⟨prior,found,⟨_,reference⟩,rfl⟩ | ⟨_,⟨target,htarget,pending⟩,rfl⟩
  · -- A replay: the consent was settled by the call that left the record.
    have chosen := List.find?_some found
    simp only [Bool.and_eq_true,beq_iff_eq] at chosen
    obtain ⟨⟨⟨priorTenant,operation⟩,priorKey⟩,_⟩ := chosen
    obtain ⟨done,hdone,doneTenant,doneKey,doneGrant⟩ := sound.logged prior (List.mem_of_find?_eq_some found) operation
    have decision := sameDecision calm hdone (doneTenant.trans (priorTenant.trans tenant)) (doneKey.trans priorKey)
    refine ⟨wf,fun r mem operation => ?_,fun last mem g hg ownTenant ownId => ?_,oneDecision,sound.agreed.conflicts⟩
    · obtain ⟨earlier,known,rest⟩ := sound.logged r mem operation
      exact ⟨earlier,List.mem_append_left _ known,rest⟩
    · rcases List.mem_append.mp mem with old | new
      · exact sound.agreed.recorded last old g hg ownTenant ownId
      · rw [List.mem_singleton.mp new] at ownTenant ownId ⊢
        have known := sound.agreed.recorded done hdone g hg
          (ownTenant.trans (tenant.symm.trans (priorTenant.symm.trans doneTenant.symm)))
          (ownId.trans (id.symm.trans (reference.symm.trans doneGrant.symm)))
        unfold Recorded completionOf
        unfold Recorded at known
        rw [← decision]
        exact known
  · have targetKey : ∀ g, pendingTarget context grant.tenantId grant.id t.now s.db g = true →
        g.tenantId = grant.tenantId ∧ g.id = grant.id ∧ g.status = .pending := by
      intro g hit
      simp only [pendingTarget,Bool.and_eq_true,beq_iff_eq] at hit
      exact ⟨hit.1.1.1.1,hit.1.1.1.2,hit.1.1.2⟩
    refine ⟨wf,fun r mem operation => ?_,fun last mem g hg ownTenant ownId => ?_,oneDecision,sound.agreed.conflicts⟩
    · rcases List.mem_append.mp mem with old | new
      · obtain ⟨earlier,known,rest⟩ := sound.logged r old operation
        exact ⟨earlier,List.mem_append_left _ known,rest⟩
      · rw [List.mem_singleton.mp new]
        exact ⟨_,List.mem_append_right _ (List.mem_singleton_self _),tenant.symm,rfl,id.symm⟩
    · obtain ⟨o,ho,rfl⟩ := memUpdateWhere.mp hg
      have sameKey : (if pendingTarget context grant.tenantId grant.id t.now s.db o then outcomeOf t.now input.decision o else o).tenantId =
          o.tenantId ∧ (if pendingTarget context grant.tenantId grant.id t.now s.db o then outcomeOf t.now input.decision o else o).id =
          o.id := by
        split
        · cases input.decision <;> exact ⟨rfl,rfl⟩
        · exact ⟨rfl,rfl⟩
      rw [sameKey.1] at ownTenant
      rw [sameKey.2] at ownId
      rcases List.mem_append.mp mem with old | new
      · have known := sound.agreed.recorded last old o ho ownTenant ownId
        rw [if_neg fun hit => recordedIdle known (targetKey o hit).2.2]
        exact known
      · rw [List.mem_singleton.mp new] at ownTenant ownId ⊢
        have same : o = target := sameGrant sound.wf ho htarget (ownId.trans (id.symm.trans (targetKey target pending).2.1.symm))
        rw [same,if_pos pending]
        exact outcomeRecorded _ _ _

theorem otherRecords {node : Node} {db : Db} {event : OtherEvent} (wf : WellFormed db) {r : IdempotencyRecord}
    (mem : r ∈ (System.step node db event.1).idempotencyRecords) (operation : r.operation = .grantComplete) :
    r ∈ db.idempotencyRecords := by
  rcases writesRecords (stepWrites wf) r mem with old | added
  · exact old
  · obtain ⟨⟨now,op⟩,calm⟩ := event
    cases op <;> simp only [footprint,addsRecord] at added <;> try contradiction
    · rw [added] at operation
      cases operation
    · rw [added] at operation
      cases operation

theorem otherSound {event : OtherEvent} (sound : Sound s) (fresh : freshId s (.other event false) t) :
    Sound ⟨System.step service.node s.db event.1,s.completions,
      s.revocations ++ revoked (.other event false) s.db (System.step service.node s.db event.1),s.reuses⟩ := by
  refine ⟨stepWellFormed sound.wf,fun r mem operation => sound.logged r (otherRecords sound.wf mem operation) operation,
    ⟨fun done hdone r hr tenant id => ?_,sound.agreed.oneDecision,sound.agreed.conflicts⟩⟩
  rcases stepGrants sound.wf hr with ⟨g,hg,moved⟩ | proposed
  · have same := advancesKeeps moved
    have known := sound.agreed.recorded done hdone g hg (same.tenantId.symm.trans tenant) (same.id.symm.trans id)
    by_cases down : g.status = .revoked
    · rw [revokedStays moved down]
      exact recordedMove known
    · -- Only an approved grant is not revoked yet, and it stays or is revoked now.
      unfold Recorded at known ⊢
      split at known
      · rcases known with active | ⟨revoked_,_⟩
        · cases moved with
          | same => exact .inl active
          | approve pending =>
            rw [pending] at active
            cases active
          | revoke _ at_ reason =>
            refine .inr ⟨rfl,List.mem_append_right _ (List.mem_map.mpr ⟨_,List.mem_filter.mpr ⟨hr,?_⟩,rfl⟩)⟩
            have gone : ¬{ g with status := .revoked, revokedAt := some at_, revocationReason := some reason } ∈ s.db.grants := by
              intro still
              have alone := sameGrant sound.wf still hg rfl
              rw [← alone] at active
              cases active
            simp [gone]
        · exact absurd revoked_ down
      · exact absurd known.1 down
  · exact absurd id.symm (fresh r.id proposed done hdone)

end Turns

section Runs
variable {K : Type} {service : Service K} {s : Shared} {c : Call} {t : Turn}

theorem logsNil {db : Db} : (⟨db,s.completions ++ [],s.revocations ++ [],s.reuses ++ []⟩ : Shared) =
    ⟨db,s.completions,s.revocations,s.reuses⟩ := by simp only [List.append_nil]

theorem turnKeeps (sound : Sound s) (ok : holds s c) (good : separates service s c t ∧ freshId s c t) :
    Sound (turn service s c t).1 ∧ holds (turn service s c t).1 (turn service s c t).2 := by
  cases c with
  | other event done =>
    cases done with
    | true =>
      refine ⟨?_,trivial⟩
      have none_ : revoked (.other event true) s.db s.db = [] := by
        have kept : s.db.grants.filter (fun g => g.status == .revoked && !s.db.grants.contains g) = [] := by
          rw [List.filter_eq_nil_iff]
          intro g mem
          simp [mem]
        rw [revoked,kept,List.map_nil]
      simp only [turn,callTurn,completed,reused,none_,logsNil]
      exact sound
    | false =>
      refine ⟨?_,trivial⟩
      simp only [turn,callTurn,completed,reused,List.append_nil]
      exact otherSound sound good.2
  | complete context input stage =>
    cases stage with
    | finding =>
      have quiet : reused s.completions (.complete context input .finding)
          (.complete context input (findTurn service context input t s.db)) = [] := by
        rcases @findCases K service context input t s.db with ⟨grant,proof,settles,_⟩ | ⟨outcome,ends,_,unanswerable⟩
        · rw [settles]
          rfl
        · rw [ends]
          refine if_neg fun reuse => ?_
          obtain ⟨grant,answerable⟩ := good.1 reuse
          exact unanswerable grant answerable
      simp only [turn,callTurn,completeTurn,quiet,completed,revoked,logsNil]
      exact ⟨sound,findHolds⟩
    | ended outcome =>
      simp only [turn,callTurn,completeTurn,completed,reused,revoked,logsNil]
      exact ⟨sound,trivial⟩
    | settling grant proof =>
      cases settled : settleProof service context input grant proof t.now s.db with
      | ok next =>
        simp only [turn,callTurn,completeTurn,settled,completed,reused,revoked,List.append_nil]
        have calm : s.completions.any (contradicts input) = false := by
          by_contra reuse
          obtain ⟨prior,found,miss⟩ := good.1 (by simpa using reuse)
          rw [settleConflicts found miss] at settled
          cases settled
        rw [calm]
        simp only [Bool.false_eq_true,if_false,List.append_nil]
        exact ⟨settledSound sound ok calm settled,trivial⟩
      | error cause =>
        simp only [turn,callTurn,completeTurn,settled,completed,reused,revoked,List.append_nil]
        refine ⟨⟨sound.wf,sound.logged,sound.agreed.recorded,sound.agreed.oneDecision,fun outcome mem => ?_⟩,trivial⟩
        rcases List.mem_append.mp mem with old | new
        · exact sound.agreed.conflicts outcome old
        · split at new
          · rename_i reuse
            obtain ⟨prior,found,miss⟩ := good.1 reuse
            rw [settleConflicts found miss] at settled
            cases settled
            exact List.mem_singleton.mp new
          · cases new

theorem consentRules (service : Service K) : Discipline opening (turn service) Sound holds (fun _ _ => True)
    (fun s c t => separates service s c t ∧ freshId s c t) where
  symmetric _ _ _ := trivial
  opens s request _ := by
    cases request <;> exact ⟨trivial,fun _ _ => trivial⟩
  keeps s c t sound ok good := turnKeeps sound ok good
  frames s c t d _ _ _ other _ := by
    refine ⟨?_,trivial⟩
    cases d with
    | other event done => trivial
    | complete context input stage => cases stage <;> exact other

theorem stepReuses (service : Service K) (w : Consents) (m : ConsentMove) :
    ∀ outcome ∈ w.shared.reuses, outcome ∈ (consentStep service w m).shared.reuses := by
  intro outcome mem
  cases m with
  | start request => exact mem
  | turn k t =>
    simp only [consentStep,step]
    split
    · exact mem
    · exact List.mem_append_left _ mem

theorem runReuses (service : Service K) (w : Consents) (ms : List ConsentMove) :
    ∀ outcome ∈ w.shared.reuses, outcome ∈ (run (consentStep service) w ms).shared.reuses := by
  induction ms generalizing w with
  | nil => exact fun _ mem => mem
  | cons m ms ih => exact fun outcome mem => ih _ outcome (stepReuses service w m outcome mem)

theorem turnSeparates
    (conflicts : ∀ outcome ∈ (turn service s c t).1.reuses, outcome = consentError "idempotency_conflict") :
    separates service s c t := by
  cases c with
  | other event done => trivial
  | complete context input stage =>
    cases stage with
    | settling grant proof =>
      intro reuse
      have ends : ∀ outcome, (completeTurn service context input t s.db (.settling grant proof)).2 = .ended outcome →
          outcome = consentError "idempotency_conflict" := by
        intro outcome later
        refine conflicts outcome (List.mem_append_right _ ?_)
        show outcome ∈ reused s.completions (.complete context input (.settling grant proof))
          (.complete context input (completeTurn service context input t s.db (.settling grant proof)).2)
        rw [later]
        simp only [reused,reuse,if_true,List.mem_singleton]
      cases found : completionRecord context grant.tenantId input.idempotencyKey s.db with
      | none =>
        exfalso
        have new := @settleUnrecorded K service context input grant proof t.now s.db found
        cases settled : settleProof service context input grant proof t.now s.db with
        | ok next => cases ends (.ok proof) (by simp only [completeTurn,settled])
        | error cause =>
          have same := ends (.error (.fault cause)) (by simp only [completeTurn,settled])
          rw [settled] at new
          simp only [consentError,Except.error.injEq,ConsentError.fault.injEq] at same
          exact new (by rw [same])
      | some prior =>
        refine ⟨prior,rfl,fun hit => ?_⟩
        have settled := @settleAnswers K service context input grant proof t.now s.db prior found hit
        cases ends (.ok proof) (by simp only [completeTurn,settled])
    | finding =>
      intro reuse
      rcases @findCases K service context input t s.db with ⟨grant,_,_,answerable⟩ | ⟨outcome,ends,other,_⟩
      · exact ⟨grant,answerable⟩
      · refine absurd (conflicts outcome (List.mem_append_right _ ?_)) other
        show outcome ∈ reused s.completions (.complete context input .finding)
          (.complete context input (findTurn service context input t s.db))
        rw [ends]
        simp only [reused,reuse,if_true,List.mem_singleton]
    | ended outcome => trivial

theorem runSeparates {w : Consents} {ms : List ConsentMove}
    (conflicts : ∀ outcome ∈ (run (consentStep service) w ms).shared.reuses, outcome = consentError "idempotency_conflict") :
    Guarded (consentStep service) (Allowed (separates service)) w ms := by
  induction ms generalizing w with
  | nil => trivial
  | cons m ms ih =>
    refine ⟨?_,ih conflicts⟩
    cases m with
    | start request => trivial
    | turn k t =>
      intro c at_
      refine turnSeparates fun outcome mem => conflicts outcome (runReuses service _ ms outcome ?_)
      simp only [consentStep,step,at_]
      exact mem

theorem idleSound {db : Db} (wf : WellFormed db) (new : unsettled db) :
    Safe Sound holds (fun _ _ => True) (idle db) where
  whole := ⟨wf,fun r mem operation => absurd operation (new r mem),
    ⟨fun done mem => absurd mem List.not_mem_nil,fun a mem => absurd mem List.not_mem_nil,
      fun outcome mem => absurd mem List.not_mem_nil⟩⟩
  each i c at_ := by cases at_
  apart i j c d _ at_ := by cases at_

/- In every state of a run the completions agree, exactly if each call that settles a consent
under a used key and another decision meets the record of another consent. -/
theorem consentsAgree (service : Service K) (db : Db) (wf : WellFormed db) (new : unsettled db) (ms : List ConsentMove)
    (fresh : Guarded (consentStep service) (Allowed freshId) (idle db) ms) :
    (∀ before after, ms = before ++ after → Agreed (run (consentStep service) (idle db) before).shared) ↔
      Guarded (consentStep service) (Allowed (separates service)) (idle db) ms := by
  constructor
  · intro agreed
    exact runSeparates (agreed ms [] (List.append_nil ms).symm).conflicts
  · rintro separated before after rfl
    have firstFresh := ((guardedAppend _ _ _ before after).mp fresh).1
    have firstSeparated := ((guardedAppend _ _ _ before after).mp separated).1
    have both : ∀ (w : Consents) (m : ConsentMove), Allowed (separates service) w m ∧ Allowed freshId w m →
        Allowed (fun s c t => separates service s c t ∧ freshId s c t) w m := by
      rintro w m ⟨left,right⟩
      cases m with
      | start request => trivial
      | turn k t => exact fun c at_ => ⟨left c at_,right c at_⟩
    have allowed := guardedMono (consentStep service) both (guardedBoth _ firstSeparated firstFresh)
    exact (runSafe (consentRules service) (idleSound wf new) allowed).whole.agreed

end Runs

/- The turns of a call that no other has followed. -/
section LastCall
variable {K : Type} (service : Service K) {context : TenantContext} {input : CompleteInput} {t : Turn} {s : Shared}
variable (calls : List Call) {grant : PendingGrantRecord} {proof : VerifiedSiteProof}

theorem requestFinds (found : findTurn service context input t s.db = .settling grant proof) :
    run (consentStep service) ⟨s,calls⟩ [.start (.complete context input),.turn calls.length t] =
      ⟨s,calls ++ [.complete context input (.settling grant proof)]⟩ := by
  have taken : turn service s (.complete context input .finding) t = (s,.complete context input (.settling grant proof)) := by
    simp [turn,callTurn,completeTurn,completed,revoked,reused,found]
  show step opening (turn service) ⟨s,calls ++ [.complete context input .finding]⟩ (.turn calls.length t) = _
  rw [turnLast,taken]

theorem requestEnds {outcome : Except ConsentError VerifiedSiteProof}
    (found : findTurn service context input t s.db = .ended outcome) :
    run (consentStep service) ⟨s,calls⟩ [.start (.complete context input),.turn calls.length t] =
      ⟨{ s with reuses := s.reuses ++ if s.completions.any (contradicts input) then [outcome] else [] },
        calls ++ [.complete context input (.ended outcome)]⟩ := by
  have taken : turn service s (.complete context input .finding) t =
      ({ s with reuses := s.reuses ++ if s.completions.any (contradicts input) then [outcome] else [] },
        .complete context input (.ended outcome)) := by
    simp [turn,callTurn,completeTurn,completed,revoked,reused,found]
  show step opening (turn service) ⟨s,calls ++ [.complete context input .finding]⟩ (.turn calls.length t) = _
  rw [turnLast,taken]

theorem otherTakes (event : OtherEvent) (t : Turn) (s : Shared) :
    run (consentStep service) ⟨s,calls⟩ [.start (.other event),.turn calls.length t] =
      ⟨⟨System.step service.node s.db event.1,s.completions,
        s.revocations ++ revoked (.other event false) s.db (System.step service.node s.db event.1),s.reuses⟩,
        calls ++ [.other event true]⟩ := by
  have taken : turn service s (.other event false) t =
      (⟨System.step service.node s.db event.1,s.completions,
        s.revocations ++ revoked (.other event false) s.db (System.step service.node s.db event.1),s.reuses⟩,
        .other event true) := by
    simp [turn,callTurn,completed,reused]
  show step opening (turn service) ⟨s,calls ++ [.other event false]⟩ (.turn calls.length t) = _
  rw [turnLast,taken]

theorem requestSettles {next : Db}
    (settled : settleProof service context input grant proof t.now s.db = .ok next) :
    run (consentStep service) ⟨s,calls ++ [.complete context input (.settling grant proof)]⟩ [.turn calls.length t] =
      ⟨⟨next,s.completions ++ [completionOf input],s.revocations,
        s.reuses ++ if s.completions.any (contradicts input) then [.ok proof] else []⟩,
        calls ++ [.complete context input (.ended (.ok proof))]⟩ := by
  have taken : turn service s (.complete context input (.settling grant proof)) t =
      (⟨next,s.completions ++ [completionOf input],s.revocations,
        s.reuses ++ if s.completions.any (contradicts input) then [.ok proof] else []⟩,
        .complete context input (.ended (.ok proof))) := by
    simp [turn,callTurn,completeTurn,completed,revoked,reused,settled,completionOf]
  show step opening (turn service) ⟨s,calls ++ [.complete context input (.settling grant proof)]⟩ (.turn calls.length t) = _
  rw [turnLast,taken]

end LastCall

section Sample

/- An approval and a denial of one consent request, both signed by the site with an Ed25519 key of its own. -/
def decisionX : String := "tGtujj6nkjDXcB1nqTR6vS7yUSJah39gXRbaHCJjFlY"
def decisionThumbprint : String := "cn8qeahBS0o1bnWbsAUoh2cVzp7wjqvgQJikxQRTYc0"
def decisionChallenge : String := "AAAAAAAAAAAAAAAAAAAAAAAAAAAAAAAAAAAAAAAAAAA"

@[irreducible] def approvedJws : String :=
  "eyJhbGciOiJFZERTQSIsInR5cCI6IndlcHV1LXNpdGUtcHJvb2Yrand0Iiwia2lkIjoic2l0ZV9rZXlfMDAwMSJ9.eyJraW5" ++
  "kIjoiY29uc2VudCIsInByb3RvY29sX3ZlcnNpb24iOiIxIiwiaXNzIjoic2l0ZS5leGFtcGxlIiwicGxhdGZvcm1faXNzdWV" ++
  "yIjoiaHR0cHM6Ly9hdXRoLmV4YW1wbGUiLCJ0ZW5hbnRfaWQiOiIxMTExMTExMS0xMTExLTQxMTEtODExMS0xMTExMTExMTE" ++
  "xMTEiLCJzaXRlX2lkIjoic2l0ZV8wMDAxIiwiZ3JhbnRfaWQiOiJncmFudF8wMDAxIiwic3ViamVjdF9pZCI6ImFjY291bnR" ++
  "fMDEyMzQ1Njc4OWFiY2RlZiIsImNsaWVudF9pZCI6ImNsaWVudF8wMDAxIiwicmVzb3VyY2UiOiJodHRwczovL3NpdGUuZXh" ++
  "hbXBsZS93cC1qc29uL3dwLWF1dG8vbWNwIiwiYXVkIjoiaHR0cHM6Ly9zaXRlLmV4YW1wbGUvd3AtanNvbi93cC1hdXRvL21" ++
  "jcCIsInNjb3BlIjpbIm1jcDpyZWFkIl0sImRlY2lzaW9uIjoiYXBwcm92ZWQiLCJjaGFsbGVuZ2UiOiJBQUFBQUFBQUFBQUF" ++
  "BQUFBQUFBQUFBQUFBQUFBQUFBQUFBQUFBQUFBQUFBIiwiaWF0IjoxMDAsImV4cCI6MTYwfQ.d6yh86evsOIB-AsahRdTHyVQ" ++
  "ICbhbD72rdnUWYiAWXVc2jbeYR5NrGgb66GYsjlW6wWkRuSy2x3WcY3_e02oBw"

@[irreducible] def approvedPayload : String :=
  "\x7b\"kind\":\"consent\",\"protocol_version\":\"1\",\"iss\":\"site.example\",\"platform_issuer\":\"https://auth.ex" ++
  "ample\",\"tenant_id\":\"11111111-1111-4111-8111-111111111111\",\"site_id\":\"site_0001\",\"grant_id\":\"gran" ++
  "t_0001\",\"subject_id\":\"account_0123456789abcdef\",\"client_id\":\"client_0001\",\"resource\":\"https://si" ++
  "te.example/wp-json/wp-auto/mcp\",\"aud\":\"https://site.example/wp-json/wp-auto/mcp\",\"scope\":[\"mcp:r" ++
  "ead\"],\"decision\":\"approved\",\"challenge\":\"AAAAAAAAAAAAAAAAAAAAAAAAAAAAAAAAAAAAAAAAAAA\",\"iat\":100," ++
  "\"exp\":160\x7d"

@[irreducible] def deniedJws : String :=
  "eyJhbGciOiJFZERTQSIsInR5cCI6IndlcHV1LXNpdGUtcHJvb2Yrand0Iiwia2lkIjoic2l0ZV9rZXlfMDAwMSJ9.eyJraW5" ++
  "kIjoiY29uc2VudCIsInByb3RvY29sX3ZlcnNpb24iOiIxIiwiaXNzIjoic2l0ZS5leGFtcGxlIiwicGxhdGZvcm1faXNzdWV" ++
  "yIjoiaHR0cHM6Ly9hdXRoLmV4YW1wbGUiLCJ0ZW5hbnRfaWQiOiIxMTExMTExMS0xMTExLTQxMTEtODExMS0xMTExMTExMTE" ++
  "xMTEiLCJzaXRlX2lkIjoic2l0ZV8wMDAxIiwiZ3JhbnRfaWQiOiJncmFudF8wMDAxIiwic3ViamVjdF9pZCI6ImFjY291bnR" ++
  "fMDEyMzQ1Njc4OWFiY2RlZiIsImNsaWVudF9pZCI6ImNsaWVudF8wMDAxIiwicmVzb3VyY2UiOiJodHRwczovL3NpdGUuZXh" ++
  "hbXBsZS93cC1qc29uL3dwLWF1dG8vbWNwIiwiYXVkIjoiaHR0cHM6Ly9zaXRlLmV4YW1wbGUvd3AtanNvbi93cC1hdXRvL21" ++
  "jcCIsInNjb3BlIjpbIm1jcDpyZWFkIl0sImRlY2lzaW9uIjoiZGVuaWVkIiwiY2hhbGxlbmdlIjoiQUFBQUFBQUFBQUFBQUF" ++
  "BQUFBQUFBQUFBQUFBQUFBQUFBQUFBQUFBQUFBQSIsImlhdCI6MTAwLCJleHAiOjE2MH0.I4Kg5uNCPOKfMO2yIRITqaDC4wo" ++
  "cXmCK_pc4iF6FsUXQCsVvjQ00DICeRJIcJxJax6bvvK_ksXX3ClM3n_HoDg"

@[irreducible] def deniedPayload : String :=
  "\x7b\"kind\":\"consent\",\"protocol_version\":\"1\",\"iss\":\"site.example\",\"platform_issuer\":\"https://auth.ex" ++
  "ample\",\"tenant_id\":\"11111111-1111-4111-8111-111111111111\",\"site_id\":\"site_0001\",\"grant_id\":\"gran" ++
  "t_0001\",\"subject_id\":\"account_0123456789abcdef\",\"client_id\":\"client_0001\",\"resource\":\"https://si" ++
  "te.example/wp-json/wp-auto/mcp\",\"aud\":\"https://site.example/wp-json/wp-auto/mcp\",\"scope\":[\"mcp:r" ++
  "ead\"],\"decision\":\"denied\",\"challenge\":\"AAAAAAAAAAAAAAAAAAAAAAAAAAAAAAAAAAAAAAAAAAA\",\"iat\":100,\"e" ++
  "xp\":160\x7d"
def decisionJws : ProofDecision → String
  | .approved => approvedJws
  | .denied => deniedJws

def decisionPayload : ProofDecision → String
  | .approved => approvedPayload
  | .denied => deniedPayload

def decisionText : ProofDecision → String
  | .approved => "approved"
  | .denied => "denied"

def decisionMembers (decision : ProofDecision) : List (String × JsValue) :=
  [("kind",.str "consent"),("protocol_version",.str "1"),("iss",.str "site.example"),
    ("platform_issuer",.str "https://auth.example"),("tenant_id",.str System.sampleTenant),
    ("site_id",.str System.sampleSite),("grant_id",.str "grant_0001"),("subject_id",.str System.sampleAccount),
    ("client_id",.str "client_0001"),("resource",.str System.sampleResource),("aud",.str System.sampleResource),
    ("scope",.arr [.str "mcp:read"]),("decision",.str (decisionText decision)),("challenge",.str decisionChallenge),
    ("iat",.int 100),("exp",.int 160)]

def carried (texts : ProofDecision → String) (text : String) : Option ProofDecision :=
  if text = texts .approved then some .approved else if text = texts .denied then some .denied else none

def decisionApi : ProofApi String where
  importJwk jwk := if jwk.x = decisionX then some jwk.x else none
  protectedHeader jws := (carried decisionJws jws).map fun _ => proofHeaderMembers
  compactVerify jws key := if key = decisionX then (carried decisionJws jws).map decisionPayload else none
  thumbprint jwk := if jwk.x = decisionX then some decisionThumbprint else none
  jsonParse text := (carried decisionPayload text).map fun decision => .obj (decisionMembers decision)
  isUrl text := ["https://auth.example",System.sampleResource].contains text
  isUuid text := text == System.sampleTenant

theorem chunkFits {l : List Char} (bytes : (l.flatMap String.utf8EncodeChar).length ≤ 96) :
    (String.ofList l).utf8ByteSize ≤ 96 := textFits bytes

theorem approvedFits : approvedJws.utf8ByteSize ≤ 16 * 1024 := by
  unfold approvedJws
  refine Nat.le_trans (appendFits (appendFits (appendFits (appendFits (appendFits (appendFits (appendFits (appendFits
    (chunkFits ?_) (chunkFits ?_)) (chunkFits ?_)) (chunkFits ?_)) (chunkFits ?_)) (chunkFits ?_)) (chunkFits ?_))
    (chunkFits ?_)) (chunkFits ?_)) ?_ <;> decide

theorem deniedFits : deniedJws.utf8ByteSize ≤ 16 * 1024 := by
  unfold deniedJws
  refine Nat.le_trans (appendFits (appendFits (appendFits (appendFits (appendFits (appendFits (appendFits (appendFits
    (chunkFits ?_) (chunkFits ?_)) (chunkFits ?_)) (chunkFits ?_)) (chunkFits ?_)) (chunkFits ?_)) (chunkFits ?_))
    (chunkFits ?_)) (chunkFits ?_)) ?_ <;> decide

theorem otherJws : deniedJws ≠ approvedJws := by
  unfold deniedJws approvedJws
  simp only [String.append_assoc,ne_eq,String.append_right_inj,-String.reduceAppend]
  decide

theorem otherPayload : deniedPayload ≠ approvedPayload := by
  unfold deniedPayload approvedPayload
  simp only [String.append_assoc,ne_eq,String.append_right_inj,-String.reduceAppend]
  decide

theorem decisionFits (decision : ProofDecision) : (decisionJws decision).utf8ByteSize ≤ 16 * 1024 := by
  cases decision with
  | approved => exact approvedFits
  | denied => exact deniedFits

theorem carriedJws (decision : ProofDecision) : carried decisionJws (decisionJws decision) = some decision := by
  cases decision with
  | approved => exact if_pos rfl
  | denied => exact (if_neg otherJws).trans (if_pos rfl)

theorem carriedPayload (decision : ProofDecision) :
    carried decisionPayload (decisionPayload decision) = some decision := by
  cases decision with
  | approved => exact if_pos rfl
  | denied => exact (if_neg otherPayload).trans (if_pos rfl)

/- SHA-256 of the three texts that the pairing and the consent hash. -/
def decisionPairingDigest : Digest :=
  [184,10,102,199,145,101,126,127,241,8,14,119,93,20,67,183,232,114,85,175,16,118,96,149,68,47,56,23,93,222,76,69]
def decisionCompletionDigest : Digest :=
  [207,140,206,7,123,110,138,201,50,75,28,89,101,5,153,252,15,139,119,255,238,238,118,154,52,113,76,175,201,60,210,222]
def decisionChallengeDigest : Digest :=
  [15,0,115,133,182,249,212,183,238,178,116,134,5,175,225,169,132,160,163,191,163,240,20,208,158,42,120,76,233,229,205,26]

def decisionNode : Node := System.sampleNode
  [("attempt_0001\x00site_0001\x00" ++ decisionThumbprint,decisionPairingDigest),
    ("grant_0001\x00" ++ decisionThumbprint,decisionCompletionDigest),(decisionChallenge,decisionChallengeDigest)] []

def decisionService : Service String := ⟨decisionNode,decisionApi,"https://auth.example"⟩

def askedRecord (replay : Bool) : PendingGrantRecord :=
  ⟨System.sampleTenant,"grant_0001",System.sampleSite,System.sampleAccount,"client_0001",[.read],System.sampleResource,
    ⟨decisionX,"site_key_0001"⟩,decisionChallengeDigest,seconds 200,replay⟩

def decidedProof (decision : ProofDecision) : VerifiedSiteProof where
  claims := ⟨.consent,"site.example","https://auth.example",System.sampleTenant,some System.sampleSite,none,none,none,
    some "grant_0001",some System.sampleAccount,some "client_0001",System.sampleResource,some System.sampleResource,
    some [.read],some decision,decisionChallenge,100,160⟩
  publicJwk := ⟨decisionX,"site_key_0001"⟩
  thumbprint := decisionThumbprint

def ask (decision : ProofDecision) : CompleteInput :=
  ⟨System.sampleTenant,"grant_0001",decisionJws decision,decisionChallenge,decision,"complete_00000000000001"⟩

def instant : Turn := ⟨seconds 120,seconds 120,seconds 120⟩

theorem decisionVerified (decision : ProofDecision) (replay : Bool) :
    verifySiteProof decisionNode decisionApi (decisionJws decision) (siteJwk ⟨decisionX,"site_key_0001"⟩)
      (consentExpectation "https://auth.example" (askedRecord replay) decisionChallenge decision (seconds 120))
      (seconds 120) = .ok (decidedProof decision) := by
  have size : decide ((decisionJws decision).utf8ByteSize ≤ 16 * 1024) = true := decide_eq_true (decisionFits decision)
  have jwk : parseJwk (siteJwk ⟨decisionX,"site_key_0001"⟩) = some ⟨decisionX,"site_key_0001"⟩ := by decide
  have header : proofHeader proofHeaderMembers "site_key_0001" = true := by decide
  have claims : parseClaims decisionNode decisionApi (.obj (decisionMembers decision)) =
      some (decidedProof decision).claims := by cases decision <;> decide
  have times : proofTimes (decidedProof decision).claims (seconds 120 / seconds 1) = true := by
    cases decision <;> decide
  have expected : proofClaims decisionNode (decidedProof decision).claims
      (consentExpectation "https://auth.example" (askedRecord replay) decisionChallenge decision (seconds 120)) = true := by
    cases decision <;> cases replay <;> decide
  have imported : decisionApi.importJwk ⟨decisionX,"site_key_0001"⟩ = some decisionX := by simp [decisionApi]
  have decoded : decisionApi.protectedHeader (decisionJws decision) = some proofHeaderMembers := by
    simp [decisionApi,carriedJws]
  have verified : decisionApi.compactVerify (decisionJws decision) decisionX = some (decisionPayload decision) := by
    simp [decisionApi,carriedJws]
  have parsed : decisionApi.jsonParse (decisionPayload decision) = some (.obj (decisionMembers decision)) := by
    simp [decisionApi,carriedPayload]
  have read : (decisionApi.jsonParse (decisionPayload decision)).bind (parseClaims decisionNode decisionApi) =
      some (decidedProof decision).claims := Option.bind_eq_some_iff.mpr ⟨_,parsed,claims⟩
  have thumbprint : decisionApi.thumbprint ⟨decisionX,"site_key_0001"⟩ = some decisionThumbprint := by simp [decisionApi]
  simp only [verifySiteProof,bindOk,insistOk,orDiagnosticOk]
  exact ⟨(),size,_,jwk,_,imported,_,decoded,(),header,_,verified,_,read,(),times,(),expected,_,thumbprint,rfl⟩

theorem decisionAccepted (decision : ProofDecision) (replay : Bool) :
    checkProof decisionService (ask decision) instant (askedRecord replay) = .ok (decidedProof decision) := by
  have open_ : (!(askedRecord replay).completionReplay && decide ((askedRecord replay).expiresAt ≤ instant.dateNow)) = false := by
    cases replay <;> decide
  have challenged : decisionService.node.sha256 (ask decision).challenge = (askedRecord replay).challengeHash := by
    show decisionNode.sha256 decisionChallenge = decisionChallengeDigest
    decide
  have verified : verifySiteProof decisionService.node decisionService.api (ask decision).proof
      (siteJwk (askedRecord replay).publicJwk) (consentExpectation decisionService.platformIssuer (askedRecord replay)
        (ask decision).challenge (ask decision).decision instant.proofNow) instant.proofNow = .ok (decidedProof decision) :=
    decisionVerified decision replay
  simp only [checkProof,open_,Bool.false_eq_true,if_false,challenged,ne_eq,not_true_eq_false,verified]

def consentHistory : List System.Event := System.pairedHistory.take 4 ++
  [⟨seconds 5,.completePairing System.sampleContext System.sampleAttempt ⟨⟨decisionX,"site_key_0001"⟩,decisionThumbprint⟩
      System.sampleSite "pair_0000000000000001"⟩,
    ⟨seconds 80,.createPending System.sampleContext { System.samplePending "grant_0001" "begin_0000000000000001" (seconds 80) with
      challengeHash := decisionChallengeDigest }⟩]

def approval : System.Event :=
  ⟨seconds 120,.activate System.sampleContext System.sampleTenant "grant_0001" "complete_00000000000001" decisionThumbprint⟩

def askedDb : Db := run (System.step decisionNode) Db.empty consentHistory
def approvedDb : Db := System.step decisionNode askedDb approval

def disconnection : System.Event := ⟨seconds 119,.disconnectSiteWithEvent System.sampleContext System.sampleTenant System.sampleSite⟩

def approvedRecord : IdempotencyRecord :=
  ⟨System.sampleTenant,.grantComplete,"complete_00000000000001",decisionCompletionDigest,"grant_0001"⟩

/- One evaluation of the history for all that is read off it. -/
theorem historyFacts :
    findPending System.sampleContext System.sampleTenant "grant_0001" "complete_00000000000001" askedDb =
      .ok (some (askedRecord false)) ∧
    findPending System.sampleContext System.sampleTenant "grant_0001" "complete_00000000000001" approvedDb =
      .ok (some (askedRecord true)) ∧
    findPending System.sampleContext System.sampleTenant "grant_0001" "complete_00000000000001"
      (System.step decisionNode approvedDb disconnection) = .ok none ∧
    (activate decisionNode System.sampleContext System.sampleTenant "grant_0001" "complete_00000000000001"
      decisionThumbprint (seconds 120) askedDb).isOk = true ∧
    completionRecord System.sampleContext System.sampleTenant "complete_00000000000001" approvedDb = some approvedRecord ∧
    approvedDb.grants.map (·.status) = [.active] ∧
    ∀ r ∈ askedDb.idempotencyRecords, r.operation ≠ .grantComplete := by decide

theorem askedFound (decision : ProofDecision) : findPending System.sampleContext (ask decision).tenantId (ask decision).grantId
    (ask decision).idempotencyKey askedDb = .ok (some (askedRecord false)) := historyFacts.1

theorem approvedFound (decision : ProofDecision) : findPending System.sampleContext (ask decision).tenantId (ask decision).grantId
    (ask decision).idempotencyKey approvedDb = .ok (some (askedRecord true)) := historyFacts.2.1

theorem activateSteps {node : Node} {context : TenantContext} {tenant : TenantId} {grantId : GrantId} {key thumbprint : String}
    {now : Time} {db : Db} (accepted : (activate node context tenant grantId key thumbprint now db).isOk = true) :
    activate node context tenant grantId key thumbprint now db =
      .ok (System.step node db ⟨now,.activate context tenant grantId key thumbprint⟩) := by
  cases settled : activate node context tenant grantId key thumbprint now db with
  | ok next =>
    simp only [System.step,System.exec,settled]
    rfl
  | error fault =>
    rw [settled] at accepted
    cases accepted

theorem approvalSettles : settleProof decisionService System.sampleContext (ask .approved) (askedRecord false)
    (decidedProof .approved) (seconds 120) askedDb = .ok approvedDb := by
  obtain ⟨-,-,-,accepted,-⟩ := historyFacts
  exact activateSteps accepted

theorem approvedAnswers (decision : ProofDecision) : settleProof decisionService System.sampleContext (ask decision)
    (askedRecord true) (decidedProof decision) (seconds 120) approvedDb = .ok approvedDb := by
  obtain ⟨-,-,-,-,recorded,-⟩ := historyFacts
  have digested : decisionCompletionDigest = completionDigest decisionNode "grant_0001" decisionThumbprint := by decide
  exact settleAnswers recorded ⟨digested,rfl⟩

def requestOf (decision : ProofDecision) : ConsentMove := .start (.complete System.sampleContext (ask decision))

def approvedCall : Call := .complete System.sampleContext (ask .approved) (.ended (.ok (decidedProof .approved)))

def approvedWorld : Consents := ⟨⟨approvedDb,[completionOf (ask .approved)],[],[]⟩,[approvedCall]⟩

def foundWorld : Consents :=
  ⟨⟨askedDb,[],[],[]⟩,[.complete System.sampleContext (ask .approved) (.settling (askedRecord false) (decidedProof .approved))]⟩

def foundAgain (decision : ProofDecision) : Consents :=
  ⟨approvedWorld.shared,[approvedCall,
    .complete System.sampleContext (ask decision) (.settling (askedRecord true) (decidedProof decision))]⟩

theorem firstFound : run (consentStep decisionService) (idle askedDb) [requestOf .approved,.turn 0 instant] = foundWorld :=
  requestFinds decisionService [] (findSettling.mpr ⟨askedFound .approved,decisionAccepted .approved false⟩)

theorem firstSettled : run (consentStep decisionService) (idle askedDb) ([requestOf .approved,.turn 0 instant] ++ [.turn 0 instant]) =
    approvedWorld := by
  rw [runAppend,firstFound]
  exact requestSettles decisionService [] approvalSettles

theorem secondFound (decision : ProofDecision) :
    run (consentStep decisionService) approvedWorld [requestOf decision,.turn 1 instant] = foundAgain decision :=
  requestFinds decisionService [approvedCall] (findSettling.mpr ⟨approvedFound decision,decisionAccepted decision true⟩)

theorem secondSettled (decision : ProofDecision) :
    (run (consentStep decisionService) (foundAgain decision) [.turn 1 instant]).shared.completions =
      [completionOf (ask .approved),completionOf (ask decision)] ∧
    (run (consentStep decisionService) (foundAgain decision) [.turn 1 instant]).shared.db = approvedDb := by
  have settled : run (consentStep decisionService) (foundAgain decision) [.turn 1 instant] = _ :=
    requestSettles decisionService [approvedCall] (approvedAnswers decision)
  rw [settled]
  exact ⟨rfl,rfl⟩

def approvedThen (decision : ProofDecision) : List ConsentMove :=
  ([requestOf .approved,.turn 0 instant] ++ [.turn 0 instant]) ++
    ([requestOf decision,.turn 1 instant] ++ [.turn 1 instant])

theorem thenSettled (decision : ProofDecision) :
    (run (consentStep decisionService) (idle askedDb) (approvedThen decision)).shared.completions =
      [completionOf (ask .approved),completionOf (ask decision)] ∧
    (run (consentStep decisionService) (idle askedDb) (approvedThen decision)).shared.db = approvedDb := by
  rw [approvedThen,runAppend,firstSettled,runAppend,secondFound]
  exact secondSettled decision

theorem askTenant (decision : ProofDecision) : (completionOf (ask decision)).tenantId = System.sampleTenant := rfl
theorem askKey (decision : ProofDecision) : (completionOf (ask decision)).key = "complete_00000000000001" := rfl

theorem twoDecisions {s : Shared} (completions : s.completions = [completionOf (ask .approved),completionOf (ask .denied)]) :
    ¬Agreed s := by
  intro agreed
  have approved : completionOf (ask .approved) ∈ s.completions := by
    rw [completions]
    exact List.mem_cons_self
  have denied : completionOf (ask .denied) ∈ s.completions := by
    rw [completions]
    exact List.mem_cons_of_mem _ List.mem_cons_self
  cases agreed.oneDecision _ approved _ denied ((askTenant .approved).trans (askTenant .denied).symm)
    ((askKey .approved).trans (askKey .denied).symm)

def disconnectedThen : List ConsentMove :=
  ([requestOf .approved,.turn 0 instant] ++ [.turn 0 instant]) ++
    [.start (.other ⟨disconnection,rfl⟩),.turn 1 instant,requestOf .denied,.turn 2 instant]

theorem disconnectedEnds : (run (consentStep decisionService) (idle askedDb) disconnectedThen).shared.reuses =
    [consentError "grant_not_pending"] := by
  have ends : findTurn decisionService System.sampleContext (ask .denied) instant
      (System.step decisionNode approvedDb disconnection) = .ended (consentError "grant_not_pending") := by
    have unfound : findPending System.sampleContext (ask .denied).tenantId (ask .denied).grantId (ask .denied).idempotencyKey
        (System.step decisionNode approvedDb disconnection) = .ok none := historyFacts.2.2.1
    simp only [findTurn,unfound]
  have contradicted : contradicts (ask .denied) (completionOf (ask .approved)) = true := by decide
  have gone := otherTakes decisionService [approvedCall] ⟨disconnection,rfl⟩ instant approvedWorld.shared
  have told := requestEnds decisionService (s := ⟨System.step decisionNode approvedDb disconnection,
    [completionOf (ask .approved)],
    revoked (.other ⟨disconnection,rfl⟩ false) approvedDb (System.step decisionNode approvedDb disconnection),[]⟩)
    [approvedCall,.other ⟨disconnection,rfl⟩ true] ends
  have last : run (consentStep decisionService) approvedWorld
      ([.start (.other ⟨disconnection,rfl⟩),.turn 1 instant] ++ [requestOf .denied,.turn 2 instant]) = _ :=
    (runAppend ..).trans ((congrArg (run (consentStep decisionService) · _) gone).trans told)
  rw [disconnectedThen,runAppend,firstSettled]
  simp only [List.cons_append,List.nil_append] at last
  rw [last]
  simp only [List.any_cons,contradicted,Bool.true_or,if_true]

theorem denialLost :
    ((run (consentStep decisionService) (idle askedDb) (approvedThen .denied)).shared.completions =
        [completionOf (ask .approved),completionOf (ask .denied)] ∧
      (run (consentStep decisionService) (idle askedDb) (approvedThen .denied)).shared.db.grants.map (·.status) = [.active] ∧
      ¬Agreed (run (consentStep decisionService) (idle askedDb) (approvedThen .denied)).shared) ∧
    (run (consentStep decisionService) (idle askedDb) disconnectedThen).shared.reuses = [consentError "grant_not_pending"] ∧
    ¬Agreed (run (consentStep decisionService) (idle askedDb) disconnectedThen).shared := by
  obtain ⟨completions,db⟩ := thenSettled .denied
  refine ⟨⟨completions,?_,twoDecisions completions⟩,disconnectedEnds,fun agreed => ?_⟩
  · rw [db]
    exact historyFacts.2.2.2.2.2.1
  · have other := agreed.conflicts (consentError "grant_not_pending") (by rw [disconnectedEnds]; exact List.mem_cons_self)
    exact absurd other (by decide)

theorem finishes {good : Shared → Call → Turn → Prop} {w : Consents} {k : Nat} {context : TenantContext} {input : CompleteInput}
    {stage : Stage} (at_ : w.calls[k]? = some (.complete context input stage))
    (ok : good w.shared (.complete context input stage) instant) :
    Guarded (consentStep decisionService) (Allowed good) w [.turn k instant] := by
  refine ⟨fun c here => ?_,trivial⟩
  rw [at_] at here
  cases here
  exact ok

theorem begins {good : Shared → Call → Turn → Prop} (finding : ∀ s, s.completions.any (contradicts (ask .approved)) = false →
      good s (.complete System.sampleContext (ask .approved) .finding) instant)
    {w : Consents} {k : Nat} (last : w.calls.length = k)
    (calm : w.shared.completions.any (contradicts (ask .approved)) = false) :
    Guarded (consentStep decisionService) (Allowed good) w [requestOf .approved,.turn k instant] := by
  have started : (w.calls ++ [.complete System.sampleContext (ask .approved) .finding])[k]? =
      some (.complete System.sampleContext (ask .approved) .finding) := by
    subst last
    exact List.getElem?_concat_length
  exact ⟨trivial,finishes started (finding _ calm)⟩

theorem approvedAllowed {good : Shared → Call → Turn → Prop}
    (finding : ∀ s, s.completions.any (contradicts (ask .approved)) = false →
      good s (.complete System.sampleContext (ask .approved) .finding) instant)
    (settling : ∀ s grant proof, s.completions.any (contradicts (ask .approved)) = false →
      good s (.complete System.sampleContext (ask .approved) (.settling grant proof)) instant) :
    Guarded (consentStep decisionService) (Allowed good) (idle askedDb) (approvedThen .approved) := by
  have first : Guarded (consentStep decisionService) (Allowed good) (idle askedDb) [requestOf .approved,.turn 0 instant] :=
    begins finding rfl rfl
  have second : Guarded (consentStep decisionService) (Allowed good) approvedWorld [requestOf .approved,.turn 1 instant] :=
    begins finding rfl (by decide)
  unfold approvedThen
  rw [guardedAppend,guardedAppend,firstFound,firstSettled,guardedAppend,secondFound]
  exact ⟨⟨first,finishes rfl (settling _ _ _ rfl)⟩,second,finishes rfl (settling _ _ _ (by decide))⟩

theorem retryAgrees : Agreed (run (consentStep decisionService) (idle askedDb) (approvedThen .approved)).shared :=
  (consentsAgree decisionService askedDb (reachableWellFormed decisionNode consentHistory) historyFacts.2.2.2.2.2.2
    (approvedThen .approved) (approvedAllowed (fun _ _ => trivial) fun _ _ _ _ => trivial)).mpr
    (approvedAllowed (fun s calm reuse => absurd reuse (by rw [calm]; decide))
      fun s grant proof calm reuse => absurd reuse (by rw [calm]; decide))
    (approvedThen .approved) [] (List.append_nil _).symm

end Sample

end Wepuu.ConsentOutcome
