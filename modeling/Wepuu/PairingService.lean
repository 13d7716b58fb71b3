import Wepuu.Interleaving
import Wepuu.SiteProofs

/-! PairingService.begin and PairingService.verify as calls in flight over one database. A
turn is what a call does up to its next await: one transaction of the repository or the
request to the site. A transaction that throws has been rolled back. -/
namespace Wepuu.PairingService
open Consent Interleaving NodeApi Pairing Relational Runs Schema SiteProofs Tenancy

inductive Thrown where
  | diagnosed (error : PairingDiagnosticError)
  | other
  deriving DecidableEq, Repr

def diagnosticOf (stage : PairingDiagnosticStage) (code : PairingDiagnosticCode) : Thrown → PairingDiagnosticError
  | .diagnosed cause => cause
  | .other => ⟨stage,code⟩

def stateInvalid : PairingDiagnosticError := ⟨.state,.stateInvalid⟩
def persistenceFailed : PairingDiagnosticError := diagnosticOf .persistence .persistenceFailed .other

structure PairingAttemptRecord where
  tenantId : TenantId
  id : String
  resource : String
  verifierHash : Digest
  status : AttemptStatus
  expiresAt : Time
  deriving DecidableEq, Repr

def attemptRecord (a : PairingAttempt) : PairingAttemptRecord :=
  ⟨a.tenantId,a.id,a.proposedResource,a.verifierHash,a.status,a.expiresAt⟩

/- The statement locks no row. -/
def findAttemptForUpdate (context : TenantContext) (tenant : TenantId) (attempt : String) (db : Db) :
    Option PairingAttemptRecord :=
  (db.pairingAttempts.find? fun a => a.tenantId == tenant && a.id == attempt &&
    (a.status == .pending || a.status == .verifying) && pairingTenantAccess context db a).map attemptRecord

structure Service where
  node : Node
  platformIssuer : String
  platformSigningKeyPem : String
  platformSigningKid : String

structure BeginInput where
  tenantId : TenantId
  attemptId : String
  accountId : AccountId
  correlationId : String
  resource : String
  verifier : String
  deriving DecidableEq, Repr

structure VerifyInput where
  tenantId : TenantId
  attemptId : String
  verifier : String
  siteId : SiteId
  idempotencyKey : String
  deriving DecidableEq, Repr

/- What the surroundings choose in one turn: now() of the transaction, the service's clock,
whether the transaction is lost, the challenge and what comes back for a request to the site. -/
structure Turn where
  now : Time
  dateNow : Time
  lost : Bool
  challenge : String
  site : SiteVerificationRequest → Except Thrown VerifiedSiteProof

/- A transaction of the repository, none when it throws. -/
def transact {α : Type} (t : Turn) : Except Fault α → Option α
  | .ok a => if t.lost then none else some a
  | .error _ => none

section Begin
variable (service : Service)

def parseAttempt (input : BeginInput) (dateNow : Time) : Except Fault NewAttempt := do
  ensure (matchesClass opaqueChar 43 128 input.verifier) (.thrown "invalid_verifier")
  ensure (opaqueId input.attemptId && opaqueId input.accountId && opaqueId input.correlationId) zodError
  let resource ← canonicalizeResource service.node input.resource
  .ok ⟨input.tenantId,input.attemptId,input.accountId,resource,service.node.sha256 input.verifier,dateNow + minutes 10⟩

def begin (context : TenantContext) (input : BeginInput) (t : Turn) (db : Db) : Db × Except Thrown Time :=
  match parseAttempt service input t.dateNow with
  | .error _ => (db,.error .other)
  | .ok record => match transact t (createAttempt context record t.now db) with
    | some next => (next,.ok record.expiresAt)
    | none => (db,.error (.diagnosed persistenceFailed))

end Begin

section Verify

/- How a call ended: without a marked attempt, with its attempt settled, or as fail() threw. -/
inductive Ending where | unmarked | settled | failThrew deriving DecidableEq, Repr

inductive Stage where
  | finding
  | marking (attempt : PairingAttemptRecord)
  | asking (attempt : PairingAttemptRecord)
  | completing (attempt : PairingAttemptRecord) (proof : VerifiedSiteProof)
  | failing (error : Thrown)
  | ended (ending : Ending) (outcome : Except PairingDiagnosticError VerifiedSiteProof)

variable (service : Service)

def siteRequest (attempt : PairingAttemptRecord) (input : VerifyInput) (challenge : String) : SiteVerificationRequest where
  tenantId := attempt.tenantId
  pairingAttemptId := attempt.id
  siteId := input.siteId
  resource := attempt.resource
  verifier := input.verifier
  challenge := challenge
  platformIssuer := service.platformIssuer
  platformSigningKeyPem := service.platformSigningKeyPem
  platformSigningKid := service.platformSigningKid

def pairedAttempt (attempt : PairingAttemptRecord) : PairedAttempt := ⟨attempt.tenantId,attempt.id,attempt.resource⟩

def verifiedKey (proof : VerifiedSiteProof) : VerifiedKey := ⟨proof.publicJwk,proof.thumbprint⟩

def refuse (error : PairingDiagnosticError) : Stage := .ended .unmarked (.error error)

def found (input : VerifyInput) (t : Turn) : Option PairingAttemptRecord → Stage
  | none => refuse stateInvalid
  | some attempt =>
    if attempt.expiresAt ≤ t.dateNow then refuse stateInvalid
    else if service.node.sha256 input.verifier = attempt.verifierHash then .marking attempt
    else refuse stateInvalid

def completeTurn (context : TenantContext) (input : VerifyInput) (attempt : PairingAttemptRecord)
    (proof : VerifiedSiteProof) (t : Turn) (db : Db) : Option Db :=
  if opaqueId input.siteId then
    transact t (complete service.node context (pairedAttempt attempt) (verifiedKey proof) input.siteId
      input.idempotencyKey t.now db)
  else none

def verifyTurn (context : TenantContext) (input : VerifyInput) (t : Turn) (db : Db) : Stage → Db × Stage
  | .finding => (db,match transact t (.ok (findAttemptForUpdate context input.tenantId input.attemptId db)) with
    | none => refuse persistenceFailed
    | some attempt => found service input t attempt)
  | .marking attempt =>
    match transact t (.ok (markVerifying context input.tenantId input.attemptId t.now db)) with
    | none => (db,refuse persistenceFailed)
    | some (next,true) => (next,.asking attempt)
    | some (next,false) => (next,refuse stateInvalid)
  | .asking attempt => (db,match t.site (siteRequest service attempt input t.challenge) with
    | .ok proof => .completing attempt proof
    | .error error => .failing error)
  | .completing attempt proof => match completeTurn service context input attempt proof t db with
    | some next => (next,.ended .settled (.ok proof))
    | none => (db,.failing (.diagnosed persistenceFailed))
  | .failing error =>
    match transact t (.ok (fail context input.tenantId input.attemptId "verification_failed" db)) with
    | none => (db,.ended .failThrew (.error persistenceFailed))
    | some next => (next,.ended .settled (.error (diagnosticOf .unknown .unknown error)))
  | .ended ending outcome => (db,.ended ending outcome)

end Verify

section Calls
variable (service : Service)

inductive Request where
  | begin (context : TenantContext) (input : BeginInput)
  | verify (context : TenantContext) (input : VerifyInput)

inductive Call where
  | begin (context : TenantContext) (input : BeginInput) (outcome : Option (Except Thrown Time))
  | verify (context : TenantContext) (input : VerifyInput) (stage : Stage)

def opening : Request → Call
  | .begin context input => .begin context input none
  | .verify context input => .verify context input .finding

def callTurn (t : Turn) (db : Db) : Call → Db × Call
  | .begin context input none =>
    let (next,outcome) := begin service context input t db
    (next,.begin context input (some outcome))
  | .begin context input (some outcome) => (db,.begin context input (some outcome))
  | .verify context input stage =>
    let (next,later) := verifyTurn service context input t db stage
    (next,.verify context input later)

structure Opened where
  tenantId : TenantId
  attemptId : String
  site : Site
  deriving DecidableEq, Repr

def attemptKey : Call → TenantId × String
  | .begin _ input _ => (input.tenantId,input.attemptId)
  | .verify _ input _ => (input.tenantId,input.attemptId)

def opened (c : Call) (db next : Db) : List Opened :=
  (next.sites.filter fun s => !db.sites.contains s).map fun s => ⟨(attemptKey c).1,(attemptKey c).2,s⟩

def completionText (attempt : String) (site : SiteId) (thumbprint : String) : String :=
  attempt ++ "\x00" ++ site ++ "\x00" ++ thumbprint

/- The text whose digest complete compares and stores. -/
def hashed : Call → List String
  | .verify _ input (.completing attempt proof) => [completionText attempt.id input.siteId proof.thumbprint]
  | _ => []

structure Shared where
  db : Db
  opened : List Opened
  hashed : List String

def turn (s : Shared) (c : Call) (t : Turn) : Shared × Call :=
  let (next,later) := callTurn service t s.db c
  (⟨next,s.opened ++ opened c s.db next,s.hashed ++ hashed c⟩,later)

section Stages
variable (context : TenantContext) (input : VerifyInput) (t : Turn) (db : Db) (attempt : PairingAttemptRecord)

theorem verifyTurned (s : Shared) (stage : Stage) : turn service s (.verify context input stage) t =
    (⟨(verifyTurn service context input t s.db stage).1,
      s.opened ++ opened (.verify context input stage) s.db (verifyTurn service context input t s.db stage).1,
      s.hashed ++ hashed (.verify context input stage)⟩,
      .verify context input (verifyTurn service context input t s.db stage).2) := rfl

theorem findingTurn : verifyTurn service context input t db .finding =
    (db,match transact t (.ok (findAttemptForUpdate context input.tenantId input.attemptId db)) with
      | none => refuse persistenceFailed
      | some attempt => found service input t attempt) := rfl

theorem markingTurn : verifyTurn service context input t db (.marking attempt) =
    match transact t (.ok (markVerifying context input.tenantId input.attemptId t.now db)) with
    | none => (db,refuse persistenceFailed)
    | some (next,true) => (next,.asking attempt)
    | some (next,false) => (next,refuse stateInvalid) := rfl

theorem askingTurn : verifyTurn service context input t db (.asking attempt) =
    (db,match t.site (siteRequest service attempt input t.challenge) with
      | .ok proof => .completing attempt proof
      | .error error => .failing error) := rfl

theorem completingTurn (proof : VerifiedSiteProof) : verifyTurn service context input t db (.completing attempt proof) =
    match completeTurn service context input attempt proof t db with
    | some next => (next,.ended .settled (.ok proof))
    | none => (db,.failing (.diagnosed persistenceFailed)) := rfl

theorem failingTurn (error : Thrown) : verifyTurn service context input t db (.failing error) =
    match transact t (.ok (fail context input.tenantId input.attemptId "verification_failed" db)) with
    | none => (db,.ended .failThrew (.error persistenceFailed))
    | some next => (next,.ended .settled (.error (diagnosticOf .unknown .unknown error))) := rfl

end Stages

abbrev Pairings := World Shared Call
abbrev PairingMove := Move Request Turn

def pairingStep : Pairings → PairingMove → Pairings := step opening (turn service)

structure Unpaired (db : Db) : Prop where
  attempts : db.pairingAttempts = []
  sites : db.sites = []
  records : ∀ r ∈ db.idempotencyRecords, r.operation ≠ .pairingComplete

def idle (db : Db) : Pairings := ⟨⟨db,[],[]⟩,[]⟩

/- SHA-256 does not collide on the texts of a run. -/
def Distinct (node : Node) (texts : List String) : Prop :=
  ∀ a ∈ texts, ∀ b ∈ texts, node.sha256 a = node.sha256 b → a = b

end Calls

end Wepuu.PairingService
