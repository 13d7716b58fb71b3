import Wepuu.PairingRuns
import Wepuu.Resources
import Wepuu.SiteRows

/-! Pairing calls among everything else the platform does. A resource enters the tables
through begin of PairingService; from there it is copied to the attempt, to the call that
verifies it and to the site. -/
namespace Wepuu.PairedResources
open Deletion DeletionCompletes Footprint Frames Grants Interleaving NodeApi Pairing PairingRuns PairingService
open Relational Resources Runs Schema SiteProofs SiteRows Statements Tenancy
open Consent (canonicalizeResource)

section World

def ofPairing : System.Op → Bool
  | .createAttempt _ _ | .markVerifying _ _ _ | .failAttempt _ _ _ _ | .completePairing _ _ _ _ _ => true
  | _ => false

structure OtherEvent where
  event : System.Event
  other : ofPairing event.op = false

inductive PlatformMove where
  | pairing (move : PairingMove)
  | other (e : OtherEvent)

def platformStep (service : Service) (w : Pairings) : PlatformMove → Pairings
  | .pairing move => pairingStep service w move
  | .other e => { w with
      shared := { w.shared with
        db := System.step service.node w.shared.db e.event } }

inductive CallOp (service : Service) : Call → System.Op → Prop
  | create {context : TenantContext} {input : BeginInput} {record : NewAttempt} {dateNow : Time}
      (parsed : parseAttempt service input dateNow = .ok record) :
      CallOp service (.begin context input none) (.createAttempt context record)
  | mark {context : TenantContext} {input : VerifyInput} {attempt : PairingAttemptRecord} :
      CallOp service (.verify context input (.marking attempt))
        (.markVerifying context input.tenantId input.attemptId)
  | complete {context : TenantContext} {input : VerifyInput} {attempt : PairingAttemptRecord} {proof : VerifiedSiteProof} :
      CallOp service (.verify context input (.completing attempt proof))
        (.completePairing context (pairedAttempt attempt) (verifiedKey proof) input.siteId input.idempotencyKey)
  | fail {context : TenantContext} {input : VerifyInput} {error : Thrown} :
      CallOp service (.verify context input (.failing error))
        (.failAttempt context input.tenantId input.attemptId "verification_failed")

end World

section Turns
variable {service : Service} {s : Shared} {c : Call} {t : Turn}

theorem turnStep (service : Service) (s : Shared) (c : Call) (t : Turn) : (turn service s c t).1.db = s.db ∨
    ∃ op, CallOp service c op ∧ (turn service s c t).1.db = System.step service.node s.db ⟨t.now,op⟩ := by
  cases c with
  | begin context input outcome =>
    cases outcome with
    | some outcome => exact .inl rfl
    | none =>
      simp only [turn,callTurn,begin]
      split
      · exact .inl rfl
      · rename_i record parsed
        split
        · rename_i next made
          refine .inr ⟨_,.create parsed,?_⟩
          simp only [System.step,System.exec,transactOk made]
          rfl
        · exact .inl rfl
  | verify context input stage =>
    cases stage with
    | finding | asking attempt | ended ending outcome => exact .inl rfl
    | marking attempt =>
      simp only [verifyTurned,markingTurn]
      split
      · exact .inl rfl
      · rename_i next made
        refine .inr ⟨_,.mark,?_⟩
        simp only [System.step,System.exec,transactOk made]
        rfl
      · rename_i next made
        refine .inr ⟨_,.mark,?_⟩
        simp only [System.step,System.exec,transactOk made]
        rfl
    | completing attempt proof =>
      simp only [verifyTurned,completingTurn]
      split
      · rename_i next made
        refine .inr ⟨_,.complete,?_⟩
        simp only [System.step,System.exec,completeTurnOk made]
        rfl
      · exact .inl rfl
    | failing error =>
      simp only [verifyTurned,failingTurn]
      split
      · exact .inl rfl
      · rename_i next made
        refine .inr ⟨_,.fail,?_⟩
        simp only [System.step,System.exec,transactOk made]
        rfl

def carried : Call → Option PairingAttemptRecord
  | .verify _ _ (.marking attempt) | .verify _ _ (.asking attempt) | .verify _ _ (.completing attempt _) => some attempt
  | _ => none

theorem turnCarried {attempt : PairingAttemptRecord} (carries : carried (turn service s c t).2 = some attempt) :
    carried c = some attempt ∨ ∃ a ∈ s.db.pairingAttempts, a.proposedResource = attempt.resource := by
  cases c with
  | begin context input outcome =>
    cases outcome <;> cases carries
  | verify context input stage =>
    cases stage with
    | finding =>
      right
      simp only [verifyTurned,findingTurn] at carries
      split at carries
      · cases carries
      · rename_i found_ read
        rcases foundCases service input t found_ with refused | ⟨kept,rfl,goes⟩
        · rw [refused] at carries
          cases carries
        · rw [goes] at carries
          cases carries
          obtain ⟨_,_,a,mem,_,_,resource⟩ := fetchedFound (Except.ok.inj (transactOk read))
          exact ⟨a,mem,resource⟩
    | marking kept =>
      simp only [verifyTurned,markingTurn] at carries
      split at carries <;> cases carries
      exact .inl rfl
    | asking kept =>
      simp only [verifyTurned,askingTurn] at carries
      split at carries <;> cases carries
      exact .inl rfl
    | completing kept proof =>
      simp only [verifyTurned,completingTurn] at carries
      split at carries <;> cases carries
    | failing error =>
      simp only [verifyTurned,failingTurn] at carries
      split at carries <;> cases carries
    | ended ending outcome => cases carries

end Turns
section Tables
variable {node : Node} {e : System.Event} {db next : Db}

structure Named (P : String → Prop) (db : Db) : Prop where
  attempts : ∀ a ∈ db.pairingAttempts, P a.proposedResource
  sites : ∀ s ∈ db.sites, P s.resourceUri

theorem effectAttempts {P : String → Prop} {jobId : JobId} {observedAt now : Time}
    (effect : Effect jobId observedAt now db next) (named : ∀ a ∈ db.pairingAttempts, P a.proposedResource) :
    ∀ a ∈ next.pairingAttempts, P a.proposedResource := by
  cases effect with
  | idle _ => exact named
  | revoked _ _ ok =>
    unfold revokeScope at ok
    split at ok
    · have same := revokeAccountOnly ok .pairingAttempts (by decide)
      exact fun a mem => named a (same ▸ mem)
    · have same := revokeTenantScopeOnly ok .pairingAttempts (by decide)
      exact fun a mem => named a (same ▸ mem)
  | purged _ _ ok =>
    unfold purgeScope at ok
    split at ok
    · simp only [purgeAccount,bindOk,ensureOk] at ok
      obtain ⟨_,_,last⟩ := ok
      cases last
      exact named
    · cases ok
      exact fun a mem => named a (memDeleteWhere.mp mem).1

def brings (P : String → Prop) : System.Op → Prop
  | .createAttempt _ record => P record.resource
  | .completePairing _ record _ _ _ => P record.resource
  | _ => True

theorem createdResource {context : TenantContext} {record : NewAttempt} {now : Time}
    (ok : createAttempt context record now db = .ok next) :
    ∃ row : PairingAttempt, row.proposedResource = record.resource ∧
      next = { db with pairingAttempts := db.pairingAttempts ++ [row] } := by
  simp only [createAttempt,bindOk,ensureOk,orFailOk] at ok
  obtain ⟨_,_,_,_,attempts,inserted,_,_,last⟩ := ok
  cases last
  obtain ⟨_,rfl⟩ := insertRowExact.mp inserted
  exact ⟨_,rfl,rfl⟩

theorem stepNamed {P : String → Prop} (wf : WellFormed db) (named : Named P db) (brought : brings P e.op) :
    Named P (System.step node db e) := by
  constructor
  · by_cases untouched : Table.pairingAttempts ∈ touches e.op
    · rcases settleCases db (System.exec node e db) with same | ⟨next,reply,ok,done⟩
      · rw [System.step,same]
        exact named.attempts
      obtain ⟨now,op⟩ := e
      cases op <;> try (simp [touches] at untouched; done)
      case createAttempt context record =>
        rw [System.step,done]
        obtain ⟨row,resource,rfl⟩ := createdResource (System.silentOk ok)
        intro a mem
        rcases List.mem_append.mp mem with old | new
        · exact named.attempts a old
        · rw [List.mem_singleton.mp new,resource]
          exact brought
      case markVerifying context tenant attempt =>
        exact columnAll PairingAttempt.proposedResource _ (fun _ => rfl) named.attempts
      case failAttempt context tenant attempt reason =>
        exact columnAll PairingAttempt.proposedResource _ (fun _ => rfl) named.attempts
      case completePairing context record proof site key =>
        rw [System.step,done]
        rcases completeExact (System.silentOk ok) with ⟨_,_,_,_,_,rfl⟩ | ⟨_,_,_,rfl⟩
        · exact named.attempts
        · exact columnAll PairingAttempt.proposedResource _ (fun _ => rfl) named.attempts
      case advanceDeletionJob jobId observedAt =>
        exact effectAttempts (advanceEffect jobId observedAt now wf) named.attempts
    · have same : (System.step node db e).pairingAttempts = db.pairingAttempts := stepOnly .pairingAttempts untouched
      exact fun a mem => named.attempts a (same ▸ mem)
  · intro s mem
    by_cases pairing : ∃ context record proof site key, e.op = .completePairing context record proof site key
    · obtain ⟨context,record,proof,site,key,op⟩ := pairing
      obtain ⟨now,_⟩ := e
      cases op
      rcases settleCases db (System.exec node ⟨now,.completePairing context record proof site key⟩ db) with
        same | ⟨next,reply,ok,done⟩
      · rw [System.step,same] at mem
        exact named.sites s mem
      rw [System.step,done] at mem
      rcases completeExact (System.silentOk ok) with ⟨_,_,_,_,_,rfl⟩ | ⟨_,_,_,rfl⟩
      · exact named.sites s mem
      · rcases List.mem_append.mp mem with old | new
        · exact named.sites s old
        · rw [List.mem_singleton.mp new]
          exact brought
    · rcases stepSites wf mem with ⟨o,ho,_,_,resource,_⟩ | ⟨⟨context,record,proof,key,op,_⟩,_⟩
      · rw [← resource]
        exact named.sites o ho
      · exact absurd ⟨context,record,proof,_,key,op⟩ pairing

end Tables

section Platform
variable {service : Service} {Q : String → Prop} {w : Pairings} {m : PlatformMove}

def Begun (node : Node) (Q : String → Prop) (resource : String) : Prop :=
  ∃ input, Q input ∧ canonicalizeResource node input = .ok resource

def asksFor (Q : String → Prop) : PlatformMove → Prop
  | .pairing (.start (.begin _ input)) => Q input.resource
  | _ => True

structure Resourced (service : Service) (Q : String → Prop) (w : Pairings) : Prop where
  wellFormed : WellFormed w.shared.db
  named : Named (Begun service.node Q) w.shared.db
  carried : ∀ c ∈ w.calls, ∀ attempt, carried c = some attempt → Begun service.node Q attempt.resource
  asked : ∀ context input, Call.begin context input none ∈ w.calls → Q input.resource

theorem parsedResource {input : BeginInput} {dateNow : Time} {record : NewAttempt}
    (ok : parseAttempt service input dateNow = .ok record) :
    canonicalizeResource service.node input.resource = .ok record.resource := by
  simp only [parseAttempt,bindOk,ensureOk] at ok
  obtain ⟨_,_,_,_,resource,made,last⟩ := ok
  cases last
  exact made

theorem callBrings {c : Call} {op : System.Op} (inv : Resourced service Q w) (mem : c ∈ w.calls) (made : CallOp service c op) :
    brings (Begun service.node Q) op := by
  cases made with
  | @create context input record dateNow parsed => exact ⟨input.resource,inv.asked context input mem,parsedResource parsed⟩
  | mark | fail => trivial
  | complete => exact inv.carried _ mem _ rfl

theorem otherBrings {P : String → Prop} {op : System.Op} (other : ofPairing op = false) : brings P op := by
  cases op <;> trivial

theorem turnAnswers {s : Shared} {c : Call} {t : Turn} {context : TenantContext} {input : BeginInput} :
    (turn service s c t).2 ≠ .begin context input none := by
  cases c with
  | begin _ _ outcome => cases outcome <;> exact fun same => by cases same
  | verify _ _ _ => exact fun same => by cases same

theorem turnResourced {i : Nat} {c : Call} {t : Turn} (inv : Resourced service Q w) (at_ : w.calls[i]? = some c) :
    Resourced service Q ⟨(turn service w.shared c t).1,w.calls.set i (turn service w.shared c t).2⟩ := by
  have mem := List.mem_of_getElem? at_
  have tables : WellFormed (turn service w.shared c t).1.db ∧
      Named (Begun service.node Q) (turn service w.shared c t).1.db := by
    rcases turnStep service w.shared c t with same | ⟨op,made,stepped⟩
    · rw [same]
      exact ⟨inv.wellFormed,inv.named⟩
    · rw [stepped]
      exact ⟨stepWellFormed inv.wellFormed,stepNamed inv.wellFormed inv.named (callBrings inv mem made)⟩
  refine ⟨tables.1,tables.2,?_,?_⟩
  · intro d hd attempt carries
    rcases List.mem_or_eq_of_mem_set hd with old | rfl
    · exact inv.carried d old attempt carries
    · rcases turnCarried carries with before | ⟨a,stored,resource⟩
      · exact inv.carried c mem attempt before
      · exact resource ▸ inv.named.attempts a stored
  · intro context input hd
    rcases List.mem_or_eq_of_mem_set hd with old | new
    · exact inv.asked context input old
    · exact absurd new.symm turnAnswers

theorem stepResourced (inv : Resourced service Q w) (asks : asksFor Q m) : Resourced service Q (platformStep service w m) := by
  cases m with
  | pairing move =>
    cases move with
    | start request =>
      refine ⟨inv.wellFormed,inv.named,?_,?_⟩
      · intro c hc attempt carries
        rcases List.mem_append.mp hc with old | new
        · exact inv.carried c old attempt carries
        · rw [List.mem_singleton.mp new] at carries
          cases request <;> cases carries
      · intro context input hc
        rcases List.mem_append.mp hc with old | new
        · exact inv.asked context input old
        · cases request with
          | begin _ _ =>
            cases List.mem_singleton.mp new
            exact asks
          | verify _ _ => cases List.mem_singleton.mp new
    | turn i t =>
      simp only [platformStep,pairingStep,step]
      split
      · exact inv
      · exact turnResourced inv (by assumption)
  | other e => exact ⟨stepWellFormed inv.wellFormed,stepNamed inv.wellFormed inv.named (otherBrings e.other),inv.carried,inv.asked⟩

theorem emptyResourced (service : Service) (Q : String → Prop) : Resourced service Q (idle Db.empty) where
  wellFormed := wellFormedEmpty
  named := ⟨fun _ mem => absurd mem List.not_mem_nil,fun _ mem => absurd mem List.not_mem_nil⟩
  carried _ mem := absurd mem List.not_mem_nil
  asked _ _ mem := absurd mem List.not_mem_nil

theorem reachableResourced (service : Service) (Q : String → Prop) (ms : List PlatformMove) (asks : ∀ m ∈ ms, asksFor Q m) :
    Resourced service Q (run (platformStep service) (idle Db.empty) ms) := by
  have steps : ∀ (ms : List PlatformMove) (w : Pairings), Resourced service Q w → (∀ m ∈ ms, asksFor Q m) →
      Resourced service Q (run (platformStep service) w ms) := by
    intro ms
    induction ms with
    | nil => exact fun _ inv _ => inv
    | cons m ms ih =>
      intro w inv asks
      exact ih _ (stepResourced inv (asks m List.mem_cons_self)) fun o mem => asks o (List.mem_cons_of_mem _ mem)
  exact steps ms _ (emptyResourced service Q) asks

end Platform

section Sites
variable {service : Service} {input resource other out : String}

def Unmarked (node : Node) (input : String) : Prop :=
  ∀ resource, canonicalizeResource node input = .ok resource → undelimited input

/- Two live sites of any state reach two endpoints, if no pairing was asked for with a mark. -/
theorem liveOnce (whatwg : Whatwg service.node) (ms : List PlatformMove)
    (asks : ∀ m ∈ ms, asksFor (Unmarked service.node) m) :
    ∀ s ∈ (run (platformStep service) (idle Db.empty) ms).shared.db.sites,
    ∀ o ∈ (run (platformStep service) (idle Db.empty) ms).shared.db.sites, siteLive s = true → siteLive o = true →
      endpoint service.node s.resourceUri = endpoint service.node o.resourceUri → s = o := by
  intro s hs o ho live live' same
  have inv := reachableResourced service (Unmarked service.node) ms asks
  obtain ⟨asked,plain,made⟩ := inv.named.sites s hs
  obtain ⟨asked',plain',made'⟩ := inv.named.sites o ho
  rw [endpointKept whatwg made,endpointKept whatwg made'] at same
  have text : s.resourceUri = o.resourceUri := plainOnce whatwg made made' (plain _ made) (plain' _ made') same
  exact indexedEq inv.wellFormed.siteIndex siteClashSymm hs ho (by simp [siteClash,live,live',text])

/- What canonicalizeResource promises of two accepted inputs holds exactly when neither has a
mark; where no accepted pairing is asked for with one, no two live sites reach one endpoint. -/
theorem resourcesCanonical (service : Service) (whatwg : Whatwg service.node) :
    (∀ input resource, canonicalizeResource service.node input = .ok resource →
      canonicalizeResource service.node resource = .ok resource ∧
      ConsentPlan.assertExactResource service.node resource = some resource) ∧
    (∀ input resource other out, canonicalizeResource service.node input = .ok resource →
      canonicalizeResource service.node other = .ok out →
      (Canonical service.node resource ∧ Canonical service.node out ∧
        (endpoint service.node input = endpoint service.node other → resource = out) ↔
      undelimited input ∧ undelimited other)) ∧
    ∀ ms : List PlatformMove, (∀ m ∈ ms, asksFor (Unmarked service.node) m) →
      ∀ s ∈ (run (platformStep service) (idle Db.empty) ms).shared.db.sites,
      ∀ o ∈ (run (platformStep service) (idle Db.empty) ms).shared.db.sites, siteLive s = true → siteLive o = true →
        endpoint service.node s.resourceUri = endpoint service.node o.resourceUri → s = o := by
  refine ⟨fun input resource ok => ⟨canonicalizeFixed whatwg ok,assertExactFixed whatwg ok⟩,?_,liveOnce whatwg⟩
  intro input resource other out left right
  rw [canonicalExactly whatwg left,canonicalExactly whatwg right]
  exact ⟨fun h => ⟨h.1,h.2.1⟩,fun plain => ⟨plain.1,plain.2,plainOnce whatwg left right plain.1 plain.2⟩⟩

end Sites

/- One endpoint under two spellings. -/
def markedResource : String := System.sampleResource ++ "?"

def sampleParts : HttpsUrl where
  username := ""
  password := ""
  host := "site.example"
  port := none
  path := "/wp-json/wp-auto/mcp"
  query := none
  fragment := none
  lowered := by decide
  portShown _ bad := by cases bad
  hostMarks := by decide
  pathMarks := by decide

def markedParts : HttpsUrl := { sampleParts with query := some "" }

def markedNode : Node := tabled
  [(sampleVerifier,verifierDigest),(completionText "attempt_0001" System.sampleSite "thumbprint_0001",
      System.samplePairingDigest),
    (completionText "attempt_0002" "site_0002" "thumbprint_0001",
      [240,20,144,156,26,109,222,181,98,175,25,19,99,201,91,185,236,239,234,48,204,3,45,89,119,242,149,217,95,215,175,
        239])] []
  (urlTable [(System.sampleResource,sampleParts),(markedResource,markedParts)])

def markedService : Service := { pairingService with node := markedNode }

theorem markedWhatwg : Whatwg markedNode := tabledWhatwg (by decide) (by decide)

def pairingOf (attempt : String) (site : SiteId) (resource key : String) (first : Nat) : List PlatformMove :=
  [.pairing (.start (.begin System.sampleContext { pairingBegin with attemptId := attempt, resource := resource })),
    .pairing (.turn first (turnAt (seconds 3))),
    .pairing (.start (.verify System.sampleContext { pairingVerify key with attemptId := attempt, siteId := site })),
    .pairing (.turn (first + 1) (turnAt (seconds 4))),.pairing (.turn (first + 1) (turnAt (seconds 5))),
    .pairing (.turn (first + 1) (turnAt (seconds 6))),.pairing (.turn (first + 1) (turnAt (seconds 7)))]

def signedUp : List PlatformMove :=
  [.other ⟨⟨seconds 1,.signUp "user_0001"⟩,rfl⟩,
    .other ⟨⟨seconds 2,.ensureAccountAuthLink "user_0001" System.sampleAccount System.sampleTenant⟩,rfl⟩]

def pairedTwice : List PlatformMove := signedUp ++
  pairingOf "attempt_0001" System.sampleSite System.sampleResource "pair_0000000000000001" 0 ++
  pairingOf "attempt_0002" "site_0002" markedResource "pair_0000000000000002" 2

theorem sampleAccepted : canonicalizeResource markedNode System.sampleResource = .ok System.sampleResource := by rfl
theorem markedAccepted : canonicalizeResource markedNode markedResource = .ok markedResource := by rfl

theorem sampleCanonical : Canonical markedNode System.sampleResource :=
  (((resourcesCanonical markedService markedWhatwg).2.1 System.sampleResource System.sampleResource
    System.sampleResource System.sampleResource sampleAccepted sampleAccepted).mpr ⟨by decide,by decide⟩).1

/- The bare question mark is accepted and kept, and the site is paired twice. -/
theorem spelledTwice : canonicalizeResource markedNode System.sampleResource = .ok System.sampleResource ∧
    canonicalizeResource markedNode markedResource = .ok markedResource ∧
    endpoint markedNode System.sampleResource = endpoint markedNode markedResource ∧
    System.sampleResource ≠ markedResource ∧ '?' ∈ markedResource.toList ∧
    ∃ s ∈ (run (platformStep markedService) (idle Db.empty) pairedTwice).shared.db.sites,
    ∃ o ∈ (run (platformStep markedService) (idle Db.empty) pairedTwice).shared.db.sites,
      siteLive s = true ∧ siteLive o = true ∧
      endpoint markedNode s.resourceUri = endpoint markedNode o.resourceUri ∧ s.resourceUri ≠ o.resourceUri := by
  exact ⟨sampleAccepted,markedAccepted,by decide,by decide,by decide,by decide⟩

end Wepuu.PairedResources
