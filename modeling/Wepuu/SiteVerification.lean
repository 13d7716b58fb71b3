import Wepuu.CompactTokens
import Wepuu.PairingService
import Wepuu.RevocationDelivery

/-! HttpsSiteVerificationClient.verify: the addresses of the site, the one request that is
sent to it, and what comes back in pieces. -/
namespace Wepuu.SiteVerification
open CompactTokens Consent JsValues NodeApi PairingService Resources RevocationDelivery Runs Schema SiteProofs Words

section Addresses

/- isIP of node:net, and whether the range of ipaddr.process(address) is unicast. -/
structure AddressApi where
  isIp : String → Nat
  unicast : String → Bool

structure Lookups where
  resolve4 : Option (List String)
  resolve6 : Option (List String)
  deriving DecidableEq, Repr

variable (net : AddressApi)

def isPublicAddress (address : String) : Bool := net.isIp address != 0 && net.unicast address

def resolvePublicAddresses (hostname : String) (lookups : Lookups) : Except PairingDiagnosticError (List String) :=
  if net.isIp hostname ≠ 0 then
    if isPublicAddress net hostname then .ok [hostname] else diagnostic .destination .destinationUnsafe
  else
    let addresses := distinct (lookups.resolve4.getD [] ++ lookups.resolve6.getD [])
    if addresses.isEmpty then diagnostic .dns .dnsFailed
    else if addresses.all (isPublicAddress net) then .ok (addresses.insertionSort fun a b => codeUnits a ≤ codeUnits b)
    else diagnostic .destination .destinationUnsafe

/- What a lookup calls back with, for any name and either form of the options. -/
def createPinnedAddressLookup (pinnedAddress : String) : Option (String → List (String × Nat)) :=
  if net.isIp pinnedAddress = 0 then none else some fun _ => [(pinnedAddress,net.isIp pinnedAddress)]

end Addresses

section Responses

structure SiteProofResponse where
  proof : String
  publicJwk : JsValue

inductive Arrival where
  | response (status : Nat) (contentType : Option String)
  | data (chunk : List UInt8)
  | finished
  | timedOut
  | failed (code : Option String)
  deriving DecidableEq, Repr

def httpDiagnostic (status : Nat) : PairingDiagnosticError :=
  ⟨.response,
    if status = 401 then .http401 else if status = 403 then .http403 else if status = 429 then .http429
    else if 400 ≤ status ∧ status < 500 then .http4xx else if 500 ≤ status ∧ status < 600 then .http5xx else .httpOther⟩

def tlsErrorCodes : List String :=
  ["CERT_HAS_EXPIRED","CERT_NOT_YET_VALID","DEPTH_ZERO_SELF_SIGNED_CERT","ERR_TLS_CERT_ALTNAME_INVALID",
    "SELF_SIGNED_CERT_IN_CHAIN","UNABLE_TO_GET_ISSUER_CERT","UNABLE_TO_GET_ISSUER_CERT_LOCALLY",
    "UNABLE_TO_VERIFY_LEAF_SIGNATURE"]

def tlsError (code : String) : Bool := tlsErrorCodes.contains code ||
  "ERR_SSL_".toList.isPrefixOf code.toList || "ERR_TLS_".toList.isPrefixOf code.toList

def networkDiagnostic (code : Option String) : PairingDiagnosticError :=
  ⟨.network,if code.any tlsError then .tlsFailed else .networkFailed⟩

def maxSiteProofBytes : Nat := 16 * 1024

/- A header value is of Latin-1, of which only the ASCII letters matter here. -/
def jsonType (contentType : Option String) : Bool :=
  "application/json".toList.isPrefixOf ((contentType.getD "").toList.map Char.toLower)

def siteProofResponse : JsValue → Option SiteProofResponse
  | .obj members => do
    guard (onlyMembers ["proof","publicJwk"] members)
    let proof ← textMember (fun _ => true) members "proof"
    let _ ← parseJwk (property members "publicJwk")
    some ⟨proof,property members "publicJwk"⟩
  | _ => none

variable (parsed : List UInt8 → Option JsValue)

def readResponse (body : List UInt8) : Except PairingDiagnosticError SiteProofResponse := match parsed body with
  | none => diagnostic .response .jsonInvalid
  | some decoded => match siteProofResponse decoded with
    | none => diagnostic .response .schemaInvalid
    | some response => .ok response

structure Exchange where
  settled : Option (Except PairingDiagnosticError SiteProofResponse)
  answered : Bool
  reading : Bool
  chunks : List (List UInt8)
  size : Nat

def Exchange.opened : Exchange := ⟨none,false,false,[],0⟩

def Exchange.settle (e : Exchange) (outcome : Except PairingDiagnosticError SiteProofResponse) : Exchange :=
  { e with settled := some (e.settled.getD outcome) }

/- A request has one response, and only the handlers of a good one read what follows. -/
def arrive (e : Exchange) : Arrival → Exchange
  | .response status contentType =>
    if e.answered then e
    else if status ≠ 200 then { e with answered := true }.settle (.error (httpDiagnostic status))
    else if jsonType contentType then { e with answered := true, reading := true }
    else { e with answered := true }.settle (diagnostic .response .contentTypeInvalid)
  | .data chunk =>
    if e.reading then
      let size := e.size + chunk.length
      if maxSiteProofBytes < size then { e with size := size }.settle (diagnostic .response .tooLarge)
      else { e with size := size, chunks := e.chunks ++ [chunk] }
    else e
  | .finished => if e.reading && e.settled.isNone then e.settle (readResponse parsed e.chunks.flatten) else e
  | .timedOut => e.settle (diagnostic .network .networkTimeout)
  | .failed code => e.settle (.error (networkDiagnostic code))

def requestSiteProof (arrivals : List Arrival) : Exchange := run (arrive parsed) .opened arrivals

end Responses

section Client
variable {K : Type}

structure Client (K : Type) where
  node : Node
  api : ProofApi K
  net : AddressApi
  parsed : List UInt8 → Option JsValue

structure SentRequest where
  hostname : String
  port : String
  path : String
  body : List UInt8
  lookup : Option (String → List (String × Nat))

variable (client : Client K)

def proofPath : String := "/wp-json/wp-auto/v1/pairing/proof"

def requestBody (input : SiteVerificationRequest) (resource : String) : List UInt8 :=
  utf8 (stringify (.obj [("protocol_version",.str "1"),("tenant_id",.str input.tenantId),
    ("pairing_attempt_id",.str input.pairingAttemptId),("site_id",.str input.siteId),
    ("platform_signing_key_pem",.str input.platformSigningKeyPem),("platform_signing_kid",.str input.platformSigningKid),
    ("verifier",.str input.verifier),("challenge",.str input.challenge),("platform_issuer",.str input.platformIssuer),
    ("resource",.str resource)]))

def sentRequest (input : SiteVerificationRequest) (resource : String) (url : Url) (pinnedAddress : String) : SentRequest :=
  let endpoint := atOrigin proofPath url
  ⟨endpoint.hostname,if endpoint.port = "" then "443" else endpoint.port,endpoint.pathname ++ endpoint.search,
    requestBody input resource,createPinnedAddressLookup client.net pinnedAddress⟩

def readProof (input : SiteVerificationRequest) (resource : String) (clock : Time) :
    Except PairingDiagnosticError SiteProofResponse → Except Thrown VerifiedSiteProof
  | .error error => .error (.diagnosed error)
  | .ok response =>
    match verifySiteProof client.node client.api response.proof response.publicJwk
        (pairingExpectation client.node input resource) clock with
    | .ok proof => .ok proof
    | .error error => .error (.diagnosed error)

/- The canonical resource, its URL and the address that is pinned for it. -/
def destination (input : SiteVerificationRequest) (lookups : Lookups) : Except Thrown (String × Url × String) :=
  match canonicalizeResource client.node input.resource with
  | .error _ => .error .other
  | .ok resource => match client.node.parseUrl resource with
    | none => .error .other
    | some url => match resolvePublicAddresses client.net url.hostname lookups with
      | .error error => .error (.diagnosed error)
      | .ok addresses => match addresses.head? with
        | none => .error (.diagnosed ⟨.dns,.dnsFailed⟩)
        | some pinnedAddress =>
          if isPublicAddress client.net pinnedAddress then .ok (resource,url,pinnedAddress)
          else .error (.diagnosed ⟨.destination,.destinationUnsafe⟩)

def verify (input : SiteVerificationRequest) (lookups : Lookups) (arrivals : List Arrival) (clock : Time) :
    Option SentRequest × Option (Except Thrown VerifiedSiteProof) := match destination client input lookups with
  | .error thrown => (none,some (.error thrown))
  | .ok (resource,url,pinnedAddress) => (some (sentRequest client input resource url pinnedAddress),
    (requestSiteProof client.parsed arrivals).settled.map (readProof client input resource clock))

end Client

section Reading
variable {parsed : List UInt8 → Option JsValue} {e : Exchange} {a : Arrival} {arrivals : List Arrival}
variable {outcome : Except PairingDiagnosticError SiteProofResponse} {response : SiteProofResponse}

theorem settleStays (settled : e.settled = some outcome) (other : Except PairingDiagnosticError SiteProofResponse) :
    (e.settle other).settled = some outcome := by
  simp only [Exchange.settle,settled,Option.getD_some]

theorem arriveStays (settled : e.settled = some outcome) : (arrive parsed e a).settled = some outcome := by
  cases a with
  | response status contentType =>
    simp only [arrive]
    split
    · exact settled
    · split
      · exact settleStays (e := { e with answered := true }) settled _
      · split
        · exact settled
        · exact settleStays (e := { e with answered := true }) settled _
  | data chunk =>
    simp only [arrive]
    split
    · split
      · exact settleStays (e := { e with size := e.size + chunk.length }) settled _
      · exact settled
    · exact settled
  | finished =>
    simp only [arrive,settled,Option.isNone_some,Bool.and_false]
    exact settled
  | timedOut => exact settleStays settled _
  | failed code => exact settleStays settled _

theorem runStays (settled : e.settled = some outcome) : (run (arrive parsed) e arrivals).settled = some outcome := by
  induction arrivals generalizing e with
  | nil => exact settled
  | cons a rest ih => exact ih (arriveStays settled)

structure Buffered (e : Exchange) : Prop where
  bounded : e.chunks.flatten.length ≤ maxSiteProofBytes
  counted : e.chunks.flatten.length ≤ e.size

theorem arriveBuffered (buffered : Buffered e) : Buffered (arrive parsed e a) := by
  obtain ⟨bounded,counted⟩ := buffered
  cases a with
  | response status contentType =>
    simp only [arrive]
    split
    · exact ⟨bounded,counted⟩
    · split
      · exact ⟨bounded,counted⟩
      · split <;> exact ⟨bounded,counted⟩
  | data chunk =>
    simp only [arrive]
    split
    · split
      · exact ⟨bounded,Nat.le_trans counted (Nat.le_add_right _ _)⟩
      · have added : (e.chunks ++ [chunk]).flatten.length = e.chunks.flatten.length + chunk.length := by simp
        constructor <;> simp only [added] <;> omega
    · exact ⟨bounded,counted⟩
  | finished =>
    simp only [arrive]
    split <;> exact ⟨bounded,counted⟩
  | timedOut => exact ⟨bounded,counted⟩
  | failed code => exact ⟨bounded,counted⟩

def payload : List Arrival → List UInt8
  | [] => []
  | .data chunk :: rest => chunk ++ payload rest
  | _ :: rest => payload rest

def early : Arrival → Bool
  | .data _ | .finished => true
  | _ => false

def later : Arrival → Bool
  | .data _ | .response _ _ => true
  | _ => false

structure Ended (parsed : List UInt8 → Option JsValue) (kept : List UInt8) (arrivals : List Arrival)
    (response : SiteProofResponse) (before after : List Arrival) : Prop where
  shape : arrivals = before ++ .finished :: after
  undecided : before.all later = true
  small : (kept ++ payload before).length ≤ maxSiteProofBytes
  read : readResponse parsed (kept ++ payload before) = .ok response

structure Taking (e : Exchange) : Prop where
  answered : e.answered = true
  reading : e.reading = true
  open_ : e.settled = none
  counted : e.size = e.chunks.flatten.length
  small : e.size ≤ maxSiteProofBytes

theorem notEnded {kept : List UInt8} {rest before after : List Arrival} (other : a ≠ .finished) (decides : later a = false)
    (ended : Ended parsed kept (a :: rest) response before after) : False := by
  cases before with
  | nil => exact other (List.cons.inj ended.shape).1
  | cons b bs =>
    obtain ⟨rfl,_⟩ := List.cons.inj ended.shape
    have undecided := ended.undecided
    rw [List.all_cons,decides,Bool.false_and] at undecided
    cases undecided

theorem endedCons {kept : List UInt8} {rest : List Arrival} (undecided : later a = true) :
    (∃ before after, Ended parsed kept (a :: rest) response before after) ↔
      ∃ before after, Ended parsed (kept ++ payload [a]) rest response before after := by
  have pieces : ∀ before, kept ++ payload (a :: before) = kept ++ payload [a] ++ payload before := by
    intro before
    cases a <;> simp [payload]
  constructor
  · rintro ⟨before,after,ended⟩
    cases before with
    | nil =>
      obtain ⟨rfl,_⟩ := List.cons.inj ended.shape
      cases undecided
    | cons b bs =>
      obtain ⟨rfl,shape⟩ := List.cons.inj ended.shape
      have others := ended.undecided
      rw [List.all_cons,undecided,Bool.true_and] at others
      exact ⟨bs,after,shape,others,pieces bs ▸ ended.small,pieces bs ▸ ended.read⟩
  · rintro ⟨before,after,ended⟩
    refine ⟨a :: before,after,?_,?_,?_,?_⟩
    · rw [ended.shape,List.cons_append]
    · rw [List.all_cons,undecided,ended.undecided,Bool.true_and]
    · rw [pieces]
      exact ended.small
    · rw [pieces]
      exact ended.read

theorem refusedNot {error : PairingDiagnosticError} (settled : e.settled = some (.error error)) :
    (run (arrive parsed) e arrivals).settled ≠ some (.ok response) := by
  rw [runStays settled]
  exact fun bad => by cases bad

theorem takenExactly (taking : Taking e) : (run (arrive parsed) e arrivals).settled = some (.ok response) ↔
    ∃ before after, Ended parsed e.chunks.flatten arrivals response before after := by
  induction arrivals generalizing e with
  | nil =>
    constructor
    · intro bad
      rw [runNil,taking.open_] at bad
      cases bad
    · rintro ⟨before,after,ended⟩
      exact absurd ended.shape (by simp)
  | cons a rest ih =>
    rw [runCons]
    cases a with
    | response status contentType =>
      have same : arrive parsed e (.response status contentType) = e := by
        simp only [arrive,taking.answered,if_true]
      have nothing : payload [.response status contentType] = [] := by simp [payload]
      rw [same,ih taking,endedCons rfl,nothing,List.append_nil]
    | data chunk =>
      rw [endedCons rfl]
      simp only [arrive,taking.reading,if_true]
      split
      · rename_i large
        constructor
        · intro bad
          have settled : (({ e with reading := true, size := e.size + chunk.length } : Exchange).settle
              (diagnostic .response .tooLarge)).settled = some (.error ⟨.response,.tooLarge⟩) := by
            simp only [Exchange.settle,taking.open_,Option.getD_none,diagnostic]
          exact (refusedNot settled bad).elim
        · rintro ⟨before,after,ended⟩
          have small := ended.small
          have counted := taking.counted
          simp only [payload,List.append_nil,List.length_append] at small
          omega
      · rename_i fits
        have added : (e.chunks ++ [chunk]).flatten = e.chunks.flatten ++ payload [.data chunk] := by simp [payload]
        have taking' : Taking { e with reading := true, chunks := e.chunks ++ [chunk], size := e.size + chunk.length } :=
          ⟨taking.answered,rfl,taking.open_,by simp [taking.counted],Nat.le_of_not_lt fits⟩
        rw [← added,← ih taking']
    | finished =>
      simp only [arrive,taking.reading,taking.open_,Option.isNone_none,Bool.and_self,if_true]
      have settled : (e.settle (readResponse parsed e.chunks.flatten)).settled =
          some (readResponse parsed e.chunks.flatten) := by
        simp only [Exchange.settle,taking.open_,Option.getD_none]
      rw [runStays settled,Option.some.injEq]
      constructor
      · intro read
        exact ⟨[],rest,rfl,rfl,by simpa [payload,← taking.counted] using taking.small,by simpa [payload] using read⟩
      · rintro ⟨before,after,ended⟩
        cases before with
        | nil => simpa [payload] using ended.read
        | cons b bs =>
          obtain ⟨rfl,_⟩ := List.cons.inj ended.shape
          cases ended.undecided
    | timedOut =>
      refine ⟨fun bad => absurd bad (refusedNot (by simp only [arrive,Exchange.settle,taking.open_]; rfl)),?_⟩
      rintro ⟨before,after,ended⟩
      exact (notEnded (by simp) rfl ended).elim
    | failed code =>
      refine ⟨fun bad => absurd bad (refusedNot (by simp only [arrive,Exchange.settle,taking.open_]; rfl)),?_⟩
      rintro ⟨before,after,ended⟩
      exact (notEnded (by simp) rfl ended).elim

/- Arrivals with which a request succeeds: one good response after whatever it ignores. -/
structure Answers (parsed : List UInt8 → Option JsValue) (arrivals : List Arrival) (response : SiteProofResponse)
    (first : List Arrival) (contentType : Option String) (rest before after : List Arrival) : Prop where
  shape : arrivals = first ++ .response 200 contentType :: rest
  waiting : first.all early = true
  json : jsonType contentType = true
  ended : Ended parsed [] rest response before after

theorem answersCons {rest : List Arrival} (waits : early a = true) :
    (∃ first contentType body before after, Answers parsed (a :: rest) response first contentType body before after) ↔
      ∃ first contentType body before after, Answers parsed rest response first contentType body before after := by
  constructor
  · rintro ⟨first,contentType,body,before,after,answers⟩
    cases first with
    | nil =>
      obtain ⟨rfl,_⟩ := List.cons.inj answers.shape
      cases waits
    | cons b bs =>
      obtain ⟨rfl,shape⟩ := List.cons.inj answers.shape
      have waiting := answers.waiting
      rw [List.all_cons,waits,Bool.true_and] at waiting
      exact ⟨bs,contentType,body,before,after,shape,waiting,answers.json,answers.ended⟩
  · rintro ⟨first,contentType,body,before,after,answers⟩
    refine ⟨a :: first,contentType,body,before,after,?_,?_,answers.json,answers.ended⟩
    · rw [answers.shape,List.cons_append]
    · rw [List.all_cons,waits,answers.waiting,Bool.true_and]

theorem answersFirst {first body before after : List Arrival} {contentType : Option String} {rest : List Arrival}
    (decides : early a = false) (answers : Answers parsed (a :: rest) response first contentType body before after) :
    a = .response 200 contentType ∧ rest = body := by
  cases first with
  | nil => exact List.cons.inj answers.shape
  | cons b bs =>
    obtain ⟨rfl,_⟩ := List.cons.inj answers.shape
    have waiting := answers.waiting
    rw [List.all_cons,decides,Bool.false_and] at waiting
    cases waiting

theorem answeredExactly : (requestSiteProof parsed arrivals).settled = some (.ok response) ↔
    ∃ first contentType rest before after, Answers parsed arrivals response first contentType rest before after := by
  rw [requestSiteProof]
  induction arrivals with
  | nil =>
    constructor
    · intro bad
      rw [runNil] at bad
      cases bad
    · rintro ⟨first,contentType,rest,before,after,answers⟩
      exact absurd answers.shape (by simp)
  | cons a rest ih =>
    rw [runCons]
    cases a with
    | response status contentType =>
      by_cases good : status = 200 ∧ jsonType contentType = true
      · obtain ⟨rfl,json⟩ := good
        have taking : Taking (arrive parsed .opened (.response 200 contentType)) := by
          constructor <;> simp [arrive,Exchange.opened,json]
        have empty : (arrive parsed .opened (.response 200 contentType)).chunks.flatten = [] := by
          simp [arrive,Exchange.opened,json]
        rw [takenExactly taking,empty]
        constructor
        · rintro ⟨before,after,ended⟩
          exact ⟨[],contentType,rest,before,after,rfl,rfl,json,ended⟩
        · rintro ⟨first,_,_,before,after,answers⟩
          obtain ⟨_,rfl⟩ := answersFirst rfl answers
          exact ⟨before,after,answers.ended⟩
      · constructor
        · intro read
          have settled : ∃ error, (arrive parsed .opened (.response status contentType)).settled = some (.error error) := by
            by_cases ok : status = 200
            · have other : jsonType contentType = false := by simpa [ok] using good
              exact ⟨_,by simp [arrive,Exchange.opened,Exchange.settle,ok,other,diagnostic]; rfl⟩
            · exact ⟨_,by simp [arrive,Exchange.opened,Exchange.settle,ok]; rfl⟩
          obtain ⟨error,settled⟩ := settled
          exact (refusedNot settled read).elim
        · rintro ⟨first,_,_,before,after,answers⟩
          obtain ⟨same,_⟩ := answersFirst rfl answers
          obtain ⟨rfl,rfl⟩ := Arrival.response.inj same
          exact (good ⟨rfl,answers.json⟩).elim
    | data chunk => rw [show arrive parsed .opened (.data chunk) = .opened from rfl,ih,answersCons rfl]
    | finished => rw [show arrive parsed .opened .finished = .opened from rfl,ih,answersCons rfl]
    | timedOut =>
      refine ⟨fun bad => absurd bad (refusedNot (by simp only [arrive,Exchange.settle,Exchange.opened]; rfl)),?_⟩
      rintro ⟨first,_,_,before,after,answers⟩
      cases (answersFirst rfl answers).1
    | failed code =>
      refine ⟨fun bad => absurd bad (refusedNot (by simp only [arrive,Exchange.settle,Exchange.opened]; rfl)),?_⟩
      rintro ⟨first,_,_,before,after,answers⟩
      cases (answersFirst rfl answers).1

end Reading

section Addressing
variable {net : AddressApi} {hostname : String} {lookups : Lookups} {addresses : List String}

def answersOf (net : AddressApi) (hostname : String) (lookups : Lookups) : List String :=
  if net.isIp hostname ≠ 0 then [hostname] else lookups.resolve4.getD [] ++ lookups.resolve6.getD []

theorem diagnosticNot {α : Type} {stage : PairingDiagnosticStage} {code : PairingDiagnosticCode} {a : α} :
    diagnostic stage code ≠ .ok a := fun bad => by cases bad

theorem headLeast {l : List String} {first : String} {rest : List String}
    (sorted : l.insertionSort (fun a b => codeUnits a ≤ codeUnits b) = first :: rest) :
    first ∈ l ∧ ∀ a ∈ l, codeUnits first ≤ codeUnits a := by
  have total : Std.Total fun a b => codeUnits a ≤ codeUnits b := ⟨fun a b => le_total (codeUnits a) (codeUnits b)⟩
  have trans : IsTrans String fun a b => codeUnits a ≤ codeUnits b := ⟨fun a b c => le_trans⟩
  have ordered := List.pairwise_insertionSort (fun a b => codeUnits a ≤ codeUnits b) l
  have same : ∀ a, a ∈ l ↔ a ∈ first :: rest := by
    intro a
    rw [← sorted,List.mem_insertionSort]
  rw [sorted,List.pairwise_cons] at ordered
  refine ⟨(same first).mpr List.mem_cons_self,fun a mem => ?_⟩
  rcases List.mem_cons.mp ((same a).mp mem) with rfl | mem
  · exact le_refl _
  · exact ordered.1 a mem

theorem resolvedPublic {first : String} (ok : resolvePublicAddresses net hostname lookups = .ok addresses)
    (head : addresses.head? = some first) : first ∈ answersOf net hostname lookups ∧
      (∀ a ∈ answersOf net hostname lookups, isPublicAddress net a = true) ∧
      ∀ a ∈ answersOf net hostname lookups, codeUnits first ≤ codeUnits a := by
  unfold resolvePublicAddresses at ok
  unfold answersOf
  split at ok
  · rename_i literal
    rw [if_pos literal]
    split at ok
    · rename_i public_
      cases ok
      cases head
      refine ⟨List.mem_cons_self,fun a mem => ?_,fun a mem => ?_⟩ <;> rw [List.mem_singleton.mp mem]
      exact public_
    · exact (diagnosticNot ok).elim
  · rename_i named
    rw [if_neg named]
    simp only at ok
    split at ok
    · exact (diagnosticNot ok).elim
    · split at ok
      · rename_i public_
        rw [Except.ok.injEq] at ok
        obtain ⟨rest,whole⟩ := List.head?_eq_some_iff.mp head
        obtain ⟨mem,least⟩ := headLeast (ok.trans whole)
        exact ⟨memDistinct.mp mem,fun a mem => List.all_eq_true.mp public_ a (memDistinct.mpr mem),
          fun a mem => least a (memDistinct.mpr mem)⟩
      · exact (diagnosticNot ok).elim

end Addressing
section Verifying
variable {K : Type} {client : Client K} {input : SiteVerificationRequest} {lookups : Lookups} {arrivals : List Arrival}
variable {clock : Time} {request : SentRequest} {proof : VerifiedSiteProof}

structure ToSite (client : Client K) (input : SiteVerificationRequest) (lookups : Lookups) (request : SentRequest)
    (resource : String) (u : HttpsUrl) (pinned : String) : Prop where
  canonical : canonicalizeResource client.node input.resource = .ok resource
  parsed : client.node.parseUrl resource = some (accessors u.toUrlParts)
  spelled : resource = href u.toUrlParts
  host : request.hostname = u.host
  port : request.port = "443"
  path : request.path = proofPath
  body : request.body = requestBody input resource
  answered : pinned ∈ answersOf client.net u.host lookups
  allPublic : ∀ a ∈ answersOf client.net u.host lookups, isPublicAddress client.net a = true
  least : ∀ a ∈ answersOf client.net u.host lookups, codeUnits pinned ≤ codeUnits a
  pinning : ∃ look, request.lookup = some look ∧ ∀ name, look name = [(pinned,client.net.isIp pinned)]

theorem sentCases (sent : (verify client input lookups arrivals clock).1 = some request) :
    ∃ resource url pinned, destination client input lookups = .ok (resource,url,pinned) ∧
      request = sentRequest client input resource url pinned := by
  unfold verify at sent
  split at sent
  · cases sent
  · rename_i resource url pinned found
    exact ⟨resource,url,pinned,found,(Option.some.inj sent).symm⟩

theorem destinationOk {resource pinned : String} {url : Url} (found : destination client input lookups = .ok (resource,url,pinned)) :
    canonicalizeResource client.node input.resource = .ok resource ∧ client.node.parseUrl resource = some url ∧
      isPublicAddress client.net pinned = true ∧ ∃ addresses,
        resolvePublicAddresses client.net url.hostname lookups = .ok addresses ∧ addresses.head? = some pinned := by
  unfold destination at found
  split at found
  · cases found
  · rename_i made canonical
    split at found
    · cases found
    · rename_i url' parsed
      split at found
      · cases found
      · rename_i addresses resolved
        split at found
        · cases found
        · rename_i first head
          split at found
          · rename_i public_
            obtain ⟨rfl,rfl,rfl⟩ : made = resource ∧ url' = url ∧ first = pinned := by simpa using found
            exact ⟨canonical,parsed,public_,addresses,resolved,head⟩
          · cases found

theorem sentToSite (whatwg : Whatwg client.node) (sent : (verify client input lookups arrivals clock).1 = some request) :
    ∃ resource u pinned, ToSite client input lookups request resource u pinned := by
  obtain ⟨resource,url,pinned,found,rfl⟩ := sentCases sent
  obtain ⟨canonical,parsed,public_,addresses,resolved,head⟩ := destinationOk found
  obtain ⟨u,accepted,spelled,_,again,_⟩ := canonicalizeRecord whatwg canonical
  rw [again,Option.some.injEq] at parsed
  subst parsed
  obtain ⟨answered,allPublic,least⟩ := resolvedPublic resolved head
  have address : client.net.isIp pinned ≠ 0 := by
    unfold isPublicAddress at public_
    simpa using (Bool.and_eq_true_iff.mp public_).1
  refine ⟨resource,u,pinned,canonical,again,spelled,rfl,?_,?_,rfl,answered,allPublic,least,?_⟩
  · simp only [sentRequest,atOrigin,accessors,accepted.port,Option.getD_none,if_true]
  · simp only [sentRequest,atOrigin,String.append_empty]
  · refine ⟨fun _ => [(pinned,client.net.isIp pinned)],?_,fun _ => rfl⟩
    simp only [sentRequest,createPinnedAddressLookup,if_neg address]

theorem readOk {out : Except PairingDiagnosticError SiteProofResponse} {resource : String}
    (ok : readProof client input resource clock out = .ok proof) : ∃ response, out = .ok response ∧
      verifySiteProof client.node client.api response.proof response.publicJwk
        (pairingExpectation client.node input resource) clock = .ok proof := by
  cases out with
  | error error => cases ok
  | ok response =>
    simp only [readProof] at ok
    split at ok
    · rename_i read
      exact ⟨response,rfl,read.trans (congrArg Except.ok (Except.ok.inj ok))⟩
    · cases ok

/- Success is one good response, whole and unhurried, with a proof by the site. -/
theorem verifiedExactly : (verify client input lookups arrivals clock).2 = some (.ok proof) ↔
    (verify client input lookups arrivals clock).1.isSome = true ∧
      ∃ resource, canonicalizeResource client.node input.resource = .ok resource ∧
      ∃ response first contentType rest before after,
        Answers client.parsed arrivals response first contentType rest before after ∧
        verifySiteProof client.node client.api response.proof response.publicJwk
          (pairingExpectation client.node input resource) clock = .ok proof := by
  unfold verify
  cases found : destination client input lookups with
  | error thrown => simp
  | ok place =>
    obtain ⟨resource,url,pinned⟩ := place
    obtain ⟨canonical,_⟩ := destinationOk found
    constructor
    · intro out
      obtain ⟨answer,settled,read⟩ := Option.map_eq_some_iff.mp out
      obtain ⟨response,rfl,proved⟩ := readOk read
      obtain ⟨first,contentType,rest,before,after,answers⟩ := answeredExactly.mp settled
      exact ⟨rfl,resource,canonical,response,first,contentType,rest,before,after,answers,proved⟩
    · rintro ⟨_,other,canonical',response,first,contentType,rest,before,after,answers,proved⟩
      rw [canonical,Except.ok.injEq] at canonical'
      subst canonical'
      refine Option.map_eq_some_iff.mpr ⟨_,answeredExactly.mpr ⟨first,contentType,rest,before,after,answers⟩,?_⟩
      simp only [readProof,proved]

theorem openedBuffered : Buffered .opened := ⟨Nat.zero_le _,Nat.le_refl _⟩

theorem runBuffered (buffered : Buffered e) : Buffered (run (arrive parsed) e arrivals) := by
  induction arrivals generalizing e with
  | nil => exact buffered
  | cons a rest ih => exact ih (arriveBuffered buffered)

/- What a verification of a site does, whatever the site and the DNS answer. -/
structure OwnSiteOnly (client : Client K) (input : SiteVerificationRequest) (lookups : Lookups)
    (arrivals : List Arrival) (clock : Time) : Prop where
  addressed : ∀ request, (verify client input lookups arrivals clock).1 = some request →
    ∃ resource u pinned, ToSite client input lookups request resource u pinned
  unsent : (verify client input lookups arrivals clock).1 = none →
    ∃ thrown, ∀ more later, verify client input lookups more later = (none,some (.error thrown))
  bounded : ∀ n, (requestSiteProof client.parsed (arrivals.take n)).chunks.flatten.length ≤ maxSiteProofBytes
  lasting : ∀ outcome more, (verify client input lookups arrivals clock).2 = some outcome →
    (verify client input lookups (arrivals ++ more) clock).2 = some outcome
  verified : ∀ proof, (verify client input lookups arrivals clock).2 = some (.ok proof) ↔
    (verify client input lookups arrivals clock).1.isSome = true ∧
      ∃ resource, canonicalizeResource client.node input.resource = .ok resource ∧
      ∃ response first contentType rest before after,
        Answers client.parsed arrivals response first contentType rest before after ∧
        verifySiteProof client.node client.api response.proof response.publicJwk
          (pairingExpectation client.node input resource) clock = .ok proof

theorem ownSiteOnly (client : Client K) (whatwg : Whatwg client.node) (input : SiteVerificationRequest) (lookups : Lookups)
    (arrivals : List Arrival) (clock : Time) : OwnSiteOnly client input lookups arrivals clock := by
  refine ⟨fun request sent => sentToSite whatwg sent,fun unsent => ?_,
    fun n => (runBuffered openedBuffered).bounded,fun outcome more out => ?_,fun proof => verifiedExactly⟩
  · unfold verify at unsent ⊢
    cases found : destination client input lookups with
    | error thrown => exact ⟨thrown,fun _ _ => rfl⟩
    | ok place =>
      rw [found] at unsent
      cases unsent
  · unfold verify at out ⊢
    cases found : destination client input lookups with
    | error thrown =>
      rw [found] at out
      exact out
    | ok place =>
      rw [found] at out
      obtain ⟨answer,settled,read⟩ := Option.map_eq_some_iff.mp out
      unfold requestSiteProof at settled ⊢
      simp only [runAppend,runStays settled,Option.map_some,read]

end Verifying

section Sample

def siteAddresses : List String := ["203.0.114.20","203.0.114.10"]

def siteClient : Client String where
  node := tabled [] [] (urlTable [(System.sampleResource,PairedResources.sampleParts)])
  api := sampleProofApi
  net := ⟨fun text => if siteAddresses.contains text then 4 else 0,siteAddresses.contains⟩
  parsed _ := none

def siteRequest : SiteVerificationRequest :=
  ⟨System.sampleTenant,"attempt_0001",System.sampleSite,System.sampleResource,"verifier","challenge","https://auth.example",
    "pem","platform_key_0001"⟩

def slowAnswer : List Arrival :=
  [.response 200 (some "Application/JSON; charset=utf-8"),.data [0x7b],.data [0x22],.timedOut,.finished]

theorem slowSite : (∃ request, (verify siteClient siteRequest ⟨some siteAddresses,none⟩ slowAnswer 0).1 = some request ∧
      request.hostname = "site.example" ∧ request.port = "443" ∧
      ∃ look, request.lookup = some look ∧ ∀ name, look name = [("203.0.114.10",4)]) ∧
    ∀ more, (verify siteClient siteRequest ⟨some siteAddresses,none⟩ (slowAnswer ++ more) 0).2 =
      some (.error (.diagnosed ⟨.network,.networkTimeout⟩)) := by
  have only := ownSiteOnly siteClient (tabledWhatwg (by decide) (by decide)) siteRequest ⟨some siteAddresses,none⟩ slowAnswer 0
  have sent : (verify siteClient siteRequest ⟨some siteAddresses,none⟩ slowAnswer 0).1.isSome = true := by rfl
  obtain ⟨request,sent⟩ := Option.isSome_iff_exists.mp sent
  obtain ⟨resource,u,pinned,aimed⟩ := only.addressed request sent
  have canonical : canonicalizeResource siteClient.node siteRequest.resource = .ok System.sampleResource := by rfl
  have same : System.sampleResource = resource := Except.ok.inj (canonical.symm.trans aimed.canonical)
  have parsed : siteClient.node.parseUrl System.sampleResource = some (accessors PairedResources.sampleParts.toUrlParts) := by rfl
  have parts : accessors PairedResources.sampleParts.toUrlParts = accessors u.toUrlParts :=
    Option.some.inj (parsed.symm.trans (same ▸ aimed.parsed))
  have host : "site.example" = u.host := congrArg Url.hostname parts
  have answers : answersOf siteClient.net u.host ⟨some siteAddresses,none⟩ = siteAddresses := by rw [← host]; decide
  have pin : pinned = "203.0.114.10" := by
    have mem := answers ▸ aimed.answered
    have least := aimed.least "203.0.114.10" (by rw [answers]; decide)
    simp only [siteAddresses,List.mem_cons,List.not_mem_nil,or_false] at mem
    rcases mem with rfl | rfl
    · exact absurd least (by decide)
    · rfl
  obtain ⟨look,looked,names⟩ := aimed.pinning
  refine ⟨⟨request,sent,aimed.host.trans host.symm,aimed.port,look,looked,fun name => ?_⟩,fun more => only.lasting _ more (by rfl)⟩
  rw [names,pin]
  rfl

end Sample
end Wepuu.SiteVerification
