import Mathlib.Data.List.Nodup
import Wepuu.Reconsent
import Wepuu.Words

/-! Retries of GrantService.begin as POST /v1/oauth/consent/start calls it: the idempotency
key names the account and its OAuth interaction, the challenge is an HMAC of the immutable
input, and each call draws a new grant id. SHA-256 is assumed not to collide on the texts
of the run. -/
namespace Wepuu.ConsentRetry
open Base64Url Consent Footprint Grants NodeApi Reconsent Relational Runs Schema Statements Tenancy Wepuu.System

structure StartCall where
  context : TenantContext
  interactionUid : String
  grantId : GrantId
  siteId : SiteId
  clientId : ClientId
  scopes : List McpScope
  resource : String
  dateNow : Time
  signer : ConsentRequest → Option String

def startKey (node : Node) (c : StartCall) : String := interactionKey node c.context.accountId c.interactionUid

def startInput (node : Node) (c : StartCall) : BeginInput :=
  ⟨c.context.tenantId,c.grantId,c.siteId,c.context.accountId,c.clientId,c.scopes,c.resource,"1",startKey node c⟩

structure ControlApi where
  node : Node
  issuer : String
  secret : Key

variable (api : ControlApi)

def startService (c : StartCall) : GrantService := ⟨api.issuer,controlChallenge api.node api.secret,c.signer⟩

def start (c : StartCall) (db : Db) : Except Fault (Db × Option BegunConsent) :=
  (startService api c).begin api.node c.context (startInput api.node c) c.dateNow db

def startStep (db : Db) (c : StartCall) : Db := settle db (start api c db)

def parseStart (c : StartCall) : Except Fault (String × String) :=
  parseBegin (startService api c) api.node (startInput api.node c)

def startImmutable (c : StartCall) (resource : String) : ImmutableInput :=
  immutableInput (startInput api.node c) resource

def sentInput (c : StartCall) : Option ImmutableInput := match parseStart api c with
  | .ok (resource,_) => some (startImmutable api c resource)
  | .error _ => none

def hashedTexts (c : StartCall) : List String :=
  (c.context.accountId ++ "\x00" ++ c.interactionUid) :: (sentInput api c).toList.map immutableText

def Distinct (cs : List StartCall) : Prop :=
  ∀ c ∈ cs, ∀ d ∈ cs, ∀ a ∈ hashedTexts api c, ∀ b ∈ hashedTexts api d, api.node.sha256 a = api.node.sha256 b → a = b

def ofKey (tenant : TenantId) (key : String) (c : StartCall) : Bool :=
  c.context.tenantId == tenant && startKey api.node c == key

def proposedBy (tenant : TenantId) (key : String) (cs : List StartCall) (g : Grant) : Bool :=
  cs.any fun c => ofKey api tenant key c && c.grantId == g.id

def unusedKey (tenant : TenantId) (key : String) (db : Db) : Prop :=
  ∀ r ∈ db.idempotencyRecords, r.tenantId = tenant → r.operation = .grantCreate → r.idempotencyKey ≠ key

/- What a begin returns, up to the signature of the request. -/
structure Offer where
  grantId : GrantId
  payload : ConsentRequest
  challenge : String
  expiresAt : Time
  deriving DecidableEq, Repr

def offered (offer : Offer) (signer : ConsentRequest → Option String) : Option BegunConsent :=
  (signer offer.payload).map fun signature =>
    ⟨offer.grantId,⟨offer.payload,signature⟩,offer.challenge,offer.expiresAt⟩

def startChallenge (c : StartCall) (resource : String) : String :=
  controlChallenge api.node api.secret (startImmutable api c resource)

def startRecord (c : StartCall) (resource : String) : NewPendingGrant :=
  pendingRecord api.node (startInput api.node c) resource (startChallenge api c resource) c.dateNow

def offerOf (c : StartCall) (resource : String) (created : CreatedGrant) : Offer :=
  ⟨created.id,consentRequest (startService api c) (startInput api.node c) resource (startChallenge api c resource)
    created,startChallenge api c resource,created.expiresAt⟩

def opened (c : StartCall) : CreatedGrant := ⟨c.grantId,c.dateNow,c.dateNow + minutes 2⟩

section Keys

theorem beforeNul {a b u v : List Char} (left : '\x00' ∉ a) (right : '\x00' ∉ b)
    (same : a ++ '\x00' :: u = b ++ '\x00' :: v) : a = b := (Words.cutAt left right (.inr rfl) (.inr rfl) same).1

theorem opaqueNoNul {text : String} (shape : opaqueId text = true) : '\x00' ∉ text.toList := by
  intro mem
  simp only [opaqueId,matchesClass,Bool.and_eq_true,List.all_eq_true] at shape
  have bad := shape.2 _ mem
  revert bad
  decide

theorem keyAccount {node : Node} {a b u v : String} (left : opaqueId a = true) (right : opaqueId b = true)
    (apart : node.sha256 (a ++ "\x00" ++ u) = node.sha256 (b ++ "\x00" ++ v) → a ++ "\x00" ++ u = b ++ "\x00" ++ v)
    (same : interactionKey node a u = interactionKey node b v) : a = b := by
  have digests : base64url (node.sha256 (a ++ "\x00" ++ u)) = base64url (node.sha256 (b ++ "\x00" ++ v)) := by
    have lists := congrArg String.toList same
    simp only [interactionKey,String.toList_append] at lists
    exact String.toList_inj.mp (List.append_cancel_left lists)
  have texts := congrArg String.toList (apart (base64urlInjective digests))
  simp only [String.toList_append,List.append_assoc] at texts
  exact String.toList_inj.mp (@beforeNul a.toList b.toList u.toList v.toList (opaqueNoNul left) (opaqueNoNul right) texts)

end Keys

section Lookups
variable {context : TenantContext} {tenant : TenantId} {key : String} {db : Db}

theorem priorKnown {r : IdempotencyRecord} {g : Grant} (found : priorCreation context tenant key db = some (r,g)) :
    (r ∈ db.idempotencyRecords ∧ r.tenantId = tenant ∧ r.operation = .grantCreate ∧ r.idempotencyKey = key) ∧
    g ∈ db.grants ∧ g.id = r.resultReference := by
  obtain ⟨row,mem,hit⟩ := List.exists_of_findSome?_eq_some found
  split at hit
  · rename_i chosen
    obtain ⟨grant,hg,last⟩ := Option.map_eq_some_iff.mp hit
    cases last
    have named := List.find?_some hg
    simp only [Bool.and_eq_true,beq_iff_eq] at chosen named
    exact ⟨⟨mem,chosen.1.1.1,chosen.1.1.2,chosen.1.2⟩,List.mem_of_find?_eq_some hg,named.1.2⟩
  · contradiction

theorem unusedPrior (unused : unusedKey tenant key db) : priorCreation context tenant key db = none := by
  cases found : priorCreation context tenant key db with
  | none => rfl
  | some pair =>
    obtain ⟨r,g⟩ := pair
    obtain ⟨⟨mem,t,op,k⟩,_⟩ := priorKnown found
    exact absurd k (unused r mem t op)

theorem priorExact (wf : WellFormed db) {r : IdempotencyRecord} {g : Grant} (record : r ∈ db.idempotencyRecords)
    (named : r.tenantId = tenant ∧ r.operation = .grantCreate ∧ r.idempotencyKey = key)
    (seen : idempotencyTenantAccess context db r = true) (grant : g ∈ db.grants)
    (referred : g.tenantId = r.tenantId ∧ g.id = r.resultReference) (visible : grantTenantAccess context db g = true) :
    priorCreation context tenant key db = some (r,g) := by
  obtain ⟨t,op,k⟩ := named
  have some_ : (priorCreation context tenant key db).isSome = true := by
    refine List.findSome?_isSome_iff.mpr ⟨r,record,?_⟩
    rw [if_pos (by simp [t,op,k,seen])]
    simp only [Option.isSome_map]
    exact List.find?_isSome.mpr ⟨g,grant,by simp [referred.1,referred.2,visible]⟩
  obtain ⟨⟨r',g'⟩,found⟩ := Option.isSome_iff_exists.mp some_
  obtain ⟨⟨mem,t',op',k'⟩,hg,id⟩ := priorKnown found
  have same : r' = r :=
    indexedEq wf.recordIndex idempotencyClashSymm mem record (by simp [idempotencyClash,t,op,k,t',op',k'])
  subst same
  rw [found,sameGrant wf hg grant (id.trans referred.2.symm)]

end Lookups

structure Holds (c : StartCall) (resource : String) (db : Db) : Prop where
  parsed : parseStart api c = .ok (resource,startChallenge api c resource)
  record : creationRecord (startRecord api c resource) ∈ db.idempotencyRecords
  grant : pendingGrant (startRecord api c resource) ∈ db.grants
  membership : hasActiveMembership db c.context.tenantId c.context.accountId = true

section Calls
variable {api} {c d : StartCall} {resource : String} {db next : Db} {out : Option BegunConsent}

theorem parsedChallenge {challenge : String} (parsed : parseStart api c = .ok (resource,challenge)) :
    challenge = startChallenge api c resource := (parseBeginExact.mp parsed).2.2.1

theorem sentInputOk {challenge : String} (parsed : parseStart api c = .ok (resource,challenge)) :
    sentInput api c = some (startImmutable api c resource) := by
  unfold sentInput
  rw [parsed]

theorem sentInputSome {immutable : ImmutableInput} (sent : sentInput api c = some immutable) :
    ∃ resource, parseStart api c = .ok (resource,startChallenge api c resource) ∧
      immutable = startImmutable api c resource := by
  unfold sentInput at sent
  split at sent
  · rename_i resource challenge parsed
    cases sent
    rw [parsedChallenge parsed] at parsed
    exact ⟨resource,parsed,rfl⟩
  · contradiction

theorem startCases (ok : start api c db = .ok (next,out)) :
    ∃ resource, parseStart api c = .ok (resource,startChallenge api c resource) ∧
    ((∃ prior g, priorCreation c.context c.context.tenantId (startKey api.node c) db = some (prior,g) ∧
        prior.requestDigest = (startRecord api c resource).requestDigest ∧ next = db ∧
        out = offered (offerOf api c resource ⟨prior.resultReference,g.createdAt,g.consentExpiresAt⟩) c.signer) ∨
      (priorCreation c.context c.context.tenantId (startKey api.node c) db = none ∧
        next = { db with
          grants := db.grants ++ [pendingGrant (startRecord api c resource)]
          idempotencyRecords := db.idempotencyRecords ++ [creationRecord (startRecord api c resource)] } ∧
        hasActiveMembership db c.context.tenantId c.context.accountId = true ∧
        out = offered (offerOf api c resource (opened c)) c.signer)) := by
  obtain ⟨resource,challenge,created,parsed,hc,rfl⟩ := beginExact ok
  cases parsedChallenge parsed
  refine ⟨resource,parsed,?_⟩
  rcases createPendingCases hc with ⟨prior,g,found,digest,same,rfl⟩ | ⟨_,_,grown,absent,rfl,access,_⟩
  · exact .inl ⟨prior,g,found,digest,same,rfl⟩
  · simp only [idempotencyTenantAccess,Bool.and_eq_true] at access
    exact .inr ⟨absent,grown,access.2,rfl⟩

theorem startGrows (ok : start api c db = .ok (next,out)) :
    ∃ grants records, next = { db with
      grants := db.grants ++ grants, idempotencyRecords := db.idempotencyRecords ++ records } := by
  obtain ⟨resource,_,⟨_,_,_,_,rfl,_⟩ | ⟨_,grown,_⟩⟩ := startCases ok
  · exact ⟨[],[],by simp⟩
  · exact ⟨_,_,grown⟩

theorem startStepOk (ok : start api c db = .ok (next,out)) : startStep api db c = next := by
  unfold startStep
  rw [ok]
  rfl

theorem startWellFormed (wf : WellFormed db) : WellFormed (startStep api db c) := by
  unfold startStep
  cases ok : start api c db with
  | error _ => exact wf
  | ok pair =>
    obtain ⟨next,out⟩ := pair
    obtain ⟨resource,challenge,created,_,hc,_⟩ := beginExact ok
    have writes : Writes ⟨fun _ => True,fun _ => True,fun _ => True,fun _ => True,fun _ => True,fun _ => True,
        fun _ => True⟩ db next := createPendingWrites trivial trivial hc
    exact writesKeep wf writes

theorem startHolds (holds : Holds api c resource db) : Holds api c resource (startStep api db d) := by
  unfold startStep
  cases ok : start api d db with
  | error _ => exact holds
  | ok pair =>
    obtain ⟨next,out⟩ := pair
    obtain ⟨grants,records,rfl⟩ := startGrows ok
    exact ⟨holds.parsed,List.mem_append_left _ holds.record,List.mem_append_left _ holds.grant,holds.membership⟩

theorem runHolds (holds : Holds api c resource db) (cs : List StartCall) :
    Holds api c resource (run (startStep api) db cs) :=
  invariantAlways (fun _ _ => startHolds) holds cs

theorem sameOffer {resource' : String} (same : startImmutable api d resource' = startImmutable api c resource)
    (created : CreatedGrant) : offerOf api d resource' created = offerOf api c resource created := by
  have challenge : startChallenge api d resource' = startChallenge api c resource := by
    unfold startChallenge
    rw [same]
  unfold offerOf
  rw [challenge]
  simp only [startImmutable,immutableInput,ImmutableInput.mk.injEq] at same
  obtain ⟨tenant,site,subject,client,scopes,rfl,_,_⟩ := same
  simp only [consentRequest,startService,tenant,site,subject,client,scopes]

section Retries
variable (wf : WellFormed db) (holds : Holds api c resource db) (tenant : d.context.tenantId = c.context.tenantId)
variable (account : d.context.accountId = c.context.accountId) (key : startKey api.node d = startKey api.node c)
include wf holds tenant account key

theorem retryFinds : priorCreation d.context d.context.tenantId (startKey api.node d) db =
    some (creationRecord (startRecord api c resource),pendingGrant (startRecord api c resource)) := by
  refine priorExact wf holds.record ⟨tenant.symm,rfl,key.symm⟩ ?_ holds.grant ⟨rfl,rfl⟩ ?_
  · simp only [idempotencyTenantAccess,Bool.and_eq_true,beq_iff_eq,account]
    exact ⟨tenant.symm,holds.membership⟩
  · simp only [grantTenantAccess,Bool.and_eq_true,Bool.or_eq_true,beq_iff_eq]
    exact ⟨tenant.symm,.inl account.symm⟩

theorem retryReturns {resource' : String} (parsed : parseStart api d = .ok (resource',startChallenge api d resource'))
    (same : startImmutable api d resource' = startImmutable api c resource) :
    start api d db = .ok (db,offered (offerOf api c resource (opened c)) d.signer) := by
  have digest : (creationRecord (startRecord api c resource)).requestDigest =
      (startRecord api d resource').requestDigest :=
    congrArg (fun immutable => api.node.sha256 (immutableText immutable)) same.symm
  have created : createPending d.context (startRecord api d resource') db = .ok (db,opened c) := by
    unfold createPending
    rw [show priorCreation d.context (startRecord api d resource').tenantId
      (startRecord api d resource').idempotencyKey db = _ from retryFinds wf holds tenant account key]
    simp only [if_pos digest]
    rfl
  rw [← sameOffer same]
  exact bindOk.mpr ⟨_,parsed,bindOk.mpr ⟨_,created,rfl⟩⟩

theorem retryConflicts {resource' : String} (parsed : parseStart api d = .ok (resource',startChallenge api d resource'))
    (apart : (startRecord api c resource).requestDigest ≠ (startRecord api d resource').requestDigest) :
    start api d db = .error (.thrown "idempotency_conflict") := by
  have refused : createPending d.context (startRecord api d resource') db = .error (.thrown "idempotency_conflict") := by
    unfold createPending
    rw [show priorCreation d.context (startRecord api d resource').tenantId
      (startRecord api d resource').idempotencyKey db = _ from retryFinds wf holds tenant account key]
    exact if_neg apart
  unfold start GrantService.begin
  rw [show parseBegin (startService api d) api.node (startInput api.node d) = _ from parsed]
  show (createPending d.context (startRecord api d resource') db >>= _) = _
  rw [refused]
  rfl

end Retries

theorem ofKeyIff {tenant : TenantId} {key : String} :
    ofKey api tenant key c = true ↔ c.context.tenantId = tenant ∧ startKey api.node c = key := by
  simp only [ofKey,Bool.and_eq_true,beq_iff_eq]

theorem firstOpens {tenant : TenantId} {key : String} (mine : ofKey api tenant key c = true)
    (unused : unusedKey tenant key db) (ok : start api c db = .ok (next,out)) :
    ∃ resource, Holds api c resource next ∧ out = offered (offerOf api c resource (opened c)) c.signer ∧
      next.grants = db.grants ++ [pendingGrant (startRecord api c resource)] := by
  obtain ⟨rfl,rfl⟩ := ofKeyIff.mp mine
  obtain ⟨resource,parsed,⟨_,_,found,_⟩ | ⟨_,rfl,membership,rfl⟩⟩ := startCases ok
  · rw [unusedPrior unused] at found
    contradiction
  · exact ⟨resource,⟨parsed,by simp,by simp,membership⟩,rfl,rfl⟩

end Calls

def Begun (tenant : TenantId) (key : String) (cs : List StartCall) (db : Db) : Prop :=
  ∃ c ∈ cs, ofKey api tenant key c = true ∧ ∃ resource, Holds api c resource db

def successes (tenant : TenantId) (key : String) : Db → List StartCall → Nat
  | _, [] => 0
  | db, c :: cs => (if ofKey api tenant key c && (start api c db).isOk then 1 else 0) +
    successes tenant key (startStep api db c) cs

section Interleavings
variable {api} {tenant : TenantId} {key : String} {cs : List StartCall} (distinct : Distinct api cs)
variable {db : Db} {c d : StartCall} {resource : String}

include distinct in
theorem sameAccount (left : c ∈ cs) (right : d ∈ cs) {resource' : String} {x y : String}
    (parsedLeft : parseStart api c = .ok (resource,x)) (parsedRight : parseStart api d = .ok (resource',y))
    (same : startKey api.node c = startKey api.node d) : c.context.accountId = d.context.accountId := by
  have opaqueAccount : ∀ {e : StartCall} {r z : String}, parseStart api e = .ok (r,z) →
      opaqueId e.context.accountId = true := by
    intro e r z parsed
    have ids := (parseBeginExact.mp parsed).2.2.2.2
    simp only [identifiersParse,Bool.and_eq_true] at ids
    exact ids.1.1.1.2
  exact keyAccount (opaqueAccount parsedLeft) (opaqueAccount parsedRight)
    (distinct c left d right _ (by simp [hashedTexts]) _ (by simp [hashedTexts])) same

include distinct in
theorem digestsApart (left : c ∈ cs) (right : d ∈ cs) {resource' : String} {x y : String}
    (parsedLeft : parseStart api c = .ok (resource,x)) (parsedRight : parseStart api d = .ok (resource',y))
    (apart : startImmutable api d resource' ≠ startImmutable api c resource) :
    (startRecord api c resource).requestDigest ≠ (startRecord api d resource').requestDigest := by
  intro same
  refine apart (immutableTextInjective (distinct d right c left _ ?_ _ ?_ same.symm))
  · simp [hashedTexts,sentInputOk parsedRight]
  · simp [hashedTexts,sentInputOk parsedLeft]

include distinct in
theorem startDecided (wf : WellFormed db) (left : c ∈ cs) (right : d ∈ cs) (firstOf : ofKey api tenant key c = true)
    (laterOf : ofKey api tenant key d = true) (holds : Holds api c resource db) {immutable : ImmutableInput}
    (sent : sentInput api d = some immutable) :
    start api d db = if immutable = startImmutable api c resource then
      .ok (db,offered (offerOf api c resource (opened c)) d.signer) else .error (.thrown "idempotency_conflict") := by
  obtain ⟨resource',parsed,rfl⟩ := sentInputSome sent
  obtain ⟨tc,kc⟩ := ofKeyIff.mp firstOf
  obtain ⟨td,kd⟩ := ofKeyIff.mp laterOf
  have keys := kd.trans kc.symm
  have account := sameAccount distinct right left parsed holds.parsed keys
  split
  · exact retryReturns wf holds (td.trans tc.symm) account keys parsed ‹_›
  · rename_i apart
    exact retryConflicts wf holds (td.trans tc.symm) account keys parsed
      (digestsApart distinct left right holds.parsed parsed apart)

include distinct in
theorem begunStays (wf : WellFormed db) (mem : d ∈ cs) (laterOf : ofKey api tenant key d = true)
    (begun : Begun api tenant key cs db) : startStep api db d = db := by
  obtain ⟨c,left,firstOf,resource,holds⟩ := begun
  unfold startStep
  cases ok : start api d db with
  | error _ => rfl
  | ok pair =>
    obtain ⟨next,out⟩ := pair
    obtain ⟨_,parsed,_⟩ := startCases ok
    have decided := startDecided distinct wf left mem firstOf laterOf holds (sentInputOk parsed)
    rw [ok] at decided
    split at decided <;> cases decided
    rfl

theorem otherUnused (other : ofKey api tenant key d = false) (unused : unusedKey tenant key db) :
    unusedKey tenant key (startStep api db d) := by
  unfold startStep
  cases ok : start api d db with
  | error _ => exact unused
  | ok pair =>
    obtain ⟨next,out⟩ := pair
    obtain ⟨_,_,⟨_,_,_,_,rfl,_⟩ | ⟨_,rfl,_⟩⟩ := startCases ok
    · exact unused
    · intro r mem t op k
      rcases List.mem_append.mp mem with old | new
      · exact unused r old t op k
      · cases List.mem_singleton.mp new
        rw [ofKeyIff.mpr ⟨t,k⟩] at other
        contradiction

theorem unusedStep (mem : d ∈ cs) (unused : unusedKey tenant key db) :
    unusedKey tenant key (startStep api db d) ∨ Begun api tenant key cs (startStep api db d) := by
  cases mine : ofKey api tenant key d with
  | false => exact .inl (otherUnused mine unused)
  | true =>
    unfold startStep
    cases ok : start api d db with
    | error _ => exact .inl unused
    | ok pair =>
      obtain ⟨next,out⟩ := pair
      obtain ⟨resource,holds,_⟩ := firstOpens mine unused ok
      exact .inr ⟨d,mem,mine,resource,holds⟩

theorem begunStep (begun : Begun api tenant key cs db) : Begun api tenant key cs (startStep api db d) := by
  obtain ⟨c,mem,mine,resource,holds⟩ := begun
  exact ⟨c,mem,mine,resource,startHolds holds⟩

theorem runPhases {rest : List StartCall} (within : ∀ c ∈ rest, c ∈ cs) (unused : unusedKey tenant key db) :
    unusedKey tenant key (run (startStep api) db rest) ∨ Begun api tenant key cs (run (startStep api) db rest) := by
  induction rest generalizing db with
  | nil => exact .inl unused
  | cons e rest ih =>
    have later : ∀ d ∈ rest, d ∈ cs := fun d mem => within d (List.mem_cons_of_mem _ mem)
    rcases unusedStep (within e List.mem_cons_self) unused with still | begun
    · exact ih later still
    · exact .inr (invariantAlways (fun _ _ => begunStep) begun rest)

theorem runWellFormed (wf : WellFormed db) (rest : List StartCall) : WellFormed (run (startStep api) db rest) :=
  invariantAlways (fun _ _ => startWellFormed) wf rest

section Counting
variable (once : (cs.map StartCall.grantId).Nodup)

include once in
theorem otherCount (mem : d ∈ cs) (other : ofKey api tenant key d = false) :
    (startStep api db d).grants.countP (proposedBy api tenant key cs) =
      db.grants.countP (proposedBy api tenant key cs) := by
  unfold startStep
  cases ok : start api d db with
  | error _ => rfl
  | ok pair =>
    obtain ⟨next,out⟩ := pair
    obtain ⟨resource,_,⟨_,_,_,_,rfl,_⟩ | ⟨_,rfl,_⟩⟩ := startCases ok
    · rfl
    · have foreign : proposedBy api tenant key cs (pendingGrant (startRecord api d resource)) = false := by
        rw [← Bool.not_eq_true]
        intro hit
        obtain ⟨c,hc,proposed⟩ := List.any_eq_true.mp hit
        simp only [Bool.and_eq_true,beq_iff_eq] at proposed
        cases List.inj_on_of_nodup_map once hc mem proposed.2
        rw [other] at proposed
        exact absurd proposed.1 (by decide)
      simp [settle,foreign]

theorem openedCount (mem : d ∈ cs) (unused : unusedKey tenant key db) (mine : ofKey api tenant key d = true)
    (ok : start api d db = .ok (next,out)) :
    next.grants.countP (proposedBy api tenant key cs) = db.grants.countP (proposedBy api tenant key cs) + 1 := by
  obtain ⟨resource,_,_,grants⟩ := firstOpens mine unused ok
  have proposed : proposedBy api tenant key cs (pendingGrant (startRecord api d resource)) = true :=
    List.any_eq_true.mpr ⟨d,mem,by rw [mine]; simp [pendingGrant,startRecord,pendingRecord,startInput]⟩
  simp [grants,proposed]

include distinct once

theorem begunCount (wf : WellFormed db) {rest : List StartCall} (within : ∀ c ∈ rest, c ∈ cs)
    (begun : Begun api tenant key cs db) :
    (run (startStep api) db rest).grants.countP (proposedBy api tenant key cs) =
      db.grants.countP (proposedBy api tenant key cs) := by
  induction rest generalizing db with
  | nil => rfl
  | cons e rest ih =>
    have mem := within e List.mem_cons_self
    have later : ∀ d ∈ rest, d ∈ cs := fun d hd => within d (List.mem_cons_of_mem _ hd)
    rw [runCons,ih (startWellFormed wf) later (begunStep begun)]
    cases mine : ofKey api tenant key e with
    | false => exact otherCount once mem mine
    | true => rw [begunStays distinct wf mem mine begun]

theorem unusedCount (wf : WellFormed db) {rest : List StartCall} (within : ∀ c ∈ rest, c ∈ cs)
    (unused : unusedKey tenant key db) :
    (run (startStep api) db rest).grants.countP (proposedBy api tenant key cs) =
      db.grants.countP (proposedBy api tenant key cs) + min 1 (successes api tenant key db rest) := by
  induction rest generalizing db with
  | nil => rfl
  | cons e rest ih =>
    have mem := within e List.mem_cons_self
    have later : ∀ d ∈ rest, d ∈ cs := fun d hd => within d (List.mem_cons_of_mem _ hd)
    rw [runCons]
    cases mine : ofKey api tenant key e with
    | false =>
      rw [ih (startWellFormed wf) later (otherUnused mine unused),otherCount once mem mine]
      simp [successes,mine]
    | true =>
      cases ok : start api e db with
      | error f =>
        have same : startStep api db e = db := by simp [startStep,ok,settle]
        rw [same,ih wf later unused]
        simp [successes,ok,Except.isOk,Except.toBool,same]
      | ok pair =>
        obtain ⟨next,out⟩ := pair
        have after := startStepOk ok
        have begun : Begun api tenant key cs next := by
          obtain ⟨resource,holds,_⟩ := firstOpens mine unused ok
          exact ⟨e,mem,mine,resource,holds⟩
        have wfNext : WellFormed next := after ▸ startWellFormed wf
        rw [after,begunCount distinct once wfNext later begun,openedCount mem unused mine ok]
        simp [successes,mine,ok,Except.isOk,Except.toBool]

end Counting

include distinct in
theorem startsPairwise (wf : WellFormed db) (unused : unusedKey tenant key db) {before mid after : List StartCall}
    (order : cs = before ++ c :: (mid ++ d :: after)) (first : ofKey api tenant key c = true)
    (later : ofKey api tenant key d = true) {next : Db} {out : Option BegunConsent}
    (ok : start api c (run (startStep api) db before) = .ok (next,out)) :
    ∃ offer, out = offered offer c.signer ∧
      (unusedKey tenant key (run (startStep api) db before) → offer.expiresAt = c.dateNow + minutes 2) ∧
      ∀ immutable, sentInput api d = some immutable →
        start api d (run (startStep api) next mid) =
          if sentInput api c = some immutable then .ok (run (startStep api) next mid,offered offer d.signer)
          else .error (.thrown "idempotency_conflict") := by
  have memC : c ∈ cs := by simp [order]
  have memD : d ∈ cs := by simp [order]
  have wfBefore : WellFormed (run (startStep api) db before) := runWellFormed wf before
  have wfNext : WellFormed next := by
    rw [← startStepOk ok]
    exact startWellFormed wfBefore
  have within : ∀ e ∈ before, e ∈ cs := fun e mem => by simp [order,mem]
  have compare : ∀ {resource : String}, sentInput api c = some (startImmutable api c resource) →
      ∀ immutable, (immutable = startImmutable api c resource) = (sentInput api c = some immutable) := by
    intro resource sent immutable
    rw [sent,Option.some.injEq]
    exact propext eq_comm
  rcases runPhases within unused with still | ⟨e,memE,ofE,resource,holds⟩
  · obtain ⟨resource,holds,returned,_⟩ := firstOpens first still ok
    refine ⟨_,returned,fun _ => rfl,fun immutable sent => ?_⟩
    rw [startDecided distinct (runWellFormed wfNext mid) memC memD first later (runHolds holds mid) sent]
    simp only [compare (sentInputOk holds.parsed)]
  · obtain ⟨resource',parsed,-⟩ := startCases ok
    have decided := startDecided distinct wfBefore memE memC ofE first holds (sentInputOk parsed)
    rw [ok] at decided
    split at decided <;> cases decided
    rename_i same
    refine ⟨_,rfl,fun fresh => ?_,fun immutable sent => ?_⟩
    · obtain ⟨te,ke⟩ := ofKeyIff.mp ofE
      exact absurd ke (fresh _ holds.record te rfl)
    · rw [startDecided distinct (runWellFormed wfBefore mid) memE memD ofE later (runHolds holds mid) sent]
      rw [← same]
      simp only [compare (sentInputOk parsed)]

end Interleavings

/- In any interleaving of calls from a reachable state: a call that comes after a successful
one of its key returns the same offer for the same input and a conflict for another; the
offer's request lives two minutes from the call that created it, whenever it is returned;
and the calls of a key open one grant, with the first of them that succeeds. -/
theorem startsAgree (api : ControlApi) (es : List Event) (cs : List StartCall) (tenant : TenantId) (key : String)
    (unused : unusedKey tenant key (run (step api.node) Db.empty es)) (distinct : Distinct api cs)
    (once : (cs.map StartCall.grantId).Nodup)
    (new : ∀ c ∈ cs, ∀ g ∈ (run (step api.node) Db.empty es).grants, g.id ≠ c.grantId) :
    let db := run (step api.node) Db.empty es
    (∀ before c mid d after, cs = before ++ c :: (mid ++ d :: after) →
      ofKey api tenant key c = true → ofKey api tenant key d = true →
      ∀ next out, start api c (run (startStep api) db before) = .ok (next,out) →
      ∃ offer, out = offered offer c.signer ∧
        (unusedKey tenant key (run (startStep api) db before) → offer.expiresAt = c.dateNow + minutes 2) ∧
        ∀ immutable, sentInput api d = some immutable →
          start api d (run (startStep api) next mid) =
            if sentInput api c = some immutable then .ok (run (startStep api) next mid,offered offer d.signer)
            else .error (.thrown "idempotency_conflict")) ∧
    (run (startStep api) db cs).grants.countP (proposedBy api tenant key cs) =
      min 1 (successes api tenant key db cs) := by
  intro db
  have wf : WellFormed db := reachableWellFormed api.node es
  constructor
  · intro before c mid d after order first later next out ok
    exact startsPairwise distinct wf unused order first later ok
  · have none : db.grants.countP (proposedBy api tenant key cs) = 0 := by
      refine List.countP_eq_zero.mpr fun g mem proposed => ?_
      obtain ⟨c,hc,hit⟩ := List.any_eq_true.mp proposed
      simp only [Bool.and_eq_true,beq_iff_eq] at hit
      exact new c hc g mem hit.2.symm
    rw [unusedCount distinct once wf (fun _ mem => mem) unused,none,Nat.zero_add]

def sampleApi : ControlApi := ⟨consentNode,"https://auth.example",grantIdempotencyKey⟩

def sampleStart (grantId : GrantId) (dateNow : Time) : StartCall :=
  ⟨sampleContext,"interaction_0001",grantId,sampleSite,"client_0001",[.read],sampleResource,dateNow,
    fun _ => some "signature"⟩

def firstStart : StartCall := sampleStart "grant_0001" (seconds 10)
def lateStart : StartCall := sampleStart "grant_0002" (seconds 210)

theorem sampleKeyDigest : consentNode.sha256 (sampleAccount ++ "\x00" ++ "interaction_0001") = firstKeyDigest := by
  decide

theorem sampleStartKey (grantId : GrantId) (dateNow : Time) :
    startKey consentNode (sampleStart grantId dateNow) = sampleKey firstKeyDigest :=
  congrArg (fun digest => "oauth_" ++ base64url digest) sampleKeyDigest

theorem sampleOfKey (grantId : GrantId) (dateNow : Time) :
    ofKey sampleApi sampleTenant (sampleKey firstKeyDigest) (sampleStart grantId dateNow) = true :=
  ofKeyIff.mpr ⟨rfl,sampleStartKey grantId dateNow⟩

theorem sampleStartInput (grantId : GrantId) (dateNow : Time) :
    startInput consentNode (sampleStart grantId dateNow) = sampleBegin grantId firstKeyDigest := by
  unfold startInput
  rw [sampleStartKey]
  rfl

theorem sampleImmutable (grantId : GrantId) (dateNow : Time) :
    startImmutable sampleApi (sampleStart grantId dateNow) sampleResource =
      immutableInput (sampleBegin "" firstKeyDigest) sampleResource := by
  unfold startImmutable
  rw [show startInput sampleApi.node (sampleStart grantId dateNow) = _ from sampleStartInput grantId dateNow]
  rfl

theorem sampleParsed (grantId : GrantId) (dateNow : Time) (shape : opaqueId grantId = true) :
    parseStart sampleApi (sampleStart grantId dateNow) =
      .ok (sampleResource,startChallenge sampleApi (sampleStart grantId dateNow) sampleResource) := by
  have scopes : scopeSet [.read] = true := by decide
  refine parseBeginExact.mpr ⟨scopes,rfl,rfl,controlChallengeShape _ _ _,?_⟩
  rw [show startInput sampleApi.node (sampleStart grantId dateNow) = _ from sampleStartInput grantId dateNow]
  have others : (opaqueId sampleSite && opaqueId sampleAccount && clientIdShape "client_0001" && digitsShape "1" &&
      idempotencyKeyShape (sampleKey firstKeyDigest)) = true := by decide
  simp only [Bool.and_eq_true] at others
  simp only [identifiersParse,sampleBegin,shape,others,Bool.and_self]

theorem firstStartOpens : ∃ next consent,
    start sampleApi firstStart (run (step consentNode) Db.empty pairedHistory) = .ok (next,some consent) := by
  have parsed := parseBeginExact.mp (sampleParsed "grant_0001" (seconds 10) (by decide))
  have call : FirstCall (startService sampleApi firstStart) consentNode sampleContext
      (startInput consentNode firstStart) (run (step consentNode) Db.empty pairedHistory) :=
    { tenant := rfl
      membership := by decide
      subject := .inl rfl
      site := ⟨sampleSiteRow,by decide,rfl,rfl,rfl,rfl⟩
      scopes := parsed.1
      identifiers := parsed.2.2.2.2
      challenge := controlChallengeShape consentNode grantIdempotencyKey
      signs := fun _ => rfl
      newKey := by decide
      newId := by decide }
  have opens : ∃ next consent, start sampleApi firstStart (run (step consentNode) Db.empty pairedHistory) =
      .ok (next,some consent) ∧ _ := beginOpens (reachableWellFormed consentNode pairedHistory) call (by decide)
  obtain ⟨next,consent,ok,_⟩ := opens
  exact ⟨next,consent,ok⟩

theorem samplePairedUnused :
    unusedKey sampleTenant (sampleKey firstKeyDigest) (run (step consentNode) Db.empty pairedHistory) := by
  have none : ∀ r ∈ (run (step consentNode) Db.empty pairedHistory).idempotencyRecords, r.operation ≠ .grantCreate := by
    decide
  exact fun r mem _ op => absurd op (none r mem)

theorem firstStartHolds : ∃ next consent,
    start sampleApi firstStart (run (step consentNode) Db.empty pairedHistory) = .ok (next,some consent) ∧
      Holds sampleApi firstStart sampleResource next := by
  obtain ⟨next,consent,ok⟩ := firstStartOpens
  have mine : ofKey sampleApi sampleTenant (sampleKey firstKeyDigest) firstStart = true :=
    sampleOfKey "grant_0001" (seconds 10)
  obtain ⟨resource,holds,_⟩ := firstOpens mine samplePairedUnused ok
  have parsed : parseStart sampleApi firstStart =
      .ok (sampleResource,startChallenge sampleApi firstStart sampleResource) :=
    sampleParsed "grant_0001" (seconds 10) (by decide)
  have same := parsed.symm.trans holds.parsed
  simp only [Except.ok.injEq,Prod.mk.injEq] at same
  obtain ⟨rfl,_⟩ := same
  exact ⟨next,consent,ok,holds⟩

theorem sampleHashed (grantId : GrantId) (dateNow : Time) (shape : opaqueId grantId = true) :
    hashedTexts sampleApi (sampleStart grantId dateNow) =
      [sampleAccount ++ "\x00" ++ "interaction_0001",sampleText firstKeyDigest] := by
  unfold hashedTexts
  rw [sentInputOk (sampleParsed grantId dateNow shape),sampleImmutable]
  rfl

theorem textApart {immutable : ImmutableInput} {text : String} (other : text.toList.head? ≠ some '\x7b') :
    (immutableText immutable == text) = false := by
  refine beq_eq_false_iff_ne.mpr fun same => other ?_
  rw [← same]
  unfold immutableText stringify
  rw [String.toList_ofList]
  rfl

theorem sampleTextDigest : consentNode.sha256 (sampleText firstKeyDigest) = firstRequestDigest := by
  unfold consentNode sampleNode tabled
  simp only
  rw [List.lookup_cons,show (sampleText firstKeyDigest == _) = false from textApart (by decide)]
  simp only
  rw [List.lookup_cons,show (sampleText firstKeyDigest == _) = false from textApart (by decide)]
  simp only
  rw [List.lookup_cons,show (sampleText firstKeyDigest == _) = false from textApart (by decide)]
  simp only
  rw [List.lookup_cons_self]
  rfl

theorem sampleDistinct : Distinct sampleApi [firstStart,lateStart] := by
  have texts : ∀ c ∈ [firstStart,lateStart], hashedTexts sampleApi c =
      [sampleAccount ++ "\x00" ++ "interaction_0001",sampleText firstKeyDigest] := by
    intro c mem
    rcases List.mem_pair.mp mem with rfl | rfl
    · exact sampleHashed "grant_0001" (seconds 10) (by decide)
    · exact sampleHashed "grant_0002" (seconds 210) (by decide)
  have apart : firstKeyDigest ≠ firstRequestDigest := by decide
  intro c hc d hd a ha b hb
  rw [texts c hc,List.mem_pair] at ha
  rw [texts d hd,List.mem_pair] at hb
  show consentNode.sha256 a = consentNode.sha256 b → a = b
  rcases ha with rfl | rfl <;> rcases hb with rfl | rfl
  · exact fun _ => rfl
  · rw [sampleKeyDigest,sampleTextDigest]
    exact fun same => absurd same apart
  · rw [sampleKeyDigest,sampleTextDigest]
    exact fun same => absurd same.symm apart
  · exact fun _ => rfl

theorem retrySharesGrant : ∃ next offer,
    start sampleApi firstStart (run (step consentNode) Db.empty pairedHistory) =
      .ok (next,offered offer firstStart.signer) ∧
    start sampleApi lateStart next = .ok (next,offered offer lateStart.signer) ∧
    offer.expiresAt = seconds 10 + minutes 2 ∧
    (run (startStep sampleApi) (run (step consentNode) Db.empty pairedHistory) [firstStart,lateStart]).grants.countP
      (proposedBy sampleApi sampleTenant (sampleKey firstKeyDigest) [firstStart,lateStart]) = 1 := by
  obtain ⟨next,consent,ok,holds⟩ := firstStartHolds
  obtain ⟨pairs,count⟩ := startsAgree sampleApi pairedHistory [firstStart,lateStart] sampleTenant
    (sampleKey firstKeyDigest) samplePairedUnused sampleDistinct (by decide) (by decide)
  have first := sampleOfKey "grant_0001" (seconds 10)
  obtain ⟨offer,returned,lives,later⟩ :=
    pairs [] firstStart [] lateStart [] rfl first (sampleOfKey "grant_0002" (seconds 210)) next _ ok
  have sent : sentInput sampleApi lateStart = sentInput sampleApi firstStart := by
    rw [sentInputOk (show parseStart sampleApi lateStart = _ from sampleParsed "grant_0002" (seconds 210) (by decide)),
      sentInputOk holds.parsed]
    exact congrArg some ((sampleImmutable "grant_0002" (seconds 210)).trans
      (sampleImmutable "grant_0001" (seconds 10)).symm)
  have retried := later _ (sent.trans (sentInputOk holds.parsed))
  rw [if_pos (sentInputOk holds.parsed)] at retried
  refine ⟨next,offer,?_,retried,lives samplePairedUnused,?_⟩
  · rw [← returned]
    exact ok
  · have some_ : 1 ≤ successes sampleApi sampleTenant (sampleKey firstKeyDigest)
        (run (step consentNode) Db.empty pairedHistory) [firstStart,lateStart] := by
      have isOk : (start sampleApi firstStart (run (step consentNode) Db.empty pairedHistory)).isOk = true := by
        rw [ok]
        rfl
      rw [successes,show ofKey sampleApi sampleTenant (sampleKey firstKeyDigest) firstStart = true from first,
        show (start sampleApi firstStart _).isOk = true from isOk]
      simp
    exact count.trans (Nat.min_eq_left some_)

/- A retry within the interaction's 300 seconds returns a request that has expired. -/
theorem lateRetryExpired : ∃ next consent,
    start sampleApi lateStart (run (startStep sampleApi) (run (step consentNode) Db.empty pairedHistory) [firstStart])
      = .ok (next,some consent) ∧ consent.expiresAt < lateStart.dateNow := by
  obtain ⟨next,consent,ok,holds⟩ := firstStartHolds
  have before : WellFormed (run (step consentNode) Db.empty pairedHistory) :=
    reachableWellFormed consentNode pairedHistory
  have wf : WellFormed next := (startStepOk ok) ▸ startWellFormed before
  have key : startKey sampleApi.node lateStart = startKey sampleApi.node firstStart :=
    (sampleStartKey "grant_0002" (seconds 210)).trans (sampleStartKey "grant_0001" (seconds 10)).symm
  have immutable : startImmutable sampleApi lateStart sampleResource =
      startImmutable sampleApi firstStart sampleResource :=
    (sampleImmutable "grant_0002" (seconds 210)).trans (sampleImmutable "grant_0001" (seconds 10)).symm
  have parsed : parseStart sampleApi lateStart =
      .ok (sampleResource,startChallenge sampleApi lateStart sampleResource) :=
    sampleParsed "grant_0002" (seconds 210) (by decide)
  have tenant : lateStart.context.tenantId = firstStart.context.tenantId := rfl
  have account : lateStart.context.accountId = firstStart.context.accountId := rfl
  have returned := retryReturns wf holds tenant account key parsed immutable
  let offer := offerOf sampleApi firstStart sampleResource (opened firstStart)
  refine ⟨next,⟨offer.grantId,⟨offer.payload,"signature"⟩,offer.challenge,offer.expiresAt⟩,?_,?_⟩
  · rw [runCons,startStepOk ok]
    exact returned
  · show firstStart.dateNow + minutes 2 < lateStart.dateNow
    decide

end Wepuu.ConsentRetry
