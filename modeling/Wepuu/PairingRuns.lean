import Wepuu.ConsentRetry
import Wepuu.PairingService

/-! Any interleaving of begin and verify: what one turn may do to the attempts, the invariant
of the tables with what each call in flight holds, and the outcome of each attempt. -/
namespace Wepuu.PairingRuns
open Grants Interleaving NodeApi Pairing PairingService Relational Runs Schema SiteProofs Statements Tenancy

section Statements
variable {node : Node} {db next : Db} {context : TenantContext} {now : Time}

theorem createAttemptExact {record : NewAttempt} (ok : createAttempt context record now db = .ok next) :
    ∃ row : PairingAttempt, row.status = .pending ∧ row.siteId = none ∧ opaqueId row.id = true ∧
      (∀ a ∈ db.pairingAttempts, attemptClash row a = false) ∧
      next = { db with pairingAttempts := db.pairingAttempts ++ [row] } := by
  simp only [createAttempt,bindOk,ensureOk,orFailOk] at ok
  obtain ⟨_,_,_,checks,attempts,inserted,_,_,last⟩ := ok
  cases last
  obtain ⟨free,rfl⟩ := insertRowExact.mp inserted
  simp only [Bool.and_eq_true] at checks
  obtain ⟨⟨⟨named,_⟩,_⟩,_⟩ := checks
  refine ⟨_,?_,?_,?_,free,rfl⟩
  · rfl
  · rfl
  · exact named

def consumed (context : TenantContext) (record : PairedAttempt) (now : Time) (db : Db) (a : PairingAttempt) : Bool :=
  attemptTarget context record.tenantId record.id .verifying db a && decide (now < a.expiresAt)

def activated (now : Time) (site : SiteId) (a : PairingAttempt) : PairingAttempt :=
  { a with status := .active, consumedAt := some now, siteId := some site }

theorem completeExact {record : PairedAttempt} {proof : VerifiedKey} {site : SiteId} {key : String}
    (ok : complete node context record proof site key now db = .ok next) :
    (∃ prior ∈ db.idempotencyRecords, prior.tenantId = record.tenantId ∧ prior.operation = .pairingComplete ∧
      prior.requestDigest = node.sha256 (completionText record.id site proof.thumbprint) ∧ next = db) ∨
    ∃ hostname, (∀ s ∈ db.sites, siteClash (pairedSite record proof site hostname) s = false) ∧
      (∃ a ∈ db.pairingAttempts, consumed context record now db a = true) ∧
      next = { db with
        sites := db.sites ++ [pairedSite record proof site hostname]
        pairingAttempts := updateWhere (consumed context record now db) (activated now site) db.pairingAttempts
        idempotencyRecords := db.idempotencyRecords ++
          [⟨record.tenantId,.pairingComplete,key,node.sha256 (completionText record.id site proof.thumbprint),site⟩] } := by
  simp only [complete] at ok
  split at ok
  · rename_i prior found
    split at ok <;> cases ok
    rename_i same
    have chosen := List.find?_some found
    simp only [Bool.and_eq_true,beq_iff_eq] at chosen
    exact .inl ⟨prior,List.mem_of_find?_eq_some found,chosen.1.1.1,chosen.1.1.2,same.1,rfl⟩
  · simp only [bindOk,ensureOk,orFailOk] at ok
    obtain ⟨url,_,_,_,_,_,sites,inserted,_,_,_,once,recorded⟩ := ok
    obtain ⟨free,rfl⟩ := insertRowExact.mp inserted
    obtain ⟨_,_,_,_,rfl⟩ := insertIdempotencyExact recorded
    refine .inr ⟨url.hostname,free,?_,rfl⟩
    have some_ : 0 < db.pairingAttempts.countP (consumed context record now db) := by
      have one : db.pairingAttempts.countP (consumed context record now db) = 1 := beq_iff_eq.mp once
      rw [one]
      exact Nat.one_pos
    exact List.countP_pos_iff.mp some_

theorem attemptClashSymm (a b : PairingAttempt) : attemptClash a b = attemptClash b a := by
  simp only [attemptClash,Bool.beq_comm (a := a.tenantId),Bool.beq_comm (a := a.id)]

theorem attemptAlone (indexed : Indexed attemptClash db.pairingAttempts) {a b : PairingAttempt}
    (left : a ∈ db.pairingAttempts) (right : b ∈ db.pairingAttempts) (tenant : a.tenantId = b.tenantId) (id : a.id = b.id) :
    a = b := indexedEq indexed attemptClashSymm left right (by simp [attemptClash,tenant,id])

theorem accessSame (members : next.memberships = db.memberships) (a : PairingAttempt) :
    pairingTenantAccess context next a = pairingTenantAccess context db a := by
  simp only [pairingTenantAccess,administers,hasTenantRole,members]

end Statements

/- What the turns of one call leave alone: no attempt vanishes or is renamed, and an attempt
is only changed while it is pending, or verifying for that call. -/
structure Frame (owner : Option (TenantId × String)) (db next : Db) : Prop where
  members : next.memberships = db.memberships
  kept : ∀ a ∈ db.pairingAttempts, ∃ b ∈ next.pairingAttempts, b.tenantId = a.tenantId ∧ b.id = a.id ∧
    b.proposedResource = a.proposedResource
  steady : ∀ a ∈ db.pairingAttempts, a.status ≠ .pending →
    (a.status = .verifying → owner ≠ some (a.tenantId,a.id)) → a ∈ next.pairingAttempts

section Frames
variable {node : Node} {db next : Db} {context : TenantContext} {now : Time} {owner : Option (TenantId × String)}

theorem frameRefl (owner : Option (TenantId × String)) (db : Db) : Frame owner db db :=
  ⟨rfl,fun a mem => ⟨a,mem,rfl,rfl,rfl⟩,fun _ mem _ _ => mem⟩

theorem frameCreate {record : NewAttempt} (ok : createAttempt context record now db = .ok next) : Frame owner db next := by
  obtain ⟨row,_,_,_,_,rfl⟩ := createAttemptExact ok
  exact ⟨rfl,fun a mem => ⟨a,List.mem_append_left _ mem,rfl,rfl,rfl⟩,fun _ mem _ _ => List.mem_append_left _ mem⟩

theorem keptUpdate {p : PairingAttempt → Bool} {f : PairingAttempt → PairingAttempt} {rows : List PairingAttempt}
    (keeps : ∀ a, (f a).tenantId = a.tenantId ∧ (f a).id = a.id ∧ (f a).proposedResource = a.proposedResource) :
    ∀ a ∈ rows, ∃ b ∈ updateWhere p f rows, b.tenantId = a.tenantId ∧ b.id = a.id ∧
      b.proposedResource = a.proposedResource := by
  intro a mem
  refine ⟨_,memUpdateWhere.mpr ⟨a,mem,rfl⟩,?_⟩
  by_cases chosen : p a = true
  · rw [if_pos chosen]
    exact keeps a
  · rw [if_neg chosen]
    exact ⟨rfl,rfl,rfl⟩

theorem targetOf {tenant : TenantId} {attempt : String} {status : AttemptStatus} {a : PairingAttempt} :
    attemptTarget context tenant attempt status db a = true ↔
      a.tenantId = tenant ∧ a.id = attempt ∧ a.status = status ∧ pairingTenantAccess context db a = true := by
  simp only [attemptTarget,Bool.and_eq_true,beq_iff_eq,and_assoc]

theorem frameMark {tenant : TenantId} {attempt : String} :
    Frame owner db (markVerifying context tenant attempt now db).1 := by
  refine ⟨rfl,keptUpdate fun a => ⟨rfl,rfl,rfl⟩,fun a mem idle _ => untouchedRow mem ?_⟩
  by_contra chosen
  simp only [Bool.not_eq_false,Bool.and_eq_true] at chosen
  exact idle (targetOf.mp chosen.1).2.2.1

theorem frameFail {tenant : TenantId} {attempt reason : String} :
    Frame (some (tenant,attempt)) db (fail context tenant attempt reason db) := by
  refine ⟨rfl,keptUpdate fun a => ⟨rfl,rfl,rfl⟩,fun a mem _ foreign => untouchedRow mem ?_⟩
  by_contra chosen
  obtain ⟨rfl,rfl,verifying,_⟩ := targetOf.mp (by simpa using chosen)
  exact foreign verifying rfl

theorem frameComplete {record : PairedAttempt} {proof : VerifiedKey} {site : SiteId} {key : String}
    (ok : complete node context record proof site key now db = .ok next) :
    Frame (some (record.tenantId,record.id)) db next := by
  rcases completeExact ok with ⟨_,_,_,_,_,rfl⟩ | ⟨hostname,_,_,rfl⟩
  · exact frameRefl _ _
  · refine ⟨rfl,keptUpdate fun a => ⟨rfl,rfl,rfl⟩,fun a mem _ foreign => untouchedRow mem ?_⟩
    by_contra chosen
    simp only [Bool.not_eq_false,consumed,Bool.and_eq_true] at chosen
    obtain ⟨tenant,id,verifying,_⟩ := targetOf.mp chosen.1
    exact foreign verifying (by rw [tenant,id])

end Frames

structure Sound (node : Node) (s : Shared) : Prop where
  attemptIndex : Indexed attemptClash s.db.pairingAttempts
  siteIndex : Indexed siteClash s.db.sites
  named : ∀ a ∈ s.db.pairingAttempts, opaqueId a.id = true
  active : ∀ a ∈ s.db.pairingAttempts, a.status = .active → ∃ site ∈ s.db.sites, a.siteId = some site.id ∧
    site.tenantId = a.tenantId ∧ site.resourceUri = a.proposedResource ∧ ⟨a.tenantId,a.id,site⟩ ∈ s.opened
  siteless : ∀ a ∈ s.db.pairingAttempts, a.status ≠ .active → a.siteId = none
  opened : ∀ o ∈ s.opened, ∃ a ∈ s.db.pairingAttempts, a.tenantId = o.tenantId ∧ a.id = o.attemptId ∧
    a.status = .active ∧ a.siteId = some o.site.id
  once : s.opened.Pairwise fun o p => (o.tenantId,o.attemptId) ≠ (p.tenantId,p.attemptId)
  all : ∀ site ∈ s.db.sites, ∃ o ∈ s.opened, o.site = site
  recorded : ∀ r ∈ s.db.idempotencyRecords, r.operation = .pairingComplete →
    ∃ a ∈ s.db.pairingAttempts, a.tenantId = r.tenantId ∧ a.status = .active ∧
      ∃ site thumbprint, r.requestDigest = node.sha256 (completionText a.id site thumbprint) ∧
        completionText a.id site thumbprint ∈ s.hashed

def Owned (context : TenantContext) (input : VerifyInput) (db : Db) : Prop :=
  ∃ a ∈ db.pairingAttempts, a.tenantId = input.tenantId ∧ a.id = input.attemptId ∧ a.status = .verifying ∧
    pairingTenantAccess context db a = true

def Fetched (input : VerifyInput) (attempt : PairingAttemptRecord) (db : Db) : Prop :=
  attempt.tenantId = input.tenantId ∧ attempt.id = input.attemptId ∧
  ∃ a ∈ db.pairingAttempts, a.tenantId = input.tenantId ∧ a.id = input.attemptId ∧ a.proposedResource = attempt.resource

def settledAs : Except PairingDiagnosticError VerifiedSiteProof → AttemptStatus
  | .ok _ => .active
  | .error _ => .failed

def Settled (input : VerifyInput) (outcome : Except PairingDiagnosticError VerifiedSiteProof) (db : Db) : Prop :=
  ∃ a ∈ db.pairingAttempts, a.tenantId = input.tenantId ∧ a.id = input.attemptId ∧ a.status = settledAs outcome

def holds (s : Shared) : Call → Prop
  | .begin _ _ _ => True
  | .verify context input stage => match stage with
    | .finding | .ended .unmarked _ | .ended .failThrew _ => True
    | .marking attempt => Fetched input attempt s.db
    | .asking attempt | .completing attempt _ => Fetched input attempt s.db ∧ Owned context input s.db
    | .failing _ => Owned context input s.db
    | .ended .settled outcome => Settled input outcome s.db

def marked : Call → Bool
  | .verify _ _ (.asking _) | .verify _ _ (.completing _ _) | .verify _ _ (.failing _) => true
  | _ => false

def apart (c d : Call) : Prop := marked c = true → marked d = true → attemptKey c ≠ attemptKey d

def owner (c : Call) : Option (TenantId × String) := if marked c then some (attemptKey c) else none

section Carrying
variable {node : Node} {s : Shared} {db next : Db} {c d : Call}

theorem fetchedKept {input : VerifyInput} {attempt : PairingAttemptRecord} {key : Option (TenantId × String)}
    (frame : Frame key db next) (fetched : Fetched input attempt db) : Fetched input attempt next := by
  obtain ⟨tenant,id,a,mem,ownTenant,ownId,resource⟩ := fetched
  obtain ⟨b,hb,sameTenant,sameId,sameResource⟩ := frame.kept a mem
  exact ⟨tenant,id,b,hb,sameTenant.trans ownTenant,sameId.trans ownId,sameResource.trans resource⟩

theorem ownedKept {context : TenantContext} {input : VerifyInput} {key : Option (TenantId × String)}
    (frame : Frame key db next) (foreign : key ≠ some (input.tenantId,input.attemptId)) (owned : Owned context input db) :
    Owned context input next := by
  obtain ⟨a,mem,tenant,id,verifying,access⟩ := owned
  refine ⟨a,frame.steady a mem (by rw [verifying]; decide) fun _ => ?_,tenant,id,verifying,?_⟩
  · rw [tenant,id]
    exact foreign
  · rw [accessSame frame.members]
    exact access

theorem settledKept {input : VerifyInput} {outcome : Except PairingDiagnosticError VerifiedSiteProof}
    {key : Option (TenantId × String)} (frame : Frame key db next) (settled : Settled input outcome db) :
    Settled input outcome next := by
  obtain ⟨a,mem,tenant,id,status⟩ := settled
  have idle : a.status ≠ .pending ∧ a.status ≠ .verifying := by
    rw [status]
    cases outcome <;> simp [settledAs]
  exact ⟨a,frame.steady a mem idle.1 fun verifying => absurd verifying idle.2,tenant,id,status⟩

theorem holdsKept {opened hashed : List _} (frame : Frame (owner c) s.db next) (free : apart c d) (ok : holds s d) :
    holds ⟨next,opened,hashed⟩ d := by
  have foreign : marked d = true → owner c ≠ some (attemptKey d) := by
    intro isMarked same
    unfold owner at same
    split at same
    · exact free (by assumption) isMarked (Option.some.inj same)
    · cases same
  cases d with
  | begin _ _ _ => trivial
  | verify context input stage =>
    cases stage with
    | finding => trivial
    | marking attempt => exact fetchedKept frame ok
    | asking attempt => exact ⟨fetchedKept frame ok.1,ownedKept frame (foreign rfl) ok.2⟩
    | completing attempt proof => exact ⟨fetchedKept frame ok.1,ownedKept frame (foreign rfl) ok.2⟩
    | failing error => exact ownedKept frame (foreign rfl) ok
    | ended ending outcome => cases ending with
      | unmarked => trivial
      | settled => exact settledKept frame ok
      | failThrew => trivial

theorem openedNone (c : Call) (same : next.sites = db.sites) : opened c db next = [] := by
  have none_ : next.sites.filter (fun s => !db.sites.contains s) = [] := by
    rw [same,List.filter_eq_nil_iff]
    intro s mem
    simp [mem]
  rw [opened,none_,List.map_nil]

theorem openedOne (c : Call) {row : Site} (sites : next.sites = db.sites ++ [row])
    (free : ∀ s ∈ db.sites, siteClash row s = false) :
    opened c db next = [⟨(attemptKey c).1,(attemptKey c).2,row⟩] := by
  have fresh : row ∉ db.sites := fun mem => by simpa [siteClash] using free row mem
  have old : db.sites.filter (fun s => !db.sites.contains s) = [] := by
    rw [List.filter_eq_nil_iff]
    intro s mem
    simp [mem]
  rw [opened,sites,List.filter_append,old]
  simp [fresh]

theorem soundHashed {opened : List Opened} {hashed more : List String} (sound : Sound node ⟨db,opened,hashed⟩) :
    Sound node ⟨db,opened,hashed ++ more⟩ := by
  refine { sound with recorded := fun r mem operation => ?_ }
  obtain ⟨a,ha,tenant,active,site,thumbprint,digest,known⟩ := sound.recorded r mem operation
  exact ⟨a,ha,tenant,active,site,thumbprint,digest,List.mem_append_left _ known⟩

theorem soundUpdate {p : PairingAttempt → Bool} {f : PairingAttempt → PairingAttempt} (sound : Sound node s)
    (before : ∀ a, p a = true → a.status ≠ .active)
    (keeps : ∀ a, (f a).tenantId = a.tenantId ∧ (f a).id = a.id ∧ (f a).siteId = a.siteId ∧ (f a).status ≠ .active) :
    Sound node ⟨{ s.db with pairingAttempts := updateWhere p f s.db.pairingAttempts },s.opened,s.hashed⟩ := by
  have still : ∀ a ∈ s.db.pairingAttempts, a.status = .active → a ∈ updateWhere p f s.db.pairingAttempts := by
    intro a mem active
    refine untouchedRow mem ?_
    by_contra chosen
    exact before a (by simpa using chosen) active
  have keys : ∀ a, (if p a then f a else a).tenantId = a.tenantId ∧ (if p a then f a else a).id = a.id ∧
      (if p a then f a else a).siteId = a.siteId := by
    intro a
    split
    · exact ⟨(keeps a).1,(keeps a).2.1,(keeps a).2.2.1⟩
    · exact ⟨rfl,rfl,rfl⟩
  have origin : ∀ b ∈ updateWhere p f s.db.pairingAttempts, b.status = .active → b ∈ s.db.pairingAttempts := by
    intro b mem active
    obtain ⟨a,ha,rfl⟩ := memUpdateWhere.mp mem
    by_cases chosen : p a = true
    · rw [if_pos chosen] at active
      exact absurd active (keeps a).2.2.2
    · rw [if_neg chosen]
      exact ha
  refine ⟨indexedUpdate sound.attemptIndex fun a b hit => ?_,sound.siteIndex,fun b mem => ?_,
    fun b mem active => sound.active b (origin b mem active) active,fun b mem idle => ?_,fun o mem => ?_,sound.once,sound.all,
    fun r mem operation => ?_⟩
  · simpa [attemptClash,keys a,keys b] using hit
  · obtain ⟨a,ha,rfl⟩ := memUpdateWhere.mp mem
    rw [(keys a).2.1]
    exact sound.named a ha
  · obtain ⟨a,ha,rfl⟩ := memUpdateWhere.mp mem
    rw [(keys a).2.2]
    by_cases chosen : p a = true
    · exact sound.siteless a ha (before a chosen)
    · rw [if_neg chosen] at idle
      exact sound.siteless a ha idle
  · obtain ⟨a,ha,tenant,id,active,site⟩ := sound.opened o mem
    exact ⟨a,still a ha active,tenant,id,active,site⟩
  · obtain ⟨a,ha,tenant,active,rest⟩ := sound.recorded r mem operation
    exact ⟨a,still a ha active,tenant,active,rest⟩

theorem soundCreate {context : TenantContext} {record : NewAttempt} {now : Time} (sound : Sound node s)
    (ok : createAttempt context record now s.db = .ok next) : Sound node ⟨next,s.opened,s.hashed⟩ := by
  obtain ⟨row,pending,siteless,named,free,rfl⟩ := createAttemptExact ok
  have origin : ∀ a ∈ s.db.pairingAttempts ++ [row], a ∈ s.db.pairingAttempts ∨ a = row := fun a mem =>
    (List.mem_append.mp mem).imp id List.mem_singleton.mp
  refine ⟨indexedAppend sound.attemptIndex attemptClashSymm free,sound.siteIndex,fun a mem => ?_,fun a mem active => ?_,
    fun a mem idle => ?_,fun o mem => ?_,sound.once,sound.all,fun r mem operation => ?_⟩
  · rcases origin a mem with old | rfl
    · exact sound.named a old
    · exact named
  · rcases origin a mem with old | rfl
    · exact sound.active a old active
    · rw [pending] at active
      cases active
  · rcases origin a mem with old | rfl
    · exact sound.siteless a old idle
    · exact siteless
  · obtain ⟨a,ha,known⟩ := sound.opened o mem
    exact ⟨a,List.mem_append_left _ ha,known⟩
  · obtain ⟨a,ha,known⟩ := sound.recorded r mem operation
    exact ⟨a,List.mem_append_left _ ha,known⟩

end Carrying

section Completing
variable {node : Node} {s : Shared} {next : Db} {context : TenantContext} {input : VerifyInput}
variable {attempt : PairingAttemptRecord} {proof : VerifiedSiteProof} {now : Time}

theorem completionOf {a b site other thumbprint thumbprint' : String} (left : opaqueId a = true) (right : opaqueId b = true)
    (same : completionText a site thumbprint = completionText b other thumbprint') : a = b := by
  have texts := congrArg String.toList same
  simp only [completionText,String.toList_append,List.append_assoc] at texts
  exact String.toList_inj.mp (@ConsentRetry.beforeNul a.toList b.toList (site.toList ++ ("\x00".toList ++ thumbprint.toList))
    (other.toList ++ ("\x00".toList ++ thumbprint'.toList)) (ConsentRetry.opaqueNoNul left) (ConsentRetry.opaqueNoNul right)
    texts)

/- The shortcut of complete answers for an attempt that is active, never for a marked one. -/
theorem completeFresh (sound : Sound node s) (fetched : Fetched input attempt s.db) (owned : Owned context input s.db)
    (distinct : Distinct node (s.hashed ++ [completionText attempt.id input.siteId proof.thumbprint]))
    {r : IdempotencyRecord} (mem : r ∈ s.db.idempotencyRecords) (tenant : r.tenantId = attempt.tenantId)
    (operation : r.operation = .pairingComplete)
    (digest : r.requestDigest = node.sha256 (completionText attempt.id input.siteId proof.thumbprint)) : False := by
  obtain ⟨ownTenant,ownId,_⟩ := fetched
  obtain ⟨b,hb,bTenant,bId,verifying,_⟩ := owned
  obtain ⟨a,ha,aTenant,active,site,thumbprint,same,known⟩ := sound.recorded r mem operation
  have texts := distinct _ (List.mem_append_left _ known) _ (List.mem_append_right _ (List.mem_singleton_self _))
    (same.symm.trans digest)
  have opaque_ : opaqueId attempt.id = true := by
    rw [ownId,← bId]
    exact sound.named b hb
  have id : a.id = b.id := by rw [completionOf (sound.named a ha) opaque_ texts,ownId,bId]
  have alone := attemptAlone sound.attemptIndex ha hb (by rw [aTenant,tenant,ownTenant,bTenant]) id
  rw [alone,verifying] at active
  cases active

theorem soundComplete {key : String} (sound : Sound node s) (fetched : Fetched input attempt s.db)
    (owned : Owned context input s.db)
    (distinct : Distinct node (s.hashed ++ [completionText attempt.id input.siteId proof.thumbprint]))
    (ok : complete node context (pairedAttempt attempt) (verifiedKey proof) input.siteId key now s.db = .ok next) :
    Sound node ⟨next,s.opened ++ opened (.verify context input (.completing attempt proof)) s.db next,
      s.hashed ++ [completionText attempt.id input.siteId proof.thumbprint]⟩ ∧ Settled input (.ok proof) next := by
  rcases completeExact ok with ⟨r,mem,tenant,operation,digest,_⟩ | ⟨hostname,free,⟨row,hrow,chosen⟩,shape⟩
  · exact (completeFresh sound fetched owned distinct mem tenant operation digest).elim
  · obtain ⟨ownTenant,ownId,source,hsource,sourceTenant,sourceId,resource⟩ := fetched
    rw [openedOne _ (by rw [shape]) free]
    subst shape
    -- The rows of the attempt are one row, which was verifying and is now active.
    have consumedKey : ∀ a, consumed context (pairedAttempt attempt) now s.db a = true →
        a.tenantId = input.tenantId ∧ a.id = input.attemptId ∧ a.status = .verifying := by
      intro a hit
      simp only [consumed,Bool.and_eq_true] at hit
      obtain ⟨tenant,id,verifying,_⟩ := targetOf.mp hit.1
      exact ⟨tenant.trans ownTenant,id.trans ownId,verifying⟩
    obtain ⟨rowTenant,rowId,_⟩ := consumedKey row chosen
    have done : activated now input.siteId row ∈
        updateWhere (consumed context (pairedAttempt attempt) now s.db) (activated now input.siteId) s.db.pairingAttempts :=
      updatedRow hrow chosen
    have still : ∀ a ∈ s.db.pairingAttempts, a.status = .active →
        a ∈ updateWhere (consumed context (pairedAttempt attempt) now s.db) (activated now input.siteId) s.db.pairingAttempts := by
      intro a mem active
      refine untouchedRow mem ?_
      by_contra hit
      rw [(consumedKey a (by simpa using hit)).2.2] at active
      cases active
    have notActive : ∀ a ∈ s.db.pairingAttempts, a.status = .active → (a.tenantId,a.id) ≠ (input.tenantId,input.attemptId) := by
      intro a mem active same
      obtain ⟨tenant,id⟩ := Prod.mk.inj same
      have alone := attemptAlone sound.attemptIndex mem hrow (tenant.trans rowTenant.symm) (id.trans rowId.symm)
      rw [alone,(consumedKey row chosen).2.2] at active
      cases active
    refine ⟨⟨indexedUpdate sound.attemptIndex fun a b hit => ?_,indexedAppend sound.siteIndex siteClashSymm free,
      fun b mem => ?_,fun b mem active => ?_,fun b mem idle => ?_,fun o mem => ?_,?_,fun site mem => ?_,
      fun r mem operation => ?_⟩,_,done,rowTenant,rowId,rfl⟩
    · have keys : ∀ a, (if consumed context (pairedAttempt attempt) now s.db a then activated now input.siteId a else a).tenantId =
          a.tenantId ∧ (if consumed context (pairedAttempt attempt) now s.db a then activated now input.siteId a else a).id =
          a.id := by
        intro a
        split <;> exact ⟨rfl,rfl⟩
      simpa [attemptClash,keys a,keys b] using hit
    · obtain ⟨a,ha,rfl⟩ := memUpdateWhere.mp mem
      split <;> exact sound.named a ha
    · obtain ⟨a,ha,rfl⟩ := memUpdateWhere.mp mem
      by_cases hit : consumed context (pairedAttempt attempt) now s.db a = true
      · rw [if_pos hit]
        obtain ⟨tenant,id,_⟩ := consumedKey a hit
        have alone := attemptAlone sound.attemptIndex ha hsource (tenant.trans sourceTenant.symm) (id.trans sourceId.symm)
        refine ⟨_,List.mem_append_right _ (List.mem_singleton_self _),rfl,ownTenant.trans tenant.symm,?_,?_⟩
        · rw [alone]
          exact resource.symm
        · refine List.mem_append_right _ (List.mem_singleton.mpr ?_)
          simp only [activated,attemptKey,tenant,id]
      · rw [if_neg hit] at active ⊢
        obtain ⟨site,hsite,known,siteTenant,siteResource,log⟩ := sound.active a ha active
        exact ⟨site,List.mem_append_left _ hsite,known,siteTenant,siteResource,List.mem_append_left _ log⟩
    · obtain ⟨a,ha,rfl⟩ := memUpdateWhere.mp mem
      by_cases hit : consumed context (pairedAttempt attempt) now s.db a = true
      · rw [if_pos hit] at idle
        exact absurd rfl idle
      · rw [if_neg hit] at idle ⊢
        exact sound.siteless a ha idle
    · rcases List.mem_append.mp mem with old | new
      · obtain ⟨a,ha,tenant,id,active,site⟩ := sound.opened o old
        exact ⟨a,still a ha active,tenant,id,active,site⟩
      · rw [List.mem_singleton.mp new]
        exact ⟨_,done,rowTenant,rowId,rfl,rfl⟩
    · refine List.pairwise_append.mpr ⟨sound.once,List.pairwise_singleton _ _,fun o old p new => ?_⟩
      rw [List.mem_singleton.mp new]
      obtain ⟨a,ha,tenant,id,active,_⟩ := sound.opened o old
      rw [← tenant,← id]
      exact notActive a ha active
    · rcases List.mem_append.mp mem with old | new
      · obtain ⟨o,ho,same⟩ := sound.all site old
        exact ⟨o,List.mem_append_left _ ho,same⟩
      · rw [List.mem_singleton.mp new]
        exact ⟨_,List.mem_append_right _ (List.mem_singleton_self _),rfl⟩
    · rcases List.mem_append.mp mem with old | new
      · obtain ⟨a,ha,tenant,active,site,thumbprint,digest,known⟩ := sound.recorded r old operation
        exact ⟨a,still a ha active,tenant,active,site,thumbprint,digest,List.mem_append_left _ known⟩
      · rw [List.mem_singleton.mp new]
        refine ⟨_,done,rowTenant.trans ownTenant.symm,rfl,input.siteId,proof.thumbprint,?_,?_⟩
        · rw [show (activated now input.siteId row).id = attempt.id from rowId.trans ownId.symm]
          rfl
        · rw [show (activated now input.siteId row).id = attempt.id from rowId.trans ownId.symm]
          exact List.mem_append_right _ (List.mem_singleton_self _)

end Completing

section Turns
variable {service : Service} {s : Shared} {db next : Db} {context : TenantContext} {c d : Call} {t : Turn}

theorem transactOk {α : Type} {out : Except Fault α} {a : α} (ok : transact t out = some a) : out = .ok a := by
  unfold transact at ok
  split at ok
  · split at ok <;> cases ok
    rfl
  · cases ok

theorem soundStay {node : Node} (c : Call) {more : List String} (sound : Sound node s) :
    Sound node ⟨s.db,s.opened ++ opened c s.db s.db,s.hashed ++ more⟩ := by
  rw [openedNone c rfl,List.append_nil]
  exact soundHashed sound

theorem soundMoved {node : Node} (c : Call) {more : List String} (sites : next.sites = s.db.sites)
    (sound : Sound node ⟨next,s.opened,s.hashed⟩) : Sound node ⟨next,s.opened ++ opened c s.db next,s.hashed ++ more⟩ := by
  rw [openedNone c sites,List.append_nil]
  exact soundHashed sound

theorem beginCases {input : BeginInput} {outcome : Except Thrown Time} (made : begin service context input t db = (next,outcome)) :
    next = db ∨ ∃ record, createAttempt context record t.now db = .ok next := by
  unfold begin at made
  split at made
  · cases made
    exact .inl rfl
  · split at made <;> cases made
    · exact .inr ⟨_,transactOk (by assumption)⟩
    · exact .inl rfl

theorem foundCases (service : Service) (input : VerifyInput) (t : Turn) (found_ : Option PairingAttemptRecord) :
    found service input t found_ = refuse stateInvalid ∨
      ∃ attempt, found_ = some attempt ∧ found service input t found_ = .marking attempt := by
  unfold found
  split
  · exact .inl rfl
  · rename_i attempt
    split
    · exact .inl rfl
    · split
      · exact .inr ⟨attempt,rfl,rfl⟩
      · exact .inl rfl

theorem fetchedFound {input : VerifyInput} {attempt : PairingAttemptRecord}
    (found_ : findAttemptForUpdate context input.tenantId input.attemptId db = some attempt) : Fetched input attempt db := by
  obtain ⟨a,hit,rfl⟩ := Option.map_eq_some_iff.mp found_
  have chosen := List.find?_some hit
  simp only [Bool.and_eq_true,beq_iff_eq] at chosen
  exact ⟨chosen.1.1.1,chosen.1.1.2,a,List.mem_of_find?_eq_some hit,chosen.1.1.1,chosen.1.1.2,rfl⟩

theorem soundMark {node : Node} {tenant : TenantId} {attempt : String} {now : Time} (sound : Sound node s) :
    Sound node ⟨(markVerifying context tenant attempt now s.db).1,s.opened,s.hashed⟩ := by
  refine soundUpdate sound (fun a chosen active => ?_) fun a => ⟨rfl,rfl,rfl,fun active => (by cases active)⟩
  simp only [Bool.and_eq_true] at chosen
  rw [(targetOf.mp chosen.1).2.2.1] at active
  cases active

theorem ownedMark {input : VerifyInput} {now : Time}
    (won : (markVerifying context input.tenantId input.attemptId now db).2 = true) :
    (∃ a ∈ db.pairingAttempts, a.tenantId = input.tenantId ∧ a.id = input.attemptId ∧ a.status = .pending) ∧
    Owned context input (markVerifying context input.tenantId input.attemptId now db).1 := by
  have one := beq_iff_eq.mp won
  obtain ⟨a,mem,chosen⟩ := List.countP_pos_iff.mp (by rw [one]; exact Nat.one_pos)
  have hit := chosen
  simp only [Bool.and_eq_true] at hit
  obtain ⟨tenant,id,pending,access⟩ := targetOf.mp hit.1
  exact ⟨⟨a,mem,tenant,id,pending⟩,_,updatedRow mem chosen,tenant,id,rfl,access⟩

theorem soundFail {node : Node} {tenant : TenantId} {attempt reason : String} (sound : Sound node s) :
    Sound node ⟨fail context tenant attempt reason s.db,s.opened,s.hashed⟩ := by
  refine soundUpdate sound (fun a chosen active => ?_) fun a => ⟨rfl,rfl,rfl,fun active => (by cases active)⟩
  rw [(targetOf.mp chosen).2.2.1] at active
  cases active

theorem settledFail {input : VerifyInput} {error : PairingDiagnosticError} {reason : String}
    (owned : Owned context input db) :
    Settled input (.error error) (fail context input.tenantId input.attemptId reason db) := by
  obtain ⟨a,mem,tenant,id,verifying,access⟩ := owned
  exact ⟨_,updatedRow mem (targetOf.mpr ⟨tenant,id,verifying,access⟩),tenant,id,rfl⟩

theorem completeTurnOk {input : VerifyInput} {attempt : PairingAttemptRecord} {proof : VerifiedSiteProof}
    (ok : completeTurn service context input attempt proof t db = some next) :
    complete service.node context (pairedAttempt attempt) (verifiedKey proof) input.siteId input.idempotencyKey t.now db =
      .ok next := by
  unfold completeTurn at ok
  split at ok
  · exact transactOk ok
  · cases ok

theorem turnKeeps (sound : Sound service.node s) (ok : holds s c) (distinct : Distinct service.node (s.hashed ++ hashed c)) :
    Sound service.node (turn service s c t).1 ∧ holds (turn service s c t).1 (turn service s c t).2 := by
  cases c with
  | begin context input outcome =>
    cases outcome with
    | some outcome => exact ⟨soundStay _ sound,trivial⟩
    | none =>
      refine ⟨?_,trivial⟩
      generalize made : begin service context input t s.db = result
      obtain ⟨next,outcome⟩ := result
      simp only [turn,callTurn,made]
      rcases beginCases made with rfl | ⟨record,created⟩
      · exact soundStay _ sound
      · refine soundMoved _ ?_ (soundCreate sound created)
        obtain ⟨_,_,_,_,_,rfl⟩ := createAttemptExact created
        rfl
  | verify context input stage =>
    cases stage with
    | finding =>
      refine ⟨soundStay _ sound,?_⟩
      simp only [verifyTurned,findingTurn]
      split
      · trivial
      · rename_i found_ read
        rcases foundCases service input t found_ with refused | ⟨attempt,rfl,goes⟩
        · rw [refused]
          trivial
        · rw [goes]
          exact fetchedFound (Except.ok.inj (transactOk read))
    | marking attempt =>
      simp only [verifyTurned,markingTurn]
      split
      · exact ⟨soundStay _ sound,trivial⟩
      · rename_i next made
        have mark := Except.ok.inj (transactOk made)
        have won := ownedMark (congrArg Prod.snd mark)
        rw [mark] at won
        have moved : Frame none s.db next := by
          have frame := @frameMark s.db context t.now none input.tenantId input.attemptId
          rwa [mark] at frame
        have tables := @soundMark s context _ input.tenantId input.attemptId t.now sound
        rw [mark] at tables
        exact ⟨soundMoved _ (by rw [← congrArg Prod.fst mark]; rfl) tables,fetchedKept moved ok,won.2⟩
      · rename_i next made
        have mark := Except.ok.inj (transactOk made)
        have tables := @soundMark s context _ input.tenantId input.attemptId t.now sound
        rw [mark] at tables
        exact ⟨soundMoved _ (by rw [← congrArg Prod.fst mark]; rfl) tables,trivial⟩
    | asking attempt =>
      refine ⟨soundStay _ sound,?_⟩
      simp only [verifyTurned,askingTurn]
      split
      · exact ok
      · exact ok.2
    | completing attempt proof =>
      simp only [verifyTurned,completingTurn]
      split
      · rename_i next made
        exact soundComplete sound ok.1 ok.2 distinct (completeTurnOk made)
      · exact ⟨soundStay _ sound,ok.2⟩
    | failing error =>
      simp only [verifyTurned,failingTurn]
      split
      · exact ⟨soundStay _ sound,trivial⟩
      · rename_i next made
        cases Except.ok.inj (transactOk made)
        exact ⟨soundMoved _ rfl (soundFail sound),settledFail ok⟩
    | ended ending outcome =>
      refine ⟨soundStay _ sound,?_⟩
      cases ending with
      | unmarked => trivial
      | settled => exact ok
      | failThrew => trivial

theorem turnKey (service : Service) (s : Shared) (c : Call) (t : Turn) :
    attemptKey (turn service s c t).2 = attemptKey c := by
  cases c with
  | begin _ _ outcome => cases outcome <;> rfl
  | verify _ _ _ => rfl

theorem turnFrame (ok : holds s c) : Frame (owner c) s.db (turn service s c t).1.db := by
  cases c with
  | begin context input outcome =>
    cases outcome with
    | some outcome => exact frameRefl _ _
    | none =>
      generalize made : begin service context input t s.db = result
      obtain ⟨next,outcome⟩ := result
      simp only [turn,callTurn,made]
      rcases beginCases made with rfl | ⟨record,created⟩
      · exact frameRefl _ _
      · exact frameCreate created
  | verify context input stage =>
    cases stage with
    | finding => exact frameRefl _ _
    | marking attempt =>
      have marks : ∀ {next won}, transact t (.ok (markVerifying context input.tenantId input.attemptId t.now s.db)) =
          some (next,won) → Frame none s.db next := by
        intro next won made
        have frame := @frameMark s.db context t.now none input.tenantId input.attemptId
        rwa [Except.ok.inj (transactOk made)] at frame
      simp only [verifyTurned,markingTurn]
      split
      · exact frameRefl _ _
      · exact marks (by assumption)
      · exact marks (by assumption)
    | asking attempt => exact frameRefl _ _
    | completing attempt proof =>
      simp only [verifyTurned,completingTurn]
      split
      · have frame := frameComplete (completeTurnOk (by assumption))
        simp only [pairedAttempt,ok.1.1,ok.1.2.1] at frame
        exact frame
      · exact frameRefl _ _
    | failing error =>
      simp only [verifyTurned,failingTurn]
      split
      · exact frameRefl _ _
      · rename_i made
        cases Except.ok.inj (transactOk made)
        exact frameFail
    | ended ending outcome => exact frameRefl _ _

theorem turnMarks (isMarked : marked (turn service s c t).2 = true) : marked c = true ∨
    ∃ a ∈ s.db.pairingAttempts, (a.tenantId,a.id) = attemptKey c ∧ a.status = .pending := by
  cases c with
  | begin context input outcome => cases outcome <;> cases isMarked
  | verify context input stage =>
    cases stage with
    | finding =>
      simp only [verifyTurned,findingTurn] at isMarked
      split at isMarked
      · cases isMarked
      · rename_i found_ _
        rcases foundCases service input t found_ with refused | ⟨attempt,_,goes⟩
        · rw [refused] at isMarked
          cases isMarked
        · rw [goes] at isMarked
          cases isMarked
    | marking attempt =>
      simp only [verifyTurned,markingTurn] at isMarked
      split at isMarked
      · cases isMarked
      · rename_i made
        have mark := Except.ok.inj (transactOk made)
        obtain ⟨⟨a,mem,tenant,id,pending⟩,_⟩ := ownedMark (congrArg Prod.snd mark)
        exact .inr ⟨a,mem,by rw [tenant,id]; rfl,pending⟩
      · cases isMarked
    | asking attempt => exact .inl rfl
    | completing attempt proof => exact .inl rfl
    | failing error => exact .inl rfl
    | ended ending outcome => cases isMarked

theorem ownedOf (ok : holds s d) (isMarked : marked d = true) : ∃ a ∈ s.db.pairingAttempts,
    (a.tenantId,a.id) = attemptKey d ∧ a.status = .verifying := by
  have owned : ∀ {context input}, Owned context input s.db → ∃ a ∈ s.db.pairingAttempts,
      (a.tenantId,a.id) = (input.tenantId,input.attemptId) ∧ a.status = .verifying := by
    rintro context input ⟨a,mem,tenant,id,verifying,_⟩
    exact ⟨a,mem,by rw [tenant,id],verifying⟩
  cases d with
  | begin _ _ _ => cases isMarked
  | verify context input stage =>
    cases stage with
    | asking attempt => exact owned ok.2
    | completing attempt proof => exact owned ok.2
    | failing error => exact owned ok
    | _ => cases isMarked

theorem turnApart (sound : Sound service.node s) (other : holds s d) (free : apart c d) :
    apart (turn service s c t).2 d := by
  intro isMarked alsoMarked
  rw [turnKey]
  rcases turnMarks isMarked with before | ⟨a,ha,key,pending⟩
  · exact free before alsoMarked
  · intro same
    obtain ⟨b,hb,ownKey,verifying⟩ := ownedOf other alsoMarked
    obtain ⟨tenant,id⟩ := Prod.mk.inj (key.trans (same.trans ownKey.symm))
    rw [attemptAlone sound.attemptIndex ha hb tenant id,verifying] at pending
    cases pending

theorem pairingRules (service : Service) : Discipline opening (turn service) (Sound service.node) holds apart
    (fun s c _ => Distinct service.node (s.hashed ++ hashed c)) where
  symmetric c d free left right same := free right left same.symm
  opens s request _ := by
    cases request with
    | begin _ _ => exact ⟨trivial,fun d _ bad => (by cases bad)⟩
    | verify _ _ => exact ⟨trivial,fun d _ bad => (by cases bad)⟩
  keeps s c t sound ok distinct := turnKeeps sound ok distinct
  frames s c t d sound ok _ other free := ⟨holdsKept (turnFrame ok) free other,turnApart sound other free⟩

end Turns

def failThrew : Call → Bool
  | .verify _ _ (.ended .failThrew _) => true
  | _ => false

def Covered (w : Pairings) : Prop :=
  ∀ a ∈ w.shared.db.pairingAttempts, a.status = .verifying → ∃ (i : Nat) (c : Call), w.calls[i]? = some c ∧
    attemptKey c = (a.tenantId,a.id) ∧ (marked c = true ∨ failThrew c = true)

section Coverage
variable {service : Service} {s : Shared} {c : Call} {t : Turn} {w : Pairings}

theorem turnOrigin (sound : Sound service.node s) {b : PairingAttempt}
    (mem : b ∈ (turn service s c t).1.db.pairingAttempts) (verifying : b.status = .verifying) :
    b ∈ s.db.pairingAttempts ∨ (marked (turn service s c t).2 = true ∧ attemptKey c = (b.tenantId,b.id)) := by
  cases c with
  | begin context input outcome =>
    cases outcome with
    | some outcome => exact .inl mem
    | none =>
      generalize made : begin service context input t s.db = result at mem
      obtain ⟨next,outcome⟩ := result
      simp only [turn,callTurn,made] at mem
      rcases beginCases made with rfl | ⟨record,created⟩
      · exact .inl mem
      · obtain ⟨row,pending,_,_,_,rfl⟩ := createAttemptExact created
        rcases List.mem_append.mp mem with old | new
        · exact .inl old
        · rw [List.mem_singleton.mp new,pending] at verifying
          cases verifying
  | verify context input stage =>
    cases stage with
    | marking attempt =>
      have marks : ∀ {next won}, transact t (.ok (markVerifying context input.tenantId input.attemptId t.now s.db)) =
          some (next,won) → b ∈ next.pairingAttempts → b ∈ s.db.pairingAttempts ∨
            (won = true ∧ (input.tenantId,input.attemptId) = (b.tenantId,b.id)) := by
        intro next won made inNext
        have mark := Except.ok.inj (transactOk made)
        have after : (markVerifying context input.tenantId input.attemptId t.now s.db).1 = next := congrArg Prod.fst mark
        have flag : (markVerifying context input.tenantId input.attemptId t.now s.db).2 = won := congrArg Prod.snd mark
        rw [← after] at inNext
        obtain ⟨a,ha,rfl⟩ := memUpdateWhere.mp inNext
        split
        · rename_i chosen
          have key := chosen
          simp only [Bool.and_eq_true] at key
          obtain ⟨tenant,id,_⟩ := targetOf.mp key.1
          refine .inr ⟨?_,by simp only [tenant,id]⟩
          -- The marked rows have one key, so the row count is one.
          rw [← flag]
          refine beq_iff_eq.mpr (Nat.le_antisymm (indexedCount sound.attemptIndex fun x _ y _ left right => ?_)
            (List.countP_pos_iff.mpr ⟨a,ha,chosen⟩))
          simp only [Bool.and_eq_true] at left right
          obtain ⟨leftTenant,leftId,_⟩ := targetOf.mp left.1
          obtain ⟨rightTenant,rightId,_⟩ := targetOf.mp right.1
          simp [attemptClash,leftTenant,leftId,rightTenant,rightId]
        · exact .inl ha
      simp only [verifyTurned,markingTurn] at mem ⊢
      split at mem
      · exact .inl mem
      · rename_i made
        rcases marks made mem with old | ⟨_,key⟩
        · exact .inl old
        · exact .inr ⟨rfl,key⟩
      · rename_i made
        rcases marks made mem with old | ⟨bad,_⟩
        · exact .inl old
        · cases bad
    | completing attempt proof =>
      simp only [verifyTurned,completingTurn] at mem
      split at mem
      · rename_i made
        rcases completeExact (completeTurnOk made) with ⟨_,_,_,_,_,rfl⟩ | ⟨hostname,_,_,rfl⟩
        · exact .inl mem
        · obtain ⟨a,ha,rfl⟩ := memUpdateWhere.mp mem
          split at verifying
          · cases verifying
          · rename_i skipped
            rw [if_neg skipped]
            exact .inl ha
      · exact .inl mem
    | failing error =>
      simp only [verifyTurned,failingTurn] at mem
      split at mem
      · exact .inl mem
      · rename_i made
        cases Except.ok.inj (transactOk made)
        obtain ⟨a,ha,rfl⟩ := memUpdateWhere.mp mem
        split at verifying
        · cases verifying
        · rename_i skipped
          rw [if_neg skipped]
          exact .inl ha
    | _ => exact .inl mem

theorem turnHolds (held : marked c = true ∨ failThrew c = true) :
    (marked (turn service s c t).2 = true ∨ failThrew (turn service s c t).2 = true) ∨
      ∃ context input outcome, (turn service s c t).2 = .verify context input (.ended .settled outcome) := by
  cases c with
  | begin context input outcome => rcases held with bad | bad <;> cases bad
  | verify context input stage =>
    cases stage with
    | asking attempt =>
      simp only [verifyTurned,askingTurn]
      split
      · exact .inl (.inl rfl)
      · exact .inl (.inl rfl)
    | completing attempt proof =>
      simp only [verifyTurned,completingTurn]
      split
      · exact .inr ⟨_,_,_,rfl⟩
      · exact .inl (.inl rfl)
    | failing error =>
      simp only [verifyTurned,failingTurn]
      split
      · exact .inl (.inr rfl)
      · exact .inr ⟨_,_,_,rfl⟩
    | ended ending outcome => exact .inl held
    | _ => rcases held with bad | bad <;> cases bad

abbrev SafePairings (service : Service) (w : Pairings) : Prop := Safe (Sound service.node) holds apart w

abbrev unrepeated (service : Service) : Pairings → PairingMove → Prop :=
  Allowed fun s c _ => Distinct service.node (s.hashed ++ hashed c)

theorem stepCovered {m : PairingMove} (safe : SafePairings service w) (allowed : unrepeated service w m)
    (covered : Covered w) : Covered (pairingStep service w m) := by
  have later := stepSafe (pairingRules service) safe allowed
  cases m with
  | start request =>
    intro a mem verifying
    obtain ⟨i,c,at_,key,held⟩ := covered a mem verifying
    exact ⟨i,c,(List.getElem?_append_left (List.getElem?_eq_some_iff.mp at_).1).trans at_,key,held⟩
  | turn k t =>
    simp only [pairingStep,step] at later ⊢
    split
    · exact covered
    · rename_i c at_
      simp only [at_] at later
      intro b mem verifying
      have here : (w.calls.set k (turn service w.shared c t).2)[k]? = some (turn service w.shared c t).2 :=
        List.getElem?_set_self (List.getElem?_eq_some_iff.mp at_).1
      rcases turnOrigin safe.whole mem verifying with old | ⟨isMarked,key⟩
      · obtain ⟨i,d,ofD,key,held⟩ := covered b old verifying
        by_cases mover : k = i
        · subst mover
          cases Option.some.inj (at_.symm.trans ofD)
          rcases turnHolds held with still | ⟨context,input,outcome,ends⟩
          · exact ⟨k,_,here,(turnKey service w.shared c t).trans key,still⟩
          · -- The settled attempt of this key is the one that is verifying.
            exfalso
            have settled := later.each k _ here
            have sameKey := (turnKey service w.shared c t).trans key
            rw [ends] at settled sameKey
            obtain ⟨a,ha,tenant,id,status⟩ := settled
            obtain ⟨ownTenant,ownId⟩ := Prod.mk.inj sameKey
            have alone := attemptAlone later.whole.attemptIndex ha mem (tenant.trans ownTenant) (id.trans ownId)
            rw [alone,verifying] at status
            cases outcome <;> cases status
        · exact ⟨i,d,(List.getElem?_set_ne mover).trans ofD,key,held⟩
      · exact ⟨k,_,here,(turnKey service w.shared c t).trans key,.inl isMarked⟩

end Coverage

/- What the calls have made of the attempts and sites, at any moment. -/
structure PairingOutcome (w : Pairings) : Prop where
  oneSite : w.shared.opened.Pairwise fun o p => (o.tenantId,o.attemptId) ≠ (p.tenantId,p.attemptId)
  everySite : ∀ site ∈ w.shared.db.sites, ∃ o ∈ w.shared.opened, o.site = site
  active : ∀ a ∈ w.shared.db.pairingAttempts, a.status = .active ↔ ∃ site ∈ w.shared.db.sites,
    a.siteId = some site.id ∧ site.tenantId = a.tenantId ∧ site.resourceUri = a.proposedResource ∧
    ⟨a.tenantId,a.id,site⟩ ∈ w.shared.opened
  oneLive : ∀ resource, w.shared.db.sites.countP (fun s => siteLive s && s.resourceUri == resource) ≤ 1
  settled : ∀ (i : Nat) context input outcome, w.calls[i]? = some (.verify context input (.ended .settled outcome)) →
    ∃ a ∈ w.shared.db.pairingAttempts, a.tenantId = input.tenantId ∧ a.id = input.attemptId ∧ match outcome with
      | .ok _ => a.status = .active
      | .error _ => a.status = .failed ∧ a.siteId = none
  verifying : Covered w

section Outcome
variable {service : Service} {w : Pairings}

theorem soundOutcome (safe : SafePairings service w) (covered : Covered w) : PairingOutcome w where
  oneSite := safe.whole.once
  everySite := safe.whole.all
  active a mem := by
    constructor
    · intro active
      obtain ⟨site,known,rest⟩ := safe.whole.active a mem active
      exact ⟨site,known,rest⟩
    · rintro ⟨site,_,named,_⟩
      by_contra idle
      rw [safe.whole.siteless a mem idle] at named
      cases named
  oneLive resource := by
    refine indexedCount safe.whole.siteIndex fun x _ y _ left right => ?_
    simp only [Bool.and_eq_true,beq_iff_eq] at left right
    simp [siteClash,left.1,right.1,left.2,right.2]
  settled i context input outcome at_ := by
    obtain ⟨a,mem,tenant,id,status⟩ := safe.each i _ at_
    refine ⟨a,mem,tenant,id,?_⟩
    cases outcome with
    | ok proof => exact status
    | error error => exact ⟨status,safe.whole.siteless a mem (by simp [status,settledAs])⟩
  verifying := covered

theorem stepHashed (service : Service) (w : Pairings) (m : PairingMove) :
    ∀ text ∈ w.shared.hashed, text ∈ (pairingStep service w m).shared.hashed := by
  intro text mem
  cases m with
  | start request => exact mem
  | turn k t =>
    simp only [pairingStep,step]
    split
    · exact mem
    · exact List.mem_append_left _ mem

theorem runHashed (service : Service) (w : Pairings) (ms : List PairingMove) :
    ∀ text ∈ w.shared.hashed, text ∈ (run (pairingStep service) w ms).shared.hashed := by
  induction ms generalizing w with
  | nil => exact fun _ mem => mem
  | cons m ms ih => exact fun text mem => ih _ text (stepHashed service w m text mem)

theorem runAllowed {ms : List PairingMove} (distinct : Distinct service.node (run (pairingStep service) w ms).shared.hashed) :
    Guarded (pairingStep service) (unrepeated service) w ms := by
  induction ms generalizing w with
  | nil => trivial
  | cons m ms ih =>
    refine ⟨?_,ih distinct⟩
    cases m with
    | start request => trivial
    | turn k t =>
      intro c at_
      have texts : ∀ text ∈ w.shared.hashed ++ hashed c,
          text ∈ (run (pairingStep service) w (.turn k t :: ms)).shared.hashed := by
        intro text mem
        refine runHashed service _ ms text ?_
        simp only [pairingStep,step,at_]
        exact mem
      exact fun a ha b hb same => distinct a (texts a ha) b (texts b hb) same

theorem unpairedSound {db : Db} (unpaired : Unpaired db) : SafePairings service (idle db) where
  whole := by
    have noAttempt : ∀ a, a ∉ db.pairingAttempts := by simp [unpaired.attempts]
    refine ⟨?_,?_,fun a mem => absurd mem (noAttempt a),fun a mem => absurd mem (noAttempt a),
      fun a mem => absurd mem (noAttempt a),fun o mem => absurd mem List.not_mem_nil,List.Pairwise.nil,fun site mem => ?_,
      fun r mem operation => absurd operation (unpaired.records r mem)⟩
    · simp only [idle,unpaired.attempts]
      exact indexedNil _
    · simp only [idle,unpaired.sites]
      exact indexedNil _
    · simp [idle,unpaired.sites] at mem
  each i c at_ := by cases at_
  apart i j c d _ at_ := by cases at_

theorem pairingsOutcome (service : Service) (db : Db) (unpaired : Unpaired db) (ms : List PairingMove)
    (distinct : Distinct service.node (run (pairingStep service) (idle db) ms).shared.hashed) :
    PairingOutcome (run (pairingStep service) (idle db) ms) := by
  have noAttempt : ∀ a, a ∉ db.pairingAttempts := by simp [unpaired.attempts]
  have reached := @invariantRun _ _ _ _ (fun w => SafePairings service w ∧ Covered w) _ _
    (fun _ _ inv allowed => ⟨stepSafe (pairingRules service) inv.1 allowed,stepCovered inv.1 allowed inv.2⟩)
    ⟨unpairedSound unpaired,fun a mem => absurd mem (noAttempt a)⟩ (runAllowed distinct)
  exact soundOutcome reached.1 reached.2

end Outcome

section Sample

def sampleVerifier : String := "AAAAAAAAAAAAAAAAAAAAAAAAAAAAAAAAAAAAAAAAAAA"

/- SHA-256 of the verifier. -/
def verifierDigest : Digest :=
  [15,0,115,133,182,249,212,183,238,178,116,134,5,175,225,169,132,160,163,191,163,240,20,208,158,42,120,76,233,229,205,26]

def pairingService : Service where
  node := System.sampleNode [(sampleVerifier,verifierDigest)] []
  platformIssuer := "https://auth.example"
  platformSigningKeyPem := "-----BEGIN PUBLIC KEY-----\nAAAA\n-----END PUBLIC KEY-----\n"
  platformSigningKid := "rsa_key_0001"

def pairingBegin : BeginInput :=
  ⟨System.sampleTenant,"attempt_0001",System.sampleAccount,"correlation_0001",System.sampleResource,sampleVerifier⟩
def pairingVerify (key : String) : VerifyInput :=
  ⟨System.sampleTenant,"attempt_0001",sampleVerifier,System.sampleSite,key⟩

def pairingProof (request : SiteVerificationRequest) : VerifiedSiteProof where
  claims := ⟨.pairing,"site.example",request.platformIssuer,request.tenantId,some request.siteId,
    some request.pairingAttemptId,none,some request.platformSigningKid,none,none,none,request.resource,none,none,none,
    request.challenge,4,64⟩
  publicJwk := System.sampleProof.publicJwk
  thumbprint := System.sampleProof.thumbprint

def turnAt (at_ : Time) : Turn := ⟨at_,at_,false,sampleVerifier,fun request => .ok (pairingProof request)⟩

/- Two calls find the attempt; the second one is too late to mark it. -/
def racingCalls : List PairingMove :=
  [.start (.begin System.sampleContext pairingBegin),.turn 0 (turnAt (seconds 3)),
    .start (.verify System.sampleContext (pairingVerify "pair_0000000000000001")),
    .start (.verify System.sampleContext (pairingVerify "pair_0000000000000002")),
    .turn 1 (turnAt (seconds 4)),.turn 2 (turnAt (seconds 4)),.turn 1 (turnAt (seconds 5)),.turn 2 (turnAt (seconds 5)),
    .turn 1 (turnAt (seconds 6)),.turn 1 (turnAt (seconds 7))]

def pairingStart : Db := run (System.step pairingService.node) Db.empty (System.pairedHistory.take 2)

theorem racingPaired : ∃ a ∈ (run (pairingStep pairingService) (idle pairingStart) racingCalls).shared.db.pairingAttempts,
    a.tenantId = System.sampleTenant ∧ a.id = "attempt_0001" ∧ a.status = .active := by
  refine (pairingsOutcome pairingService pairingStart ⟨by decide,by decide,by decide⟩ racingCalls ?_).settled 1 System.sampleContext
    (pairingVerify "pair_0000000000000001") (.ok _) rfl
  have one : (run (pairingStep pairingService) (idle pairingStart) racingCalls).shared.hashed =
      [completionText "attempt_0001" System.sampleSite "thumbprint_0001"] := by decide
  rw [one]
  intro a left b right _
  rw [List.mem_singleton.mp left,List.mem_singleton.mp right]

end Sample

end Wepuu.PairingRuns
