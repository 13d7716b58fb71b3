import Wepuu.AccountLinks
import Wepuu.GrantLifecycle
import Wepuu.SiteRows

/-! What the first advance of a deletion job takes away stays away: sessions, grants,
refresh families and sites of its scope, under every operation that may still be in flight. -/
namespace Wepuu.DeletionClosure
open AccountLinks AccountReferences Deletion DeletionCompletes DeletionReports Families Footprint Frames GrantLifecycle Grants NodeApi
open Outbox OwnerTransfer Pairing Relational Runs Schema SiteRows Statements Tenancy Wepuu.System

section Sessions

/- PostgresAccountSessionStore.resolve, with the time in whole seconds. -/
def resolve (sessionHash : Digest) (now : Time) (db : Db) : Option (AccountId × Int) :=
  db.accountSessions.findSome? fun session =>
    if session.sessionHash == sessionHash && decide (now < session.expiresAt) && session.revokedAt.isNone &&
        db.accounts.any (fun a => a.id == session.accountId && a.status == .active) then
      some (session.accountId,session.authenticatedAt / seconds 1)
    else none

structure ConsoleSession where
  sessionHash : Digest
  accountId : AccountId
  authSessionId : String
  authenticatedAt : Time
  expiresAt : Time
  revokedAt : Option Time
  deriving DecidableEq, Repr

structure AuthSession where
  id : String
  expiresAt : Time
  deriving DecidableEq, Repr

def resolveSession (consoles : List ConsoleSession) (authorities : List AuthSession) (sessionHash : Digest) (now : Time)
    (db : Db) : Option (AccountId × Int) :=
  consoles.findSome? fun console =>
    if console.sessionHash == sessionHash && decide (now < console.expiresAt) && console.revokedAt.isNone &&
        authorities.any (fun authority => authority.id == console.authSessionId && decide (now < authority.expiresAt)) &&
        db.accounts.any (fun a => a.id == console.accountId && a.status == .active) then
      some (console.accountId,console.authenticatedAt / seconds 1)
    else none

variable {account : AccountId} {db : Db}

theorem closedInactive (closed : accountClosed account db) :
    (db.accounts.any fun a => a.id == account && a.status == .active) = false := by
  rw [List.any_eq_false]
  intro a mem hit
  simp only [Bool.and_eq_true,beq_iff_eq] at hit
  rw [closed a mem hit.1] at hit
  exact absurd hit.2 (by decide)

theorem closedResolves {sessionHash : Digest} {now at_ : Time} (closed : accountClosed account db) :
    resolve sessionHash now db ≠ some (account,at_) := by
  intro found
  obtain ⟨session,_,hit⟩ := List.exists_of_findSome?_eq_some found
  split at hit <;> try contradiction
  rename_i shown
  cases hit
  rw [closedInactive closed,Bool.and_false] at shown
  contradiction

theorem closedResolvesConsole {consoles : List ConsoleSession} {authorities : List AuthSession} {sessionHash : Digest}
    {now at_ : Time} (closed : accountClosed account db) :
    resolveSession consoles authorities sessionHash now db ≠ some (account,at_) := by
  intro found
  obtain ⟨console,_,hit⟩ := List.exists_of_findSome?_eq_some found
  split at hit <;> try contradiction
  rename_i shown
  cases hit
  rw [closedInactive closed,Bool.and_false] at shown
  contradiction

end Sessions

section Rows
variable {node : Node} {e : Event} {db next : Db} {observedAt now : Time}

def GrantDown (db : Db) (tenant : TenantId) (grantId : GrantId) : Prop :=
  ∀ g ∈ db.grants, g.tenantId = tenant → g.id = grantId → g.status = .revoked

theorem revokeSubjectGrantsDown {rest : List Grant} {events out : Nat} {tenant : TenantId} {grantId : GrantId}
    (ok : revokeSubjectGrants observedAt now rest db events = .ok (next,out))
    (before : (∃ g ∈ rest, g.tenantId = tenant ∧ g.id = grantId) ∨ GrantDown db tenant grantId) :
    GrantDown next tenant grantId := by
  induction rest generalizing db events with
  | nil =>
    cases ok
    rcases before with ⟨g,mem,_⟩ | down
    · exact absurd mem List.not_mem_nil
    · exact down
  | cons head rest ih =>
    have turn : ∀ {mid : Db}, mid.grants =
          updateWhere (grantAt head.tenantId head.id) (revokedGrant "account_deleted" observedAt) db.grants →
        (∃ g ∈ rest, g.tenantId = tenant ∧ g.id = grantId) ∨ GrantDown mid tenant grantId := by
      intro mid grants
      by_cases ahead : ∃ g ∈ rest, g.tenantId = tenant ∧ g.id = grantId
      · exact .inl ahead
      refine .inr fun g mem ownTenant ownId => ?_
      rw [grants] at mem
      obtain ⟨o,ho,rfl⟩ := memUpdateWhere.mp mem
      by_cases chosen : grantAt head.tenantId head.id o = true
      · rw [if_pos chosen]
        rfl
      · rw [if_neg chosen] at ownTenant ownId ⊢
        rcases before with ⟨s,listed,sameTenant,sameId⟩ | down
        · rcases List.mem_cons.mp listed with rfl | later
          · exact absurd (by simp [grantAt,ownTenant,ownId,sameTenant,sameId]) chosen
          · exact absurd ⟨s,later,sameTenant,sameId⟩ ahead
        · exact down o ho ownTenant ownId
    simp only [revokeSubjectGrants] at ok
    split at ok
    · exact ih ok (turn rfl)
    · simp only [bindOk] at ok
      obtain ⟨emitted,inserted,ok⟩ := ok
      exact ih ok (turn (insertEventGrants inserted))

def FamilyKept (db : Db) (f : RefreshFamily) : Prop :=
  ∃ o ∈ db.refreshFamilies, o.tenantId = f.tenantId ∧ o.siteId = f.siteId ∧ o.grantId = f.grantId ∧
    (f.status = .active → o.status = .active)

theorem familySame {f : RefreshFamily} (mem : f ∈ db.refreshFamilies) : FamilyKept db f := ⟨f,mem,rfl,rfl,rfl,id⟩

structure Carried (f g : RefreshFamily) : Prop where
  familyId : g.familyId = f.familyId
  tenantId : g.tenantId = f.tenantId
  siteId : g.siteId = f.siteId
  grantId : g.grantId = f.grantId
  currentGeneration : g.currentGeneration = f.currentGeneration
  status : g.status = .active → f.status = .active

theorem carriedRefl (f : RefreshFamily) : Carried f f := ⟨rfl,rfl,rfl,rfl,rfl,id⟩

inductive FamilyStatement (rows : List RefreshFamily) : List RefreshFamily → Prop
  | none : FamilyStatement rows rows
  | update {p : RefreshFamily → Bool} {change : RefreshFamily → RefreshFamily}
      (moves : ∀ f, Carried f (change f)) : FamilyStatement rows (updateWhere p change rows)
  | delete {p : RefreshFamily → Bool} : FamilyStatement rows (deleteWhere p rows)

theorem statementCarried {rows after : List RefreshFamily} (statement : FamilyStatement rows after) :
    Derives Carried rows after := by
  cases statement with
  | none => exact fun f mem => ⟨f,mem,carriedRefl f⟩
  | update moves => exact derivesUpdate carriedRefl fun f _ _ => moves f
  | delete => exact fun f mem => ⟨f,(memDeleteWhere.mp mem).1,carriedRefl f⟩

theorem effectStatement {jobId : JobId} (effect : Effect jobId observedAt now db next) :
    FamilyStatement db.refreshFamilies next.refreshFamilies := by
  cases effect with
  | idle _ => exact .none
  | revoked _ _ ok =>
    unfold revokeScope at ok
    split at ok
    · have same := revokeAccountOnly ok .refreshFamilies (by decide)
      simp only [SameTable] at same
      rw [show (setJob _ _ _).refreshFamilies = _ from same]
      exact .none
    · simp only [revokeTenantScope,bindOk] at ok
      obtain ⟨⟨revoked,count⟩,loop,last⟩ := ok
      have same : revoked.refreshFamilies = db.refreshFamilies := revokeSitesOnly loop .refreshFamilies (by decide)
      cases last
      rw [← same]
      exact .update fun f => ⟨rfl,rfl,rfl,rfl,rfl,fun active => by simp at active⟩
  | purged _ _ ok =>
    unfold purgeScope at ok
    split at ok
    · simp only [purgeAccount,bindOk,ensureOk] at ok
      obtain ⟨_,_,last⟩ := ok
      cases last
      exact .delete
    · cases ok
      exact .delete

theorem effectFamilies {jobId : JobId} (effect : Effect jobId observedAt now db next) :
    ∀ f ∈ next.refreshFamilies, FamilyKept db f := by
  intro f mem
  obtain ⟨o,ho,carried⟩ := statementCarried (effectStatement effect) f mem
  exact ⟨o,ho,carried.tenantId.symm,carried.siteId.symm,carried.grantId.symm,carried.status⟩

theorem rotateRows {familyId : String} {expectedGeneration : Int} {out : RefreshRotationResult}
    (ok : rotate familyId expectedGeneration observedAt now db = .ok (next,out)) :
    next.refreshFamilies = db.refreshFamilies ∨
    ∃ target, uuidIn familyId = some target ∧ ∃ change : RefreshFamily → RefreshFamily,
      (∀ f, (change f).familyId = f.familyId ∧ (change f).tenantId = f.tenantId ∧ (change f).siteId = f.siteId ∧
        (change f).grantId = f.grantId ∧ ((change f).status = .active → f.status = .active)) ∧
      next.refreshFamilies = updateWhere (fun f => f.familyId == target) change db.refreshFamilies := by
  obtain ⟨rfl,_⟩ | ⟨target,read,_,_,ok⟩ := rotateOk ok
  · exact .inl rfl
  unfold rotateRefreshFamily at ok
  split at ok
  · cases ok
    exact .inl rfl
  rename_i family _
  split at ok
  · split at ok
    · cases ok
      refine .inr ⟨target,read,_,fun f => ?_,rfl⟩
      exact ⟨rfl,rfl,rfl,rfl,id⟩
    · split at ok
      · simp only [bindOk,orFailOk] at ok
        obtain ⟨site,_,emitted,inserted,last⟩ := ok
        cases last
        have same : next.refreshFamilies = (replayRevoked family target observedAt db).refreshFamilies :=
          insertEventOnly inserted .refreshFamilies (by decide)
        refine .inr ⟨target,read,_,fun f => ?_,same⟩
        exact ⟨rfl,rfl,rfl,rfl,fun active => by simp at active⟩
      · cases ok
        exact .inl rfl
  · cases ok
    exact .inl rfl

theorem rotateFamilies {target : FamilyId} {expectedGeneration : Int} {out : RefreshRotationResult}
    (ok : rotate target expectedGeneration observedAt now db = .ok (next,out)) :
    ∀ f ∈ next.refreshFamilies, FamilyKept db f := by
  intro f mem
  rcases rotateRows ok with same | ⟨_,_,change,keeps,same⟩
  · exact familySame (same ▸ mem)
  · rw [same] at mem
    obtain ⟨o,ho,rfl⟩ := memUpdateWhere.mp mem
    split
    · obtain ⟨-,tenant,site,grant,status⟩ := keeps o
      exact ⟨o,ho,tenant.symm,site.symm,grant.symm,status⟩
    · exact familySame ho

theorem stepFamilies (wf : WellFormed db) {f : RefreshFamily} (mem : f ∈ (step node db e).refreshFamilies) :
    FamilyKept db f ∨ ∃ input, e.op = .createFamily input ∧ f.grantId = input.grantId := by
  by_cases untouched : Table.refreshFamilies ∈ touches e.op
  · rcases settleCases db (exec node e db) with same | ⟨next,reply,ok,done⟩
    · rw [step,same] at mem
      exact .inl (familySame mem)
    obtain ⟨now,op⟩ := e
    cases op <;> try (simp [touches] at untouched; done)
    case createFamily input =>
      rw [step,done] at mem
      have made := silentOk ok
      simp only [Families.create,bindOk,ensureOk,orFailOk] at made
      obtain ⟨_,_,_,_,families,inserted,_,_,last⟩ := made
      cases last
      obtain ⟨_,rfl⟩ := insertRowExact.mp inserted
      rcases List.mem_append.mp mem with old | new
      · exact .inl (familySame old)
      · rw [List.mem_singleton.mp new]
        exact .inr ⟨input,rfl,rfl⟩
    case rotate target expectedGeneration observedAt =>
      rw [step,done] at mem
      obtain ⟨_,made,_⟩ := answeredOk ok
      exact .inl (rotateFamilies made f mem)
    case advanceDeletionJob jobId observedAt =>
      exact .inl (effectFamilies (advanceEffect jobId observedAt now wf) f mem)
  · have same : (step node db e).refreshFamilies = db.refreshFamilies := stepOnly .refreshFamilies untouched
    exact .inl (familySame (same ▸ mem))

theorem stepAsked (wf : WellFormed db) {r : Grant} (mem : r ∈ (step node db e).grants) :
    (∃ g ∈ db.grants, Advances g r) ∨ ∃ context record, e.op = .createPending context record ∧
      r = pendingGrant record ∧ activeSiteFor context record db = true ∧
      hasActiveMembership db record.tenantId context.accountId = true := by
  rcases stepGrants wf mem with old | proposed
  · exact .inl old
  obtain ⟨now,op⟩ := e
  cases op <;> simp only [proposedGrant] at proposed <;> try contradiction
  rename_i context record
  rcases settleCases db (exec node ⟨now,.createPending context record⟩ db) with same | ⟨next,reply,ok,done⟩
  · rw [step,same] at mem
    exact .inl ⟨r,mem,.same r⟩
  obtain ⟨out,created,_⟩ := answeredOk ok
  rw [step,done] at mem
  rcases createPendingCases created with ⟨_,_,_,_,rfl,_⟩ | ⟨active,_,rfl,_,_,access,_⟩
  · exact .inl ⟨r,mem,.same r⟩
  · rcases List.mem_append.mp mem with old | new
    · exact .inl ⟨r,old,.same r⟩
    · rw [idempotencyTenantAccess,Bool.and_eq_true] at access
      exact .inr ⟨context,record,rfl,List.mem_singleton.mp new,active,access.2⟩

end Rows

section Closing
variable {node : Node} {e : Event} {db next : Db} {job : DeletionJob} {observedAt now : Time}

structure Closed (job : DeletionJob) (db : Db) : Prop where
  sessions : job.scopeKind = .account → ∀ sessionHash now at_, resolve sessionHash now db ≠ some (job.scopeId,at_)
  consoles : job.scopeKind = .account → ∀ consoles authorities sessionHash now at_,
    resolveSession consoles authorities sessionHash now db ≠ some (job.scopeId,at_)
  grants : ∀ g ∈ db.grants, grantInScope job g → g.status ≠ .active
  families : ∀ g ∈ db.grants, grantInScope job g → ∀ f ∈ db.refreshFamilies, f.grantId = g.id → f.status ≠ .active
  sites : job.scopeKind ≠ .account → ∀ s ∈ db.sites, inTenantScope job s.tenantId (some s.id) = true →
    s.status ≠ .active

structure Shut (job : DeletionJob) (db : Db) : Prop where
  grants : ∀ g ∈ db.grants, grantInScope job g → g.status = .revoked
  families : ∀ g ∈ db.grants, grantInScope job g → ∀ f ∈ db.refreshFamilies, f.grantId = g.id → f.status ≠ .active
  sites : job.scopeKind ≠ .account → ∀ s ∈ db.sites, inTenantScope job s.tenantId (some s.id) = true →
    s.status = .revoked
  account : job.scopeKind = .account → accountClosed job.scopeId db
  members : job.scopeKind = .account → ∀ m ∈ db.memberships, m.accountId = job.scopeId → m.status ≠ .active

theorem shutCloses (shut : Shut job db) : Closed job db where
  sessions account _ _ _ := closedResolves (shut.account account)
  consoles account _ _ _ _ _ := closedResolvesConsole (shut.account account)
  grants g mem scope := by
    rw [shut.grants g mem scope]
    decide
  families := shut.families
  sites other s mem scope := by
    rw [shut.sites other s mem scope]
    decide

/- The families that the first advance does not revoke: those of an account's grants, and
those whose own columns are outside the scope. -/
def familiesFound (job : DeletionJob) (db : Db) : Prop :=
  ∀ g ∈ db.grants, grantInScope job g → ∀ f ∈ db.refreshFamilies, f.grantId = g.id → f.status = .active →
    job.scopeKind ≠ .account ∧ inTenantScope job f.tenantId (some f.siteId) = true

theorem sameScope {g r : Grant} (moved : Advances g r) (scope : grantInScope job r) : grantInScope job g := by
  have same := advancesKeeps moved
  unfold grantInScope at scope ⊢
  rw [same.subjectId,same.tenantId,same.siteId] at scope
  exact scope

theorem revokeScopeGrants {sessions events : Nat} (wf : WellFormed db)
    (ok : revokeScope job observedAt now db = .ok (next,sessions,events)) :
    ∀ r ∈ next.grants, ∃ g ∈ db.grants, Advances g r := by
  have writes : Writes (ending fun _ => True) db next := by
    unfold revokeScope at ok
    split at ok
    · exact revokeAccountWrites wf (fun _ _ => trivial) ok
    · exact revokeTenantScopeWrites (fun _ _ => trivial) ok
  intro r mem
  rcases writesGrants writes r mem with old | ⟨_,opened,_⟩
  · exact old
  · exact opened.elim

theorem accountShut {sessions events : Nat} (wf : WellFormed db) (account : job.scopeKind = .account)
    (found : familiesFound job db) (ok : revokeScope job observedAt now db = .ok (next,sessions,events)) :
    Shut job next := by
  have grants := revokeScopeGrants wf ok
  rw [revokeScope,if_pos account] at ok
  have families : next.refreshFamilies = db.refreshFamilies := revokeAccountOnly ok .refreshFamilies (by decide)
  simp only [revokeAccount,bindOk] at ok
  obtain ⟨⟨revoked,count⟩,loop,last⟩ := ok
  cases last
  have inner := revokeSubjectGrantsOnly loop
  have accounts : revoked.accounts = updateWhere (fun a => a.id == job.scopeId)
      (fun a => { a with status := .deleted }) db.accounts := inner .accounts (by decide)
  have members : revoked.memberships = updateWhere (fun m => m.accountId == job.scopeId && m.status == .active)
      (fun m => { m with status := .revoked, revokedAt := some (m.revokedAt.getD observedAt) }) db.memberships :=
    inner .memberships (by decide)
  refine ⟨?_,?_,fun other => absurd account other,fun _ => ?_,fun _ => ?_⟩
  · intro r mem scope
    obtain ⟨g,hg,moved⟩ := grants r mem
    have before := sameScope moved scope
    rw [grantInScope,if_pos account] at before
    by_cases already : g.status = .revoked
    · rw [revokedStays moved already]
      exact already
    · refine revokeSubjectGrantsDown loop (.inl ⟨g,?_,rfl,rfl⟩) r mem (advancesKeeps moved).tenantId
        (advancesKeeps moved).id
      exact List.mem_filter.mpr ⟨hg,by simp [before,already]⟩
  · intro r mem scope f hf named active
    obtain ⟨g,hg,moved⟩ := grants r mem
    rw [families] at hf
    rw [(advancesKeeps moved).id] at named
    exact (found g hg (sameScope moved scope) f hf named active).1 account
  · intro a mem named
    rw [accounts] at mem
    obtain ⟨o,_,rfl⟩ := memUpdateWhere.mp mem
    split
    · rfl
    · rename_i other
      rw [if_neg other] at named
      exact absurd (by rw [named,beq_self_eq_true]) other
  · intro m mem named
    rw [members] at mem
    obtain ⟨o,_,rfl⟩ := memUpdateWhere.mp mem
    by_cases chosen : (o.accountId == job.scopeId && o.status == .active) = true
    · rw [if_pos chosen]
      simp
    · rw [if_neg chosen] at named ⊢
      intro active
      exact chosen (by simp [named,active])

theorem tenantShut {sessions events : Nat} (wf : WellFormed db) (known : ∀ s ∈ db.sites, s.status ≠ .deleted)
    (other : job.scopeKind ≠ .account) (found : familiesFound job db)
    (ok : revokeScope job observedAt now db = .ok (next,sessions,events)) : Shut job next := by
  have grants := revokeScopeGrants wf ok
  rw [revokeScope,if_neg other] at ok
  simp only [revokeTenantScope,bindOk] at ok
  obtain ⟨⟨revoked,count⟩,loop,last⟩ := ok
  have same : revoked.refreshFamilies = db.refreshFamilies := revokeSitesOnly loop .refreshFamilies (by decide)
  cases last
  have down : ∀ s ∈ db.sites, inTenantScope job s.tenantId (some s.id) = true →
      SiteDown revoked s.tenantId s.id ∧ SiteGrantsDown revoked s.tenantId s.id := by
    intro s mem scope
    refine (revokeSitesDown loop).2 (.inl ⟨s,List.mem_filter.mpr ⟨mem,?_⟩,rfl,rfl⟩)
    simp [scope,known s mem]
  refine ⟨?_,?_,fun _ => ?_,fun account => absurd account other,fun account => absurd account other⟩
  · intro r mem scope
    obtain ⟨g,hg,moved⟩ := grants r mem
    have before := sameScope moved scope
    rw [grantInScope,if_neg other] at before
    obtain ⟨s,hs,tenant,id⟩ := hasSiteIff.mp (wf.grantSite g hg)
    have grantsDown := (down s hs (by rw [tenant,id]; exact before)).2
    refine grantsDown r mem ?_ ?_
    · rw [(advancesKeeps moved).tenantId,tenant]
    · rw [(advancesKeeps moved).siteId,id]
  · intro r mem scope f hf named active
    obtain ⟨g,hg,moved⟩ := grants r mem
    rw [(advancesKeeps moved).id] at named
    obtain ⟨o,ho,rfl⟩ := memUpdateWhere.mp hf
    rw [same] at ho
    by_cases chosen : (inTenantScope job o.tenantId (some o.siteId) && o.status == .active) = true
    · rw [if_pos chosen] at active
      simp at active
    · rw [if_neg chosen] at named active
      have inside := (found g hg (sameScope moved scope) o ho named active).2
      exact chosen (by simp [inside,active])
  · intro s mem scope
    obtain ⟨o,ho,tenant,id,_⟩ := (@revokeSitesDown _ _ _ _ _ _ _ s.tenantId s.id loop).1 s mem
    have siteDown := (down o ho (by rw [tenant,id]; exact scope)).1
    exact siteDown s mem tenant.symm id.symm

theorem revokeScopeShut {sessions events : Nat} (wf : WellFormed db) (known : ∀ s ∈ db.sites, s.status ≠ .deleted)
    (found : familiesFound job db) (ok : revokeScope job observedAt now db = .ok (next,sessions,events)) :
    Shut job next := by
  by_cases account : job.scopeKind = .account
  · exact accountShut wf account found ok
  · exact tenantShut wf known account found ok

def ofAccount (job : DeletionJob) (account : AccountId) : Bool := job.scopeKind == .account && account == job.scopeId

def coversGrant (job : DeletionJob) (g : Grant) : Bool :=
  if job.scopeKind = .account then g.subjectId == job.scopeId else inTenantScope job g.tenantId (some g.siteId)

theorem coversGrantIff {g : Grant} : coversGrant job g = true ↔ grantInScope job g := by
  unfold coversGrant grantInScope
  split <;> simp

def puts {α : Type} [BEq α] (p : α → Bool) (rows later : List α) : Bool := later.any fun r => p r && !rows.contains r

def putsAccount (job : DeletionJob) (db next : Db) : Bool :=
  puts (fun a => ofAccount job a.id) db.accounts next.accounts ||
    puts (fun m => ofAccount job m.accountId) db.memberships next.memberships

/- What a step brings into the scope of a job: a pairing that completes there, a refresh family
for a grant there, and for an account a row of its own or a consent that somebody else asks
for in its name. -/
def entersScope (node : Node) (job : DeletionJob) (db : Db) (e : Event) : Bool :=
  let next := step node db e
  match e.op with
  | .completePairing _ _ _ _ _ => job.scopeKind != .account &&
      puts (fun s => inTenantScope job s.tenantId (some s.id)) db.sites next.sites
  | .createFamily _ => puts (fun f => db.grants.any fun g => g.id == f.grantId && coversGrant job g)
      db.refreshFamilies next.refreshFamilies
  | .ensureAccountAuthLink _ _ _ | .createSession _ | .seedMembership _ _ _ => putsAccount job db next
  | .createPending context record => ofAccount job record.subjectId && context.accountId != job.scopeId &&
      puts (fun g => g.id == record.id) db.grants next.grants
  | _ => false

theorem putsNone {α : Type} [BEq α] [LawfulBEq α] {p : α → Bool} {rows later : List α} (none : puts p rows later = false)
    {r : α} (mem : r ∈ later) (chosen : p r = true) : r ∈ rows := by
  have old := List.any_eq_false.mp none r mem
  rw [chosen,Bool.true_and,Bool.not_eq_true',Bool.not_eq_false] at old
  exact List.contains_iff_mem.mp old

theorem ofAccountSelf (kind : job.scopeKind = .account) : ofAccount job job.scopeId = true := by
  rw [ofAccount,kind,beq_self_eq_true,beq_self_eq_true,Bool.and_self]

theorem putsNoAccount (kind : job.scopeKind = .account) (none : putsAccount job db next = false)
    (closed : accountClosed job.scopeId db)
    (members : ∀ m ∈ db.memberships, m.accountId = job.scopeId → m.status ≠ .active) :
    accountClosed job.scopeId next ∧ ∀ m ∈ next.memberships, m.accountId = job.scopeId → m.status ≠ .active := by
  obtain ⟨accounts,memberships⟩ := Bool.or_eq_false_iff.mp none
  refine ⟨fun a mem named => ?_,fun m mem named => ?_⟩
  · exact closed a (putsNone accounts mem (by rw [named]; exact ofAccountSelf kind)) named
  · exact members m (putsNone memberships mem (by rw [named]; exact ofAccountSelf kind)) named

theorem stepAccountShut (wf : WellFormed db) (outside : entersScope node job db e = false) (kind : job.scopeKind = .account)
    (closed : accountClosed job.scopeId db)
    (members : ∀ m ∈ db.memberships, m.accountId = job.scopeId → m.status ≠ .active) :
    accountClosed job.scopeId (step node db e) ∧
    ∀ m ∈ (step node db e).memberships, m.accountId = job.scopeId → m.status ≠ .active := by
  have moved := @bootstrapStep node e db wf
  cases moved with
  | linked op _ _ _ _ _ _ _ | seeded op _ _ _ _ | signedIn op _ _ _ _ =>
    simp only [entersScope,op] at outside
    exact putsNoAccount kind outside closed members
  | untouched accounts kept =>
    unfold accountClosed
    rw [accounts,kept.memberships]
    exact ⟨closed,members⟩
  | opened active _ accounts memberships _ _ =>
    unfold accountClosed
    rw [accounts,memberships]
    refine ⟨closed,fun m mem named => ?_⟩
    rcases List.mem_append.mp mem with old | new
    · exact members m old named
    · rw [List.mem_singleton.mp new] at named
      obtain ⟨a,ha,same,status⟩ := active
      rw [closed a ha (same.trans named)] at status
      contradiction
  | closed accounts memberships _ _ =>
    unfold accountClosed
    rw [accounts,memberships]
    refine ⟨fun a mem named => ?_,fun m mem named => ?_⟩
    · obtain ⟨o,ho,rfl⟩ := memUpdateWhere.mp mem
      split
      · rfl
      · rename_i other
        rw [if_neg other] at named
        exact closed o ho named
    · obtain ⟨o,ho,rfl⟩ := memUpdateWhere.mp mem
      split
      · simp
      · rename_i other
        rw [if_neg other] at named
        exact members o ho named
  | purgedAccount accounts memberships _ _ =>
    unfold accountClosed
    rw [accounts,memberships]
    exact ⟨fun a mem named => closed a (memDeleteWhere.mp mem).1 named,
      fun m mem named => members m (memDeleteWhere.mp mem).1 named⟩
  | purgedTenant accounts memberships _ _ =>
    unfold accountClosed
    rw [accounts,memberships]
    exact ⟨closed,fun m mem named => members m (memDeleteWhere.mp mem).1 named⟩

theorem stepScopeGrants (wf : WellFormed db) (outside : entersScope node job db e = false) (shut : Shut job db) {r : Grant}
    (mem : r ∈ (step node db e).grants) (scope : grantInScope job r) :
    ∃ g ∈ db.grants, grantInScope job g ∧ Advances g r := by
  rcases stepAsked wf mem with ⟨g,hg,moved⟩ | ⟨context,record,op,rfl,active,member⟩
  · exact ⟨g,hg,sameScope moved scope,moved⟩
  by_cases account : job.scopeKind = .account
  · have subject : record.subjectId = job.scopeId := by
      rw [grantInScope,if_pos account] at scope
      exact scope
    by_cases own : context.accountId = job.scopeId
    · obtain ⟨m,hm,hit⟩ := List.any_eq_true.mp member
      simp only [Bool.and_eq_true,beq_iff_eq] at hit
      exact absurd hit.2 (shut.members account m hm (hit.1.2.trans own))
    · simp only [entersScope,op,subject,ofAccountSelf account,bne_iff_ne.mpr own,Bool.true_and] at outside
      exact ⟨_,putsNone outside mem (beq_self_eq_true _),scope,.same _⟩
  · obtain ⟨s,hs,hit⟩ := List.any_eq_true.mp active
    simp only [Bool.and_eq_true,beq_iff_eq] at hit
    obtain ⟨⟨⟨⟨tenant,id⟩,_⟩,status⟩,_⟩ := hit
    rw [grantInScope,if_neg account] at scope
    rw [shut.sites account s hs (by rw [tenant,id]; exact scope)] at status
    contradiction

theorem stepShut (wf : WellFormed db) (outside : entersScope node job db e = false) (shut : Shut job db) :
    Shut job (step node db e) := by
  refine ⟨?_,?_,fun other => ?_,fun kind => ?_,fun kind => ?_⟩
  · intro r mem scope
    obtain ⟨g,hg,before,moved⟩ := stepScopeGrants wf outside shut mem scope
    have revoked := shut.grants g hg before
    rw [revokedStays moved revoked]
    exact revoked
  · intro r mem scope f hf named active
    obtain ⟨g,hg,before,moved⟩ := stepScopeGrants wf outside shut mem scope
    have sameId := (advancesKeeps moved).id
    rcases stepFamilies wf hf with ⟨o,ho,_,_,grant,status⟩ | ⟨input,op,grant⟩
    · exact shut.families g hg before o ho (grant.trans (named.trans sameId)) (status active)
    · simp only [entersScope,op] at outside
      refine shut.families g hg before f (putsNone outside hf (List.any_eq_true.mpr ⟨g,hg,?_⟩)) (named.trans sameId) active
      rw [coversGrantIff.mpr before,Bool.and_true,beq_iff_eq,named,sameId]
  · intro s mem scope
    rcases stepSites wf mem with ⟨o,ho,tenant,id,_,same⟩ | ⟨⟨context,record,proof,key,op,owner,_⟩,_⟩
    · have revoked := shut.sites other o ho (by rw [tenant,id]; exact scope)
      rcases same with rfl | later
      · exact revoked
      · exact later
    · simp only [entersScope,op,bne_iff_ne.mpr other,Bool.true_and] at outside
      exact shut.sites other s (putsNone outside mem scope) scope
  · exact (stepAccountShut wf outside kind (shut.account kind) (shut.members kind)).1
  · exact (stepAccountShut wf outside kind (shut.account kind) (shut.members kind)).2

theorem runShut {es : List Event} (wf : WellFormed db) (shut : Shut job db)
    (outside : Guarded (step node) (fun db e => entersScope node job db e = false) db es) :
    Shut job (run (step node) db es) := by
  induction es generalizing db with
  | nil => exact shut
  | cons e es ih => exact ih (stepWellFormed wf) (stepShut wf outside.1 shut) outside.2

end Closing

section Waiting
variable {node : Node} {e : Event} {db : Db} {jobId : JobId} {safe : Time}

def WaitsUntil (jobId : JobId) (safe : Time) (db : Db) : Prop :=
  ∃ job, jobOf jobId db = some job ∧
    ((job.status = .waiting ∧ job.safeAfter = some safe) ∨ job.status = .complete ∨ job.status = .failed)

theorem stepWaits (waits : WaitsUntil jobId safe db) : WaitsUntil jobId safe (step node db e) := by
  obtain ⟨job,found,state⟩ := waits
  by_cases own : advances jobId e = true
  · obtain ⟨now,op⟩ := e
    cases op <;> simp only [advances] at own <;> try contradiction
    rename_i target observedAt
    rw [beq_iff_eq] at own
    subst own
    have moved := advanced target observedAt now db
    show WaitsUntil target safe (advanceDeletionJob target observedAt now db).1
    generalize (advanceDeletionJob target observedAt now db).1 = next at moved ⊢
    have changed : ∀ {change : DeletionJob → DeletionJob} {next : Db}, (∀ j, (change j).id = j.id) →
        next.deletionJobs = db.deletionJobs → (change job).status = .complete ∨ (change job).status = .failed →
        WaitsUntil target safe (setJob target change next) := by
      intro change next keeps same ended
      refine ⟨change job,?_,.inr ended⟩
      rw [setJobOf keeps,jobSame same,found]
      rfl
    cases moved with
    | missing none =>
      rw [found] at none
      contradiction
    | ended _ _ | early _ _ _ => exact ⟨job,found,state⟩
    | revoked other pending _ | revokeRaised other pending _ =>
      cases found.symm.trans other
      rcases state with ⟨waiting,_⟩ | ended | ended <;> rw [pending] at * <;> contradiction
    | purged _ _ _ ok =>
      refine changed ?_ (purgeScopeJobs ok) (.inl rfl)
      exact fun _ => rfl
    | purgeRaised _ _ _ _ =>
      refine changed ?_ rfl (.inr rfl)
      exact fun _ => rfl
  · exact ⟨job,stepJob (by simpa using own) found,state⟩

theorem runWaits {es : List Event} (waits : WaitsUntil jobId safe db) :
    WaitsUntil jobId safe (run (step node) db es) :=
  invariantAlways (fun _ _ waits => stepWaits waits) waits es

theorem waitsDue {observedAt : Time} (waits : WaitsUntil jobId safe db)
    (due : (dueJob jobId observedAt db).isSome = true) : safe ≤ observedAt := by
  obtain ⟨job,found,state⟩ := waits
  rw [dueFound found] at due
  rcases state with ⟨waiting,at_⟩ | ended | ended
  · rw [waiting] at due
    simp only [at_,Option.all_some] at due
    by_contra early
    have before : observedAt < safe := Int.not_le.mp early
    simp [before] at due
  · rw [ended] at due
    contradiction
  · rw [ended] at due
    contradiction

end Waiting

theorem firstAdvanceShut {jobId : JobId} (wf : WellFormed db) (sitesKnown : ∀ s ∈ db.sites, s.status ≠ .deleted)
    (known : jobOf jobId db = some job) (pending : job.status = .pending) (found : familiesFound job db) :
    Shut job (advanceDeletionJob jobId observedAt now db).1 := by
  obtain ⟨⟨revoked,sessions,events⟩,ok⟩ : ∃ done, revokeScope job observedAt now db = .ok done := revokeScopeOk wf
  have body : (advanceDeletionJob jobId observedAt now db).1 =
      setJob job.id (waitingJob observedAt sessions events) revoked := by
    unfold advanceDeletionJob
    rw [bodyFound known,pending]
    simp only [firstPhase,ok]
    rfl
  rw [body]
  have shut := revokeScopeShut wf sitesKnown found ok
  exact ⟨shut.grants,shut.families,shut.sites,shut.account,shut.members⟩


/- From its first advance on the purge of a job is not due for six minutes, and whatever
still completes, its scope is closed: when the first advance finds the refresh families, and
as long as nothing new enters the scope. -/
theorem deletionCloses (node : Node) (before mid later : List Event) (jobId : JobId) (kind : ScopeKind)
    (scopeId : String) (tenantId : Option TenantId) (requestedBy : AccountId) (begunAt firstAt firstNow : Time)
    (fresh : jobOf jobId (run (step node) Db.empty before) = none)
    (admitted : (beginDeletionJob jobId kind scopeId tenantId requestedBy (run (step node) Db.empty before)).isOk = true)
    (midOthers : ∀ e ∈ mid, advances jobId e = false) :
    let job := begunJob jobId kind scopeId tenantId requestedBy
    let start := run (step node) Db.empty (before ++ beginOf jobId kind scopeId tenantId requestedBy begunAt :: mid)
    let first := step node start (advanceOf jobId firstAt firstNow)
    let reached := run (step node) first later
    (familiesFound job start → Guarded (step node) (fun db e => entersScope node job db e = false) first later →
      Closed job reached) ∧
    ∀ observedAt, (dueJob jobId observedAt reached).isSome = true → firstAt + minutes 6 ≤ observedAt := by
  intro job start first reached
  have wf : WellFormed start := reachableWellFormed node _
  obtain ⟨_,known⟩ := @knownUntilFirst jobId kind scopeId tenantId requestedBy node before mid begunAt fresh admitted
    midOthers
  have advances : first = (advanceDeletionJob jobId firstAt firstNow start).1 := rfl
  refine ⟨fun found outside => ?_,fun observedAt due => ?_⟩
  · have shut : Shut job first := by
      rw [advances]
      exact firstAdvanceShut wf (reachableSites node _) known rfl found
    have wfFirst : WellFormed first := stepWellFormed wf
    exact shutCloses (runShut wfFirst shut outside)
  · obtain ⟨sessions,events,waiting⟩ := @firstAdvance jobId _ start firstAt firstNow wf known rfl
    rw [← advances] at waiting
    exact waitsDue (runWaits ⟨_,waiting,.inl ⟨rfl,rfl⟩⟩) due

def tenantJob : JobId := "deletion_sample_tenant_1"

def verifyingHistory : List Event := pairedHistory.take 4

def completesLate : Event :=
  ⟨seconds 30,.completePairing sampleContext sampleAttempt sampleProof sampleSite "pair_0000000000000001"⟩

def familyGranted : List Event :=
  [⟨seconds 10,.createPending sampleContext (samplePending "grant_0001" "begin_0000000000000001" (seconds 10))⟩,
    ⟨seconds 20,.activate sampleContext sampleTenant "grant_0001" "complete_00000000000001" "proof_0001"⟩,
    ⟨seconds 21,.createFamily ⟨"33333333-3333-4333-8333-333333333333",sampleTenant,sampleSite,"grant_0001","client_0001",
      sampleAccount,seconds 21,minutes 60⟩⟩]

def familyHistory : List Event := twoOwnersHistory ++ familyGranted

def accountJob : JobId := "deletion_sample_account1"

def familyClosing : List Event :=
  familyHistory ++ beginOf accountJob .account sampleAccount none sampleAccount (seconds 30) :: [] ++
    [advanceOf accountJob (seconds 40) (seconds 40)]

def verifyingClosing : List Event :=
  verifyingHistory ++ beginOf tenantJob .tenant sampleTenant (some sampleTenant) sampleAccount (seconds 10) :: [] ++
    [advanceOf tenantJob (seconds 20) (seconds 20)]

/- The owner's membership stays active in the deleted tenant, so the verification that ends
late inserts an active site there; and the account's job leaves the refresh family active. -/
theorem scopeReopens :
    ((jobOf tenantJob (run (step (sampleNode [] [])) Db.empty verifyingClosing)).map (·.status) = some .waiting ∧
      ¬Closed (begunJob tenantJob .tenant sampleTenant (some sampleTenant) sampleAccount)
        (run (step (sampleNode [] [])) Db.empty (verifyingClosing ++ [completesLate]))) ∧
    (jobOf accountJob (run (step (sampleNode [] [])) Db.empty familyClosing)).map (·.status) = some .waiting ∧
      ¬Closed (begunJob accountJob .account sampleAccount none sampleAccount)
        (run (step (sampleNode [] [])) Db.empty familyClosing) := by
  refine ⟨⟨by decide,fun closed => ?_⟩,by decide,fun closed => ?_⟩
  · have opened : ∃ s ∈ (run (step (sampleNode [] [])) Db.empty (verifyingClosing ++ [completesLate])).sites,
        s.status = .active ∧ inTenantScope (begunJob tenantJob .tenant sampleTenant (some sampleTenant) sampleAccount)
          s.tenantId (some s.id) = true := by decide
    obtain ⟨s,mem,active,scope⟩ := opened
    exact closed.sites (by decide) s mem scope active
  · have kept : ∃ g ∈ (run (step (sampleNode [] [])) Db.empty familyClosing).grants, g.subjectId = sampleAccount ∧
        ∃ f ∈ (run (step (sampleNode [] [])) Db.empty familyClosing).refreshFamilies,
          f.grantId = g.id ∧ f.status = .active := by decide
    obtain ⟨g,mem,subject,f,stored,named,active⟩ := kept
    exact closed.families g mem subject f stored named active

def askedHistory : List Event := pairedHistory ++ familyGranted ++
  [⟨seconds 25,.createPending sampleContext (samplePending "grant_0002" "begin_0000000000000002" (seconds 25))⟩]

def approvesLate : Event := ⟨seconds 50,.activate sampleContext sampleTenant "grant_0002" "complete_00000000000002" "proof_0002"⟩

theorem approvalStaysOut :
    let start := run (step (sampleNode [] [])) Db.empty (askedHistory ++
      beginOf tenantJob .tenant sampleTenant (some sampleTenant) sampleAccount (seconds 30) :: [])
    let first := step (sampleNode [] []) start (advanceOf tenantJob (seconds 40) (seconds 40))
    let reached := run (step (sampleNode [] [])) first [approvesLate]
    Closed (begunJob tenantJob .tenant sampleTenant (some sampleTenant) sampleAccount) reached ∧
    (∀ observedAt, (dueJob tenantJob observedAt reached).isSome = true → seconds 40 + minutes 6 ≤ observedAt) ∧
    reached.refreshFamilies.map (fun f => (f.grantId,f.status)) = [("grant_0001",.revoked)] := by
  intro start first reached
  obtain ⟨closes,waits⟩ := deletionCloses (sampleNode [] []) askedHistory [] [approvesLate] tenantJob .tenant
    sampleTenant (some sampleTenant) sampleAccount (seconds 30) (seconds 40) (seconds 40) (by decide) (by decide)
    (by decide)
  refine ⟨closes ?_ (by decide),waits,by decide⟩
  intro g _ _ f mem _ _
  have inside : ∀ r ∈ start.refreshFamilies, inTenantScope (begunJob tenantJob .tenant sampleTenant (some sampleTenant)
    sampleAccount) r.tenantId (some r.siteId) = true := by decide
  exact ⟨by decide,inside f mem⟩

end Wepuu.DeletionClosure
