import Wepuu.NodeApi

/-! Accounts, tenants and memberships: the two bootstrap functions, the session writer and
the row-level security policies of wepuu_control. SECURITY DEFINER functions belong to the
superuser that runs the migrations, so policies bind only the statements of repositories. -/
namespace Wepuu.Tenancy
open Relational NodeApi Schema

structure TenantContext where
  tenantId : TenantId
  accountId : AccountId
  deriving DecidableEq, Repr

def hasActiveMembership (db : Db) (tenant : TenantId) (account : AccountId) : Bool :=
  db.memberships.any fun m => m.tenantId == tenant && m.accountId == account && m.status == .active

def hasTenantRole (db : Db) (tenant : TenantId) (account : AccountId) (allowed : List MembershipRole) : Bool :=
  db.memberships.any fun m =>
    m.tenantId == tenant && m.accountId == account && m.status == .active && allowed.contains m.role

def administers (db : Db) (tenant : TenantId) (account : AccountId) : Bool :=
  hasTenantRole db tenant account [.owner,.administrator]

def siteTenantSelect (context : TenantContext) (db : Db) (s : Site) : Bool :=
  s.tenantId == context.tenantId && hasActiveMembership db s.tenantId context.accountId

def siteTenantInsert (context : TenantContext) (db : Db) (s : Site) : Bool :=
  s.tenantId == context.tenantId && administers db s.tenantId context.accountId

def pairingTenantAccess (context : TenantContext) (db : Db) (a : PairingAttempt) : Bool :=
  a.tenantId == context.tenantId && a.initiatorAccountId == context.accountId &&
  administers db a.tenantId context.accountId

def grantTenantAccess (context : TenantContext) (db : Db) (g : Grant) : Bool :=
  g.tenantId == context.tenantId &&
  (g.subjectId == context.accountId || administers db g.tenantId context.accountId)

def idempotencyTenantAccess (context : TenantContext) (db : Db) (r : IdempotencyRecord) : Bool :=
  r.tenantId == context.tenantId && hasActiveMembership db r.tenantId context.accountId

def openHome (account : AccountId) (tenant : TenantId) (db : Db) : Except Fault Db := do
  let tenants ← orFail .uniqueViolation (insertRow tenantClash ⟨tenant,.active,none⟩ db.tenants)
  let memberships ← orFail .uniqueViolation
    (insertRow membershipClash ⟨tenant,account,.owner,.active,none⟩ db.memberships)
  let homes ← orFail .uniqueViolation (insertRow homeClash ⟨account,tenant⟩ db.homeTenants)
  .ok { db with tenants := tenants, memberships := memberships, homeTenants := homes }

def proposedAccountShape (text : String) : Bool :=
  text.toList.take 8 == "account_".toList &&
  matchesClass opaqueChar 16 120 (String.ofList (text.toList.drop 8))

def linkedHome (authUser : String) (db : Db) : Option (AccountId × TenantId) :=
  db.authLinks.findSome? fun link =>
    if link.authUserId == authUser then
      (db.homeTenants.find? fun home => home.accountId == link.accountId).map fun home =>
        (link.accountId,home.tenantId)
    else none

def ensureAccountAuthLink (authUser : String) (proposedAccount : AccountId) (proposedTenant : TenantId)
    (db : Db) : Except Fault (Db × AccountId × TenantId) := do
  ensure (decide (1 ≤ authUser.toList.length) && decide (authUser.toList.length ≤ 255))
    (raiseException "auth_user_id_invalid")
  ensure (proposedAccountShape proposedAccount) (raiseException "proposed_account_id_invalid")
  ensure (db.authUsers.any fun u => u.id == authUser) (raiseException "auth_user_not_found")
  match linkedHome authUser db with
  | some (account,tenant) => .ok (db,account,tenant)
  | none => do
    ensure (opaqueId proposedAccount) .checkViolation
    let accounts ← orFail .uniqueViolation
      (insertRow accountClash ⟨proposedAccount,.active,none,none⟩ db.accounts)
    let opened ← openHome proposedAccount proposedTenant { db with accounts := accounts }
    let links ← orFail .uniqueViolation (insertRow linkClash ⟨authUser,proposedAccount⟩ opened.authLinks)
    .ok ({ opened with authLinks := links },proposedAccount,proposedTenant)

def homeOrOpen (account : AccountId) (proposedTenant : TenantId) (db : Db) : Except Fault (Db × TenantId) :=
  match db.homeTenants.find? (fun h => h.accountId == account) with
  | some h => .ok (db,h.tenantId)
  | none => do
    let opened ← openHome account proposedTenant db
    .ok (opened,proposedTenant)

def ensurePersonalWorkspace (account : AccountId) (proposedTenant : TenantId)
    (db : Db) : Except Fault (Db × TenantId) := do
  ensure (opaqueId account) (raiseException "account_context_required")
  ensure (db.accounts.any fun a => a.id == account && a.status == .active)
    (raiseException "active_account_required")
  let (opened,home) ← homeOrOpen account proposedTenant db
  ensure (hasActiveMembership opened home account &&
      opened.tenants.any fun t => t.id == home && t.status == .active)
    (raiseException "home_workspace_inactive")
  .ok (opened,home)

/- A row that Better Auth inserts in its own schema. -/
def signUp (authUser : String) (db : Db) : Except Fault Db := do
  let users ← orFail .uniqueViolation (insertRow (fun a b => a.id == b.id) ⟨authUser⟩ db.authUsers)
  .ok { db with authUsers := users }

/- How an operator puts an account into a tenant, as the seeding script and the tests do:
INSERT … ON CONFLICT DO UPDATE SET role, status = 'active', revoked_at = NULL. -/
def seedMembership (tenant : TenantId) (account : AccountId) (role : MembershipRole) (db : Db) : Except Fault Db := do
  ensure (db.hasTenant tenant && db.hasAccount account) .foreignKeyViolation
  .ok { db with
    memberships := upsertRow membershipClash ⟨tenant,account,role,.active,none⟩
      (fun m => { m with role := role, status := .active, revokedAt := none }) db.memberships }

structure NewSession where
  candidateAccountId : AccountId
  identityIssuer : String
  identitySubjectHash : String
  sessionHash : Digest
  authenticatedAt : Time
  expiresAt : Time
  deriving DecidableEq, Repr

/- ON CONFLICT DO NOTHING on the account, then the session of the account with this identity. -/
def createSession (input : NewSession) (db : Db) : Except Fault (Db × Option AccountId) := do
  let candidate : Account :=
    ⟨input.candidateAccountId,.active,some input.identityIssuer,some input.identitySubjectHash⟩
  ensure (opaqueId candidate.id) .checkViolation
  let accounts := (insertRow accountClash candidate db.accounts).getD db.accounts
  let known := accounts.find? fun a => a.identityIssuer == some input.identityIssuer &&
    a.identitySubjectHash == some input.identitySubjectHash
  match known.filter (fun a => a.status == .active) with
  | none => .ok ({ db with accounts := accounts },none)
  | some account => do
    ensure (decide (input.authenticatedAt < input.expiresAt)) .checkViolation
    let sessions ← orFail .uniqueViolation (insertRow (fun a b => a.sessionHash == b.sessionHash)
      ⟨input.sessionHash,account.id,input.authenticatedAt,input.expiresAt,none⟩ db.accountSessions)
    .ok ({ db with accounts := accounts, accountSessions := sessions },some account.id)

def OnlyAccounts (db next : Db) : Prop :=
  next = { db with
    accounts := next.accounts, tenants := next.tenants, memberships := next.memberships
    homeTenants := next.homeTenants, authUsers := next.authUsers, authLinks := next.authLinks
    accountSessions := next.accountSessions } ∧
  ∀ t ∈ db.tenants, t ∈ next.tenants

theorem onlyAccountsRefl (db : Db) : OnlyAccounts db db := ⟨rfl,fun _ mem => mem⟩

theorem openHomeAccounts {account tenant db next} (ok : openHome account tenant db = .ok next) :
    OnlyAccounts db next := by
  simp only [openHome,bindOk,orFailOk] at ok
  obtain ⟨tenants,ht,memberships,_,homes,_,last⟩ := ok
  cases last
  obtain ⟨_,rfl⟩ := insertRowExact.mp ht
  exact ⟨rfl,fun t mem => List.mem_append_left _ mem⟩

theorem ensureAccountAuthLinkAccounts {authUser account tenant db next out}
    (ok : ensureAccountAuthLink authUser account tenant db = .ok (next,out)) : OnlyAccounts db next := by
  simp only [ensureAccountAuthLink,bindOk,ensureOk] at ok
  obtain ⟨_,_,_,_,_,_,ok⟩ := ok
  split at ok
  · cases ok
    exact onlyAccountsRefl db
  · simp only [bindOk,ensureOk,orFailOk] at ok
    obtain ⟨_,_,accounts,_,opened,ho,links,_,last⟩ := ok
    cases last
    obtain ⟨shape,kept⟩ := openHomeAccounts ho
    rw [shape]
    exact ⟨rfl,kept⟩

theorem ensurePersonalWorkspaceAccounts {account tenant db next out}
    (ok : ensurePersonalWorkspace account tenant db = .ok (next,out)) : OnlyAccounts db next := by
  simp only [ensurePersonalWorkspace,bindOk,ensureOk] at ok
  obtain ⟨_,_,_,_,⟨opened,home⟩,ho,_,_,last⟩ := ok
  cases last
  unfold homeOrOpen at ho
  split at ho
  · cases ho
    exact onlyAccountsRefl db
  · obtain ⟨_,opened,last⟩ := bindOk.mp ho
    cases last
    exact openHomeAccounts opened

theorem signUpAccounts {authUser db next} (ok : signUp authUser db = .ok next) : OnlyAccounts db next := by
  simp only [signUp,bindOk,orFailOk] at ok
  obtain ⟨users,_,last⟩ := ok
  cases last
  exact ⟨rfl,fun _ mem => mem⟩

theorem seedMembershipAccounts {tenant account role db next}
    (ok : seedMembership tenant account role db = .ok next) : OnlyAccounts db next := by
  simp only [seedMembership,bindOk,ensureOk] at ok
  obtain ⟨_,_,last⟩ := ok
  cases last
  exact ⟨rfl,fun _ mem => mem⟩

theorem createSessionAccounts {input db next out}
    (ok : createSession input db = .ok (next,out)) : OnlyAccounts db next := by
  simp only [createSession,bindOk,ensureOk] at ok
  obtain ⟨_,_,ok⟩ := ok
  split at ok
  · cases ok
    exact ⟨rfl,fun _ mem => mem⟩
  · simp only [bindOk,ensureOk,orFailOk] at ok
    obtain ⟨_,_,sessions,_,last⟩ := ok
    cases last
    exact ⟨rfl,fun _ mem => mem⟩

end Wepuu.Tenancy
