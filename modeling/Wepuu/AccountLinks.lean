import Wepuu.OwnerTransfer

/-! The links of auth users to accounts and the home tenants of accounts, under both
bootstrap functions and the deletions that cascade into them. -/
namespace Wepuu.AccountLinks
open AccountReferences Deletion DeletionCompletes Footprint Frames NodeApi OwnerTransfer Relational Runs Schema
open Statements Tenancy Wepuu.System

structure Kept (db next : Db) : Prop where
  memberships : next.memberships = db.memberships
  homeTenants : next.homeTenants = db.homeTenants
  authLinks : next.authLinks = db.authLinks

inductive BootstrapStep (e : Event) (db : Db) : Db → Prop
  | untouched {next : Db} (accounts : next.accounts = db.accounts) (kept : Kept db next) : BootstrapStep e db next
  | linked {next : Db} {authUser : String} {account : AccountId} {tenant : TenantId}
      (op : e.op = .ensureAccountAuthLink authUser account tenant)
      (freeAccount : ∀ a ∈ db.accounts, a.id ≠ account)
      (freeHome : ∀ h ∈ db.homeTenants, h.accountId ≠ account ∧ h.tenantId ≠ tenant)
      (freeLink : ∀ l ∈ db.authLinks, l.authUserId ≠ authUser ∧ l.accountId ≠ account)
      (accounts : next.accounts = db.accounts ++ [⟨account,.active,none,none⟩])
      (memberships : next.memberships = db.memberships ++ [⟨tenant,account,.owner,.active,none⟩])
      (homeTenants : next.homeTenants = db.homeTenants ++ [⟨account,tenant⟩])
      (authLinks : next.authLinks = db.authLinks ++ [⟨authUser,account⟩]) : BootstrapStep e db next
  | opened {next : Db} {account : AccountId} {tenant : TenantId}
      (active : ∃ a ∈ db.accounts, a.id = account ∧ a.status = .active)
      (freeHome : ∀ h ∈ db.homeTenants, h.accountId ≠ account ∧ h.tenantId ≠ tenant)
      (accounts : next.accounts = db.accounts)
      (memberships : next.memberships = db.memberships ++ [⟨tenant,account,.owner,.active,none⟩])
      (homeTenants : next.homeTenants = db.homeTenants ++ [⟨account,tenant⟩])
      (authLinks : next.authLinks = db.authLinks) : BootstrapStep e db next
  | seeded {next : Db} {tenant : TenantId} {account : AccountId} {role : MembershipRole}
      (op : e.op = .seedMembership tenant account role) (accounts : next.accounts = db.accounts)
      (memberships : next.memberships = upsertRow membershipClash ⟨tenant,account,role,.active,none⟩
        (fun m => { m with role := role, status := .active, revokedAt := none }) db.memberships)
      (homeTenants : next.homeTenants = db.homeTenants) (authLinks : next.authLinks = db.authLinks) :
      BootstrapStep e db next
  | signedIn {next : Db} {candidate : Account} {input : NewSession} (op : e.op = .createSession input)
      (named : input.candidateAccountId = candidate.id) (free : ∀ a ∈ db.accounts, a.id ≠ candidate.id)
      (accounts : next.accounts = db.accounts ++ [candidate]) (kept : Kept db next) : BootstrapStep e db next
  | closed {next : Db} {account : AccountId} {observedAt : Time}
      (accounts : next.accounts =
        updateWhere (fun a => a.id == account) (fun a => { a with status := .deleted }) db.accounts)
      (memberships : next.memberships = updateWhere (fun m => m.accountId == account && m.status == .active)
        (fun m => { m with status := .revoked, revokedAt := some (m.revokedAt.getD observedAt) }) db.memberships)
      (homeTenants : next.homeTenants = db.homeTenants) (authLinks : next.authLinks = db.authLinks) :
      BootstrapStep e db next
  | purgedAccount {next : Db} {account : AccountId}
      (accounts : next.accounts = deleteWhere (fun a => a.id == account) db.accounts)
      (memberships : next.memberships = deleteWhere (fun m => m.accountId == account) db.memberships)
      (homeTenants : next.homeTenants = deleteWhere (fun h => h.accountId == account) db.homeTenants)
      (authLinks : next.authLinks = deleteWhere (fun l => l.accountId == account) db.authLinks) :
      BootstrapStep e db next
  | purgedTenant {next : Db} {whole : TenantId → Bool} (accounts : next.accounts = db.accounts)
      (memberships : next.memberships = deleteWhere (fun m => whole m.tenantId) db.memberships)
      (homeTenants : next.homeTenants = deleteWhere (fun h => whole h.tenantId) db.homeTenants)
      (authLinks : next.authLinks = db.authLinks) : BootstrapStep e db next

section Inversion
variable {node : Node} {e : Event} {db next : Db}

theorem openHomeTables {account : AccountId} {tenant : TenantId}
    (active : ∃ a ∈ db.accounts, a.id = account ∧ a.status = .active) (ok : openHome account tenant db = .ok next) :
    BootstrapStep e db next := by
  obtain ⟨_,_,free,rfl⟩ := openHomeExact ok
  exact .opened active free rfl rfl rfl rfl

theorem createSessionTables {input : NewSession} {out : Option AccountId} (op : e.op = .createSession input)
    (ok : createSession input db = .ok (next,out)) : BootstrapStep e db next := by
  simp only [createSession,bindOk,ensureOk] at ok
  obtain ⟨_,_,ok⟩ := ok
  let candidate : Account :=
    ⟨input.candidateAccountId,.active,some input.identityIssuer,some input.identitySubjectHash⟩
  have grown : ∀ {after : Db}, after.accounts = (insertRow accountClash candidate db.accounts).getD db.accounts →
      Kept db after → BootstrapStep e db after := by
    intro after accounts kept
    cases made : insertRow accountClash candidate db.accounts with
    | none =>
      rw [made] at accounts
      exact .untouched accounts kept
    | some rows =>
      obtain ⟨free,rfl⟩ := insertRowExact.mp made
      rw [made] at accounts
      refine .signedIn op rfl (fun a mem same => ?_) accounts kept
      simpa [accountClash,same] using free a mem
  split at ok
  · cases ok
    exact grown rfl ⟨rfl,rfl,rfl⟩
  · simp only [bindOk,ensureOk,orFailOk] at ok
    obtain ⟨_,_,_,_,last⟩ := ok
    cases last
    exact grown rfl ⟨rfl,rfl,rfl⟩

theorem revokeScopeTables {job : DeletionJob} {observedAt now : Time} {sessions events : Nat}
    (ok : revokeScope job observedAt now db = .ok (next,sessions,events)) : BootstrapStep e db next := by
  unfold revokeScope at ok
  split at ok
  · have only := revokeAccountOnly ok
    simp only [revokeAccount,bindOk] at ok
    obtain ⟨⟨revoked,count⟩,loop,last⟩ := ok
    cases last
    have inner := revokeSubjectGrantsOnly loop
    exact .closed (inner .accounts (by decide)) (inner .memberships (by decide)) (only .homeTenants (by decide))
      (only .authLinks (by decide))
  · have only := revokeTenantScopeOnly ok
    exact .untouched (only .accounts (by decide)) ⟨only .memberships (by decide),only .homeTenants (by decide),
      only .authLinks (by decide)⟩

theorem purgeScopeTables {job : DeletionJob} (ok : purgeScope job db = .ok next) : BootstrapStep e db next := by
  unfold purgeScope at ok
  split at ok
  · simp only [purgeAccount,bindOk,ensureOk] at ok
    obtain ⟨_,_,last⟩ := ok
    cases last
    exact .purgedAccount rfl rfl rfl rfl
  · cases ok
    exact @BootstrapStep.purgedTenant _ _ _ (fun tenant => job.scopeKind == .tenant && some tenant == job.tenantId)
      rfl rfl rfl rfl

theorem setJobTables {jobId : JobId} {change : DeletionJob → DeletionJob} (moved : BootstrapStep e db next) :
    BootstrapStep e db (setJob jobId change next) := by
  cases moved with
  | untouched accounts kept => exact .untouched accounts ⟨kept.memberships,kept.homeTenants,kept.authLinks⟩
  | linked op freeAccount freeHome freeLink accounts memberships homeTenants authLinks =>
    exact .linked op freeAccount freeHome freeLink accounts memberships homeTenants authLinks
  | opened active freeHome accounts memberships homeTenants authLinks =>
    exact .opened active freeHome accounts memberships homeTenants authLinks
  | seeded op accounts memberships homeTenants authLinks =>
    exact .seeded op accounts memberships homeTenants authLinks
  | signedIn op named free accounts kept =>
    exact .signedIn op named free accounts ⟨kept.memberships,kept.homeTenants,kept.authLinks⟩
  | closed accounts memberships homeTenants authLinks => exact .closed accounts memberships homeTenants authLinks
  | purgedAccount accounts memberships homeTenants authLinks =>
    exact .purgedAccount accounts memberships homeTenants authLinks
  | purgedTenant accounts memberships homeTenants authLinks =>
    exact .purgedTenant accounts memberships homeTenants authLinks

theorem bootstrapStep (wf : WellFormed db) : BootstrapStep e db (step node db e) := by
  have same : .accounts ∉ touches e.op → .memberships ∉ touches e.op → .homeTenants ∉ touches e.op →
      .authLinks ∉ touches e.op → BootstrapStep e db (step node db e) := by
    intro a m h l
    exact .untouched (stepOnly .accounts a) ⟨stepOnly .memberships m,stepOnly .homeTenants h,stepOnly .authLinks l⟩
  rcases settleCases db (exec node e db) with rolled | ⟨next,reply,ok,done⟩
  · rw [step,rolled]
    exact .untouched rfl ⟨rfl,rfl,rfl⟩
  obtain ⟨now,op⟩ := e
  cases op with
  | ensureAccountAuthLink authUser account tenant =>
    rw [step,done]
    simp only [exec] at ok
    obtain ⟨_,made,_⟩ := answeredOk ok
    obtain ⟨_,⟨_,rfl⟩ | ⟨opened,_,_,freeAccount,home,freeLink,rfl⟩⟩ := ensureAccountAuthLinkCases made
    · exact .untouched rfl ⟨rfl,rfl,rfl⟩
    · obtain ⟨_,_,freeHome,rfl⟩ := openHomeExact home
      exact .linked rfl freeAccount freeHome freeLink rfl rfl rfl rfl
  | ensurePersonalWorkspace account tenant =>
    rw [step,done]
    simp only [exec] at ok
    obtain ⟨_,made,_⟩ := answeredOk ok
    simp only [ensurePersonalWorkspace,bindOk,ensureOk] at made
    obtain ⟨_,_,_,active,⟨opened,home⟩,found,_,_,last⟩ := made
    cases last
    unfold homeOrOpen at found
    split at found
    · cases found
      exact .untouched rfl ⟨rfl,rfl,rfl⟩
    · obtain ⟨_,opens,last⟩ := bindOk.mp found
      cases last
      exact openHomeTables (by simpa using active) opens
  | seedMembership tenant account role =>
    rw [step,done]
    have made := silentOk ok
    simp only [seedMembership,bindOk,ensureOk] at made
    obtain ⟨_,_,last⟩ := made
    cases last
    exact .seeded rfl rfl rfl rfl rfl
  | createSession input =>
    rw [step,done]
    simp only [exec] at ok
    obtain ⟨_,made,_⟩ := answeredOk ok
    exact createSessionTables rfl made
  | advanceDeletionJob jobId observedAt =>
    have shape : step node db ⟨now,.advanceDeletionJob jobId observedAt⟩ =
        (advanceDeletionJob jobId observedAt now db).1 := rfl
    have effect := advanceEffect jobId observedAt now wf
    rw [← shape] at effect
    generalize step node db ⟨now,.advanceDeletionJob jobId observedAt⟩ = after at effect ⊢
    cases effect with
    | idle _ => exact .untouched rfl ⟨rfl,rfl,rfl⟩
    | revoked _ _ ok => exact setJobTables (revokeScopeTables ok)
    | purged _ _ ok => exact setJobTables (purgeScopeTables ok)
  | _ => exact same (by simp [touches]) (by simp [touches]) (by simp [touches]) (by simp [touches])

end Inversion

section Invariants
variable {node : Node} {e : Event} {db : Db}

theorem linkClashSymm (a b : AuthLink) : linkClash a b = linkClash b a := by
  simp only [linkClash,Bool.beq_comm (a := a.authUserId),Bool.beq_comm (a := a.accountId)]

theorem homeClashSymm (a b : HomeTenant) : homeClash a b = homeClash b a := by
  simp only [homeClash,Bool.beq_comm (a := a.accountId),Bool.beq_comm (a := a.tenantId)]

structure OneEach (db : Db) : Prop where
  links : Indexed linkClash db.authLinks
  homes : Indexed homeClash db.homeTenants

theorem stepOneEach (wf : WellFormed db) (one : OneEach db) : OneEach (step node db e) := by
  have moved := @bootstrapStep node e db wf
  generalize step node db e = next at moved ⊢
  have appendHome : ∀ {account : AccountId} {tenant : TenantId},
      (∀ h ∈ db.homeTenants, h.accountId ≠ account ∧ h.tenantId ≠ tenant) →
      Indexed homeClash (db.homeTenants ++ [⟨account,tenant⟩]) := by
    intro account tenant free
    refine indexedAppend one.homes homeClashSymm fun h mem => ?_
    simp only [homeClash,Bool.or_eq_false_iff,beq_eq_false_iff_ne]
    exact ⟨(free h mem).1.symm,(free h mem).2.symm⟩
  constructor
  · cases moved with
    | untouched _ kept | signedIn _ _ _ _ kept =>
      rw [kept.authLinks]
      exact one.links
    | linked _ _ _ free _ _ _ links =>
      rw [links]
      refine indexedAppend one.links linkClashSymm fun l mem => ?_
      simp only [linkClash,Bool.or_eq_false_iff,beq_eq_false_iff_ne]
      exact ⟨(free l mem).1.symm,(free l mem).2.symm⟩
    | opened _ _ _ _ _ links | seeded _ _ _ _ links | closed _ _ _ links | purgedTenant _ _ _ links =>
      rw [links]
      exact one.links
    | purgedAccount _ _ _ links =>
      rw [links]
      exact indexedDelete one.links
  · cases moved with
    | untouched _ kept | signedIn _ _ _ _ kept =>
      rw [kept.homeTenants]
      exact one.homes
    | linked _ _ free _ _ _ homes _ | opened _ free _ _ homes _ =>
      rw [homes]
      exact appendHome free
    | seeded _ _ _ homes _ | closed _ _ homes _ =>
      rw [homes]
      exact one.homes
    | purgedAccount _ _ homes _ | purgedTenant _ _ homes _ =>
      rw [homes]
      exact indexedDelete one.homes

theorem reachableOneEach (node : Node) (es : List Event) : OneEach (run (step node) Db.empty es) := by
  refine (@invariantAlways _ _ _ (fun db => WellFormed db ∧ OneEach db) _ ?_ ⟨wellFormedEmpty,?_⟩ es).2
  · exact fun s e inv => ⟨stepWellFormed inv.1,stepOneEach inv.1 inv.2⟩
  · exact ⟨indexedNil _,indexedNil _⟩

def MembersKnown (db : Db) : Prop := ∀ m ∈ db.memberships, db.hasAccount m.accountId = true

theorem seedKnown {now : Time} {tenant : TenantId} {account : AccountId} {role : MembershipRole}
    (op : e = ⟨now,.seedMembership tenant account role⟩) : step node db e = db ∨ db.hasAccount account = true := by
  subst op
  rcases settleCases db (exec node ⟨now,.seedMembership tenant account role⟩ db) with rolled | ⟨next,reply,ok,_⟩
  · exact .inl rolled
  · have made := silentOk ok
    simp only [seedMembership,bindOk,ensureOk,Bool.and_eq_true] at made
    obtain ⟨_,known,_⟩ := made
    exact .inr known.2

theorem stepMembersKnown (wf : WellFormed db) (known : MembersKnown db) : MembersKnown (step node db e) := by
  have moved := @bootstrapStep node e db wf
  have seeds := fun now tenant account role => @seedKnown node e db now tenant account role
  generalize step node db e = next at moved seeds ⊢
  have grown : ∀ {row : Account}, next.accounts = db.accounts ++ [row] → ∀ id, db.hasAccount id = true →
      next.hasAccount id = true := by
    intro row accounts id has
    unfold Db.hasAccount at has ⊢
    rw [accounts,List.any_append,has,Bool.true_or]
  have same : next.accounts = db.accounts → next.hasAccount = db.hasAccount := by
    intro accounts
    unfold Db.hasAccount
    rw [accounts]
  intro m mem
  cases moved with
  | untouched accounts kept =>
    rw [kept.memberships] at mem
    rw [same accounts]
    exact known m mem
  | signedIn _ _ _ accounts kept =>
    rw [kept.memberships] at mem
    exact grown accounts _ (known m mem)
  | @linked _ account tenant _ _ _ _ accounts memberships _ _ =>
    rw [memberships] at mem
    rcases List.mem_append.mp mem with old | new
    · exact grown accounts _ (known m old)
    · rw [List.mem_singleton.mp new]
      refine hasAccountIff.mpr ⟨⟨account,.active,none,none⟩,?_,rfl⟩
      rw [accounts]
      exact List.mem_append_right _ (List.mem_singleton.mpr rfl)
  | opened active _ accounts memberships _ _ =>
    rw [memberships] at mem
    rw [same accounts]
    rcases List.mem_append.mp mem with old | new
    · exact known m old
    · rw [List.mem_singleton.mp new]
      obtain ⟨a,ha,named,_⟩ := active
      exact hasAccountIff.mpr ⟨a,ha,named⟩
  | @seeded tenant account role op accounts memberships _ _ =>
    obtain ⟨now,op'⟩ := e
    cases op
    rcases seeds now tenant account role rfl with rolled | has
    · rw [rolled] at mem ⊢
      exact known m mem
    rw [memberships] at mem
    rw [same accounts]
    rcases memUpsertRow mem with old | rfl | ⟨o,ho,_,rfl⟩
    · exact known m old
    · exact has
    · exact known o ho
  | closed accounts memberships _ _ =>
    rw [memberships] at mem
    refine columnAll Membership.accountId (fun id => next.hasAccount id = true) ?_ (fun o ho => ?_) m mem
    · exact fun _ => rfl
    · unfold Db.hasAccount
      rw [accounts]
      refine (columnAny Account.id (· == o.accountId) ?_).trans (known o ho)
      exact fun _ => rfl
  | purgedAccount accounts memberships _ _ =>
    rw [memberships] at mem
    obtain ⟨had,kept⟩ := memDeleteWhere.mp mem
    obtain ⟨a,ha,named⟩ := hasAccountIff.mp (known m had)
    refine hasAccountIff.mpr ⟨a,?_,named⟩
    rw [accounts]
    exact memDeleteWhere.mpr ⟨ha,by rw [named]; exact kept⟩
  | purgedTenant accounts memberships _ _ =>
    rw [memberships] at mem
    rw [same accounts]
    exact known m (memDeleteWhere.mp mem).1

theorem reachableMembersKnown (node : Node) (es : List Event) : MembersKnown (run (step node) Db.empty es) := by
  refine (@invariantAlways _ _ _ (fun db => WellFormed db ∧ MembersKnown db) _ ?_ ⟨wellFormedEmpty,?_⟩ es).2
  · exact fun s e inv => ⟨stepWellFormed inv.1,stepMembersKnown inv.1 inv.2⟩
  · exact fun m mem => nomatch mem

theorem stepLinkKept (wf : WellFormed db) {l : AuthLink} (mem : l ∈ db.authLinks)
    (known : (step node db e).hasAccount l.accountId = true) : l ∈ (step node db e).authLinks := by
  have moved := @bootstrapStep node e db wf
  generalize step node db e = next at moved known ⊢
  cases moved with
  | untouched _ kept | signedIn _ _ _ _ kept =>
    rw [kept.authLinks]
    exact mem
  | linked _ _ _ _ _ _ _ links =>
    rw [links]
    exact List.mem_append_left _ mem
  | opened _ _ _ _ _ links | seeded _ _ _ _ links | closed _ _ _ links | purgedTenant _ _ _ links =>
    rw [links]
    exact mem
  | purgedAccount accounts _ _ links =>
    rw [links]
    refine memDeleteWhere.mpr ⟨mem,?_⟩
    rw [beq_eq_false_iff_ne]
    intro same
    obtain ⟨a,ha,named⟩ := hasAccountIff.mp known
    rw [accounts] at ha
    have kept := (memDeleteWhere.mp ha).2
    rw [named,same,beq_self_eq_true] at kept
    contradiction

def AccountStays (node : Node) (account : AccountId) (db : Db) (es : List Event) : Prop :=
  Guarded (step node) (fun db e => (step node db e).hasAccount account = true) db es

theorem runLinkKept {es : List Event} (wf : WellFormed db) {l : AuthLink} (mem : l ∈ db.authLinks)
    (stays : AccountStays node l.accountId db es) : l ∈ (run (step node) db es).authLinks := by
  induction es generalizing db with
  | nil => exact mem
  | cons e es ih => exact ih (stepWellFormed wf) (stepLinkKept wf mem stays.1) stays.2

def ownedHome (h : HomeTenant) (db : Db) : Prop :=
  ∃ m ∈ db.memberships, m.tenantId = h.tenantId ∧ m.accountId = h.accountId ∧ m.role = .owner ∧ m.status = .active

def accountClosed (account : AccountId) (db : Db) : Prop := ∀ a ∈ db.accounts, a.id = account → a.status = .deleted

/- The operator's statement names this membership. -/
def reseeds (h : HomeTenant) (e : Event) : Bool := match e.op with
  | .seedMembership tenant account _ => tenant == h.tenantId && account == h.accountId
  | _ => false

def HomeOwned (h : HomeTenant) (db : Db) : Prop :=
  h ∈ db.homeTenants → ownedHome h db ∨ accountClosed h.accountId db

theorem stepHomeOwned (wf : WellFormed db) (refs : References db) {h : HomeTenant} (unseeded : reseeds h e = false)
    (had : HomeOwned h db) : HomeOwned h (step node db e) := by
  have moved := @bootstrapStep node e db wf
  generalize step node db e = next at moved ⊢
  intro mem
  have grown : ∀ {row : Membership}, next.memberships = db.memberships ++ [row] → ownedHome h db →
      ownedHome h next := by
    rintro row shape ⟨m,hm,owner⟩
    exact ⟨m,by rw [shape]; exact List.mem_append_left _ hm,owner⟩
  have closedGrown : ∀ {row : Account}, next.accounts = db.accounts ++ [row] → (∀ a ∈ db.accounts, a.id ≠ row.id) →
      h ∈ db.homeTenants → accountClosed h.accountId db → accountClosed h.accountId next := by
    intro row shape free known closed a ha named
    rw [shape] at ha
    rcases List.mem_append.mp ha with old | new
    · exact closed a old named
    · obtain ⟨o,ho,same⟩ := hasAccountIff.mp (refs.homeAccount h known)
      rw [List.mem_singleton.mp new] at named
      exact absurd (same.trans named.symm) (free o ho)
  cases moved with
  | untouched accounts kept =>
    rw [kept.homeTenants] at mem
    unfold ownedHome accountClosed
    rw [kept.memberships,accounts]
    exact had mem
  | @linked _ account tenant _ free _ _ accounts memberships homes _ =>
    rw [homes] at mem
    rcases List.mem_append.mp mem with old | new
    · exact (had old).imp (grown memberships) (closedGrown accounts free old)
    · rw [List.mem_singleton.mp new]
      exact .inl ⟨⟨tenant,account,.owner,.active,none⟩,by rw [memberships]; simp,rfl,rfl,rfl,rfl⟩
  | @opened account tenant _ _ accounts memberships homes _ =>
    rw [homes] at mem
    rcases List.mem_append.mp mem with old | new
    · refine (had old).imp (grown memberships) fun closed => ?_
      unfold accountClosed
      rw [accounts]
      exact closed
    · rw [List.mem_singleton.mp new]
      exact .inl ⟨⟨tenant,account,.owner,.active,none⟩,by rw [memberships]; simp,rfl,rfl,rfl,rfl⟩
  | @seeded tenant account role op accounts memberships homes _ =>
    rw [homes] at mem
    refine (had mem).imp (fun owned => ?_) fun closed => ?_
    · obtain ⟨m,hm,t,a,owner⟩ := owned
      have apart : membershipClash ⟨tenant,account,role,.active,none⟩ m = false := by
        simp only [reseeds,op] at unseeded
        simpa only [membershipClash,t,a] using unseeded
      refine ⟨m,?_,t,a,owner⟩
      rw [memberships]
      unfold upsertRow
      split
      · exact untouchedRow hm apart
      · exact List.mem_append_left _ hm
    · unfold accountClosed
      rw [accounts]
      exact closed
  | signedIn _ _ free accounts kept =>
    rw [kept.homeTenants] at mem
    refine (had mem).imp (fun owned => ?_) (closedGrown accounts free mem)
    unfold ownedHome
    rw [kept.memberships]
    exact owned
  | @closed account observedAt accounts memberships homes _ =>
    rw [homes] at mem
    by_cases mine : h.accountId = account
    · refine .inr fun a ha named => ?_
      rw [accounts] at ha
      obtain ⟨o,_,rfl⟩ := memUpdateWhere.mp ha
      split
      · rfl
      · rename_i other
        rw [if_neg other] at named
        exact absurd (by rw [named,mine,beq_self_eq_true]) other
    · refine (had mem).imp (fun owned => ?_) fun closed a ha named => ?_
      · obtain ⟨m,hm,t,a,owner⟩ := owned
        refine ⟨m,?_,t,a,owner⟩
        rw [memberships]
        exact untouchedRow hm (by simp [a,mine])
      · rw [accounts] at ha
        obtain ⟨o,ho,rfl⟩ := memUpdateWhere.mp ha
        split
        · rfl
        · rename_i other
          rw [if_neg other] at named
          exact closed o ho named
  | @purgedAccount account accounts memberships homes _ =>
    rw [homes] at mem
    obtain ⟨known,kept⟩ := memDeleteWhere.mp mem
    refine (had known).imp (fun owned => ?_) fun closed a ha named => ?_
    · obtain ⟨m,hm,t,a,owner⟩ := owned
      refine ⟨m,?_,t,a,owner⟩
      rw [memberships]
      exact memDeleteWhere.mpr ⟨hm,by rw [a]; exact kept⟩
    · rw [accounts] at ha
      exact closed a (memDeleteWhere.mp ha).1 named
  | @purgedTenant whole accounts memberships homes _ =>
    rw [homes] at mem
    obtain ⟨known,kept⟩ := memDeleteWhere.mp mem
    refine (had known).imp (fun owned => ?_) fun closed => ?_
    · obtain ⟨m,hm,t,a,owner⟩ := owned
      refine ⟨m,?_,t,a,owner⟩
      rw [memberships]
      exact memDeleteWhere.mpr ⟨hm,by rw [t]; exact kept⟩
    · unfold accountClosed
      rw [accounts]
      exact closed

theorem reachableHomeOwned {h : HomeTenant} (es : List Event) (unseeded : ∀ e ∈ es, reseeds h e = false) :
    HomeOwned h (run (step node) Db.empty es) := by
  have carried : ∀ {db : Db} {es : List Event}, WellFormed db → References db → (∀ e ∈ es, reseeds h e = false) →
      HomeOwned h db → HomeOwned h (run (step node) db es) := by
    intro db es
    induction es generalizing db with
    | nil => exact fun _ _ _ had => had
    | cons e es ih =>
      intro wf refs apart had
      exact ih (stepWellFormed wf) (stepReferences refs) (fun o mem => apart o (List.mem_cons_of_mem _ mem))
        (stepHomeOwned wf refs (apart e List.mem_cons_self) had)
  exact carried wellFormedEmpty referencesEmpty unseeded fun mem => absurd mem List.not_mem_nil

end Invariants

section Calls
variable {authUser : String} {account : AccountId} {tenant : TenantId} {db next : Db}

structure Fresh (account : AccountId) (tenant : TenantId) (db : Db) : Prop where
  newAccount : db.hasAccount account = false
  newTenant : db.hasTenant tenant = false
  memberless : ∀ m ∈ db.memberships, m.tenantId ≠ tenant

theorem proposedOpaque (shape : proposedAccountShape account = true) : opaqueId account = true := by
  simp only [proposedAccountShape,matchesClass,Bool.and_eq_true,beq_iff_eq,decide_eq_true_eq,String.toList_ofList]
    at shape
  obtain ⟨head,⟨least,most⟩,tail⟩ := shape
  have split := List.take_append_drop 8 account.toList
  have size : (account.toList.drop 8).length = account.toList.length - 8 := List.length_drop
  have known : (account.toList.take 8).all opaqueChar = true := by rw [head]; decide
  simp only [opaqueId,matchesClass,Bool.and_eq_true,decide_eq_true_eq]
  refine ⟨by omega,?_⟩
  rw [← split,List.all_append,known,tail]
  rfl

theorem openHomeOk (refs : References db) (newTenant : db.hasTenant tenant = false)
    (memberless : ∀ m ∈ db.memberships, m.tenantId ≠ tenant)
    (homeless : ∀ h ∈ db.homeTenants, h.accountId ≠ account) : ∃ next, openHome account tenant db = .ok next := by
  have tenants : ∀ t ∈ db.tenants, tenantClash ⟨tenant,.active,none⟩ t = false := by
    intro t mem
    rw [tenantClash,beq_eq_false_iff_ne]
    intro same
    have known := hasTenantIff.mpr ⟨t,mem,same.symm⟩
    rw [newTenant] at known
    contradiction
  have members : ∀ m ∈ db.memberships, membershipClash ⟨tenant,account,.owner,.active,none⟩ m = false := by
    intro m mem
    simp only [membershipClash,Bool.and_eq_false_iff,beq_eq_false_iff_ne]
    exact .inl (memberless m mem).symm
  have homes : ∀ h ∈ db.homeTenants, homeClash ⟨account,tenant⟩ h = false := by
    intro h mem
    simp only [homeClash,Bool.or_eq_false_iff,beq_eq_false_iff_ne]
    refine ⟨(homeless h mem).symm,fun same => ?_⟩
    have known := refs.homeTenant h mem
    rw [← same,newTenant] at known
    contradiction
  simp only [openHome,bindOk,orFailOk]
  exact ⟨_,_,insertRowExact.mpr ⟨tenants,rfl⟩,_,insertRowExact.mpr ⟨members,rfl⟩,_,insertRowExact.mpr ⟨homes,rfl⟩,rfl⟩

theorem linkedHomeNone : linkedHome authUser db = none ↔
    ∀ l ∈ db.authLinks, l.authUserId = authUser → ∀ h ∈ db.homeTenants, h.accountId ≠ l.accountId := by
  unfold linkedHome
  rw [List.findSome?_eq_none_iff]
  refine forall_congr' fun l => forall_congr' fun _ => ?_
  by_cases mine : l.authUserId = authUser
  · simp [mine]
  · simp [mine]

theorem linkedHomeSome (found : linkedHome authUser db = some (account,tenant)) :
    (⟨authUser,account⟩ : AuthLink) ∈ db.authLinks ∧ (⟨account,tenant⟩ : HomeTenant) ∈ db.homeTenants := by
  unfold linkedHome at found
  obtain ⟨l,mem,hit⟩ := List.exists_of_findSome?_eq_some found
  split at hit <;> try contradiction
  rename_i mine
  rw [beq_iff_eq] at mine
  simp only [Option.map_eq_some_iff,Prod.mk.injEq] at hit
  obtain ⟨h,hh,rfl,rfl⟩ := hit
  have named : h.accountId = l.accountId := by simpa using List.find?_some hh
  refine ⟨by rw [← mine]; exact mem,?_⟩
  rw [← named]
  exact List.mem_of_find?_eq_some hh

theorem returnsLinked {linked : AccountId} {home : TenantId}
    (ok : ensureAccountAuthLink authUser account tenant db = .ok (next,linked,home)) :
    (⟨authUser,linked⟩ : AuthLink) ∈ next.authLinks := by
  obtain ⟨_,⟨found,rfl⟩ | ⟨opened,_,out,_,_,_,rfl⟩⟩ := ensureAccountAuthLinkCases ok
  · exact (linkedHomeSome found).1
  · cases out
    exact List.mem_append_right _ (List.mem_singleton.mpr rfl)

def linkedHasHome (authUser : String) (db : Db) : Bool :=
  db.authLinks.all fun l => l.authUserId != authUser || db.homeTenants.any fun h => h.accountId == l.accountId

def authUserIdShape (authUser : String) : Bool :=
  decide (1 ≤ authUser.toList.length) && decide (authUser.toList.length ≤ 255)

theorem callOk (one : OneEach db) (refs : References db) (user : ∃ u ∈ db.authUsers, u.id = authUser)
    (shape : proposedAccountShape account = true) (fresh : Fresh account tenant db) :
    (∃ next out, ensureAccountAuthLink authUser account tenant db = .ok (next,out)) ↔
      authUserIdShape authUser = true ∧ linkedHasHome authUser db = true := by
  constructor
  · rintro ⟨next,⟨linked,home⟩,ok⟩
    refine ⟨?_,List.all_eq_true.mpr fun l mem => ?_⟩
    · simp only [ensureAccountAuthLink,bindOk,ensureOk] at ok
      obtain ⟨_,sized,_⟩ := ok
      exact sized
    · simp only [Bool.or_eq_true,bne_iff_ne,List.any_eq_true,beq_iff_eq,or_iff_not_imp_left,not_not]
      intro mine
      obtain ⟨_,⟨found,_⟩ | ⟨_,_,_,_,_,free,_⟩⟩ := ensureAccountAuthLinkCases ok
      · obtain ⟨link,home_⟩ := linkedHomeSome found
        have same := indexedEq one.links linkClashSymm mem link (by simp [linkClash,mine])
        exact ⟨_,home_,by rw [same]⟩
      · exact absurd mine (free l mem).1
  · rintro ⟨sized,housed⟩
    have user' : (db.authUsers.any fun u => u.id == authUser) = true := by simpa using user
    unfold ensureAccountAuthLink
    cases found : linkedHome authUser db with
    | some out =>
      obtain ⟨linked,home⟩ := out
      simp only [bindOk,ensureOk]
      exact ⟨_,_,(),sized,(),shape,(),user',rfl⟩
    | none =>
      -- a link without a home is what housed excludes, so there is no link at all
      have unlinked : ∀ l ∈ db.authLinks, l.authUserId ≠ authUser := by
        intro l mem mine
        have housedLink := List.all_eq_true.mp housed l mem
        simp only [Bool.or_eq_true,bne_iff_ne,List.any_eq_true,beq_iff_eq] at housedLink
        rcases housedLink with other | ⟨h,hh,named⟩
        · exact other mine
        · exact linkedHomeNone.mp found l mem mine h hh named
      have accounts : ∀ a ∈ db.accounts, accountClash ⟨account,.active,none,none⟩ a = false := by
        intro a mem
        have other : account ≠ a.id := by
          intro same
          have known := hasAccountIff.mpr ⟨a,mem,same.symm⟩
          rw [fresh.newAccount] at known
          contradiction
        simp [accountClash,other]
      have homeless : ∀ h ∈ db.homeTenants, h.accountId ≠ account := by
        intro h mem same
        have known := refs.homeAccount h mem
        rw [same,fresh.newAccount] at known
        contradiction
      let registered : Db := { db with accounts := db.accounts ++ [⟨account,.active,none,none⟩] }
      have more : References registered :=
        referencesKept refs (fun id has => by
          unfold Db.hasAccount at has ⊢
          rw [List.any_append,has,Bool.true_or]) (fun _ has => has) (fun _ mem => mem) (fun a mem => ⟨a,mem,rfl⟩)
          (fun _ mem => mem) (fun _ mem => mem)
      obtain ⟨opened,home⟩ := openHomeOk more fresh.newTenant fresh.memberless homeless
      have links : opened.authLinks = db.authLinks := by
        obtain ⟨_,_,_,rfl⟩ := openHomeExact home
        rfl
      have free : ∀ l ∈ opened.authLinks, linkClash ⟨authUser,account⟩ l = false := by
        rw [links]
        intro l mem
        simp only [linkClash,Bool.or_eq_false_iff,beq_eq_false_iff_ne]
        refine ⟨(unlinked l mem).symm,fun same => ?_⟩
        have known := refs.linkAccount l mem
        rw [← same,fresh.newAccount] at known
        contradiction
      simp only [bindOk,ensureOk,orFailOk]
      exact ⟨_,_,(),sized,(),shape,(),user',(),proposedOpaque shape,_,insertRowExact.mpr ⟨accounts,rfl⟩,opened,home,
        _,insertRowExact.mpr ⟨free,rfl⟩,rfl⟩

structure AccountAuthLink where
  accountId : AccountId
  homeTenantId : TenantId
  accountStatus : AccountStatus
  deriving DecidableEq, Repr

def provision (authUser : String) (proposedAccount : AccountId) (proposedTenant : TenantId) (db : Db) :
    Except Fault (Db × AccountAuthLink) := do
  ensure (decide (1 ≤ utf16Length authUser) && decide (utf16Length authUser ≤ 255)) (.thrown "auth_user_id_invalid")
  let (next,accountId,homeTenantId) ← ensureAccountAuthLink authUser proposedAccount proposedTenant db
  let account ← orFail (.thrown "account_auth_bootstrap_failed") (next.accounts.find? fun a => a.id == accountId)
  .ok (next,⟨accountId,homeTenantId,account.status⟩)

theorem provisionOk (refs : References db)
    (sized : (decide (1 ≤ utf16Length authUser) && decide (utf16Length authUser ≤ 255)) = true) :
    (∃ next out, provision authUser account tenant db = .ok (next,out)) ↔
      ∃ next out, ensureAccountAuthLink authUser account tenant db = .ok (next,out) := by
  constructor
  · rintro ⟨next,out,ok⟩
    simp only [provision,bindOk,ensureOk] at ok
    obtain ⟨_,_,done,ok,_⟩ := ok
    exact ⟨done.1,done.2,ok⟩
  · rintro ⟨next,⟨linked,home⟩,ok⟩
    have known := (ensureAccountAuthLinkReferences refs ok).linkAccount _ (returnsLinked ok)
    obtain ⟨row,found⟩ := Option.isSome_iff_exists.mp (List.find?_isSome.mpr (List.any_eq_true.mp known))
    simp only [provision,bindOk,ensureOk,orFailOk]
    exact ⟨_,_,(),sized,_,ok,row,found,rfl⟩

theorem openedOwned {node : Node} {e : Event} (wf : WellFormed db) {h : HomeTenant}
    (mem : h ∈ (step node db e).homeTenants) (new : h ∉ db.homeTenants) : ownedHome h (step node db e) := by
  have moved := @bootstrapStep node e db wf
  generalize step node db e = after at moved mem ⊢
  cases moved with
  | untouched _ kept | signedIn _ _ _ _ kept =>
    rw [kept.homeTenants] at mem
    contradiction
  | @linked _ account tenant _ _ _ _ _ memberships homes _ | @opened account tenant _ _ _ memberships homes _ =>
    rw [homes] at mem
    rcases List.mem_append.mp mem with old | fresh
    · contradiction
    · rw [List.mem_singleton.mp fresh]
      exact ⟨⟨tenant,account,.owner,.active,none⟩,by rw [memberships]; simp,rfl,rfl,rfl,rfl⟩
  | seeded _ _ _ homes _ | closed _ _ homes _ =>
    rw [homes] at mem
    contradiction
  | purgedAccount _ _ homes _ | purgedTenant _ _ homes _ =>
    rw [homes] at mem
    exact absurd (memDeleteWhere.mp mem).1 new

end Calls

structure Bootstraps (node : Node) (es : List Event) (authUser : String) (account : AccountId) (tenant : TenantId) :
    Prop where
  userLink : ∀ l ∈ (run (step node) Db.empty es).authLinks, ∀ o ∈ (run (step node) Db.empty es).authLinks,
    l.authUserId = o.authUserId → l = o
  accountLink : ∀ l ∈ (run (step node) Db.empty es).authLinks, ∀ o ∈ (run (step node) Db.empty es).authLinks,
    l.accountId = o.accountId → l = o
  accountHome : ∀ h ∈ (run (step node) Db.empty es).homeTenants, ∀ o ∈ (run (step node) Db.empty es).homeTenants,
    h.accountId = o.accountId → h = o
  opened : ∀ early e late, es = early ++ e :: late → ∀ h ∈ (run (step node) Db.empty (early ++ [e])).homeTenants,
    h ∉ (run (step node) Db.empty early).homeTenants → ownedHome h (run (step node) Db.empty (early ++ [e]))
  homeOwner : ∀ h ∈ (run (step node) Db.empty es).homeTenants, (∀ e ∈ es, reseeds h e = false) →
    ownedHome h (run (step node) Db.empty es) ∨ accountClosed h.accountId (run (step node) Db.empty es)
  succeeds : ∃ next out, ensureAccountAuthLink authUser account tenant (run (step node) Db.empty es) = .ok (next,out)
  sameAccount : ∀ early late now firstAccount firstTenant between linked home,
    es = early ++ ⟨now,.ensureAccountAuthLink authUser firstAccount firstTenant⟩ :: late →
    ensureAccountAuthLink authUser firstAccount firstTenant (run (step node) Db.empty early) =
      .ok (between,linked,home) →
    AccountStays node linked between late → ∀ next out,
    ensureAccountAuthLink authUser account tenant (run (step node) Db.empty es) = .ok (next,out) → out.1 = linked

/- All of it holds after every run, except that a call raises for a user whose linked
account lost its home. -/
theorem bootstraps (node : Node) (es : List Event) (authUser : String) (account : AccountId) (tenant : TenantId)
    (user : ∃ u ∈ (run (step node) Db.empty es).authUsers, u.id = authUser)
    (shape : proposedAccountShape account = true) (fresh : Fresh account tenant (run (step node) Db.empty es)) :
    Bootstraps node es authUser account tenant ↔
      authUserIdShape authUser = true ∧ linkedHasHome authUser (run (step node) Db.empty es) = true := by
  have one := reachableOneEach node es
  have refs := reachableReferences node es
  rw [← callOk one refs user shape fresh]
  refine ⟨Bootstraps.succeeds,fun succeeds => ?_⟩
  refine ⟨?_,?_,?_,?_,?_,succeeds,?_⟩
  · intro l left o right same
    exact indexedEq one.links linkClashSymm left right (by simp [linkClash,same])
  · intro l left o right same
    exact indexedEq one.links linkClashSymm left right (by simp [linkClash,same])
  · intro h left o right same
    exact indexedEq one.homes homeClashSymm left right (by simp [homeClash,same])
  · rintro early e late rfl h mem new
    rw [runAppend] at mem ⊢
    exact openedOwned (reachableWellFormed node early) mem new
  · intro h mem unseeded
    exact reachableHomeOwned es unseeded mem
  · rintro early late now firstAccount firstTenant between linked home rfl first stays next ⟨returned,home_⟩ last
    -- the link that the first call left is still the one of the user
    have reached : run (step node) Db.empty
        (early ++ ⟨now,.ensureAccountAuthLink authUser firstAccount firstTenant⟩ :: late) =
        run (step node) between late := by
      rw [runAppend]
      show run (step node) (step node _ ⟨now,.ensureAccountAuthLink authUser firstAccount firstTenant⟩) late = _
      simp only [step,exec,first]
      rfl
    have afterFirst : WellFormed between := by
      have wf := @stepWellFormed node ⟨now,.ensureAccountAuthLink authUser firstAccount firstTenant⟩ _
        (reachableWellFormed node early)
      simpa only [step,exec,first,answered,Except.map,settle] using wf
    have kept := runLinkKept afterFirst (returnsLinked first) stays
    rw [← reached] at kept
    have known := returnsLinked last
    obtain ⟨_,⟨_,rfl⟩ | ⟨opened,_,out,_,home,free,rfl⟩⟩ := ensureAccountAuthLinkCases last
    · have same := indexedEq one.links linkClashSymm known kept (by simp [linkClash])
      exact congrArg AuthLink.accountId same
    · exact absurd rfl (free _ kept).1

def homeJob : JobId := "deletion_home_tenant_001"

def homelessHistory : List Event := pairedHistory ++
  [⟨seconds 10,.beginDeletionJob homeJob .tenant sampleTenant (some sampleTenant) sampleAccount⟩,
    ⟨seconds 20,.advanceDeletionJob homeJob (seconds 20)⟩,⟨minutes 7,.advanceDeletionJob homeJob (minutes 7)⟩]

theorem homelessRaises :
    let db := run (step (sampleNode [] [])) Db.empty homelessHistory
    (∃ u ∈ db.authUsers, u.id = "user_0001") ∧ Fresh memberAccount "22222222-2222-4222-8222-222222222222" db ∧
    db.hasAccount sampleAccount = true ∧
    ensureAccountAuthLink "user_0001" memberAccount "22222222-2222-4222-8222-222222222222" db =
      .error .uniqueViolation := by
  refine ⟨by decide,⟨by decide,by decide,by decide⟩,by decide,by decide⟩

theorem pairedBootstraps :
    Bootstraps (sampleNode [] []) pairedHistory "user_0001" memberAccount "22222222-2222-4222-8222-222222222222" :=
  (bootstraps (sampleNode [] []) pairedHistory "user_0001" memberAccount "22222222-2222-4222-8222-222222222222"
    (by decide) (by decide) ⟨by decide,by decide,by decide⟩).mpr (by decide)

end Wepuu.AccountLinks
