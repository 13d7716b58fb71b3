import Wepuu.Frames

/-! The foreign keys into accounts and tenants that a purge meets: they hold in every
reachable state. Those into sites and from grants are part of WellFormed. -/
namespace Wepuu.AccountReferences
open Deletion Footprint Frames NodeApi Pairing Relational Runs Schema Tenancy Wepuu.System

structure References (db : Db) : Prop where
  initiator : ∀ a ∈ db.pairingAttempts, db.hasAccount a.initiatorAccountId = true
  homeAccount : ∀ h ∈ db.homeTenants, db.hasAccount h.accountId = true
  homeTenant : ∀ h ∈ db.homeTenants, db.hasTenant h.tenantId = true
  linkAccount : ∀ l ∈ db.authLinks, db.hasAccount l.accountId = true
  linkUser : ∀ l ∈ db.authLinks, ∃ u ∈ db.authUsers, u.id = l.authUserId

theorem referencesEmpty : References Db.empty where
  initiator := by simp [Db.empty]
  homeAccount := by simp [Db.empty]
  homeTenant := by simp [Db.empty]
  linkAccount := by simp [Db.empty]
  linkUser := by simp [Db.empty]

theorem hasAccountIff {db : Db} {account : AccountId} :
    db.hasAccount account = true ↔ ∃ a ∈ db.accounts, a.id = account := by
  simp only [Db.hasAccount,List.any_eq_true,beq_iff_eq]

section Statements
variable {db next : Db}

theorem referencesKept (refs : References db)
    (accounts : ∀ id, db.hasAccount id = true → next.hasAccount id = true)
    (tenants : ∀ id, db.hasTenant id = true → next.hasTenant id = true)
    (users : ∀ u ∈ db.authUsers, u ∈ next.authUsers)
    (attempts : ∀ a ∈ next.pairingAttempts, ∃ o ∈ db.pairingAttempts, o.initiatorAccountId = a.initiatorAccountId)
    (homes : ∀ h ∈ next.homeTenants, h ∈ db.homeTenants)
    (links : ∀ l ∈ next.authLinks, l ∈ db.authLinks) : References next where
  initiator a mem := by
    obtain ⟨o,ho,same⟩ := attempts a mem
    rw [← same]
    exact accounts _ (refs.initiator o ho)
  homeAccount h mem := accounts _ (refs.homeAccount h (homes h mem))
  homeTenant h mem := tenants _ (refs.homeTenant h (homes h mem))
  linkAccount l mem := accounts _ (refs.linkAccount l (links l mem))
  linkUser l mem := by
    obtain ⟨u,hu,same⟩ := refs.linkUser l (links l mem)
    exact ⟨u,users u hu,same⟩

theorem openHomeExact {account tenant} (ok : openHome account tenant db = .ok next) :
    (∀ t ∈ db.tenants, t.id ≠ tenant) ∧
    (∀ m ∈ db.memberships, ¬(m.tenantId = tenant ∧ m.accountId = account)) ∧
    (∀ h ∈ db.homeTenants, h.accountId ≠ account ∧ h.tenantId ≠ tenant) ∧
    next = { db with
      tenants := db.tenants ++ [⟨tenant,.active,none⟩]
      memberships := db.memberships ++ [⟨tenant,account,.owner,.active,none⟩]
      homeTenants := db.homeTenants ++ [⟨account,tenant⟩] } := by
  simp only [openHome,bindOk,orFailOk] at ok
  obtain ⟨tenants,ht,memberships,hm,homes,hh,last⟩ := ok
  cases last
  obtain ⟨freeT,rfl⟩ := insertRowExact.mp ht
  obtain ⟨freeM,rfl⟩ := insertRowExact.mp hm
  obtain ⟨freeH,rfl⟩ := insertRowExact.mp hh
  refine ⟨?_,?_,?_,rfl⟩
  · intro t mem same
    simpa [tenantClash,same] using freeT t mem
  · rintro m mem ⟨t,a⟩
    simpa [membershipClash,t,a] using freeM m mem
  · intro h mem
    have free := freeH h mem
    simp only [homeClash,Bool.or_eq_false_iff,beq_eq_false_iff_ne] at free
    exact ⟨free.1.symm,free.2.symm⟩

theorem openHomeReferences {account tenant} (refs : References db) (known : db.hasAccount account = true)
    (ok : openHome account tenant db = .ok next) : References next := by
  obtain ⟨_,_,_,rfl⟩ := openHomeExact ok
  have grown : ∀ id, db.hasTenant id = true →
      (db.tenants ++ [(⟨tenant,.active,none⟩ : Tenant)]).any (fun t => t.id == id) = true := by
    intro id has
    unfold Db.hasTenant at has
    rw [List.any_append,has,Bool.true_or]
  refine ⟨refs.initiator,?_,?_,refs.linkAccount,refs.linkUser⟩
  · intro h mem
    rcases List.mem_append.mp mem with old | new
    · exact refs.homeAccount h old
    · rw [List.mem_singleton.mp new]
      exact known
  · intro h mem
    rcases List.mem_append.mp mem with old | new
    · exact grown _ (refs.homeTenant h old)
    · rw [List.mem_singleton.mp new]
      simp [Db.hasTenant]

theorem ensureAccountAuthLinkCases {authUser account tenant out}
    (ok : ensureAccountAuthLink authUser account tenant db = .ok (next,out)) :
    (∃ u ∈ db.authUsers, u.id = authUser) ∧
    ((linkedHome authUser db = some out ∧ next = db) ∨
      ∃ opened, linkedHome authUser db = none ∧ out = (account,tenant) ∧
        (∀ a ∈ db.accounts, a.id ≠ account) ∧
        openHome account tenant { db with accounts := db.accounts ++ [⟨account,.active,none,none⟩] } = .ok opened ∧
        (∀ l ∈ db.authLinks, l.authUserId ≠ authUser ∧ l.accountId ≠ account) ∧
        next = { opened with authLinks := db.authLinks ++ [⟨authUser,account⟩] }) := by
  simp only [ensureAccountAuthLink,bindOk,ensureOk] at ok
  obtain ⟨_,_,_,_,_,user,ok⟩ := ok
  have user' : ∃ u ∈ db.authUsers, u.id = authUser := by simpa using user
  refine ⟨user',?_⟩
  split at ok
  · rename_i home found
    cases ok
    exact .inl ⟨found,rfl⟩
  · rename_i absent
    simp only [bindOk,ensureOk,orFailOk] at ok
    obtain ⟨_,_,accounts,ha,opened,ho,links,hl,last⟩ := ok
    cases last
    obtain ⟨freeA,rfl⟩ := insertRowExact.mp ha
    obtain ⟨freeL,rfl⟩ := insertRowExact.mp hl
    obtain ⟨_,_,_,shape⟩ := openHomeExact ho
    have same : opened.authLinks = db.authLinks := by rw [shape]
    refine .inr ⟨opened,absent,rfl,?_,ho,?_,by rw [same]⟩
    · intro a mem named
      simpa [accountClash,named] using freeA a mem
    · intro l mem
      have free := freeL l (by rw [same]; exact mem)
      simp only [linkClash,Bool.or_eq_false_iff,beq_eq_false_iff_ne] at free
      exact ⟨free.1.symm,free.2.symm⟩

theorem ensureAccountAuthLinkReferences {authUser account tenant out} (refs : References db)
    (ok : ensureAccountAuthLink authUser account tenant db = .ok (next,out)) : References next := by
  obtain ⟨⟨u,hu,named⟩,⟨_,rfl⟩ | ⟨opened,_,_,_,ho,_,rfl⟩⟩ := ensureAccountAuthLinkCases ok
  · exact refs
  · have more : ∀ id, db.hasAccount id = true →
        Db.hasAccount { db with accounts := db.accounts ++ [⟨account,.active,none,none⟩] } id = true := by
      intro id has
      unfold Db.hasAccount at has ⊢
      rw [List.any_append,has,Bool.true_or]
    have own : Db.hasAccount { db with accounts := db.accounts ++ [⟨account,.active,none,none⟩] } account = true := by
      simp [Db.hasAccount]
    have grown : References { db with accounts := db.accounts ++ [⟨account,.active,none,none⟩] } :=
      referencesKept refs more (fun _ has => has) (fun _ mem => mem) (fun a mem => ⟨a,mem,rfl⟩)
        (fun _ mem => mem) (fun _ mem => mem)
    have home := openHomeReferences grown own ho
    obtain ⟨_,_,_,rfl⟩ := openHomeExact ho
    refine ⟨home.initiator,home.homeAccount,home.homeTenant,?_,?_⟩
    · intro l mem
      rcases List.mem_append.mp mem with old | new
      · exact home.linkAccount l old
      · rw [List.mem_singleton.mp new]
        exact own
    · intro l mem
      rcases List.mem_append.mp mem with old | new
      · exact refs.linkUser l old
      · rw [List.mem_singleton.mp new]
        exact ⟨u,hu,named⟩

theorem purgeAccountReferences {job} (refs : References db) (ok : purgeAccount job db = .ok next) :
    References next := by
  simp only [purgeAccount,bindOk,ensureOk] at ok
  obtain ⟨_,unstarted,last⟩ := ok
  cases last
  have kept : ∀ id, id ≠ job.scopeId → db.hasAccount id = true →
      (deleteWhere (fun a : Account => a.id == job.scopeId) db.accounts).any (fun a => a.id == id) = true := by
    intro id other has
    obtain ⟨a,mem,named⟩ := hasAccountIff.mp has
    exact List.any_eq_true.mpr ⟨a,memDeleteWhere.mpr ⟨mem,by simpa [named] using other⟩,by simpa using named⟩
  refine ⟨?_,?_,?_,?_,?_⟩
  · intro a mem
    refine kept _ ?_ (refs.initiator a mem)
    simpa using List.all_eq_true.mp unstarted a mem
  · intro h mem
    obtain ⟨old,other⟩ := memDeleteWhere.mp mem
    exact kept _ (by simpa using other) (refs.homeAccount h old)
  · intro h mem
    exact refs.homeTenant h (memDeleteWhere.mp mem).1
  · intro l mem
    obtain ⟨old,other⟩ := memDeleteWhere.mp mem
    exact kept _ (by simpa using other) (refs.linkAccount l old)
  · intro l mem
    exact refs.linkUser l (memDeleteWhere.mp mem).1

theorem purgeTenantScopeReferences {job} (refs : References db) : References (purgeTenantScope job db) where
  initiator a mem := refs.initiator a (memDeleteWhere.mp mem).1
  homeAccount h mem := refs.homeAccount h (memDeleteWhere.mp mem).1
  homeTenant h mem := by
    obtain ⟨old,other⟩ := memDeleteWhere.mp mem
    obtain ⟨t,ht,named⟩ := List.any_eq_true.mp (refs.homeTenant h old)
    rw [beq_iff_eq] at named
    refine List.any_eq_true.mpr ⟨t,memDeleteWhere.mpr ⟨ht,?_⟩,by simpa using named⟩
    rw [named]
    exact other
  linkAccount l mem := refs.linkAccount l mem
  linkUser l mem := refs.linkUser l mem

theorem revokeAccountReferences {job observedAt now out} (refs : References db)
    (ok : revokeAccount job observedAt now db = .ok (next,out)) : References next := by
  obtain ⟨sessions,events⟩ := out
  have only := revokeAccountOnly ok
  simp only [revokeAccount,bindOk] at ok
  obtain ⟨⟨revoked,count⟩,hr,last⟩ := ok
  cases last
  have accounts : revoked.accounts =
      updateWhere (fun a => a.id == job.scopeId) (fun a => { a with status := .deleted }) db.accounts :=
    revokeSubjectGrantsOnly hr .accounts (by decide)
  have attempts : revoked.pairingAttempts = db.pairingAttempts := only .pairingAttempts (by decide)
  have tenants : revoked.tenants = db.tenants := only .tenants (by decide)
  have users : revoked.authUsers = db.authUsers := only .authUsers (by decide)
  have homes : revoked.homeTenants = db.homeTenants := only .homeTenants (by decide)
  have links : revoked.authLinks = db.authLinks := only .authLinks (by decide)
  refine referencesKept refs ?_ ?_ ?_ ?_ ?_ ?_
  · intro id has
    unfold Db.hasAccount
    rw [accounts]
    have kept : (updateWhere (fun a : Account => a.id == job.scopeId) (fun a => { a with status := .deleted })
        db.accounts).any (fun a => a.id == id) = db.hasAccount id :=
      columnAny Account.id (· == id) fun _ => rfl
    rw [kept]
    exact has
  · intro id has
    unfold Db.hasTenant
    rw [tenants]
    exact has
  · rw [users]
    exact fun _ mem => mem
  · rw [attempts]
    exact fun a mem => ⟨a,mem,rfl⟩
  · rw [homes]
    exact fun _ mem => mem
  · rw [links]
    exact fun _ mem => mem

theorem revokeTenantScopeReferences {job observedAt now out} (refs : References db)
    (ok : revokeTenantScope job observedAt now db = .ok (next,out)) : References next := by
  obtain ⟨sessions,events⟩ := out
  have only := revokeTenantScopeOnly ok
  simp only [revokeTenantScope,bindOk] at ok
  obtain ⟨⟨revoked,count⟩,hr,last⟩ := ok
  have same : revoked.tenants = db.tenants := revokeSitesOnly hr .tenants (by decide)
  cases last
  have attempts : revoked.pairingAttempts = db.pairingAttempts := only .pairingAttempts (by decide)
  have accounts : revoked.accounts = db.accounts := only .accounts (by decide)
  have users : revoked.authUsers = db.authUsers := only .authUsers (by decide)
  have homes : revoked.homeTenants = db.homeTenants := only .homeTenants (by decide)
  have links : revoked.authLinks = db.authLinks := only .authLinks (by decide)
  refine referencesKept refs ?_ ?_ ?_ ?_ ?_ ?_
  · intro id has
    unfold Db.hasAccount
    rw [accounts]
    exact has
  · intro id has
    unfold Db.hasTenant
    rw [same]
    have kept : (updateWhere (fun t : Tenant => job.scopeKind == .tenant && some t.id == job.tenantId)
        (fun t => { t with status := .deleted, deletedAt := some (t.deletedAt.getD observedAt) })
        db.tenants).any (fun t => t.id == id) = db.hasTenant id :=
      columnAny Tenant.id (· == id) fun _ => rfl
    rw [kept]
    exact has
  · rw [users]
    exact fun _ mem => mem
  · rw [attempts]
    exact fun a mem => ⟨a,mem,rfl⟩
  · rw [homes]
    exact fun _ mem => mem
  · rw [links]
    exact fun _ mem => mem

theorem setJobReferences {jobId change} (refs : References db) : References (setJob jobId change db) :=
  ⟨refs.initiator,refs.homeAccount,refs.homeTenant,refs.linkAccount,refs.linkUser⟩

theorem advanceDeletionJobReferences {jobId observedAt now} (refs : References db) :
    References (advanceDeletionJob jobId observedAt now db).1 := by
  unfold advanceDeletionJob
  split
  · rename_i done ok
    obtain ⟨after,value⟩ := done
    simp only [advanceBody,bindOk,orFailOk] at ok
    obtain ⟨job,_,ok⟩ := ok
    split at ok
    · cases ok
      exact refs
    · cases ok
      exact refs
    · simp only [firstPhase,bindOk] at ok
      obtain ⟨⟨revoked,out⟩,hr,last⟩ := ok
      cases last
      refine setJobReferences ?_
      unfold revokeScope at hr
      split at hr
      · exact revokeAccountReferences refs hr
      · exact revokeTenantScopeReferences refs hr
    · split at ok
      · cases ok
        exact refs
      · simp only [purgePhase,bindOk] at ok
        obtain ⟨purged,hp,last⟩ := ok
        cases last
        refine setJobReferences ?_
        unfold purgeScope at hp
        split at hp
        · exact purgeAccountReferences refs hp
        · cases hp
          exact purgeTenantScopeReferences refs
  · exact setJobReferences refs

theorem grownAccounts {row : Account} {rows : List Account} (made : insertRow accountClash row db.accounts = some rows ∨
    rows = db.accounts) (id : AccountId) (has : db.hasAccount id = true) : rows.any (fun a => a.id == id) = true := by
  rcases made with made | rfl
  · obtain ⟨_,rfl⟩ := insertRowExact.mp made
    unfold Db.hasAccount at has
    rw [List.any_append,has,Bool.true_or]
  · exact has

theorem createSessionReferences {input out} (refs : References db)
    (ok : createSession input db = .ok (next,out)) : References next := by
  simp only [createSession,bindOk,ensureOk] at ok
  obtain ⟨_,_,ok⟩ := ok
  let candidate : Account :=
    ⟨input.candidateAccountId,.active,some input.identityIssuer,some input.identitySubjectHash⟩
  have kept : ∀ id, db.hasAccount id = true →
      ((insertRow accountClash candidate db.accounts).getD db.accounts).any (fun a => a.id == id) = true := by
    intro id has
    cases made : insertRow accountClash candidate db.accounts with
    | none => exact has
    | some rows => exact grownAccounts (.inl made) id has
  split at ok
  · cases ok
    exact referencesKept refs kept (fun _ has => has) (fun _ mem => mem) (fun a mem => ⟨a,mem,rfl⟩)
      (fun _ mem => mem) (fun _ mem => mem)
  · simp only [bindOk,ensureOk,orFailOk] at ok
    obtain ⟨_,_,_,_,last⟩ := ok
    cases last
    exact referencesKept refs kept (fun _ has => has) (fun _ mem => mem) (fun a mem => ⟨a,mem,rfl⟩)
      (fun _ mem => mem) (fun _ mem => mem)

theorem attemptsUpdated {p : PairingAttempt → Bool} {f : PairingAttempt → PairingAttempt}
    (keeps : ∀ a, (f a).initiatorAccountId = a.initiatorAccountId) {rows : List PairingAttempt} :
    ∀ a ∈ updateWhere p f rows, ∃ o ∈ rows, o.initiatorAccountId = a.initiatorAccountId := by
  intro a mem
  obtain ⟨o,ho,rfl⟩ := memUpdateWhere.mp mem
  refine ⟨o,ho,?_⟩
  split
  · exact (keeps o).symm
  · rfl

end Statements

section Operations
variable {node : Node} {e : Event} {db : Db}

theorem stepReferences (refs : References db) : References (step node db e) := by
  have same : ∀ {next : Db}, Only (touches e.op) db next → .accounts ∉ touches e.op → .tenants ∉ touches e.op →
      .pairingAttempts ∉ touches e.op → .homeTenants ∉ touches e.op → .authLinks ∉ touches e.op →
      .authUsers ∉ touches e.op → References next := by
    intro next only a t p h l u
    have accounts : next.accounts = db.accounts := only .accounts a
    have tenants : next.tenants = db.tenants := only .tenants t
    have attempts : next.pairingAttempts = db.pairingAttempts := only .pairingAttempts p
    have homes : next.homeTenants = db.homeTenants := only .homeTenants h
    have links : next.authLinks = db.authLinks := only .authLinks l
    have users : next.authUsers = db.authUsers := only .authUsers u
    refine ⟨?_,?_,?_,?_,?_⟩
    · rw [attempts,show next.hasAccount = db.hasAccount by unfold Db.hasAccount; rw [accounts]]
      exact refs.initiator
    · rw [homes,show next.hasAccount = db.hasAccount by unfold Db.hasAccount; rw [accounts]]
      exact refs.homeAccount
    · rw [homes,show next.hasTenant = db.hasTenant by unfold Db.hasTenant; rw [tenants]]
      exact refs.homeTenant
    · rw [links,show next.hasAccount = db.hasAccount by unfold Db.hasAccount; rw [accounts]]
      exact refs.linkAccount
    · rw [links,users]
      exact refs.linkUser
  rcases settleCases db (exec node e db) with rolled | ⟨next,reply,ok,done⟩
  · rw [step,rolled]
    exact refs
  rw [step,done]
  have only := execOnly ok
  obtain ⟨now,op⟩ := e
  cases op with
  | signUp authUser =>
    simp only [exec] at ok
    have made := silentOk ok
    simp only [signUp,bindOk,orFailOk] at made
    obtain ⟨users,hu,last⟩ := made
    cases last
    obtain ⟨_,rfl⟩ := insertRowExact.mp hu
    exact referencesKept refs (fun _ has => has) (fun _ has => has) (fun u mem => List.mem_append_left _ mem)
      (fun a mem => ⟨a,mem,rfl⟩) (fun _ mem => mem) (fun _ mem => mem)
  | ensureAccountAuthLink authUser account tenant =>
    simp only [exec] at ok
    obtain ⟨_,made,_⟩ := answeredOk ok
    exact ensureAccountAuthLinkReferences refs made
  | ensurePersonalWorkspace account tenant =>
    simp only [exec] at ok
    obtain ⟨_,made,_⟩ := answeredOk ok
    simp only [ensurePersonalWorkspace,bindOk,ensureOk] at made
    obtain ⟨_,_,_,active,⟨opened,home⟩,ho,_,_,last⟩ := made
    cases last
    have known : db.hasAccount account = true := by
      obtain ⟨a,mem,hit⟩ := List.any_eq_true.mp active
      simp only [Bool.and_eq_true] at hit
      exact List.any_eq_true.mpr ⟨a,mem,hit.1⟩
    unfold homeOrOpen at ho
    split at ho
    · cases ho
      exact refs
    · obtain ⟨_,made,last⟩ := bindOk.mp ho
      cases last
      exact openHomeReferences refs known made
  | createSession input =>
    simp only [exec] at ok
    obtain ⟨_,made,_⟩ := answeredOk ok
    exact createSessionReferences refs made
  | createAttempt context record =>
    simp only [exec] at ok
    have made := silentOk ok
    simp only [createAttempt,bindOk,ensureOk,orFailOk,Bool.and_eq_true] at made
    obtain ⟨_,_,_,_,attempts,ha,_,known,last⟩ := made
    cases last
    obtain ⟨_,rfl⟩ := insertRowExact.mp ha
    refine ⟨?_,refs.homeAccount,refs.homeTenant,refs.linkAccount,refs.linkUser⟩
    intro a mem
    rcases List.mem_append.mp mem with old | new
    · exact refs.initiator a old
    · rw [List.mem_singleton.mp new]
      exact known.2
  | markVerifying context tenant attempt =>
    cases ok
    refine referencesKept refs (fun _ has => has) (fun _ has => has) (fun _ mem => mem) ?_
      (fun _ mem => mem) (fun _ mem => mem)
    refine attemptsUpdated ?_
    exact fun _ => rfl
  | failAttempt context tenant attempt reason =>
    cases ok
    refine referencesKept refs (fun _ has => has) (fun _ has => has) (fun _ mem => mem) ?_
      (fun _ mem => mem) (fun _ mem => mem)
    refine attemptsUpdated ?_
    exact fun _ => rfl
  | completePairing context record proof site key =>
    have made := silentOk ok
    simp only [complete] at made
    split at made
    · split at made <;> cases made
      exact refs
    · simp only [bindOk,ensureOk,orFailOk] at made
      obtain ⟨_,_,_,_,_,_,_,_,_,_,_,_,recorded⟩ := made
      obtain ⟨_,_,_,_,rfl⟩ := Grants.insertIdempotencyExact recorded
      refine referencesKept refs (fun _ has => has) (fun _ has => has) (fun _ mem => mem) ?_
        (fun _ mem => mem) (fun _ mem => mem)
      refine attemptsUpdated ?_
      exact fun _ => rfl
  | advanceDeletionJob jobId observedAt =>
    cases ok
    exact advanceDeletionJobReferences refs
  | _ =>
    exact same only (by simp [touches]) (by simp [touches]) (by simp [touches]) (by simp [touches])
      (by simp [touches]) (by simp [touches])

theorem reachableReferences (node : Node) (es : List Event) : References (run (step node) Db.empty es) :=
  invariantAlways (fun _ _ refs => stepReferences refs) referencesEmpty es

end Operations

end Wepuu.AccountReferences
