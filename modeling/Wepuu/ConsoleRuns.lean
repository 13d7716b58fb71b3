import Wepuu.ConsoleAuth
import Wepuu.LoginChains

/-! Runs of the console store: logins handed off and exchanged, and logouts, while the auth
sessions and the accounts change around them. -/
namespace Wepuu.ConsoleRuns
open ConsoleAuth NodeApi Relational Runs Schema

section Histories

inductive Op where
  | createLogin (returnPath requestId browserSecret : String)
  | authorizeLogin (input : AuthorizeInput) (code : String)
  | exchangeLogin (input : ExchangeInput) (token : String)
  | beginLogout (sessionHash : Digest) (returnPath requestId : String) (random : Digest)
  | validateLogout (requestId authSessionId : String) (consume : Bool)
  | revokeSession (sessionHash : Digest)
  deriving DecidableEq, Repr

inductive Event where
  | call (now : Time) (op : Op)
  | around (db : Db) (authSessions : List AuthSession)
  deriving DecidableEq, Repr

structure Login where
  requestId : String
  browserSecret : String
  returnPath : String
  deriving DecidableEq, Repr

structure Handoff where
  requestId : String
  code : String
  authSessionId : String
  accountId : AccountId
  deriving DecidableEq, Repr

structure Exchange where
  input : ExchangeInput
  now : Time
  session : ConsoleSession
  authorityExpiresAt : Option Time
  deriving DecidableEq, Repr

structure Logout where
  requestId : String
  session : ConsoleSession
  deriving DecidableEq, Repr

structure Consumption where
  requestId : String
  authSessionId : String
  deriving DecidableEq, Repr

/- The store and the logs, which no call reads. -/
structure Ledger where
  store : Store
  logins : List Login
  handoffs : List Handoff
  exchanges : List Exchange
  logouts : List Logout
  consumptions : List Consumption
  revocations : List ConsoleSession
  deriving DecidableEq, Repr

def Ledger.empty : Ledger := ⟨⟨Db.empty,[],[],[]⟩,[],[],[],[],[],[]⟩

section Steps
variable (node : Node)

def openedSessions (store next : Store) : List ConsoleSession := next.sessions.filter fun c => !store.sessions.contains c

def authorityExpiry (store : Store) (c : ConsoleSession) : Option Time :=
  (store.authSessions.find? (·.id == c.authSessionId)).map (·.expiresAt)

def sessionsOf (sessionHash : Digest) (store : Store) : List ConsoleSession :=
  store.sessions.filter (·.sessionHash == sessionHash)

def call (now : Time) (s : Ledger) : Op → Ledger
  | .createLogin returnPath requestId browserSecret =>
    match createLogin node returnPath requestId browserSecret now s.store with
    | .ok (next,login) => { s with store := next, logins := s.logins ++ [⟨login.requestId,login.browserSecret,login.returnPath⟩] }
    | .error _ => s
  | .authorizeLogin input code => match authorizeLogin node input code now s.store with
    | .ok (next,handoff) => { s with
        store := next
        handoffs := s.handoffs ++ [⟨handoff.requestId,handoff.code,input.authSessionId,input.accountId⟩] }
    | .error _ => s
  | .exchangeLogin input token => match exchangeLogin node input token now s.store with
    | .ok (next,_) => { s with
        store := next
        exchanges := s.exchanges ++ (openedSessions s.store next).map fun c => ⟨input,now,c,authorityExpiry s.store c⟩ }
    | .error _ => s
  | .beginLogout sessionHash returnPath requestId random =>
    match beginLogout sessionHash returnPath requestId random now s.store with
    | .ok next => { s with
        store := next
        logouts := s.logouts ++ (s.store.sessions.find? (·.sessionHash == sessionHash)).toList.map fun c => ⟨requestId,c⟩
        revocations := s.revocations ++ sessionsOf sessionHash s.store }
    | .error _ => s
  | .validateLogout requestId authSessionId consume => match validateLogout requestId authSessionId consume now s.store with
    | .ok (next,_) => { s with
        store := next
        consumptions := s.consumptions ++ if consume then [⟨requestId,authSessionId⟩] else [] }
    | .error _ => s
  | .revokeSession sessionHash => match revokeSession sessionHash now s.store with
    | .ok next => { s with store := next, revocations := s.revocations ++ sessionsOf sessionHash s.store }
    | .error _ => s

def step (s : Ledger) : Event → Ledger
  | .call now op => call node now s op
  | .around db authSessions => { s with store := surroundings db authSessions s.store }

def drawnRequest : Op → Option String
  | .createLogin _ requestId _ => some requestId
  | .beginLogout _ _ requestId _ => some requestId
  | _ => none

def requestIds (s : Ledger) : List String := s.logins.map (·.requestId) ++ s.logouts.map (·.requestId)

def drawnToken : Op → Option String
  | .exchangeLogin _ token => some token
  | _ => none

def FreshToken (s : Ledger) (token : String) : Prop := node.sha256 token ∉ s.exchanges.map (·.session.sessionHash)

instance (s : Ledger) (token : String) : Decidable (FreshToken node s token) :=
  inferInstanceAs (Decidable (node.sha256 token ∉ s.exchanges.map (·.session.sessionHash)))

/- What an operation draws at random does not repeat: a request id, or the hash of a session token. -/
def FreshOp (s : Ledger) (op : Op) : Prop :=
  (∀ requestId ∈ drawnRequest op, requestId ∉ requestIds s) ∧ ∀ token ∈ drawnToken op, FreshToken node s token

instance (s : Ledger) (op : Op) : Decidable (FreshOp node s op) :=
  inferInstanceAs (Decidable ((∀ requestId ∈ drawnRequest op, requestId ∉ requestIds s) ∧
    ∀ token ∈ drawnToken op, FreshToken node s token))

def Fresh (s : Ledger) : Event → Prop
  | .call _ op => FreshOp node s op
  | .around _ _ => True

instance freshDecidable (s : Ledger) : (e : Event) → Decidable (Fresh node s e)
  | .call _ op => inferInstanceAs (Decidable (FreshOp node s op))
  | .around _ _ => inferInstanceAs (Decidable True)

end Steps

def hashedTexts (s : Ledger) : List String :=
  s.logins.map (·.browserSecret) ++ s.handoffs.map (·.code) ++ s.exchanges.flatMap fun x => [x.input.browserSecret,x.input.code]

def NoCollision (node : Node) (s : Ledger) : Prop :=
  ∀ a ∈ hashedTexts s, ∀ b ∈ hashedTexts s, node.sha256 a = node.sha256 b → a = b

instance (node : Node) (s : Ledger) : Decidable (NoCollision node s) := by unfold NoCollision; infer_instance

def handoffsOf (handoffs : List Handoff) (requestId : String) : List Handoff := handoffs.filter (·.requestId == requestId)

structure ConsoleSafe (s : Ledger) : Prop where
  oneSession : (s.exchanges.map (·.input.requestId)).Nodup
  secretsHeld : ∀ x ∈ s.exchanges, ∃ l ∈ s.logins, l.requestId = x.input.requestId ∧ l.browserSecret = x.input.browserSecret ∧
    (handoffsOf s.handoffs x.input.requestId).getLast?.map (·.code) = some x.input.code
  firstBound : ∀ x ∈ s.exchanges, (handoffsOf s.handoffs x.input.requestId).head?.map (fun h => (h.authSessionId,h.accountId)) =
    some (x.session.authSessionId,x.session.accountId)
  shortLived : ∀ x ∈ s.exchanges, ∃ expiry, x.authorityExpiresAt = some expiry ∧ x.session.expiresAt ≤ expiry ∧
    x.session.expiresAt ≤ x.now + hours 12
  stored : ∀ c ∈ s.store.sessions, ∃ x ∈ s.exchanges, c = { x.session with revokedAt := c.revokedAt }
  resolved : ∀ sessionHash now found, resolveSession sessionHash now s.store = some found →
    ∃ c ∈ s.store.sessions, c.sessionHash = sessionHash ∧ found.accountId = c.accountId ∧ now < c.expiresAt ∧
      c.revokedAt = none ∧ (∃ a ∈ s.store.authSessions, a.id = c.authSessionId ∧ now < a.expiresAt) ∧
      ∃ a ∈ s.store.db.accounts, a.id = c.accountId ∧ a.status = .active
  revoked : ∀ c ∈ s.revocations, ∀ now, resolveSession c.sessionHash now s.store = none
  logoutOnce : (s.consumptions.map (·.requestId)).Nodup
  logoutOwn : ∀ k ∈ s.consumptions, ∃ o ∈ s.logouts, o.requestId = k.requestId ∧ o.session.authSessionId = k.authSessionId
  logoutRevokes : ∀ r ∈ s.store.transactions, r.purpose = .logout → ∃ o ∈ s.logouts, o.requestId = r.requestId ∧
    ∃ c ∈ s.store.sessions, c.sessionHash = o.session.sessionHash ∧ c.revokedAt.isSome = true

end Histories
section Calls
variable {node : Node} {now : Time} {store next : Store}

theorem updatedCases {α β : Type} [BEq β] [LawfulBEq β] {key : α → β} {rows : List α} {row r : α} {f : α → α}
    (alone : ∀ o ∈ rows, key o = key row → o = row) (mem : r ∈ updateWhere (fun o => key o == key row) f rows) :
    r = f row ∨ (r ∈ rows ∧ key r ≠ key row) := by
  obtain ⟨o,ho,rfl⟩ := memUpdateWhere.mp mem
  by_cases chosen : (key o == key row) = true
  · rw [if_pos chosen,alone o ho (beq_iff_eq.mp chosen)]
    exact .inl rfl
  · rw [if_neg chosen]
    exact .inr ⟨ho,fun same => chosen (beq_iff_eq.mpr same)⟩

theorem secretHashOk {value : String} {digest : Digest} (ok : consoleSecretHash node value = .ok digest) :
    digest = node.sha256 value := by
  unfold consoleSecretHash at ok
  split at ok <;> cases ok
  rfl

def newLogin (node : Node) (returnPath requestId browserSecret : String) (now : Time) : ConsoleTransaction :=
  ⟨requestId,.login,node.sha256 browserSecret,returnPath,none,none,none,now,now + minutes 5,none⟩

theorem createOk {returnPath requestId browserSecret : String} {login : ConsoleLoginTransaction}
    (ok : createLogin node returnPath requestId browserSecret now store = .ok (next,login)) :
    login = ⟨requestId,browserSecret,returnPath,now + minutes 5⟩ ∧ next = { store with
      transactions := purgeRequests now store.transactions ++ [newLogin node returnPath requestId browserSecret now] } := by
  simp only [createLogin,insertRequest,bindOk,orFailOk] at ok
  obtain ⟨_,_,_,hashed,_,⟨_,_,inserted⟩,last⟩ := ok
  cases last
  obtain ⟨_,rfl⟩ := insertRowExact.mp inserted
  rw [secretHashOk hashed]
  exact ⟨rfl,rfl⟩

structure Pending (store : Store) (requestId : String) (purpose : Purpose) (row : ConsoleTransaction) : Prop where
  member : row ∈ store.transactions
  request : row.requestId = requestId
  purpose : row.purpose = purpose
  unconsumed : row.consumedAt = none

theorem requestFound {requestId : String} {row : ConsoleTransaction}
    (found : requestRow requestId store.transactions = some row) : row ∈ store.transactions ∧ row.requestId = requestId := by
  have named := List.find?_some found
  simp only [beq_iff_eq] at named
  exact ⟨List.mem_of_find?_eq_some found,named⟩

theorem authorizeOk {input : AuthorizeInput} {code : String} {handoff : ConsoleLoginHandoff}
    (ok : authorizeLogin node input code now store = .ok (next,handoff)) : ∃ row expiresAt,
    Pending store input.requestId .login row ∧ (∀ id, row.authSessionId = some id → id = input.authSessionId) ∧
    (∀ id, row.accountId = some id → id = input.accountId) ∧ handoff.requestId = input.requestId ∧ handoff.code = code ∧
    next = { store with
      transactions := updateWhere (·.requestId == input.requestId) (handedOff input (node.sha256 code) expiresAt)
        store.transactions } := by
  simp only [authorizeLogin,bindOk,orFailOk,ensureOk] at ok
  obtain ⟨row,found,_,purpose,_,unconsumed,_,_,_,bound,_,hashed,_,_,_,_,last⟩ := ok
  cases last
  cases secretHashOk hashed
  obtain ⟨member,request⟩ := requestFound found
  simp only [Bool.and_eq_true,Option.all_eq_true,beq_iff_eq] at bound
  exact ⟨row,_,⟨member,request,beq_iff_eq.mp purpose,Option.isNone_iff_eq_none.mp unconsumed⟩,bound.1,bound.2,rfl,rfl,rfl⟩

structure Opening (node : Node) (input : ExchangeInput) (token : String) (now : Time) (store : Store)
    (row : ConsoleTransaction) (c : ConsoleSession) : Prop where
  pending : Pending store input.requestId .login row
  authSession : row.authSessionId = some c.authSessionId
  account : row.accountId = some c.accountId
  secret : row.browserSecretHash = node.sha256 input.browserSecret
  code : row.handoffCodeHash = some (node.sha256 input.code)
  authority : ∃ expiry, authorityExpiry store c = some expiry ∧ c.expiresAt ≤ expiry ∧ c.expiresAt ≤ now + hours 12
  fresh : ∀ o ∈ store.sessions, sameSession c o = false
  token : c.sessionHash = node.sha256 token

theorem exchangeOk {input : ExchangeInput} {token : String} {view : ConsoleSessionView}
    (ok : exchangeLogin node input token now store = .ok (next,view)) : ∃ row c,
    Opening node input token now store row c ∧ next = { store with
      transactions := updateWhere (fun r => r.requestId == input.requestId && r.consumedAt.isNone) (consumedRequest now)
        store.transactions
      sessions := store.sessions ++ [c] } := by
  simp only [exchangeLogin,insertSession,bindOk,orFailOk,ensureOk] at ok
  obtain ⟨row,found,_,purpose,⟨authSessionId,accountId,codeHash⟩,binding,_,unconsumed,_,_,_,browser,_,secret,_,code,_,same,
    ⟨authority,account⟩,known,_,_,_,hashed,_,⟨_,_,inserted⟩,_,_,_,_,last⟩ := ok
  cases last
  obtain ⟨member,request⟩ := requestFound found
  obtain ⟨free,rfl⟩ := insertRowExact.mp inserted
  simp only [bindingOf,bind,Option.bind_eq_some_iff,Option.some.injEq,Prod.mk.injEq] at binding
  obtain ⟨_,auth,_,acct,_,handoff,rfl,rfl,rfl⟩ := binding
  cases secretHashOk browser
  cases secretHashOk code
  have token_ := secretHashOk hashed
  obtain ⟨session,held,linked⟩ := Option.bind_eq_some_iff.mp known
  split at linked
  · obtain ⟨_,_,both⟩ := Option.map_eq_some_iff.mp linked
    cases both
    refine ⟨row,_,⟨⟨member,request,beq_iff_eq.mp purpose,Option.isNone_iff_eq_none.mp unconsumed⟩,auth,acct,
      beq_iff_eq.mp secret,?_,⟨authority.expiresAt,?_,?_,Int.min_le_right _ _⟩,free,token_⟩,rfl⟩
    · exact handoff.trans (congrArg some (beq_iff_eq.mp same))
    · exact (congrArg (Option.map (·.expiresAt)) held)
    · exact Int.le_trans (Int.min_le_left _ _) (asDateLe _)
  · cases linked

theorem openedAlone {rows : List ConsoleSession} {c : ConsoleSession} (fresh : ∀ o ∈ rows, sameSession c o = false) :
    (rows ++ [c]).filter (fun o => !rows.contains o) = [c] := by
  have absent : c ∉ rows := fun mem => by
    have other := fresh c mem
    simp [sameSession] at other
  have old : rows.filter (fun o => !rows.contains o) = [] := by
    refine List.filter_eq_nil_iff.mpr fun o mem => ?_
    simp [mem]
  rw [List.filter_append,old]
  simp [absent]

theorem beginLogoutOk {sessionHash random : Digest} {returnPath requestId : String}
    (ok : beginLogout sessionHash returnPath requestId random now store = .ok next) : ∃ c ∈ store.sessions,
    c.sessionHash = sessionHash ∧ next = { store with
      sessions := updateWhere (·.sessionHash == sessionHash) (revokedSession now) store.sessions
      transactions := store.transactions ++ [⟨requestId,.logout,random,returnPath,some c.authSessionId,some c.accountId,none,
        now,now + minutes 5,none⟩] } := by
  simp only [beginLogout,insertRequest,bindOk,orFailOk] at ok
  obtain ⟨_,_,c,found,_,_,_,⟨_,_,inserted⟩,last⟩ := ok
  cases last
  obtain ⟨_,rfl⟩ := insertRowExact.mp inserted
  have chosen := List.find?_some found
  simp only [Bool.and_eq_true,beq_iff_eq] at chosen
  exact ⟨c,List.mem_of_find?_eq_some found,chosen.1.1,rfl⟩

theorem validateOk {requestId authSessionId path : String} {consume : Bool}
    (ok : validateLogout requestId authSessionId consume now store = .ok (next,path)) : ∃ row,
    Pending store requestId .logout row ∧ row.authSessionId = some authSessionId ∧
    ((consume = true ∧ next = { store with
      transactions := updateWhere (·.requestId == requestId) (consumedRequest now) store.transactions }) ∨
      (consume = false ∧ next = store)) := by
  simp only [validateLogout,bindOk,orFailOk,ensureOk] at ok
  obtain ⟨row,found,_,_,_,unconsumed,last⟩ := ok
  have chosen := List.find?_some found
  simp only [Bool.and_eq_true,beq_iff_eq] at chosen
  refine ⟨row,⟨List.mem_of_find?_eq_some found,chosen.1.1,chosen.1.2,Option.isNone_iff_eq_none.mp unconsumed⟩,chosen.2,?_⟩
  cases consume with
  | true =>
    simp only [if_true,bindOk,ensureOk] at last
    obtain ⟨_,_,done⟩ := last
    cases done
    exact .inl ⟨rfl,rfl⟩
  | false =>
    cases last
    exact .inr ⟨rfl,rfl⟩

theorem revokeOk {sessionHash : Digest} (ok : revokeSession sessionHash now store = .ok next) :
    next = { store with
      sessions := updateWhere (·.sessionHash == sessionHash) (fun c => { c with revokedAt := some (c.revokedAt.getD now) })
        store.sessions } := by
  unfold revokeSession at ok
  dsimp only at ok
  split at ok <;> cases ok
  rfl

theorem resolveOk {sessionHash : Digest} {found : ResolvedSession} (ok : resolveSession sessionHash now store = some found) :
    ∃ c ∈ store.sessions, c.sessionHash = sessionHash ∧ found.accountId = c.accountId ∧ now < c.expiresAt ∧
      c.revokedAt = none ∧ (∃ a ∈ store.authSessions, a.id = c.authSessionId ∧ now < a.expiresAt) ∧
      ∃ a ∈ store.db.accounts, a.id = c.accountId ∧ a.status = .active := by
  obtain ⟨c,held,rfl⟩ := Option.map_eq_some_iff.mp ok
  have chosen := List.find?_some held
  simp only [Bool.and_eq_true,beq_iff_eq,decide_eq_true_eq,Option.isNone_iff_eq_none,List.any_eq_true] at chosen
  obtain ⟨⟨⟨⟨hashed,unexpired⟩,unrevoked⟩,authority⟩,account⟩ := chosen
  exact ⟨c,List.mem_of_find?_eq_some held,hashed,rfl,unexpired,unrevoked,authority,account⟩

end Calls

section Soundness
variable {node : Node} {s : Ledger} {row : ConsoleTransaction} {now : Time}

structure LoginRow (node : Node) (s : Ledger) (r : ConsoleTransaction) : Prop where
  login : ∃ l ∈ s.logins, l.requestId = r.requestId ∧ r.browserSecretHash = node.sha256 l.browserSecret
  code : r.handoffCodeHash = (handoffsOf s.handoffs r.requestId).getLast?.map fun h => node.sha256 h.code
  bound : ∀ h ∈ handoffsOf s.handoffs r.requestId, r.authSessionId = some h.authSessionId ∧ r.accountId = some h.accountId

def LogoutRow (s : Ledger) (r : ConsoleTransaction) : Prop :=
  ∃ o ∈ s.logouts, o.requestId = r.requestId ∧ r.authSessionId = some o.session.authSessionId ∧
    ∃ c ∈ s.store.sessions, c.sessionHash = o.session.sessionHash ∧ c.revokedAt.isSome = true ∧
      r.authSessionId = some c.authSessionId ∧ r.accountId = some c.accountId

structure Exchanged (node : Node) (s : Ledger) (x : Exchange) : Prop where
  login : ∃ l ∈ s.logins, l.requestId = x.input.requestId ∧ node.sha256 l.browserSecret = node.sha256 x.input.browserSecret
  code : (handoffsOf s.handoffs x.input.requestId).getLast?.map (fun h => node.sha256 h.code) = some (node.sha256 x.input.code)
  bound : ∀ h ∈ handoffsOf s.handoffs x.input.requestId, h.authSessionId = x.session.authSessionId ∧ h.accountId = x.session.accountId
  short : ∃ expiry, x.authorityExpiresAt = some expiry ∧ x.session.expiresAt ≤ expiry ∧ x.session.expiresAt ≤ x.now + hours 12

/- A revoked session was opened by an exchange, and whatever is stored under its hash is revoked. -/
structure RevokedRow (s : Ledger) (c : ConsoleSession) : Prop where
  exchange : ∃ x ∈ s.exchanges, x.session.sessionHash = c.sessionHash
  stays : ∀ o ∈ s.store.sessions, o.sessionHash = c.sessionHash → o.revokedAt.isSome = true

structure Sound (node : Node) (s : Ledger) : Prop where
  requestKey : Indexed sameRequest s.store.transactions
  sessionKey : Indexed sameSession s.store.sessions
  ids : (requestIds s).Nodup
  loginRow : ∀ r ∈ s.store.transactions, r.purpose = .login → LoginRow node s r
  logoutRow : ∀ r ∈ s.store.transactions, r.purpose = .logout → LogoutRow s r
  handoffLogin : ∀ h ∈ s.handoffs, ∃ l ∈ s.logins, l.requestId = h.requestId
  exchanged : ∀ x ∈ s.exchanges, Exchanged node s x
  once : (s.exchanges.map (·.input.requestId)).Nodup
  spent : ∀ x ∈ s.exchanges, ∀ r ∈ s.store.transactions, r.requestId = x.input.requestId → r.consumedAt.isSome = true
  opened : ∀ c ∈ s.store.sessions, ∃ x ∈ s.exchanges, c = { x.session with revokedAt := c.revokedAt }
  consumedOnce : (s.consumptions.map (·.requestId)).Nodup
  consumedLogout : ∀ k ∈ s.consumptions, ∃ o ∈ s.logouts, o.requestId = k.requestId ∧ o.session.authSessionId = k.authSessionId
  consumedRow : ∀ k ∈ s.consumptions, ∀ r ∈ s.store.transactions, r.requestId = k.requestId → r.consumedAt.isSome = true
  revokedRow : ∀ c ∈ s.revocations, RevokedRow s c

theorem emptySound (node : Node) : Sound node .empty where
  requestKey := indexedNil _
  sessionKey := indexedNil _
  ids := List.nodup_nil
  loginRow _ mem := absurd mem List.not_mem_nil
  logoutRow _ mem := absurd mem List.not_mem_nil
  handoffLogin _ mem := absurd mem List.not_mem_nil
  exchanged _ mem := absurd mem List.not_mem_nil
  once := List.nodup_nil
  spent _ mem := absurd mem List.not_mem_nil
  opened _ mem := absurd mem List.not_mem_nil
  consumedOnce := List.nodup_nil
  consumedLogout _ mem := absurd mem List.not_mem_nil
  consumedRow _ mem := absurd mem List.not_mem_nil
  revokedRow _ mem := absurd mem List.not_mem_nil

theorem aloneRequest (sound : Sound node s) (mem : row ∈ s.store.transactions) :
    ∀ o ∈ s.store.transactions, o.requestId = row.requestId → o = row := fun _ ho same =>
  indexedEq sound.requestKey (fun _ _ => Bool.beq_comm) ho mem (beq_iff_eq.mpr same)

theorem aloneSession (sound : Sound node s) {c : ConsoleSession} (mem : c ∈ s.store.sessions) :
    ∀ o ∈ s.store.sessions, o.sessionHash = c.sessionHash → o = c := fun _ ho same =>
  indexedEq sound.sessionKey (fun _ _ => Bool.beq_comm) ho mem (beq_iff_eq.mpr same)

theorem rowIds (sound : Sound node s) {r : ConsoleTransaction} (mem : r ∈ s.store.transactions) : r.requestId ∈ requestIds s := by
  cases purpose : r.purpose with
  | login =>
    obtain ⟨l,hl,same,_⟩ := (sound.loginRow r mem purpose).login
    exact List.mem_append_left _ (List.mem_map.mpr ⟨l,hl,same⟩)
  | logout =>
    obtain ⟨o,ho,same,_⟩ := sound.logoutRow r mem purpose
    exact List.mem_append_right _ (List.mem_map.mpr ⟨o,ho,same⟩)

theorem exchangeIds (sound : Sound node s) {x : Exchange} (mem : x ∈ s.exchanges) : x.input.requestId ∈ requestIds s := by
  obtain ⟨l,hl,same,_⟩ := (sound.exchanged x mem).login
  exact List.mem_append_left _ (List.mem_map.mpr ⟨l,hl,same⟩)

theorem consumptionIds (sound : Sound node s) {k : Consumption} (mem : k ∈ s.consumptions) : k.requestId ∈ requestIds s := by
  obtain ⟨o,ho,same,_⟩ := sound.consumedLogout k mem
  exact List.mem_append_right _ (List.mem_map.mpr ⟨o,ho,same⟩)

theorem handoffIds (sound : Sound node s) {requestId : String} (fresh : requestId ∉ requestIds s) :
    handoffsOf s.handoffs requestId = [] := by
  refine List.filter_eq_nil_iff.mpr fun h mem named => ?_
  obtain ⟨l,hl,same⟩ := sound.handoffLogin h mem
  exact fresh (List.mem_append_left _ (List.mem_map.mpr ⟨l,hl,same.trans (beq_iff_eq.mp named)⟩))

theorem droppedSound {rows : List ConsoleTransaction} {sessions : List ConsoleSession} (db : Db) (authSessions : List AuthSession)
    (sound : Sound node s) (fewer : rows.Sublist s.store.transactions) (fewerSessions : sessions.Sublist s.store.sessions)
    (linked : ∀ r ∈ rows, ∀ c ∈ s.store.sessions, r.authSessionId = some c.authSessionId → r.accountId = some c.accountId →
      c ∈ sessions) :
    Sound node { s with store := ⟨db,authSessions,rows,sessions⟩ } where
  requestKey := sound.requestKey.sublist fewer
  sessionKey := sound.sessionKey.sublist fewerSessions
  ids := sound.ids
  loginRow r mem purpose := ⟨(sound.loginRow r (fewer.subset mem) purpose).login,
    (sound.loginRow r (fewer.subset mem) purpose).code,(sound.loginRow r (fewer.subset mem) purpose).bound⟩
  logoutRow r mem purpose := by
    obtain ⟨o,ho,named,auth,c,hc,hashed,revoked,own,account⟩ := sound.logoutRow r (fewer.subset mem) purpose
    exact ⟨o,ho,named,auth,c,linked r mem c hc own account,hashed,revoked,own,account⟩
  handoffLogin := sound.handoffLogin
  exchanged x mem := ⟨(sound.exchanged x mem).login,(sound.exchanged x mem).code,(sound.exchanged x mem).bound,
    (sound.exchanged x mem).short⟩
  once := sound.once
  spent x mem r hr := sound.spent x mem r (fewer.subset hr)
  opened c mem := sound.opened c (fewerSessions.subset mem)
  consumedOnce := sound.consumedOnce
  consumedLogout := sound.consumedLogout
  consumedRow k mem r hr := sound.consumedRow k mem r (fewer.subset hr)
  revokedRow c mem := ⟨(sound.revokedRow c mem).exchange,fun o ho => (sound.revokedRow c mem).stays o (fewerSessions.subset ho)⟩

theorem aroundSound (db : Db) (authSessions : List AuthSession) (sound : Sound node s) :
    Sound node { s with store := surroundings db authSessions s.store } := by
  refine droppedSound db authSessions sound List.filter_sublist List.filter_sublist fun r mem c hc auth account => ?_
  have held := (List.mem_filter.mp mem).2
  simp only [Store.keepsTransaction,auth,account,Option.all_some] at held
  exact List.mem_filter.mpr ⟨hc,held⟩

theorem loginSound {returnPath requestId browserSecret : String} (sound : Sound node s) (fresh : requestId ∉ requestIds s) :
    Sound node { s with
      store := { s.store with
        transactions := s.store.transactions ++ [newLogin node returnPath requestId browserSecret now] }
      logins := s.logins ++ [⟨requestId,browserSecret,returnPath⟩] } where
  requestKey := by
    refine indexedAppend sound.requestKey (fun _ _ => Bool.beq_comm) fun r mem => beq_eq_false_iff_ne.mpr fun same => ?_
    exact fresh (by rw [show requestId = r.requestId from same]; exact rowIds sound mem)
  sessionKey := sound.sessionKey
  ids := by
    have moved : (s.logins.map (·.requestId) ++ [requestId] ++ s.logouts.map (·.requestId)).Perm
        (requestId :: requestIds s) := by
      rw [List.append_assoc]
      exact List.perm_middle
    simp only [requestIds,List.map_append,List.map_cons,List.map_nil]
    exact moved.nodup_iff.mpr (List.nodup_cons.mpr ⟨fresh,sound.ids⟩)
  loginRow r mem purpose := by
    rcases List.mem_append.mp mem with old | new
    · obtain ⟨⟨l,hl,rest⟩,code,bound⟩ := sound.loginRow r old purpose
      exact ⟨⟨l,List.mem_append_left _ hl,rest⟩,code,bound⟩
    · rw [List.mem_singleton.mp new]
      have none_ : handoffsOf s.handoffs requestId = [] := handoffIds sound fresh
      refine ⟨⟨_,List.mem_append_right _ (List.mem_singleton_self _),rfl,rfl⟩,?_,fun h handed => ?_⟩
      · show none = (handoffsOf s.handoffs requestId).getLast?.map _
        rw [none_]
        rfl
      · have absent : h ∈ handoffsOf s.handoffs requestId := handed
        rw [none_] at absent
        cases absent
  logoutRow r mem purpose := by
    rcases List.mem_append.mp mem with old | new
    · exact sound.logoutRow r old purpose
    · rw [List.mem_singleton.mp new] at purpose
      cases purpose
  handoffLogin h mem := by
    obtain ⟨l,hl,same⟩ := sound.handoffLogin h mem
    exact ⟨l,List.mem_append_left _ hl,same⟩
  exchanged x mem := by
    obtain ⟨⟨l,hl,rest⟩,code,bound,short⟩ := sound.exchanged x mem
    exact ⟨⟨l,List.mem_append_left _ hl,rest⟩,code,bound,short⟩
  once := sound.once
  spent x mem r hr same := by
    rcases List.mem_append.mp hr with old | new
    · exact sound.spent x mem r old same
    · rw [List.mem_singleton.mp new] at same
      exact absurd (by rw [show requestId = x.input.requestId from same]; exact exchangeIds sound mem) fresh
  opened := sound.opened
  consumedOnce := sound.consumedOnce
  consumedLogout := sound.consumedLogout
  consumedRow k mem r hr same := by
    rcases List.mem_append.mp hr with old | new
    · exact sound.consumedRow k mem r old same
    · rw [List.mem_singleton.mp new] at same
      exact absurd (by rw [show requestId = k.requestId from same]; exact consumptionIds sound mem) fresh
  revokedRow c mem := ⟨(sound.revokedRow c mem).exchange,(sound.revokedRow c mem).stays⟩

theorem handoffsAppend (h : Handoff) (requestId : String) :
    handoffsOf (s.handoffs ++ [h]) requestId =
      handoffsOf s.handoffs requestId ++ if h.requestId == requestId then [h] else [] := by
  unfold handoffsOf
  rw [List.filter_append]
  by_cases own : (h.requestId == requestId) = true
  · simp [own]
  · simp [own]

theorem authorizeSound {input : AuthorizeInput} {code : String} {expiresAt : Time} (sound : Sound node s)
    (pending : Pending s.store input.requestId .login row) (sameSession_ : ∀ id, row.authSessionId = some id → id = input.authSessionId)
    (sameAccount : ∀ id, row.accountId = some id → id = input.accountId) :
    Sound node { s with
      store := { s.store with
        transactions := updateWhere (·.requestId == input.requestId) (handedOff input (node.sha256 code) expiresAt)
          s.store.transactions }
      handoffs := s.handoffs ++ [⟨input.requestId,code,input.authSessionId,input.accountId⟩] } := by
  have request := pending.request
  have cases_ : ∀ r ∈ updateWhere (·.requestId == input.requestId) (handedOff input (node.sha256 code) expiresAt)
      s.store.transactions, r = handedOff input (node.sha256 code) expiresAt row ∨
        (r ∈ s.store.transactions ∧ r.requestId ≠ input.requestId) := fun r mem => by
    rw [← request] at mem ⊢
    exact updatedCases (aloneRequest sound pending.member) mem
  have elsewhere : ∀ requestId, requestId ≠ input.requestId →
      handoffsOf (s.handoffs ++ [⟨input.requestId,code,input.authSessionId,input.accountId⟩]) requestId =
        handoffsOf s.handoffs requestId := fun requestId other => by
    rw [handoffsAppend,if_neg fun same => other (beq_iff_eq.mp same).symm,List.append_nil]
  have here : handoffsOf (s.handoffs ++ [⟨input.requestId,code,input.authSessionId,input.accountId⟩])
      input.requestId = handoffsOf s.handoffs input.requestId ++ [⟨input.requestId,code,input.authSessionId,input.accountId⟩] := by
    rw [handoffsAppend,if_pos (beq_self_eq_true _)]
  obtain ⟨⟨l,hl,named,browser⟩,_,bound⟩ := sound.loginRow row pending.member pending.purpose
  refine ⟨?_,sound.sessionKey,sound.ids,fun r mem purpose => ?_,fun r mem purpose => ?_,fun h mem => ?_,fun x mem => ?_,
    sound.once,fun x mem r hr same => ?_,sound.opened,sound.consumedOnce,sound.consumedLogout,fun k mem r hr same => ?_,
    fun c mem => ⟨(sound.revokedRow c mem).exchange,(sound.revokedRow c mem).stays⟩⟩
  · refine indexedUpdate sound.requestKey fun a b hit => ?_
    have same : ∀ r : ConsoleTransaction, (if r.requestId == input.requestId then
        handedOff input (node.sha256 code) expiresAt r else r).requestId = r.requestId := fun r => by split <;> rfl
    simp only [sameRequest,same] at hit ⊢
    exact hit
  · rcases cases_ r mem with rfl | ⟨old,other⟩
    · refine ⟨⟨l,hl,named,browser⟩,?_,fun h handed => ?_⟩
      · show some (node.sha256 code) = (handoffsOf _ row.requestId).getLast?.map _
        rw [request,here,List.getLast?_concat]
        rfl
      · have handed_ : h ∈ handoffsOf (s.handoffs ++ [⟨input.requestId,code,input.authSessionId,input.accountId⟩]) row.requestId := handed
        rw [request,here] at handed_
        rcases List.mem_append.mp handed_ with before | last
        · rw [← request] at before
          rw [show h.authSessionId = input.authSessionId from sameSession_ _ (bound h before).1,
            show h.accountId = input.accountId from sameAccount _ (bound h before).2]
          exact ⟨rfl,rfl⟩
        · rw [List.mem_singleton.mp last]
          exact ⟨rfl,rfl⟩
    · obtain ⟨login,code_,bound_⟩ := sound.loginRow r old purpose
      exact ⟨login,by rw [← elsewhere _ other] at code_; exact code_,fun h handed => bound_ h (by
        rw [← elsewhere _ other]
        exact handed)⟩
  · rcases cases_ r mem with rfl | ⟨old,_⟩
    · cases pending.purpose.symm.trans purpose
    · exact sound.logoutRow r old purpose
  · rcases List.mem_append.mp mem with old | new
    · exact sound.handoffLogin h old
    · rw [List.mem_singleton.mp new]
      exact ⟨l,hl,named.trans request⟩
  · -- A request that was exchanged is handed off no more.
    have other : x.input.requestId ≠ input.requestId := fun same => by
      have spent := sound.spent x mem row pending.member (request.trans same.symm)
      rw [pending.unconsumed] at spent
      cases spent
    obtain ⟨login,code_,bound_,short⟩ := sound.exchanged x mem
    exact ⟨login,by rw [← elsewhere _ other] at code_; exact code_,fun h handed => bound_ h (by
      rw [← elsewhere _ other]
      exact handed),short⟩
  · rcases cases_ r hr with rfl | ⟨old,_⟩
    · exact sound.spent x mem row pending.member same
    · exact sound.spent x mem r old same
  · rcases cases_ r hr with rfl | ⟨old,_⟩
    · exact sound.consumedRow k mem row pending.member same
    · exact sound.consumedRow k mem r old same

theorem consumedSound (sound : Sound node s) (mem : row ∈ s.store.transactions) :
    Sound node { s with store := { s.store with
      transactions := updateWhere (·.requestId == row.requestId) (consumedRequest now) s.store.transactions } } := by
  have cases_ : ∀ r ∈ updateWhere (·.requestId == row.requestId) (consumedRequest now) s.store.transactions,
      ∃ o ∈ s.store.transactions, r = consumedRequest now o ∨ r = o := fun r hr => by
    rcases updatedCases (aloneRequest sound mem) hr with rfl | ⟨old,_⟩
    · exact ⟨row,mem,.inl rfl⟩
    · exact ⟨r,old,.inr rfl⟩
  refine ⟨?_,sound.sessionKey,sound.ids,fun r hr purpose => ?_,fun r hr purpose => ?_,sound.handoffLogin,fun x hx => ?_,
    sound.once,fun x hx r hr same => ?_,sound.opened,sound.consumedOnce,sound.consumedLogout,fun k hk r hr same => ?_,
    fun c mem => ⟨(sound.revokedRow c mem).exchange,(sound.revokedRow c mem).stays⟩⟩
  · refine indexedUpdate sound.requestKey fun a b hit => ?_
    have same : ∀ r : ConsoleTransaction, (if r.requestId == row.requestId then consumedRequest now r else r).requestId =
        r.requestId := fun r => by split <;> rfl
    simp only [sameRequest,same] at hit ⊢
    exact hit
  · obtain ⟨o,ho,rfl | rfl⟩ := cases_ r hr
    · exact ⟨(sound.loginRow o ho purpose).login,(sound.loginRow o ho purpose).code,(sound.loginRow o ho purpose).bound⟩
    · exact ⟨(sound.loginRow r ho purpose).login,(sound.loginRow r ho purpose).code,(sound.loginRow r ho purpose).bound⟩
  · obtain ⟨o,ho,rfl | rfl⟩ := cases_ r hr
    · exact sound.logoutRow o ho purpose
    · exact sound.logoutRow r ho purpose
  · exact ⟨(sound.exchanged x hx).login,(sound.exchanged x hx).code,(sound.exchanged x hx).bound,(sound.exchanged x hx).short⟩
  · obtain ⟨o,ho,rfl | rfl⟩ := cases_ r hr
    · rfl
    · exact sound.spent x hx r ho same
  · obtain ⟨o,ho,rfl | rfl⟩ := cases_ r hr
    · rfl
    · exact sound.consumedRow k hk r ho same

theorem nowConsumed (sound : Sound node s) (mem : row ∈ s.store.transactions) :
    ∀ r ∈ updateWhere (·.requestId == row.requestId) (consumedRequest now) s.store.transactions,
      r.requestId = row.requestId → r.consumedAt.isSome = true := by
  intro r hr same
  rcases updatedCases (aloneRequest sound mem) hr with rfl | ⟨_,other⟩
  · rfl
  · exact absurd same other

theorem consumedLogged {authSessionId : String} (sound : Sound node s) (pending : Pending s.store row.requestId .logout row)
    (own : row.authSessionId = some authSessionId) :
    Sound node { s with
      store := { s.store with
        transactions := updateWhere (·.requestId == row.requestId) (consumedRequest now) s.store.transactions }
      consumptions := s.consumptions ++ [⟨row.requestId,authSessionId⟩] } := by
  have marked : Sound node { s with store := { s.store with
      transactions := updateWhere (·.requestId == row.requestId) (consumedRequest now) s.store.transactions } } :=
    consumedSound sound pending.member
  obtain ⟨o,ho,named,auth,_⟩ := sound.logoutRow row pending.member pending.purpose
  refine ⟨marked.requestKey,marked.sessionKey,marked.ids,fun r mem purpose => ?_,marked.logoutRow,marked.handoffLogin,
    fun x mem => ?_,marked.once,marked.spent,marked.opened,?_,fun k mem => ?_,fun k mem r hr same => ?_,
    fun c mem => ⟨(sound.revokedRow c mem).exchange,(sound.revokedRow c mem).stays⟩⟩
  · exact ⟨(marked.loginRow r mem purpose).login,(marked.loginRow r mem purpose).code,(marked.loginRow r mem purpose).bound⟩
  · exact ⟨(sound.exchanged x mem).login,(sound.exchanged x mem).code,(sound.exchanged x mem).bound,(sound.exchanged x mem).short⟩
  · rw [List.map_append]
    refine List.nodup_append.mpr ⟨sound.consumedOnce,List.nodup_singleton _,fun a old b last same => ?_⟩
    obtain ⟨k,hk,rfl⟩ := List.mem_map.mp old
    rw [List.map_cons,List.map_nil,List.mem_singleton] at last
    have spent := sound.consumedRow k hk row pending.member (last.symm.trans same.symm)
    rw [pending.unconsumed] at spent
    cases spent
  · rcases List.mem_append.mp mem with old | new
    · exact sound.consumedLogout k old
    · rw [List.mem_singleton.mp new]
      exact ⟨o,ho,named,Option.some.inj (auth.symm.trans own)⟩
  · rcases List.mem_append.mp mem with old | new
    · exact marked.consumedRow k old r hr same
    · rw [List.mem_singleton.mp new] at same
      exact nowConsumed sound pending.member r hr same

end Soundness

section Sessions
variable {node : Node} {s : Ledger} {row : ConsoleTransaction} {now : Time}

theorem exchangeSound {input : ExchangeInput} {token : String} {c : ConsoleSession} (sound : Sound node s)
    (opening : Opening node input token now s.store row c) (fresh : FreshToken node s token) :
    Sound node { s with
      store := { s.store with
        transactions := updateWhere (fun r => r.requestId == input.requestId && r.consumedAt.isNone) (consumedRequest now)
          s.store.transactions
        sessions := s.store.sessions ++ [c] }
      exchanges := s.exchanges ++ [⟨input,now,c,authorityExpiry s.store c⟩] } := by
  have request := opening.pending.request
  have member := opening.pending.member
  have rows : updateWhere (fun r => r.requestId == input.requestId && r.consumedAt.isNone) (consumedRequest now)
      s.store.transactions = updateWhere (·.requestId == row.requestId) (consumedRequest now) s.store.transactions := by
    refine List.map_congr_left fun r mem => ?_
    by_cases chosen : (r.requestId == row.requestId) = true
    · have alone := aloneRequest sound member r mem (beq_iff_eq.mp chosen)
      simp only [alone,request,opening.pending.unconsumed,Option.isNone_none,Bool.and_true]
    · simp [request] at chosen
      simp [chosen,request]
  have marked : Sound node { s with store := { s.store with
      transactions := updateWhere (·.requestId == row.requestId) (consumedRequest now) s.store.transactions } } :=
    consumedSound sound member
  obtain ⟨⟨l,hl,named,browser⟩,code,bound⟩ := sound.loginRow row member opening.pending.purpose
  rw [request] at named code bound
  rw [rows]
  refine ⟨marked.requestKey,?_,marked.ids,fun r mem purpose => ?_,fun r mem purpose => ?_,marked.handoffLogin,
    fun x mem => ?_,?_,fun x mem r hr same => ?_,fun o mem => ?_,marked.consumedOnce,marked.consumedLogout,marked.consumedRow,
    fun d mem => ?_⟩
  · exact indexedAppend sound.sessionKey (fun _ _ => Bool.beq_comm) opening.fresh
  · exact ⟨(marked.loginRow r mem purpose).login,(marked.loginRow r mem purpose).code,(marked.loginRow r mem purpose).bound⟩
  · obtain ⟨o,ho,same,auth,d,hd,rest⟩ := marked.logoutRow r mem purpose
    exact ⟨o,ho,same,auth,d,List.mem_append_left _ hd,rest⟩
  · rcases List.mem_append.mp mem with old | new
    · exact ⟨(sound.exchanged x old).login,(sound.exchanged x old).code,(sound.exchanged x old).bound,
        (sound.exchanged x old).short⟩
    · rw [List.mem_singleton.mp new]
      refine ⟨⟨l,hl,named,browser.symm.trans opening.secret⟩,code.symm.trans opening.code,fun h handed => ?_,opening.authority⟩
      obtain ⟨auth,account⟩ := bound h handed
      exact ⟨Option.some.inj (auth.symm.trans opening.authSession),Option.some.inj (account.symm.trans opening.account)⟩
  · rw [List.map_append]
    refine List.nodup_append.mpr ⟨sound.once,List.nodup_singleton _,fun a old b last same => ?_⟩
    obtain ⟨x,hx,rfl⟩ := List.mem_map.mp old
    rw [List.map_cons,List.map_nil,List.mem_singleton] at last
    have spent := sound.spent x hx row member (request.trans (last.symm.trans same.symm))
    rw [opening.pending.unconsumed] at spent
    cases spent
  · rcases List.mem_append.mp mem with old | new
    · exact marked.spent x old r hr same
    · rw [List.mem_singleton.mp new] at same
      exact nowConsumed sound member r hr (same.trans request.symm)
  · rcases List.mem_append.mp mem with old | new
    · obtain ⟨x,hx,same⟩ := sound.opened o old
      exact ⟨x,List.mem_append_left _ hx,same⟩
    · rw [List.mem_singleton.mp new]
      exact ⟨_,List.mem_append_right _ (List.mem_singleton_self _),rfl⟩
  · obtain ⟨x,hx,same⟩ := (sound.revokedRow d mem).exchange
    refine ⟨⟨x,List.mem_append_left _ hx,same⟩,fun o ho hashed => ?_⟩
    rcases List.mem_append.mp ho with old | new
    · exact (sound.revokedRow d mem).stays o old hashed
    · -- The new session has a token of its own.
      rw [List.mem_singleton.mp new] at hashed
      exact absurd (List.mem_map.mpr ⟨x,hx,same.trans (hashed.symm.trans opening.token)⟩) fresh

structure Revokes (f : ConsoleSession → ConsoleSession) : Prop where
  column : ∀ c, f c = { c with revokedAt := (f c).revokedAt }
  revoked : ∀ c, (f c).revokedAt.isSome = true

theorem revokedSound {sessionHash : Digest} {f : ConsoleSession → ConsoleSession} (sound : Sound node s) (revokes : Revokes f) :
    Sound node { s with
      store := { s.store with sessions := updateWhere (·.sessionHash == sessionHash) f s.store.sessions }
      revocations := s.revocations ++ sessionsOf sessionHash s.store } := by
  have same : ∀ c : ConsoleSession, (if c.sessionHash == sessionHash then f c else c).sessionHash = c.sessionHash := fun c => by
    split
    · exact (congrArg ConsoleSession.sessionHash (revokes.column c)).trans rfl
    · rfl
  refine ⟨sound.requestKey,?_,sound.ids,fun r mem purpose => ?_,fun r mem purpose => ?_,sound.handoffLogin,fun x mem => ?_,
    sound.once,sound.spent,fun c mem => ?_,sound.consumedOnce,sound.consumedLogout,sound.consumedRow,fun c mem => ?_⟩
  · refine indexedUpdate sound.sessionKey fun a b hit => ?_
    simp only [sameSession,same] at hit ⊢
    exact hit
  · exact ⟨(sound.loginRow r mem purpose).login,(sound.loginRow r mem purpose).code,(sound.loginRow r mem purpose).bound⟩
  · obtain ⟨o,ho,named,auth,c,hc,hashed,revoked,own,account⟩ := sound.logoutRow r mem purpose
    refine ⟨o,ho,named,auth,_,memUpdateWhere.mpr ⟨c,hc,rfl⟩,(same c).trans hashed,?_,?_,?_⟩
    · split
      · exact revokes.revoked c
      · exact revoked
    · rw [own]
      split
      · rw [revokes.column c]
      · rfl
    · rw [account]
      split
      · rw [revokes.column c]
      · rfl
  · exact ⟨(sound.exchanged x mem).login,(sound.exchanged x mem).code,(sound.exchanged x mem).bound,(sound.exchanged x mem).short⟩
  · obtain ⟨o,ho,rfl⟩ := memUpdateWhere.mp mem
    obtain ⟨x,hx,opened⟩ := sound.opened o ho
    refine ⟨x,hx,?_⟩
    split
    · rw [revokes.column o,opened]
    · exact opened
  · have met : (∃ x ∈ s.exchanges, x.session.sessionHash = c.sessionHash) ∧
        ∀ o ∈ s.store.sessions, o.sessionHash = c.sessionHash → o.revokedAt.isSome = true ∨ c.sessionHash = sessionHash := by
      rcases List.mem_append.mp mem with old | new
      · exact ⟨(sound.revokedRow c old).exchange,fun o ho hashed => .inl ((sound.revokedRow c old).stays o ho hashed)⟩
      · obtain ⟨stored,hashed⟩ := List.mem_filter.mp new
        obtain ⟨x,hx,opened⟩ := sound.opened c stored
        exact ⟨⟨x,hx,by rw [opened]⟩,fun _ _ _ => .inr (beq_iff_eq.mp hashed)⟩
    refine ⟨met.1,fun r hr hashed => ?_⟩
    obtain ⟨o,ho,rfl⟩ := memUpdateWhere.mp hr
    rw [same o] at hashed
    split
    · exact revokes.revoked o
    · rename_i other
      rcases met.2 o ho hashed with revoked | target
      · exact revoked
      · exact absurd (beq_iff_eq.mpr (hashed.trans target)) other

theorem logoutSound {returnPath requestId : String} {random : Digest} {c : ConsoleSession} (sound : Sound node s)
    (fresh : requestId ∉ requestIds s) (mem : c ∈ s.store.sessions) :
    Sound node { s with
      store := { s.store with
        sessions := updateWhere (·.sessionHash == c.sessionHash) (revokedSession now) s.store.sessions
        transactions := s.store.transactions ++ [⟨requestId,.logout,random,returnPath,some c.authSessionId,some c.accountId,none,
          now,now + minutes 5,none⟩] }
      logouts := s.logouts ++ [⟨requestId,c⟩]
      revocations := s.revocations ++ sessionsOf c.sessionHash s.store } := by
  have marked : Sound node { s with
      store := { s.store with
        sessions := updateWhere (·.sessionHash == c.sessionHash) (revokedSession now) s.store.sessions }
      revocations := s.revocations ++ sessionsOf c.sessionHash s.store } :=
    revokedSound sound ⟨fun _ => rfl,fun _ => rfl⟩
  refine ⟨?_,marked.sessionKey,?_,fun r hr purpose => ?_,fun r hr purpose => ?_,sound.handoffLogin,fun x hx => ?_,sound.once,
    fun x hx r hr same => ?_,fun o ho => ?_,sound.consumedOnce,fun k hk => ?_,fun k hk r hr same => ?_,
    fun d mem => ⟨(marked.revokedRow d mem).exchange,(marked.revokedRow d mem).stays⟩⟩
  · refine indexedAppend sound.requestKey (fun _ _ => Bool.beq_comm) fun r hr => beq_eq_false_iff_ne.mpr fun same => ?_
    exact fresh (by rw [show requestId = r.requestId from same]; exact rowIds sound hr)
  · simp only [requestIds,List.map_append,List.map_cons,List.map_nil,← List.append_assoc]
    refine List.nodup_append.mpr ⟨sound.ids,List.nodup_singleton _,fun a old b last same => fresh ?_⟩
    rw [← List.mem_singleton.mp last,← same]
    exact old
  · rcases List.mem_append.mp hr with old | new
    · exact ⟨(sound.loginRow r old purpose).login,(sound.loginRow r old purpose).code,(sound.loginRow r old purpose).bound⟩
    · rw [List.mem_singleton.mp new] at purpose
      cases purpose
  · rcases List.mem_append.mp hr with old | new
    · obtain ⟨o,ho,rest⟩ := marked.logoutRow r old purpose
      exact ⟨o,List.mem_append_left _ ho,rest⟩
    · rw [List.mem_singleton.mp new]
      exact ⟨_,List.mem_append_right _ (List.mem_singleton_self _),rfl,rfl,revokedSession now c,
        updatedRow mem (beq_self_eq_true _),rfl,rfl,rfl,rfl⟩
  · exact ⟨(sound.exchanged x hx).login,(sound.exchanged x hx).code,(sound.exchanged x hx).bound,(sound.exchanged x hx).short⟩
  · rcases List.mem_append.mp hr with old | new
    · exact sound.spent x hx r old same
    · rw [List.mem_singleton.mp new] at same
      exact absurd (by rw [show requestId = x.input.requestId from same]; exact exchangeIds sound hx) fresh
  · exact marked.opened o ho
  · obtain ⟨o,ho,rest⟩ := sound.consumedLogout k hk
    exact ⟨o,List.mem_append_left _ ho,rest⟩
  · rcases List.mem_append.mp hr with old | new
    · exact sound.consumedRow k hk r old same
    · rw [List.mem_singleton.mp new] at same
      exact absurd (by rw [show requestId = k.requestId from same]; exact consumptionIds sound hk) fresh

theorem callSound {op : Op} (sound : Sound node s) (fresh : FreshOp node s op) :
    Sound node (call node now s op) := by
  cases op with
  | createLogin returnPath requestId browserSecret =>
    simp only [call]
    split
    · rename_i next login ok
      obtain ⟨rfl,rfl⟩ := createOk ok
      have fewer : Sound node { s with store := { s.store with transactions := purgeRequests now s.store.transactions } } :=
        droppedSound _ _ sound List.filter_sublist (List.Sublist.refl _) fun _ _ _ hc _ _ => hc
      exact loginSound fewer (fresh.1 requestId rfl)
    · exact sound
  | authorizeLogin input code =>
    simp only [call]
    split
    · rename_i next handoff ok
      obtain ⟨row,expiresAt,pending,sameAuth,sameAccount,request,handed,rfl⟩ := authorizeOk ok
      rw [request,handed]
      exact authorizeSound sound pending sameAuth sameAccount
    · exact sound
  | exchangeLogin input token =>
    simp only [call]
    split
    · rename_i next view ok
      obtain ⟨row,c,opening,rfl⟩ := exchangeOk ok
      have one : openedSessions s.store { s.store with
          transactions := updateWhere (fun r => r.requestId == input.requestId && r.consumedAt.isNone) (consumedRequest now)
            s.store.transactions
          sessions := s.store.sessions ++ [c] } = [c] := openedAlone opening.fresh
      rw [one]
      exact exchangeSound sound opening (fresh.2 token rfl)
    · exact sound
  | beginLogout sessionHash returnPath requestId random =>
    simp only [call]
    split
    · rename_i next ok
      obtain ⟨c,mem,rfl,rfl⟩ := beginLogoutOk ok
      have found : s.store.sessions.find? (·.sessionHash == c.sessionHash) = some c := by
        cases held : s.store.sessions.find? (·.sessionHash == c.sessionHash) with
        | none => exact absurd (beq_self_eq_true _) (List.find?_eq_none.mp held c mem)
        | some o =>
          have named := List.find?_some held
          simp only [beq_iff_eq] at named
          rw [aloneSession sound mem o (List.mem_of_find?_eq_some held) named]
      rw [found]
      exact logoutSound sound (fresh.1 requestId rfl) mem
    · exact sound
  | validateLogout requestId authSessionId consume =>
    simp only [call]
    split
    · rename_i next path ok
      obtain ⟨row,pending,own,⟨rfl,rfl⟩ | ⟨rfl,rfl⟩⟩ := validateOk ok
      · have request := pending.request
        subst request
        simp only [if_true]
        exact consumedLogged sound pending own
      · simp only [Bool.false_eq_true,if_false,List.append_nil]
        exact sound
    · exact sound
  | revokeSession sessionHash =>
    simp only [call]
    split
    · rename_i next ok
      rw [revokeOk ok]
      exact revokedSound sound ⟨fun _ => rfl,fun _ => rfl⟩
    · exact sound

theorem stepSound {e : Event} (sound : Sound node s) (fresh : Fresh node s e) : Sound node (step node s e) := by
  cases e with
  | call now op => exact callSound sound fresh
  | around db authSessions => exact aroundSound db authSessions sound

theorem soundConsole (sound : Sound node s) (clear : NoCollision node s) : ConsoleSafe s where
  oneSession := sound.once
  secretsHeld x mem := by
    obtain ⟨⟨l,hl,named,browser⟩,code,_,_⟩ := sound.exchanged x mem
    have asked : ∀ text ∈ [x.input.browserSecret,x.input.code], text ∈ hashedTexts s := fun text here =>
      List.mem_append_right _ (List.mem_flatMap.mpr ⟨x,mem,here⟩)
    refine ⟨l,hl,named,clear _ ?_ _ (asked _ List.mem_cons_self) browser,?_⟩
    · exact List.mem_append_left _ (List.mem_append_left _ (List.mem_map.mpr ⟨l,hl,rfl⟩))
    · obtain ⟨h,last,same⟩ := Option.map_eq_some_iff.mp code
      have handed : h ∈ s.handoffs := (List.mem_filter.mp (List.mem_of_getLast? last)).1
      have text : h.code = x.input.code := clear _ (List.mem_append_left _ (List.mem_append_right _
        (List.mem_map.mpr ⟨h,handed,rfl⟩))) _ (asked _ (List.mem_cons_of_mem _ List.mem_cons_self)) same
      rw [last,Option.map_some,text]
  firstBound x mem := by
    obtain ⟨_,code,bound,_⟩ := sound.exchanged x mem
    cases handoffs : handoffsOf s.handoffs x.input.requestId with
    | nil =>
      rw [handoffs] at code
      cases code
    | cons h rest =>
      obtain ⟨auth,account⟩ := bound h (by rw [handoffs]; exact List.mem_cons_self)
      simp only [List.head?_cons,Option.map_some,auth,account]
  shortLived x mem := (sound.exchanged x mem).short
  stored := sound.opened
  resolved _ _ _ found := resolveOk found
  revoked c mem now := by
    cases found : resolveSession c.sessionHash now s.store with
    | none => rfl
    | some _ =>
      obtain ⟨o,ho,hashed,_,_,unrevoked,_⟩ := resolveOk found
      have down := (sound.revokedRow c mem).stays o ho hashed
      rw [unrevoked] at down
      cases down
  logoutOnce := sound.consumedOnce
  logoutOwn := sound.consumedLogout
  logoutRevokes r mem purpose := by
    obtain ⟨o,ho,named,_,c,hc,hashed,revoked,_⟩ := sound.logoutRow r mem purpose
    exact ⟨o,ho,named,c,hc,hashed,revoked⟩

/- Whatever happens to the accounts and the auth sessions, with request ids and session tokens
that do not repeat and SHA-256 apart on the secrets of the run. -/
theorem consoleSafe (node : Node) (es : List Event) (fresh : Guarded (step node) (Fresh node) .empty es)
    (clear : NoCollision node (run (step node) .empty es)) : ConsoleSafe (run (step node) .empty es) :=
  soundConsole (invariantRun (fun _ _ inv ok => stepSound inv ok) (emptySound node) fresh) clear

/- SHA-256 of a browser secret, two handoff codes and a session token. -/
def browserSecret : String := "AAAAAAAAAAAAAAAAAAAAAAAAAAAAAAAAAAAAAAAAAAA"
def earlierCode : String := "BBBBBBBBBBBBBBBBBBBBBBBBBBBBBBBBBBBBBBBBBBB"
def laterCode : String := "CCCCCCCCCCCCCCCCCCCCCCCCCCCCCCCCCCCCCCCCCCC"
def sessionToken : String := "DDDDDDDDDDDDDDDDDDDDDDDDDDDDDDDDDDDDDDDDDDD"
def tokenHash : Digest :=
  [57,26,176,27,248,209,108,210,72,254,6,32,43,110,109,252,20,156,177,108,
    150,214,22,59,52,236,57,146,151,171,118,91]
def consoleNode : Node := tabled
  [(browserSecret,[15,0,115,133,182,249,212,183,238,178,116,134,5,175,225,169,132,160,163,191,
      163,240,20,208,158,42,120,76,233,229,205,26]),
    (earlierCode,[65,45,196,108,201,227,203,38,242,159,124,20,21,197,86,52,154,246,41,4,
      197,209,91,10,45,140,253,197,207,162,43,52]),
    (laterCode,[148,32,20,175,3,25,92,151,252,138,97,33,160,62,22,96,184,144,39,165,
      56,50,90,16,30,186,66,109,172,215,229,135]),
    (sessionToken,tokenHash)] [] []

def loginRequest : String := "console_AAAAAAAAAAAAAAAAAAAAAAAAAAAAAAAA"
def logoutRequest : String := "console_BBBBBBBBBBBBBBBBBBBBBBBBBBBBBBBB"

def signedUp : Db := run (System.step consoleNode) Db.empty (System.pairedHistory.take 2)

def consoleHistory : List Event :=
  [.around signedUp [⟨"session_0001","user_0001",seconds 1,hours 8⟩],
    .call (seconds 10) (.createLogin "/app" loginRequest browserSecret),
    .call (seconds 11) (.authorizeLogin ⟨loginRequest,"session_0001",System.sampleAccount,hours 8⟩ earlierCode),
    .call (seconds 12) (.authorizeLogin ⟨loginRequest,"session_0001",System.sampleAccount,hours 8⟩ laterCode),
    .call (seconds 13) (.exchangeLogin ⟨loginRequest,browserSecret,laterCode⟩ sessionToken),
    .call (seconds 20) (.beginLogout tokenHash "/" logoutRequest (List.replicate 32 1)),
    .call (seconds 21) (.validateLogout logoutRequest "session_0001" true),
    .call (seconds 22) (.revokeSession tokenHash)]

theorem consoleFacts : Guarded (step consoleNode) (Fresh consoleNode) .empty consoleHistory ∧
    hashedTexts (run (step consoleNode) .empty consoleHistory) =
      [browserSecret,earlierCode,laterCode,browserSecret,laterCode] ∧
    (run (step consoleNode) .empty consoleHistory).exchanges.map (·.session.expiresAt) = [hours 8] ∧
    (run (step consoleNode) .empty consoleHistory).consumptions.map (·.requestId) = [logoutRequest] ∧
    (run (step consoleNode) .empty consoleHistory).revocations.map (fun c => (c.sessionHash,c.revokedAt)) =
      [(tokenHash,none),(tokenHash,some (seconds 20))] := by decide

theorem loggedOut : ConsoleSafe (run (step consoleNode) .empty consoleHistory) ∧
    (run (step consoleNode) .empty consoleHistory).exchanges.map (·.session.expiresAt) = [hours 8] ∧
    (run (step consoleNode) .empty consoleHistory).consumptions.map (·.requestId) = [logoutRequest] ∧
    (run (step consoleNode) .empty consoleHistory).revocations.map (fun c => (c.sessionHash,c.revokedAt)) =
      [(tokenHash,none),(tokenHash,some (seconds 20))] := by
  obtain ⟨fresh,texts,ends⟩ := consoleFacts
  refine ⟨consoleSafe consoleNode consoleHistory fresh ?_,ends⟩
  unfold NoCollision
  rw [texts]
  decide

end Sessions

end Wepuu.ConsoleRuns
