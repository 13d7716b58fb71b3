import Wepuu.LoginTransactions

/-! PostgresConsoleAuthStore over the tables platform.console_auth_transactions and
platform.console_sessions. The random values and the clock of a call are part of the call. -/
namespace Wepuu.ConsoleAuth
open LoginTransactions NodeApi Relational Schema

section Tables

inductive Purpose where | login | logout deriving DecidableEq, Repr

structure ConsoleTransaction where
  requestId : String
  purpose : Purpose
  browserSecretHash : Digest
  returnPath : String
  authSessionId : Option String
  accountId : Option AccountId
  handoffCodeHash : Option Digest
  createdAt : Time
  expiresAt : Time
  consumedAt : Option Time
  deriving DecidableEq, Repr

def requestIdShape (text : String) : Bool :=
  text.toList.take 8 == "console_".toList && matchesClass opaqueChar 32 32 (String.ofList (text.toList.drop 8))

def ConsoleTransaction.check (r : ConsoleTransaction) : Bool :=
  requestIdShape r.requestId && r.browserSecretHash.length == 32 && decide (1 ≤ r.returnPath.toList.length) &&
  decide (r.returnPath.toList.length ≤ 2048) && pathShape r.returnPath && r.handoffCodeHash.all (·.length == 32) &&
  decide (r.createdAt < r.expiresAt) && r.consumedAt.all (fun at_ => decide (r.createdAt ≤ at_)) &&
  r.authSessionId.isNone == r.accountId.isNone && (r.purpose == .login || r.handoffCodeHash.isNone)

structure ConsoleSession where
  sessionHash : Digest
  accountId : AccountId
  authSessionId : String
  authenticatedAt : Time
  createdAt : Time
  expiresAt : Time
  revokedAt : Option Time
  deriving DecidableEq, Repr

def ConsoleSession.check (c : ConsoleSession) : Bool :=
  c.sessionHash.length == 32 && decide (c.createdAt < c.expiresAt) && decide (c.authenticatedAt ≤ c.createdAt) &&
  c.revokedAt.all fun at_ => decide (c.createdAt ≤ at_)

/- A row of auth.session, which Better Auth writes. -/
structure AuthSession where
  id : String
  userId : String
  createdAt : Time
  expiresAt : Time
  deriving DecidableEq, Repr

structure Store where
  db : Db
  authSessions : List AuthSession
  transactions : List ConsoleTransaction
  sessions : List ConsoleSession
  deriving DecidableEq, Repr

def sameRequest (a b : ConsoleTransaction) : Bool := a.requestId == b.requestId
def sameSession (a b : ConsoleSession) : Bool := a.sessionHash == b.sessionHash

def Store.hasAuthSession (store : Store) (id : String) : Bool := store.authSessions.any fun s => s.id == id

/- Both references of a console row. -/
def Store.refers (store : Store) (authSessionId : String) (accountId : AccountId) : Bool :=
  store.hasAuthSession authSessionId && store.db.hasAccount accountId

def Store.keepsTransaction (store : Store) (r : ConsoleTransaction) : Bool :=
  r.authSessionId.all (fun id => store.hasAuthSession id) && r.accountId.all fun id => store.db.hasAccount id
def Store.keepsSession (store : Store) (c : ConsoleSession) : Bool := store.refers c.authSessionId c.accountId

/- What other transactions make of the accounts and the auth sessions, with both cascades. -/
def surroundings (db : Db) (authSessions : List AuthSession) (store : Store) : Store :=
  let around : Store := ⟨db,authSessions,store.transactions,store.sessions⟩
  { around with
    transactions := store.transactions.filter around.keepsTransaction
    sessions := store.sessions.filter around.keepsSession }

end Tables

section Source
variable (node : Node)

def consoleSecretHash (value : String) : Except Fault Digest :=
  if matchesClass opaqueChar 43 43 value then .ok (node.sha256 value) else .error (.thrown "console_auth_secret_invalid")

def validConsoleReturnPath (value : String) : Bool := decide (utf16Length value ≤ 2048) && pathShape value

structure ConsoleLoginTransaction where
  requestId : String
  browserSecret : String
  returnPath : String
  expiresAt : Time
  deriving DecidableEq, Repr

structure ConsoleLoginHandoff where
  requestId : String
  code : String
  expiresAt : Time
  deriving DecidableEq, Repr

structure ConsoleSessionView where
  token : String
  accountId : AccountId
  authenticationTime : Int
  returnPath : String
  expiresAt : Time
  deriving DecidableEq, Repr

def staleRequest (now : Time) (r : ConsoleTransaction) : Bool :=
  decide (r.expiresAt < now - days 1) || r.consumedAt.any fun at_ => decide (at_ < now - days 1)

def purgeRequests (now : Time) (rows : List ConsoleTransaction) : List ConsoleTransaction :=
  let victims := (((rows.filter (staleRequest now)).insertionSort fun a b => a.createdAt ≤ b.createdAt).take 100).map (·.requestId)
  deleteWhere (fun r => victims.contains r.requestId) rows

def insertRequest (row : ConsoleTransaction) (rows : List ConsoleTransaction) : Except Fault (List ConsoleTransaction) := do
  ensure row.check .checkViolation
  orFail .uniqueViolation (insertRow sameRequest row rows)

def createLogin (returnPath requestId browserSecret : String) (now : Time) (store : Store) :
    Except Fault (Store × ConsoleLoginTransaction) := do
  ensure (validConsoleReturnPath returnPath) (.thrown "console_return_path_invalid")
  let expiresAt := now + minutes 5
  let kept := purgeRequests now store.transactions
  let browserSecretHash ← consoleSecretHash node browserSecret
  let rows ← insertRequest ⟨requestId,.login,browserSecretHash,returnPath,none,none,none,now,expiresAt,none⟩ kept
  .ok ({ store with transactions := rows },⟨requestId,browserSecret,returnPath,expiresAt⟩)

def requestRow (requestId : String) (rows : List ConsoleTransaction) : Option ConsoleTransaction :=
  rows.find? (·.requestId == requestId)

structure AuthorizeInput where
  requestId : String
  authSessionId : String
  accountId : AccountId
  authExpiresAt : Time
  deriving DecidableEq, Repr

def handedOff (input : AuthorizeInput) (codeHash : Digest) (expiresAt : Time) (r : ConsoleTransaction) : ConsoleTransaction :=
  { r with
    authSessionId := some input.authSessionId
    accountId := some input.accountId
    handoffCodeHash := some codeHash
    expiresAt := expiresAt }

def authorizeLogin (input : AuthorizeInput) (code : String) (now : Time) (store : Store) :
    Except Fault (Store × ConsoleLoginHandoff) := do
  let row ← orFail (.thrown "console_auth_transaction_invalid") (requestRow input.requestId store.transactions)
  ensure (row.purpose == .login) (.thrown "console_auth_transaction_invalid")
  ensure row.consumedAt.isNone (.thrown "console_auth_transaction_consumed")
  ensure (decide (now < row.expiresAt) && decide (now < input.authExpiresAt)) (.thrown "console_auth_transaction_expired")
  ensure (row.authSessionId.all (· == input.authSessionId) && row.accountId.all (· == input.accountId))
    (.thrown "console_auth_transaction_binding_mismatch")
  let expiresAt := min row.expiresAt input.authExpiresAt
  let codeHash ← consoleSecretHash node code
  ensure (handedOff input codeHash expiresAt row).check .checkViolation
  ensure (store.refers input.authSessionId input.accountId) .foreignKeyViolation
  .ok ({ store with
      transactions := updateWhere (·.requestId == input.requestId) (handedOff input codeHash expiresAt) store.transactions },
    ⟨input.requestId,code,expiresAt⟩)

structure ExchangeInput where
  requestId : String
  browserSecret : String
  code : String
  deriving DecidableEq, Repr

def authorityOf (store : Store) (authSessionId : String) (accountId : AccountId) : Option (AuthSession × Account) :=
  (store.authSessions.find? (·.id == authSessionId)).bind fun session =>
    if store.db.authLinks.any fun link => link.authUserId == session.userId && link.accountId == accountId then
      (store.db.accounts.find? (·.id == accountId)).map fun account => (session,account)
    else none

def consumedRequest (now : Time) (r : ConsoleTransaction) : ConsoleTransaction := { r with consumedAt := some now }

def insertSession (row : ConsoleSession) (rows : List ConsoleSession) : Except Fault (List ConsoleSession) := do
  ensure row.check .checkViolation
  orFail .uniqueViolation (insertRow sameSession row rows)

def bindingOf (row : ConsoleTransaction) : Option (String × AccountId × Digest) := do
  let authSessionId ← row.authSessionId
  let accountId ← row.accountId
  let handoffCodeHash ← row.handoffCodeHash
  some (authSessionId,accountId,handoffCodeHash)

def exchangeLogin (input : ExchangeInput) (token : String) (now : Time) (store : Store) :
    Except Fault (Store × ConsoleSessionView) := do
  let row ← orFail (.thrown "console_auth_transaction_invalid") (requestRow input.requestId store.transactions)
  ensure (row.purpose == .login) (.thrown "console_auth_transaction_invalid")
  let (authSessionId,accountId,handoffCodeHash) ← orFail (.thrown "console_auth_transaction_invalid") (bindingOf row)
  ensure row.consumedAt.isNone (.thrown "console_auth_transaction_consumed")
  ensure (decide (now < row.expiresAt)) (.thrown "console_auth_transaction_expired")
  let browserHash ← consoleSecretHash node input.browserSecret
  ensure (row.browserSecretHash == browserHash) (.thrown "console_auth_transaction_invalid")
  let codeHash ← consoleSecretHash node input.code
  ensure (handoffCodeHash == codeHash) (.thrown "console_auth_transaction_invalid")
  let (authority,account) ← orFail (.thrown "console_auth_authority_invalid") (authorityOf store authSessionId accountId)
  ensure (account.status == .active && decide (now < asDate authority.expiresAt)) (.thrown "console_auth_authority_invalid")
  let expiresAt := min (asDate authority.expiresAt) (now + hours 12)
  let sessionHash ← consoleSecretHash node token
  let sessions ← insertSession ⟨sessionHash,accountId,authSessionId,asDate authority.createdAt,now,expiresAt,none⟩ store.sessions
  let unconsumed := fun r : ConsoleTransaction => r.requestId == input.requestId && r.consumedAt.isNone
  ensure (consumedRequest now row).check .checkViolation
  ensure (store.transactions.countP unconsumed == 1) (.thrown "console_auth_transaction_consumed")
  .ok ({ store with
      transactions := updateWhere unconsumed (consumedRequest now) store.transactions
      sessions := sessions },
    ⟨token,accountId,asDate authority.createdAt / seconds 1,row.returnPath,expiresAt⟩)

structure ResolvedSession where
  accountId : AccountId
  authenticationTime : Int
  deriving DecidableEq, Repr

def resolveSession (sessionHash : Digest) (now : Time) (store : Store) : Option ResolvedSession :=
  (store.sessions.find? fun c => c.sessionHash == sessionHash && decide (now < c.expiresAt) && c.revokedAt.isNone &&
      (store.authSessions.any fun s => s.id == c.authSessionId && decide (now < s.expiresAt)) &&
      store.db.accounts.any fun a => a.id == c.accountId && a.status == .active).map fun c =>
    ⟨c.accountId,asDate c.authenticatedAt / seconds 1⟩

def revokedSession (now : Time) (c : ConsoleSession) : ConsoleSession := { c with revokedAt := some now }

def beginLogout (sessionHash : Digest) (returnPath requestId : String) (random : Digest) (now : Time) (store : Store) :
    Except Fault Store := do
  ensure (validConsoleReturnPath returnPath) (.thrown "console_return_path_invalid")
  let row ← orFail (.thrown "console_session_invalid") (store.sessions.find? fun c =>
    c.sessionHash == sessionHash && decide (now < c.expiresAt) && c.revokedAt.isNone)
  ensure (revokedSession now row).check .checkViolation
  let requests ← insertRequest
    ⟨requestId,.logout,random,returnPath,some row.authSessionId,some row.accountId,none,now,now + minutes 5,none⟩ store.transactions
  .ok { store with
    sessions := updateWhere (·.sessionHash == sessionHash) (revokedSession now) store.sessions
    transactions := requests }

def validateLogout (requestId authSessionId : String) (consume : Bool) (now : Time) (store : Store) :
    Except Fault (Store × String) := do
  let row ← orFail (.thrown "console_auth_transaction_invalid") (store.transactions.find? fun r =>
    r.requestId == requestId && r.purpose == .logout && r.authSessionId == some authSessionId)
  ensure (decide (now < row.expiresAt)) (.thrown "console_auth_transaction_expired")
  ensure row.consumedAt.isNone (.thrown "console_auth_transaction_consumed")
  if consume then do
    ensure (consumedRequest now row).check .checkViolation
    .ok ({ store with transactions := updateWhere (·.requestId == requestId) (consumedRequest now) store.transactions },
      row.returnPath)
  else .ok (store,row.returnPath)

def revokeSession (sessionHash : Digest) (now : Time) (store : Store) : Except Fault Store :=
  let revoke := fun c : ConsoleSession => { c with revokedAt := some (c.revokedAt.getD now) }
  if store.sessions.all fun c => c.sessionHash != sessionHash || (revoke c).check then
    .ok { store with sessions := updateWhere (·.sessionHash == sessionHash) revoke store.sessions }
  else .error .checkViolation

end Source
end Wepuu.ConsoleAuth
