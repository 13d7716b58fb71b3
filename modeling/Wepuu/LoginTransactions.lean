import Wepuu.System
import Mathlib.Data.List.Sort

/-! PostgresAccountLoginTransactionStore over the table platform.account_login_transactions. The
clock of a call and the token it draws are part of the call. -/
namespace Wepuu.LoginTransactions
open NodeApi Relational Runs Schema Tenancy

section Source

structure LoginTransaction where
  tokenHash : Digest
  returnPath : String
  csrfHash : Digest
  emailBinding : Option Digest
  createdAt : Time
  expiresAt : Time
  consumedAt : Option Time
  deriving DecidableEq, Repr

def sameToken (a b : LoginTransaction) : Bool := a.tokenHash == b.tokenHash

/- LIKE '/%', NOT LIKE '//%' and the two positions. -/
def pathShape (path : String) : Bool :=
  path.toList.take 1 == ['/'] && !(path.toList.take 2 == ['/','/']) && !path.toList.contains '\\' && !path.toList.contains '#'

def LoginTransaction.check (r : LoginTransaction) : Bool :=
  r.tokenHash.length == 32 && decide (1 ≤ r.returnPath.toList.length) && decide (r.returnPath.toList.length ≤ 2048) &&
  pathShape r.returnPath && r.csrfHash.length == 32 && r.emailBinding.all (·.length == 32) &&
  decide (r.createdAt < r.expiresAt) && r.consumedAt.all fun at_ => decide (r.createdAt ≤ at_)

structure Store where
  db : Db
  emails : List (String × String)
  transactions : List LoginTransaction
  deriving DecidableEq, Repr

variable (node : Node)

def loginTransactionTokenHash (token : String) : Except Fault Digest :=
  if matchesClass opaqueChar 43 43 token then .ok (node.sha256 token)
  else .error (.thrown "account_login_transaction_invalid")

def loginTransactionCsrfHash (csrf : String) : Except Fault Digest :=
  if matchesClass opaqueChar 43 43 csrf then .ok (node.sha256 csrf)
  else .error (.thrown "account_login_transaction_invalid")

def tokenKey (token : String) : Key := token.toList.flatMap String.utf8EncodeChar

def emailMac (token email : String) : Digest := node.hmacSha256 (tokenKey token) email

def loginTransactionEmailBinding (token email : String) : Except Fault Digest :=
  if utf16Length email < 3 ∨ 254 < utf16Length email then .error (.thrown "account_login_transaction_invalid")
  else .ok (emailMac node token email)

structure AccountLoginTransaction where
  token : String
  returnPath : String
  expiresAt : Time
  deriving DecidableEq, Repr

structure CompletedAccountLogin where
  accountId : AccountId
  homeTenantId : TenantId
  accountStatus : AccountStatus
  returnPath : String
  deriving DecidableEq, Repr

def stale (now : Time) (r : LoginTransaction) : Bool :=
  decide (r.expiresAt < now - days 1) || r.consumedAt.any fun at_ => decide (at_ < now - days 1)

/- The hundred oldest stale rows go. -/
def purge (now : Time) (rows : List LoginTransaction) : List LoginTransaction :=
  let victims := (((rows.filter (stale now)).insertionSort fun a b => a.createdAt ≤ b.createdAt).take 100).map (·.tokenHash)
  deleteWhere (fun r => victims.contains r.tokenHash) rows

def insertTransaction (row : LoginTransaction) (rows : List LoginTransaction) : Except Fault (List LoginTransaction) := do
  ensure row.check .checkViolation
  orFail .uniqueViolation (insertRow sameToken row rows)

def create (returnPath csrf token : String) (now : Time) (store : Store) :
    Except Fault (Store × AccountLoginTransaction) := do
  ensure (pathShape returnPath && decide (utf16Length returnPath ≤ 2048)) (.thrown "account_login_return_invalid")
  let expiresAt := now + minutes 10
  let kept := purge now store.transactions
  let tokenHash ← loginTransactionTokenHash node token
  let csrfHash ← loginTransactionCsrfHash node csrf
  let rows ← insertTransaction ⟨tokenHash,returnPath,csrfHash,none,now,expiresAt,none⟩ kept
  .ok ({ store with transactions := rows },⟨token,returnPath,expiresAt⟩)

/- SELECT … FOR UPDATE and the checks that follow it in all three callers. -/
def openTransaction (tokenHash csrfHash : Digest) (now : Time) (rows : List LoginTransaction) :
    Except Fault LoginTransaction := do
  let row ← orFail (.thrown "account_login_transaction_invalid") (rows.find? (·.tokenHash == tokenHash))
  ensure (row.csrfHash == csrfHash) (.thrown "account_login_transaction_invalid")
  ensure (decide (now < row.expiresAt)) (.thrown "account_login_transaction_expired")
  ensure row.consumedAt.isNone (.thrown "account_login_transaction_consumed")
  .ok row

def bindEmail (token csrf email : String) (now : Time) (store : Store) : Except Fault Store := do
  let tokenHash ← loginTransactionTokenHash node token
  let csrfHash ← loginTransactionCsrfHash node csrf
  let emailBinding ← loginTransactionEmailBinding node token email
  let row ← openTransaction tokenHash csrfHash now store.transactions
  ensure (row.emailBinding.all (· == emailBinding)) (.thrown "account_login_email_mismatch")
  if row.emailBinding.isNone then
    .ok { store with
      transactions := updateWhere (·.tokenHash == tokenHash) (fun r => { r with emailBinding := some emailBinding })
        store.transactions }
  else .ok store

def consumedRow (now : Time) (r : LoginTransaction) : LoginTransaction := { r with consumedAt := some now }

def restart (token csrf newToken : String) (now : Time) (store : Store) :
    Except Fault (Store × AccountLoginTransaction) := do
  let oldTokenHash ← loginTransactionTokenHash node token
  let csrfHash ← loginTransactionCsrfHash node csrf
  let expiresAt := now + minutes 10
  let row ← openTransaction oldTokenHash csrfHash now store.transactions
  ensure (consumedRow now row).check .checkViolation
  let consumed := updateWhere (·.tokenHash == oldTokenHash) (consumedRow now) store.transactions
  let tokenHash ← loginTransactionTokenHash node newToken
  let rows ← insertTransaction ⟨tokenHash,row.returnPath,csrfHash,none,now,expiresAt,none⟩ consumed
  .ok ({ store with transactions := rows },⟨newToken,row.returnPath,expiresAt⟩)

def emailMatches (token authUserId : String) (row : LoginTransaction) (store : Store) : Except Fault Unit :=
  match row.emailBinding with
  | none => .ok ()
  | some binding => do
    let email ← orFail (.thrown "account_login_email_mismatch") (store.emails.lookup authUserId)
    let expected ← loginTransactionEmailBinding node token email
    ensure (binding == expected) (.thrown "account_login_email_mismatch")

def complete (token csrf authUserId proposedAccountId proposedTenantId : String) (now : Time) (store : Store) :
    Except Fault (Store × CompletedAccountLogin) := do
  ensure (decide (1 ≤ utf16Length authUserId) && decide (utf16Length authUserId ≤ 255)) (.thrown "auth_user_id_invalid")
  let tokenHash ← loginTransactionTokenHash node token
  let csrfHash ← loginTransactionCsrfHash node csrf
  let row ← openTransaction tokenHash csrfHash now store.transactions
  emailMatches node token authUserId row store
  let (db,account,home) ← ensureAccountAuthLink authUserId proposedAccountId proposedTenantId store.db
  let found ← orFail (.thrown "account_auth_bootstrap_failed") (db.accounts.find? (·.id == account))
  ensure (found.status == .active) (.thrown "account_auth_bootstrap_failed")
  let unconsumed := fun r : LoginTransaction => r.tokenHash == tokenHash && r.consumedAt.isNone
  ensure (consumedRow now row).check .checkViolation
  ensure (store.transactions.countP unconsumed == 1) (.thrown "account_login_transaction_consumed")
  .ok ({ store with db := db, transactions := updateWhere unconsumed (consumedRow now) store.transactions },
    ⟨account,home,found.status,row.returnPath⟩)

end Source

end Wepuu.LoginTransactions
