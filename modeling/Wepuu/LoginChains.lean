import Wepuu.LoginTransactions
import Mathlib.Logic.Relation

/-! Runs of the login transaction store. A restart hands a transaction's path and csrf digest to
a new token; along such a chain at most one complete succeeds. -/
namespace Wepuu.LoginChains
open LoginTransactions NodeApi Relational Runs Schema

section Histories

inductive Op where
  | create (returnPath csrf token : String)
  | bindEmail (token csrf email : String)
  | restart (token csrf newToken : String)
  | complete (token csrf authUserId proposedAccountId proposedTenantId : String)
  deriving DecidableEq, Repr

inductive Answer where
  | done
  | opened (transaction : AccountLoginTransaction)
  | completed (login : CompletedAccountLogin)
  deriving DecidableEq, Repr

/- A call of the store, another transaction of the database, or what Better Auth makes of its users' mailboxes. -/
inductive Event where
  | call (now : Time) (op : Op)
  | other (event : System.Event)
  | mailboxes (emails : List (String × String))

structure Birth where
  token : String
  returnPath : String
  csrf : String
  expiresAt : Time
  deriving DecidableEq, Repr

inductive UseKind where
  | bound (email : String)
  | restarted (newToken : String)
  | completed (email : Option String) (returnPath : String)
  deriving DecidableEq, Repr

structure Use where
  token : String
  csrf : String
  now : Time
  kind : UseKind
  deriving DecidableEq, Repr

def Use.consumes (u : Use) : Bool := match u.kind with
  | .bound _ => false
  | .restarted _ | .completed _ _ => true

structure Ledger where
  store : Store
  births : List Birth
  uses : List Use
  deriving DecidableEq, Repr

def Ledger.empty : Ledger := ⟨⟨Db.empty,[],[]⟩,[],[]⟩

section Steps
variable (node : Node)

def exec (now : Time) (store : Store) : Op → Except Fault (Store × Answer)
  | .create returnPath csrf token => (create node returnPath csrf token now store).map fun (next,t) => (next,.opened t)
  | .bindEmail token csrf email => (bindEmail node token csrf email now store).map fun next => (next,.done)
  | .restart token csrf newToken => (restart node token csrf newToken now store).map fun (next,t) => (next,.opened t)
  | .complete token csrf authUserId account tenant =>
    (complete node token csrf authUserId account tenant now store).map fun (next,l) => (next,.completed l)

def bornOf : Op → Answer → List Birth
  | .create _ csrf _, .opened t => [⟨t.token,t.returnPath,csrf,t.expiresAt⟩]
  | .restart _ csrf _, .opened t => [⟨t.token,t.returnPath,csrf,t.expiresAt⟩]
  | _, _ => []

def usedBy (now : Time) (store : Store) : Op → Answer → List Use
  | .bindEmail token csrf email, _ => [⟨token,csrf,now,.bound email⟩]
  | .restart token csrf newToken, _ => [⟨token,csrf,now,.restarted newToken⟩]
  | .complete token csrf authUserId _ _, .completed login =>
    [⟨token,csrf,now,.completed (store.emails.lookup authUserId) login.returnPath⟩]
  | _, _ => []

def step (s : Ledger) : Event → Ledger
  | .call now op => match exec node now s.store op with
    | .ok (next,answer) => ⟨next,s.births ++ bornOf op answer,s.uses ++ usedBy now s.store op answer⟩
    | .error _ => s
  | .other event => { s with store.db := System.step node s.store.db event }
  | .mailboxes emails => { s with store.emails := emails }

def drawn : Op → Option String
  | .create _ _ token => some token
  | .restart _ _ newToken => some newToken
  | _ => none

/- Random tokens never hash to an earlier one's hash. -/
def Fresh (s : Ledger) : Event → Prop
  | .call _ op => ∀ token ∈ drawn op, ∀ b ∈ s.births, node.sha256 b.token ≠ node.sha256 token
  | _ => True

instance freshDecidable (s : Ledger) (e : Event) : Decidable (Fresh node s e) := by
  cases e <;> unfold Fresh <;> infer_instance

end Steps

def Restarted (uses : List Use) (a b : String) : Prop := ∃ u ∈ uses, u.token = a ∧ u.kind = .restarted b

def Descends (uses : List Use) : String → String → Prop := Relation.ReflTransGen (Restarted uses)

/- The texts of a run that SHA-256 has hashed, and the mailboxes under the token that keyed
their HMAC. -/
def hashedTexts (s : Ledger) : List String :=
  s.births.flatMap (fun b => [b.token,b.csrf]) ++ s.uses.flatMap fun u => [u.token,u.csrf]

def mailboxOf (u : Use) : Option String := match u.kind with
  | .bound email => some email
  | .restarted _ => none
  | .completed email _ => email

def macTexts (s : Ledger) : List (String × String) := s.uses.filterMap fun u => (mailboxOf u).map fun email => (u.token,email)

structure NoCollision (node : Node) (s : Ledger) : Prop where
  sha256 : ∀ a ∈ hashedTexts s, ∀ b ∈ hashedTexts s, node.sha256 a = node.sha256 b → a = b
  hmac : ∀ a ∈ macTexts s, ∀ b ∈ macTexts s, a.1 = b.1 → emailMac node a.1 a.2 = emailMac node b.1 b.2 → a.2 = b.2

structure LoginsSafe (node : Node) (s : Ledger) : Prop where
  consumedOnce : ((s.uses.filter Use.consumes).map (·.token)).Nodup
  oneCompletion : ∀ root a b aEmail aPath bEmail bPath, a ∈ s.uses → b ∈ s.uses →
    a.kind = .completed aEmail aPath → b.kind = .completed bEmail bPath →
    Descends s.uses root a.token → Descends s.uses root b.token → a = b
  bindingKept : ∀ a b email other, a ∈ s.uses → b ∈ s.uses → a.kind = .bound email → b.kind = .bound other →
    a.token = b.token → email = other
  bindingStored : ∀ u email, u ∈ s.uses → u.kind = .bound email → ∀ r ∈ s.store.transactions,
    r.tokenHash = node.sha256 u.token → r.emailBinding = some (emailMac node u.token email)
  boundCompletes : ∀ a b email mailbox path, a ∈ s.uses → b ∈ s.uses → a.kind = .bound email →
    b.kind = .completed mailbox path → a.token = b.token → mailbox = some email
  preserved : ∀ a b, a ∈ s.births → b ∈ s.births → Descends s.uses a.token b.token →
    b.returnPath = a.returnPath ∧ b.csrf = a.csrf
  inTime : ∀ u ∈ s.uses, ∃ b ∈ s.births, b.token = u.token ∧ u.now < b.expiresAt ∧ u.csrf = b.csrf ∧
    (∀ email path, u.kind = .completed email path → path = b.returnPath)
  stored : ∀ r ∈ s.store.transactions, ∃ b ∈ s.births, r.tokenHash = node.sha256 b.token ∧
    r.returnPath = b.returnPath ∧ r.csrfHash = node.sha256 b.csrf ∧ r.expiresAt = b.expiresAt

end Histories
section Calls
variable {node : Node} {now : Time} {store next : Store}

theorem tokenHashOk {token : String} {digest : Digest} (ok : loginTransactionTokenHash node token = .ok digest) :
    digest = node.sha256 token := by
  unfold loginTransactionTokenHash at ok
  split at ok <;> cases ok
  rfl

theorem csrfHashOk {csrf : String} {digest : Digest} (ok : loginTransactionCsrfHash node csrf = .ok digest) :
    digest = node.sha256 csrf := by
  unfold loginTransactionCsrfHash at ok
  split at ok <;> cases ok
  rfl

theorem emailBindingOk {token email : String} {digest : Digest}
    (ok : loginTransactionEmailBinding node token email = .ok digest) : digest = emailMac node token email := by
  unfold loginTransactionEmailBinding at ok
  split at ok <;> cases ok
  rfl

structure Opened (node : Node) (token csrf : String) (now : Time) (rows : List LoginTransaction) (row : LoginTransaction) :
    Prop where
  member : row ∈ rows
  token : row.tokenHash = node.sha256 token
  csrf : row.csrfHash = node.sha256 csrf
  unexpired : now < row.expiresAt
  unconsumed : row.consumedAt = none

theorem openOk {token csrf : String} {rows : List LoginTransaction} {row : LoginTransaction}
    (ok : openTransaction (node.sha256 token) (node.sha256 csrf) now rows = .ok row) : Opened node token csrf now rows row := by
  simp only [openTransaction,bindOk,orFailOk,ensureOk] at ok
  obtain ⟨_,found,_,csrf,_,unexpired,_,unconsumed,last⟩ := ok
  cases last
  have hashed := List.find?_some found
  simp only [beq_iff_eq] at hashed
  exact ⟨List.mem_of_find?_eq_some found,hashed,beq_iff_eq.mp csrf,
    of_decide_eq_true unexpired,Option.isNone_iff_eq_none.mp unconsumed⟩

def newRow (node : Node) (token csrf returnPath : String) (now : Time) : LoginTransaction :=
  ⟨node.sha256 token,returnPath,node.sha256 csrf,none,now,now + minutes 10,none⟩

theorem createOk {returnPath csrf token : String} {t : AccountLoginTransaction}
    (ok : create node returnPath csrf token now store = .ok (next,t)) : t = ⟨token,returnPath,now + minutes 10⟩ ∧
    next = { store with transactions := purge now store.transactions ++ [newRow node token csrf returnPath now] } := by
  simp only [create,insertTransaction,bindOk,orFailOk] at ok
  obtain ⟨_,_,_,hashed,_,csrfed,_,⟨_,_,inserted⟩,last⟩ := ok
  cases last
  obtain ⟨_,rfl⟩ := insertRowExact.mp inserted
  rw [tokenHashOk hashed,csrfHashOk csrfed]
  exact ⟨rfl,rfl⟩

theorem bindEmailOk {token csrf email : String} (ok : bindEmail node token csrf email now store = .ok next) :
    (∃ row, Opened node token csrf now store.transactions row ∧
      (∀ d, row.emailBinding = some d → emailMac node token email = d) ∧
      next = { store with
        transactions := updateWhere (·.tokenHash == node.sha256 token)
          (fun r => { r with emailBinding := some (emailMac node token email) }) store.transactions }) ∨
    (∃ row, Opened node token csrf now store.transactions row ∧ row.emailBinding = some (emailMac node token email) ∧
      next = store) := by
  simp only [bindEmail,bindOk,ensureOk] at ok
  obtain ⟨_,hashed,_,csrfed,_,bound,row,found,_,same,last⟩ := ok
  cases tokenHashOk hashed
  cases csrfHashOk csrfed
  cases emailBindingOk bound
  split at last
  · rename_i unbound
    cases last
    refine .inl ⟨row,openOk found,fun d held => ?_,rfl⟩
    rw [Option.isNone_iff_eq_none.mp unbound] at held
    cases held
  · rename_i held
    cases last
    cases binding : row.emailBinding with
    | none => exact absurd (by rw [binding]; rfl) held
    | some d =>
      rw [binding] at same
      refine .inr ⟨row,openOk found,?_,rfl⟩
      rw [binding,beq_iff_eq.mp same]

theorem restartOk {token csrf newToken : String} {t : AccountLoginTransaction}
    (ok : restart node token csrf newToken now store = .ok (next,t)) : ∃ row,
    Opened node token csrf now store.transactions row ∧ t = ⟨newToken,row.returnPath,now + minutes 10⟩ ∧
    next = { store with
      transactions := updateWhere (·.tokenHash == node.sha256 token) (consumedRow now) store.transactions ++
        [newRow node newToken csrf row.returnPath now] } := by
  simp only [restart,insertTransaction,bindOk,orFailOk] at ok
  obtain ⟨_,hashed,_,csrfed,row,found,_,_,_,newly,_,⟨_,_,inserted⟩,last⟩ := ok
  cases last
  cases tokenHashOk hashed
  cases csrfHashOk csrfed
  obtain ⟨_,rfl⟩ := insertRowExact.mp inserted
  rw [tokenHashOk newly]
  exact ⟨row,openOk found,rfl,rfl⟩

theorem completeOk {token csrf authUserId account tenant : String} {login : CompletedAccountLogin}
    (ok : complete node token csrf authUserId account tenant now store = .ok (next,login)) : ∃ row,
    Opened node token csrf now store.transactions row ∧ login.returnPath = row.returnPath ∧
    (∀ d, row.emailBinding = some d → ∃ email, store.emails.lookup authUserId = some email ∧ emailMac node token email = d) ∧
    next.transactions = updateWhere (fun r => r.tokenHash == node.sha256 token && r.consumedAt.isNone) (consumedRow now)
      store.transactions := by
  simp only [complete,bindOk,ensureOk,orFailOk] at ok
  obtain ⟨_,_,_,hashed,_,csrfed,row,found,_,matches_,linked,_,_,_,_,_,_,_,_,_,last⟩ := ok
  cases last
  cases tokenHashOk hashed
  cases csrfHashOk csrfed
  refine ⟨row,openOk found,rfl,fun d held => ?_,rfl⟩
  simp only [emailMatches,held,bindOk,orFailOk,ensureOk] at matches_
  obtain ⟨email,known,_,bound,same⟩ := matches_
  cases emailBindingOk bound
  exact ⟨email,known,(beq_iff_eq.mp same).symm⟩

end Calls

section Soundness
variable {node : Node} {s : Ledger} {row : LoginTransaction} {u : Use}

def BornRow (node : Node) (b : Birth) (r : LoginTransaction) : Prop :=
  r.tokenHash = node.sha256 b.token ∧ r.returnPath = b.returnPath ∧ r.csrfHash = node.sha256 b.csrf ∧ r.expiresAt = b.expiresAt

structure UseOf (node : Node) (births : List Birth) (u : Use) (b : Birth) : Prop where
  token : node.sha256 u.token = node.sha256 b.token
  csrf : node.sha256 u.csrf = node.sha256 b.csrf
  inTime : u.now < b.expiresAt
  restarted : ∀ newToken, u.kind = .restarted newToken → ∃ n ∈ births, n.token = newToken ∧ n.returnPath = b.returnPath ∧
    node.sha256 n.csrf = node.sha256 b.csrf
  completed : ∀ mailbox path, u.kind = .completed mailbox path → path = b.returnPath

structure Agrees (node : Node) (d : Digest) (u : Use) : Prop where
  bound : ∀ email, u.kind = .bound email → emailMac node u.token email = d
  completed : ∀ mailbox path, u.kind = .completed mailbox path →
    ∃ email, mailbox = some email ∧ emailMac node u.token email = d

structure Marked (node : Node) (u : Use) (r : LoginTransaction) : Prop where
  consumed : u.consumes = true → r.consumedAt.isSome = true
  bound : ∀ email, u.kind = .bound email → r.emailBinding = some (emailMac node u.token email)

structure Sound (node : Node) (s : Ledger) : Prop where
  pkey : Indexed sameToken s.store.transactions
  distinct : (s.births.map fun b => node.sha256 b.token).Nodup
  rowBorn : ∀ r ∈ s.store.transactions, ∃ b ∈ s.births, BornRow node b r
  useBorn : ∀ u ∈ s.uses, ∃ b ∈ s.births, UseOf node s.births u b
  once : ((s.uses.filter Use.consumes).map fun u => node.sha256 u.token).Nodup
  rowUsed : ∀ r ∈ s.store.transactions, ∀ u ∈ s.uses, node.sha256 u.token = r.tokenHash → Marked node u r
  agree : ∀ a ∈ s.uses, ∀ b ∈ s.uses, ∀ email, a.kind = .bound email → node.sha256 a.token = node.sha256 b.token →
    Agrees node (emailMac node a.token email) b

theorem emptySound (node : Node) : Sound node .empty where
  pkey := indexedNil _
  distinct := List.nodup_nil
  rowBorn _ mem := absurd mem List.not_mem_nil
  useBorn _ mem := absurd mem List.not_mem_nil
  once := List.nodup_nil
  rowUsed _ mem := absurd mem List.not_mem_nil
  agree _ mem := absurd mem List.not_mem_nil

theorem useGrows {births more : List Birth} {u : Use} {b : Birth} (use : UseOf node births u b) :
    UseOf node (births ++ more) u b where
  token := use.token
  csrf := use.csrf
  inTime := use.inTime
  restarted newToken kind := by
    obtain ⟨n,hn,rest⟩ := use.restarted newToken kind
    exact ⟨n,List.mem_append_left _ hn,rest⟩
  completed := use.completed

theorem droppedSound {rows : List LoginTransaction} (sound : Sound node s) (fewer : rows.Sublist s.store.transactions) :
    Sound node { s with store.transactions := rows } where
  pkey := sound.pkey.sublist fewer
  distinct := sound.distinct
  rowBorn r mem := sound.rowBorn r (fewer.subset mem)
  useBorn := sound.useBorn
  once := sound.once
  rowUsed r mem := sound.rowUsed r (fewer.subset mem)
  agree := sound.agree

theorem bornSound {token : String} (csrf path : String) (now : Time) (sound : Sound node s)
    (fresh : ∀ b ∈ s.births, node.sha256 b.token ≠ node.sha256 token) :
    Sound node ⟨{ s.store with transactions := s.store.transactions ++ [newRow node token csrf path now] },
      s.births ++ [⟨token,path,csrf,now + minutes 10⟩],s.uses⟩ where
  pkey := by
    refine indexedAppend sound.pkey (fun a b => Bool.beq_comm) fun r mem => ?_
    obtain ⟨b,hb,hashed,_⟩ := sound.rowBorn r mem
    have other := fresh b hb
    rw [← hashed] at other
    simpa [sameToken,newRow] using Ne.symm other
  distinct := by
    rw [List.map_append]
    refine List.nodup_append.mpr ⟨sound.distinct,List.nodup_singleton _,fun a old b last same => ?_⟩
    obtain ⟨c,hc,rfl⟩ := List.mem_map.mp old
    rw [List.mem_singleton.mp last] at same
    exact fresh c hc same
  rowBorn r mem := by
    rcases List.mem_append.mp mem with old | new
    · obtain ⟨b,hb,born⟩ := sound.rowBorn r old
      exact ⟨b,List.mem_append_left _ hb,born⟩
    · rw [List.mem_singleton.mp new]
      exact ⟨_,List.mem_append_right _ (List.mem_singleton_self _),rfl,rfl,rfl,rfl⟩
  useBorn u mem := by
    obtain ⟨b,hb,use⟩ := sound.useBorn u mem
    exact ⟨b,List.mem_append_left _ hb,useGrows use⟩
  once := sound.once
  rowUsed r mem u used hashed := by
    rcases List.mem_append.mp mem with old | new
    · exact sound.rowUsed r old u used hashed
    · obtain ⟨b,hb,use⟩ := sound.useBorn u used
      rw [List.mem_singleton.mp new] at hashed
      exact absurd (use.token.symm.trans hashed) (fresh b hb)
  agree := sound.agree

structure Takes (node : Node) (births : List Birth) (u : Use) (row after : LoginTransaction) : Prop where
  opened : row.tokenHash = node.sha256 u.token ∧ row.csrfHash = node.sha256 u.csrf ∧ u.now < row.expiresAt ∧
    row.consumedAt = none
  consumed : u.consumes = true → after.consumedAt.isSome = true
  held : ∀ d, row.emailBinding = some d → after.emailBinding = some d ∧ Agrees node d u
  bound : ∀ email, u.kind = .bound email → after.emailBinding = some (emailMac node u.token email)
  restarted : ∀ newToken, u.kind = .restarted newToken → ∃ n ∈ births, n.token = newToken ∧
    n.returnPath = row.returnPath ∧ node.sha256 n.csrf = row.csrfHash
  completed : ∀ mailbox path, u.kind = .completed mailbox path → path = row.returnPath

def keepsColumns (f : LoginTransaction → LoginTransaction) : Prop := ∀ r, (f r).tokenHash = r.tokenHash ∧
  (f r).returnPath = r.returnPath ∧ (f r).csrfHash = r.csrfHash ∧ (f r).expiresAt = r.expiresAt

theorem takenSound {f : LoginTransaction → LoginTransaction} (sound : Sound node s) (mem : row ∈ s.store.transactions)
    (keeps : keepsColumns f) (takes : Takes node s.births u row (f row)) :
    Sound node ⟨{ s.store with transactions := updateWhere (·.tokenHash == node.sha256 u.token) f s.store.transactions },
      s.births,s.uses ++ [u]⟩ := by
  obtain ⟨hashed,csrf,unexpired,unconsumed⟩ := takes.opened
  obtain ⟨b,hb,born⟩ := sound.rowBorn row mem
  -- No earlier use has consumed the transaction.
  have open_ : ∀ v ∈ s.uses, node.sha256 v.token = node.sha256 u.token → v.consumes = false := by
    intro v used same
    by_contra other
    have spent := (sound.rowUsed row mem v used (same.trans hashed.symm)).consumed (by simpa using other)
    rw [unconsumed] at spent
    cases spent
  have only : ∀ o ∈ s.store.transactions, (o.tokenHash == node.sha256 u.token) = true → o = row := fun o ho chosen =>
    indexedEq sound.pkey (fun a b => Bool.beq_comm) ho mem (beq_iff_eq.mpr ((beq_iff_eq.mp chosen).trans hashed.symm))
  refine ⟨?_,sound.distinct,fun r hr => ?_,fun v hv => ?_,?_,fun r hr v hv same => ?_,fun a ha c hc email kind same => ?_⟩
  · refine indexedUpdate sound.pkey fun a b hit => ?_
    have same : ∀ r, (if r.tokenHash == node.sha256 u.token then f r else r).tokenHash = r.tokenHash := fun r => by
      split
      · exact (keeps r).1
      · rfl
    simp only [sameToken,same] at hit ⊢
    exact hit
  · obtain ⟨o,ho,rfl⟩ := memUpdateWhere.mp hr
    obtain ⟨c,hc,ofRow⟩ := sound.rowBorn o ho
    refine ⟨c,hc,?_⟩
    split
    · obtain ⟨token,path,digest,expires⟩ := keeps o
      exact ⟨token.trans ofRow.1,path.trans ofRow.2.1,digest.trans ofRow.2.2.1,expires.trans ofRow.2.2.2⟩
    · exact ofRow
  · rcases List.mem_append.mp hv with old | new
    · exact sound.useBorn v old
    · rw [List.mem_singleton.mp new]
      refine ⟨b,hb,hashed.symm.trans born.1,csrf.symm.trans born.2.2.1,by rw [← born.2.2.2]; exact unexpired,
        fun newToken kind => ?_,fun mailbox path kind => (takes.completed mailbox path kind).trans born.2.1⟩
      obtain ⟨n,hn,named,path,digest⟩ := takes.restarted newToken kind
      exact ⟨n,hn,named,path.trans born.2.1,digest.trans born.2.2.1⟩
  · rw [List.filter_append,List.map_append]
    refine List.nodup_append.mpr ⟨sound.once,?_,fun a old c last same => ?_⟩
    · exact List.Nodup.sublist (List.filter_sublist.map _) (List.nodup_singleton _)
    · obtain ⟨v,hv,rfl⟩ := List.mem_map.mp old
      obtain ⟨w,hw,rfl⟩ := List.mem_map.mp last
      obtain ⟨used,spends⟩ := List.mem_filter.mp hv
      rw [List.mem_singleton.mp (List.mem_filter.mp hw).1] at same
      rw [open_ v used same] at spends
      cases spends
  · obtain ⟨o,ho,rfl⟩ := memUpdateWhere.mp hr
    by_cases chosen : (o.tokenHash == node.sha256 u.token) = true
    · cases only o ho chosen
      rw [if_pos chosen] at same ⊢
      rw [(keeps row).1] at same
      rcases List.mem_append.mp hv with old | new
      · have marked := sound.rowUsed row mem v old same
        refine ⟨fun spends => ?_,fun email kind => (takes.held _ (marked.bound email kind)).1⟩
        rw [open_ v old (same.trans hashed)] at spends
        cases spends
      · rw [List.mem_singleton.mp new]
        exact ⟨takes.consumed,takes.bound⟩
    · rw [if_neg chosen] at same ⊢
      rcases List.mem_append.mp hv with old | new
      · exact sound.rowUsed o ho v old same
      · rw [List.mem_singleton.mp new] at same
        exact absurd (beq_iff_eq.mpr same.symm) chosen
  · rcases List.mem_append.mp ha with oldA | newA
    · rcases List.mem_append.mp hc with oldC | newC
      · exact sound.agree a oldA c oldC email kind same
      · rw [List.mem_singleton.mp newC] at same ⊢
        exact (takes.held _ ((sound.rowUsed row mem a oldA (same.trans hashed.symm)).bound email kind)).2
    · rw [List.mem_singleton.mp newA] at kind same ⊢
      rcases List.mem_append.mp hc with oldC | newC
      · refine ⟨fun other bound => ?_,fun mailbox path completed => ?_⟩
        · have held := (sound.rowUsed row mem c oldC (same.symm.trans hashed.symm)).bound other bound
          exact ((takes.held _ held).2.bound email kind).symm
        · have idle := open_ c oldC same.symm
          simp [Use.consumes,completed] at idle
      · rw [List.mem_singleton.mp newC]
        refine ⟨fun other bound => ?_,fun mailbox path completed => ?_⟩
        · rw [kind] at bound
          cases bound
          rfl
        · rw [kind] at completed
          cases completed

end Soundness

section Runs
variable {node : Node} {s : Ledger}

theorem updateSelf (p : LoginTransaction → Bool) (rows : List LoginTransaction) : updateWhere p (fun r => r) rows = rows := by
  simp [updateWhere]

theorem purgeSublist (now : Time) (rows : List LoginTransaction) : (purge now rows).Sublist rows := List.filter_sublist

theorem bindSound {token csrf email : String} {now : Time} {next : Store} (sound : Sound node s)
    (ok : bindEmail node token csrf email now s.store = .ok next) :
    Sound node ⟨next,s.births,s.uses ++ [⟨token,csrf,now,.bound email⟩]⟩ := by
  rcases bindEmailOk ok with ⟨row,opened,matches_,rfl⟩ | ⟨row,opened,held,rfl⟩
  · refine takenSound (u := ⟨token,csrf,now,.bound email⟩)
      (f := fun r => { r with emailBinding := some (emailMac node token email) }) sound opened.member (fun r => ⟨rfl,rfl,rfl,rfl⟩) ⟨⟨opened.token,opened.csrf,opened.unexpired,opened.unconsumed⟩,fun spends => ?_,
        fun d before => ?_,fun other kind => ?_,fun newToken kind => ?_,fun mailbox path kind => ?_⟩
    · cases spends
    · refine ⟨congrArg some (matches_ d before),fun other kind => ?_,fun mailbox path kind => ?_⟩
      · cases kind
        exact matches_ d before
      · cases kind
    · cases kind
      rfl
    · cases kind
    · cases kind
  · have taken := takenSound (u := ⟨token,csrf,now,.bound email⟩) (f := fun r => r) sound opened.member
      (fun r => ⟨rfl,rfl,rfl,rfl⟩) ⟨⟨opened.token,opened.csrf,opened.unexpired,opened.unconsumed⟩,fun spends => ?_,
        fun d before => ⟨before,fun other kind => ?_,fun mailbox path kind => ?_⟩,fun other kind => ?_,fun newToken kind => ?_,
        fun mailbox path kind => ?_⟩
    · rw [updateSelf] at taken
      exact taken
    · cases spends
    · cases kind
      exact Option.some.inj (held.symm.trans before)
    · cases kind
    · cases kind
      exact held
    · cases kind
    · cases kind

theorem restartSound {token csrf newToken : String} {now : Time} {next : Store} {t : AccountLoginTransaction}
    (sound : Sound node s) (fresh : ∀ b ∈ s.births, node.sha256 b.token ≠ node.sha256 newToken)
    (ok : restart node token csrf newToken now s.store = .ok (next,t)) :
    Sound node ⟨next,s.births ++ [⟨t.token,t.returnPath,csrf,t.expiresAt⟩],s.uses ++ [⟨token,csrf,now,.restarted newToken⟩]⟩ := by
  obtain ⟨row,opened,rfl,rfl⟩ := restartOk ok
  obtain ⟨b,hb,born⟩ := sound.rowBorn row opened.member
  have added := bornSound csrf row.returnPath now sound fresh
  -- The update passes the new row by.
  have apart : (newRow node newToken csrf row.returnPath now).tokenHash ≠ node.sha256 token := by
    have other := fresh b hb
    rw [← born.1,opened.token] at other
    exact Ne.symm other
  have rows : updateWhere (·.tokenHash == node.sha256 token) (consumedRow now)
      (s.store.transactions ++ [newRow node newToken csrf row.returnPath now]) =
      updateWhere (·.tokenHash == node.sha256 token) (consumedRow now) s.store.transactions ++
        [newRow node newToken csrf row.returnPath now] := by
    simp only [updateWhere,List.map_append,List.map_cons,List.map_nil,beq_iff_eq,if_neg apart]
  have taken := takenSound (u := ⟨token,csrf,now,.restarted newToken⟩) (f := consumedRow now) added
    (List.mem_append_left _ opened.member) (fun r => ⟨rfl,rfl,rfl,rfl⟩)
    ⟨⟨opened.token,opened.csrf,opened.unexpired,opened.unconsumed⟩,fun _ => rfl,
      fun d before => ⟨before,fun other kind => ?_,fun mailbox path kind => ?_⟩,fun other kind => ?_,
      fun other kind => ?_,fun mailbox path kind => ?_⟩
  · dsimp only at taken
    rw [rows] at taken
    exact taken
  · cases kind
  · cases kind
  · cases kind
  · cases kind
    exact ⟨_,List.mem_append_right _ (List.mem_singleton_self _),rfl,rfl,opened.csrf.symm⟩
  · cases kind

theorem completeSound {token csrf authUserId account tenant : String} {now : Time} {next : Store}
    {login : CompletedAccountLogin} (sound : Sound node s)
    (ok : complete node token csrf authUserId account tenant now s.store = .ok (next,login)) :
    Sound node ⟨next,s.births,
      s.uses ++ [⟨token,csrf,now,.completed (s.store.emails.lookup authUserId) login.returnPath⟩]⟩ := by
  obtain ⟨row,opened,path,matches_,rows⟩ := completeOk ok
  have same : updateWhere (fun r => r.tokenHash == node.sha256 token && r.consumedAt.isNone) (consumedRow now)
      s.store.transactions = updateWhere (·.tokenHash == node.sha256 token) (consumedRow now) s.store.transactions := by
    refine List.map_congr_left fun r mem => ?_
    by_cases chosen : (r.tokenHash == node.sha256 token) = true
    · have alone : r = row := indexedEq sound.pkey (fun a b => Bool.beq_comm) mem opened.member
        (beq_iff_eq.mpr ((beq_iff_eq.mp chosen).trans opened.token.symm))
      simp only [alone,opened.unconsumed,Option.isNone_none,Bool.and_true]
    · simp [chosen]
  have taken := takenSound (u := ⟨token,csrf,now,.completed (s.store.emails.lookup authUserId) login.returnPath⟩)
    (f := consumedRow now) sound opened.member (fun r => ⟨rfl,rfl,rfl,rfl⟩)
    ⟨⟨opened.token,opened.csrf,opened.unexpired,opened.unconsumed⟩,fun _ => rfl,
      fun d before => ⟨before,fun other kind => ?_,fun mailbox given kind => ?_⟩,fun other kind => ?_,
      fun other kind => ?_,fun mailbox given kind => ?_⟩
  · rw [← same,← rows] at taken
    exact ⟨taken.pkey,taken.distinct,taken.rowBorn,taken.useBorn,taken.once,taken.rowUsed,taken.agree⟩
  · cases kind
  · cases kind
    exact matches_ d before
  · cases kind
  · cases kind
  · cases kind
    exact path

theorem mapOk {α β : Type} {out : Except Fault α} {f : α → β} {b : β} (ok : out.map f = .ok b) :
    ∃ a, out = .ok a ∧ f a = b := by
  cases out with
  | error fault => cases ok
  | ok a => exact ⟨a,rfl,Except.ok.inj ok⟩

theorem stepSound {e : Event} (sound : Sound node s) (fresh : Fresh node s e) : Sound node (step node s e) := by
  cases e with
  | other event => exact ⟨sound.pkey,sound.distinct,sound.rowBorn,sound.useBorn,sound.once,sound.rowUsed,sound.agree⟩
  | mailboxes emails =>
    exact ⟨sound.pkey,sound.distinct,sound.rowBorn,sound.useBorn,sound.once,sound.rowUsed,sound.agree⟩
  | call now op =>
    simp only [step]
    split
    · rename_i next answer ok
      cases op with
      | create returnPath csrf token =>
        obtain ⟨⟨made,t⟩,created,last⟩ := mapOk ok
        cases last
        obtain ⟨rfl,rfl⟩ := createOk created
        have added := bornSound csrf returnPath now
          (droppedSound sound (purgeSublist now s.store.transactions)) (fresh token rfl)
        simp only [bornOf,usedBy,List.append_nil]
        exact added
      | bindEmail token csrf email =>
        obtain ⟨bound,done,last⟩ := mapOk ok
        cases last
        simp only [bornOf,List.append_nil]
        exact bindSound sound done
      | restart token csrf newToken =>
        obtain ⟨⟨made,t⟩,restarted,last⟩ := mapOk ok
        cases last
        exact restartSound sound (fresh newToken rfl) restarted
      | complete token csrf authUserId account tenant =>
        obtain ⟨⟨made,login⟩,completed,last⟩ := mapOk ok
        cases last
        simp only [bornOf,List.append_nil]
        exact completeSound sound completed
    · exact sound

end Runs

section Safety
variable {node : Node} {s : Ledger}

theorem bornText {b : Birth} (mem : b ∈ s.births) : b.token ∈ hashedTexts s ∧ b.csrf ∈ hashedTexts s :=
  ⟨List.mem_append_left _ (List.mem_flatMap.mpr ⟨b,mem,List.mem_cons_self⟩),
    List.mem_append_left _ (List.mem_flatMap.mpr ⟨b,mem,List.mem_cons_of_mem _ List.mem_cons_self⟩)⟩

theorem usedText {u : Use} (mem : u ∈ s.uses) : u.token ∈ hashedTexts s ∧ u.csrf ∈ hashedTexts s :=
  ⟨List.mem_append_right _ (List.mem_flatMap.mpr ⟨u,mem,List.mem_cons_self⟩),
    List.mem_append_right _ (List.mem_flatMap.mpr ⟨u,mem,List.mem_cons_of_mem _ List.mem_cons_self⟩)⟩

theorem macText {u : Use} {email : String} (mem : u ∈ s.uses) (known : mailboxOf u = some email) :
    (u.token,email) ∈ macTexts s :=
  List.mem_filterMap.mpr ⟨u,mem,by rw [known]; rfl⟩

theorem sameBirth (sound : Sound node s) {a b : Birth} (left : a ∈ s.births) (right : b ∈ s.births)
    (token : a.token = b.token) : a = b :=
  List.inj_on_of_nodup_map sound.distinct left right (congrArg node.sha256 token)

theorem consumedTokens (sound : Sound node s) : ((s.uses.filter Use.consumes).map (·.token)).Nodup := by
  refine List.Nodup.of_map node.sha256 ?_
  rw [List.map_map]
  exact sound.once

theorem sameUse (sound : Sound node s) {a b : Use} (left : a ∈ s.uses) (right : b ∈ s.uses) (spendsLeft : a.consumes = true)
    (spendsRight : b.consumes = true) (token : a.token = b.token) : a = b :=
  List.inj_on_of_nodup_map (consumedTokens sound) (List.mem_filter.mpr ⟨left,spendsLeft⟩)
    (List.mem_filter.mpr ⟨right,spendsRight⟩) token

theorem chainEnds (sound : Sound node s) {a : Use} {email : Option String} {path other : String} (mem : a ∈ s.uses)
    (kind : a.kind = .completed email path) (chain : Descends s.uses a.token other) : other = a.token := by
  rcases Relation.ReflTransGen.cases_head chain with same | ⟨next,⟨u,used,token,restarted⟩,_⟩
  · exact same.symm
  · have same : u = a := sameUse sound used mem (by simp [Use.consumes,restarted]) (by simp [Use.consumes,kind]) token
    rw [same,kind] at restarted
    cases restarted

theorem oneRestart (sound : Sound node s) : Relator.RightUnique (Restarted s.uses) := by
  rintro a x y ⟨u,hu,uToken,uKind⟩ ⟨v,hv,vToken,vKind⟩
  have same : u = v := sameUse sound hu hv (by simp [Use.consumes,uKind]) (by simp [Use.consumes,vKind])
    (uToken.trans vToken.symm)
  rw [same,vKind] at uKind
  cases uKind
  rfl

theorem chainCompletes (sound : Sound node s) {root : String} {a b : Use} {aEmail bEmail : Option String} {aPath bPath : String}
    (left : a ∈ s.uses) (right : b ∈ s.uses) (aKind : a.kind = .completed aEmail aPath) (bKind : b.kind = .completed bEmail bPath)
    (toA : Descends s.uses root a.token) (toB : Descends s.uses root b.token) : a = b := by
  have token : a.token = b.token := by
    rcases Relation.ReflTransGen.total_of_right_unique (oneRestart sound) toA toB with onward | back
    · exact (chainEnds sound left aKind onward).symm
    · exact chainEnds sound right bKind back
  exact sameUse sound left right (by simp [Use.consumes,aKind]) (by simp [Use.consumes,bKind]) token

theorem chainPreserves (sound : Sound node s) (clear : NoCollision node s) {a : Birth} (mem : a ∈ s.births) {last : String}
    (chain : Descends s.uses a.token last) : ∀ b ∈ s.births, b.token = last → b.returnPath = a.returnPath ∧ b.csrf = a.csrf := by
  induction chain with
  | refl =>
    intro b hb token
    rw [sameBirth sound hb mem token]
    exact ⟨rfl,rfl⟩
  | tail _ link ih =>
    obtain ⟨u,used,uToken,kind⟩ := link
    intro b hb token
    obtain ⟨p,hp,use⟩ := sound.useBorn u used
    obtain ⟨n,hn,named,path,digest⟩ := use.restarted _ kind
    have whole : p.token = u.token := clear.sha256 _ (bornText hp).1 _ (usedText used).1 use.token.symm
    obtain ⟨samePath,sameCsrf⟩ := ih p hp (whole.trans uToken)
    rw [sameBirth sound hb hn (token.trans named.symm)]
    exact ⟨path.trans samePath,(clear.sha256 _ (bornText hn).2 _ (bornText hp).2 digest).trans sameCsrf⟩

theorem soundLogins (sound : Sound node s) (clear : NoCollision node s) : LoginsSafe node s where
  consumedOnce := consumedTokens sound
  oneCompletion root a b aEmail aPath bEmail bPath left right aKind bKind toA toB :=
    chainCompletes sound left right aKind bKind toA toB
  bindingKept a b email other left right aKind bKind token := by
    have same := (sound.agree a left b right email aKind (congrArg node.sha256 token)).bound other bKind
    exact clear.hmac (a.token,email) (macText left (by rw [mailboxOf,aKind])) (b.token,other)
      (macText right (by rw [mailboxOf,bKind])) token same.symm
  bindingStored u email used kind r mem hashed := (sound.rowUsed r mem u used hashed.symm).bound email kind
  boundCompletes a b email mailbox path left right aKind bKind token := by
    obtain ⟨known,rfl,same⟩ := (sound.agree a left b right email aKind (congrArg node.sha256 token)).completed mailbox path bKind
    have texts := clear.hmac (a.token,email) (macText left (by rw [mailboxOf,aKind])) (b.token,known)
      (macText right (by rw [mailboxOf,bKind])) token same.symm
    rw [show email = known from texts]
  preserved a b left right chain := chainPreserves sound clear left chain b right rfl
  inTime u used := by
    obtain ⟨b,hb,use⟩ := sound.useBorn u used
    exact ⟨b,hb,clear.sha256 _ (bornText hb).1 _ (usedText used).1 use.token.symm,use.inTime,
      clear.sha256 _ (usedText used).2 _ (bornText hb).2 use.csrf,use.completed⟩
  stored r mem := sound.rowBorn r mem

theorem failureKeeps {now : Time} {op : Op} {fault : Fault} (failed : exec node now s.store op = .error fault) :
    step node s (.call now op) = s := by
  simp only [step,failed]

/- Random tokens and the two hash functions apart, every run is safe, and a call that fails
leaves every table as it was. -/
theorem loginsSafe (node : Node) (es : List Event) (fresh : Guarded (step node) (Fresh node) .empty es)
    (clear : NoCollision node (run (step node) .empty es)) :
    LoginsSafe node (run (step node) .empty es) ∧
    ∀ s now op fault, exec node now s.store op = .error fault → step node s (.call now op) = s :=
  ⟨soundLogins (invariantRun (fun _ _ inv ok => stepSound inv ok) (emptySound node) fresh) clear,
    fun _ _ _ _ failed => failureKeeps failed⟩

/- SHA-256 of two tokens and a csrf secret, and HMAC-SHA-256 of a mailbox under each token. -/
def firstToken : String := "AAAAAAAAAAAAAAAAAAAAAAAAAAAAAAAAAAAAAAAAAAA"
def secondToken : String := "BBBBBBBBBBBBBBBBBBBBBBBBBBBBBBBBBBBBBBBBBBB"
def sampleCsrf : String := "CCCCCCCCCCCCCCCCCCCCCCCCCCCCCCCCCCCCCCCCCCC"
def loginNode : Node := tabled
  [(firstToken,[15,0,115,133,182,249,212,183,238,178,116,134,5,175,225,169,132,160,163,191,
      163,240,20,208,158,42,120,76,233,229,205,26]),
    (secondToken,[65,45,196,108,201,227,203,38,242,159,124,20,21,197,86,52,154,246,41,4,
      197,209,91,10,45,140,253,197,207,162,43,52]),
    (sampleCsrf,[148,32,20,175,3,25,92,151,252,138,97,33,160,62,22,96,184,144,39,165,
      56,50,90,16,30,186,66,109,172,215,229,135])]
  [((tokenKey firstToken,"user@example.test"),[172,163,51,121,21,143,70,182,168,176,92,190,109,200,227,254,239,26,237,224,
      201,22,239,127,36,230,198,141,156,158,248,22]),
    ((tokenKey secondToken,"user@example.test"),[184,46,205,123,232,215,177,72,85,199,191,119,8,41,248,133,151,158,150,35,
      49,19,107,130,145,53,134,161,239,210,203,158])] []

def restartedLogin : List Event :=
  [.other ⟨seconds 1,.signUp "user_0001"⟩,.mailboxes [("user_0001","user@example.test")],
    .call (seconds 2) (.create "/app" sampleCsrf firstToken),
    .call (seconds 3) (.bindEmail firstToken sampleCsrf "user@example.test"),
    .call (seconds 4) (.restart firstToken sampleCsrf secondToken),
    .call (seconds 5) (.bindEmail secondToken sampleCsrf "user@example.test"),
    .call (seconds 6) (.complete secondToken sampleCsrf "user_0001" System.sampleAccount System.sampleTenant)]

theorem restartCompletes : LoginsSafe loginNode (run (step loginNode) .empty restartedLogin) ∧
    (run (step loginNode) .empty restartedLogin).uses.map (·.kind) = [.bound "user@example.test",.restarted secondToken,
      .bound "user@example.test",.completed (some "user@example.test") "/app"] :=
  ⟨(loginsSafe loginNode restartedLogin (by decide) ⟨by decide,by decide⟩).1,by decide⟩

end Safety

end Wepuu.LoginChains
