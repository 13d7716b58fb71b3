import Wepuu.AuditedRequests
import Wepuu.ConsoleRuns
import Wepuu.Cookies
import Wepuu.PathRouting
import Wepuu.ReturnPaths
import Mathlib.Data.List.Nodup

/-! Browsers at the console host of a deployment with two origins: the cookies that its routes
set, the requests that carry them, and the console store behind the routes. -/
namespace Wepuu.ConsoleBrowsers
open ConsoleAuth ConsoleRuns Cookies JsValues NodeApi Relational ReturnPaths Runs Schema UrlPaths
open Wepuu.AuditedRequests (AccountPrincipal accountPrincipalSchema)
open Wepuu.PathRouting (startsWith)

section Source
variable (node : Node) (authority : List Char → Option Authority)

def CSRF_COOKIE : List Char := "__Host-wepuu_csrf".toList
def CONSOLE_SESSION_COOKIE : List Char := "__Host-wepuu_console".toList
def CONSOLE_LOGIN_COOKIE_PREFIX : List Char := "__Host-wepuu_console_login_".toList

/- What String.prototype.trim removes. -/
def space (c : Char) : Bool :=
  ['\t','\n','\x0b','\x0c','\r',' ','\u00a0','\u1680','\u2028','\u2029','\u202f','\u205f','\u3000','\ufeff'].contains c ||
  ('\u2000' ≤ c && c ≤ '\u200a')

abbrev Text := List Char

def requestCookie (header : Option Text) (cookieName : Text) : Option Text :=
  header.bind fun header => ((header.splitOn ';').map (strip space)).findSome? fun part =>
    match part.splitOn '=' with
    | [] => none
    | name :: value => if name == cookieName then some (['='].intercalate value) else none

def secureCookie (name value : Text) (maxAgeSeconds : Int) : Text :=
  name ++ '=' :: value ++ "; Max-Age=".toList ++ Nat.toDigits 10 maxAgeSeconds.toNat ++
    "; Path=/; Secure; HttpOnly; SameSite=Lax".toList

def consoleLoginCookieName (requestId : String) : Text := CONSOLE_LOGIN_COOKIE_PREFIX ++ requestId.toList

def clearCookie (name : Text) : Text := secureCookie name [] 0

def csrfCookie (value : String) : Text :=
  CSRF_COOKIE ++ '=' :: value.toList ++ "; Max-Age=43200; Path=/; Secure; SameSite=Lax".toList

def sameSecret (first second : String) : Bool := decide (first.toUTF8.data = second.toUTF8.data)

structure Origins where
  authOrigin : String
  appOrigin : String

variable (origins : Origins)

structure Request where
  origin : Option String
  cookie : Option Text

structure Reply where
  setCookies : List Text
  location : String
  deriving DecidableEq, Repr

/- GET /v1/console/login. The clock is read once by the store and once for the cookie. -/
def login (returnTo : Option String) (requestId browserSecret : String) (now dateNow : Time) (store : Store) :
    Except Fault (Store × Reply) := do
  ensure (returnTo.all fun text => decide (utf16Length text ≤ 2048)) (.thrown "invalid_request")
  let returnPath ← validatedReturnTo authority returnTo
  ensure (startsWith returnPath "/app") (.thrown "invalid_request")
  let created ← createLogin node returnPath requestId browserSecret now store
  let maxAge := max 1 ((created.2.expiresAt - dateNow) / seconds 1)
  .ok (created.1,⟨[secureCookie (consoleLoginCookieName created.2.requestId) created.2.browserSecret.toList maxAge],
    origins.authOrigin ++ "/v1/account/console/authorize?request=" ++ created.2.requestId⟩)

def consoleExchangeSchema : JsValue → Option (String × String)
  | .obj members => do
    guard (onlyMembers ["request","code"] members)
    let request ← textMember requestIdShape members "request"
    let code ← textMember (matchesClass opaqueChar 43 43) members "code"
    some (request,code)
  | _ => none

def exchangeInput (request : Request) (body : JsValue) : Except Fault ExchangeInput := do
  ensure (request.origin == some origins.appOrigin) (.thrown "forbidden")
  let parsed ← orFail (.thrown "invalid_request") (consoleExchangeSchema body)
  let browserSecret ← orFail (.thrown "invalid_request") (requestCookie request.cookie (consoleLoginCookieName parsed.1))
  .ok ⟨parsed.1,String.ofList browserSecret,parsed.2⟩

def exchange (request : Request) (body : JsValue) (token : String) (now dateNow : Time) (store : Store) :
    Except Fault (Store × Reply) := do
  let input ← exchangeInput origins request body
  let session ← (exchangeLogin node input token now store).mapError fun _ => .thrown "invalid_request"
  let maxAge := max 1 ((session.2.expiresAt - dateNow) / seconds 1)
  .ok (session.1,⟨[secureCookie CONSOLE_SESSION_COOKIE session.2.token.toList maxAge,
    clearCookie (consoleLoginCookieName input.requestId)],session.2.returnPath⟩)

def authenticate (cookie : Option Text) (now : Time) (store : Store) : Except Fault (Option AccountPrincipal) :=
  match (requestCookie cookie CONSOLE_SESSION_COOKIE).map String.ofList with
  | none => .ok none
  | some token =>
    if matchesClass opaqueChar 43 43 token then
      match resolveSession (node.sha256 token) now store with
      | none => .ok none
      | some session =>
        let principal : AccountPrincipal := ⟨session.accountId,session.authenticationTime,.emailOtp⟩
        if accountPrincipalSchema principal then .ok (some principal) else .error (.thrown "ZodError")
    else .ok none

def uiCsrf (cookie : Option Text) (drawn : String) : String × List Text :=
  match (requestCookie cookie CSRF_COOKIE).map String.ofList with
  | some existing => if matchesClass opaqueChar 43 43 existing then (existing,[]) else (drawn,[csrfCookie drawn])
  | none => (drawn,[csrfCookie drawn])

structure UiForm where
  csrf : String
  idempotencyKey : String
  deriving DecidableEq, Repr

def uiFormSchema : JsValue → Option UiForm
  | .obj members => do
    guard (onlyMembers ["csrf","idempotency_key"] members)
    let csrf ← textMember (matchesClass opaqueChar 43 43) members "csrf"
    let idempotencyKey ← textMember idempotencyKeyShape members "idempotency_key"
    some ⟨csrf,idempotencyKey⟩
  | _ => none

def validateUiMutation (request : Request) (formInput : JsValue) : Except Fault UiForm := do
  ensure (request.origin == some origins.appOrigin) (.thrown "forbidden")
  let form ← orFail (.thrown "forbidden") (uiFormSchema formInput)
  let cookie ← orFail (.thrown "forbidden") (requestCookie request.cookie CSRF_COOKIE)
  ensure (sameSecret (String.ofList cookie) form.csrf) (.thrown "forbidden")
  .ok form

def logout (request : Request) (formInput : JsValue) (requestId : String) (random : Digest) (now : Time) (store : Store) :
    Except Fault (Store × Reply) := do
  let _ ← validateUiMutation origins request formInput
  let token ← orFail (.thrown "unauthenticated") (requestCookie request.cookie CONSOLE_SESSION_COOKIE)
  let next ← beginLogout (node.sha256 (String.ofList token)) "/app" requestId random now store
  .ok (next,⟨[clearCookie CONSOLE_SESSION_COOKIE,clearCookie CSRF_COOKIE],
    origins.authOrigin ++ "/v1/account/console/logout?request=" ++ requestId⟩)

end Source

section Fields
variable {jar : Jar} {name value : Text}

theorem octetSpace {c : Char} (octet : octetChar c = true) : space c = false := by
  have bounds := octet
  simp only [octetChar,Bool.and_eq_true,decide_eq_true_eq] at bounds
  rw [Bool.eq_false_iff]
  intro gap
  rcases Bool.or_eq_true_iff.mp gap with listed | wide
  · simp only [List.contains_eq_mem,decide_eq_true_eq,List.mem_cons,List.not_mem_nil,or_false] at listed
    rcases listed with rfl | rfl | rfl | rfl | rfl | rfl | rfl | rfl | rfl | rfl | rfl | rfl | rfl | rfl
    all_goals exact absurd octet (by decide)
  · simp only [Bool.and_eq_true,decide_eq_true_eq] at wide
    exact absurd (Char.le_trans wide.1 bounds.1.2) (by decide)

theorem cookieParts (cookie : Cookie) :
    strip space cookie.text = cookie.text ∧ strip space (' ' :: cookie.text) = cookie.text := by
  have plain : ∀ c ∈ cookie.text, space c = false := by
    intro c mem
    rcases List.mem_append.mp mem with inName | rest
    · exact octetSpace (tokenOctet (tokens cookie c inName))
    · rcases List.mem_cons.mp rest with rfl | inValue
      · decide
      · exact octetSpace (valueOctets cookie c inValue)
  exact ⟨stripPlain plain,stripFront (by decide) plain⟩

theorem partRead (cookie : Cookie) (cookieName : Text) :
    (match cookie.text.splitOn '=' with
      | [] => none
      | name :: value => if name == cookieName then some (['='].intercalate value) else none) =
    if cookie.name == cookieName then some cookie.value else none := by
  unfold Cookie.text
  rw [List.splitOn_append_cons_self_of_not_mem (nameEquals cookie)]
  simp only [List.intercalate_splitOn]

theorem jarRead (jar : Jar) (cookieName : Text) : requestCookie (cookieField jar) cookieName = stored cookieName jar := by
  have parts : ∀ cookies : Jar, (cookies.map Cookie.text).findSome? (fun part =>
      match part.splitOn '=' with
      | [] => none
      | name :: value => if name == cookieName then some (['='].intercalate value) else none) = stored cookieName cookies := by
    intro cookies
    induction cookies with
    | nil => rfl
    | cons cookie cookies ih =>
      rw [List.map_cons,List.findSome?_cons,partRead]
      unfold stored
      rw [List.find?_cons]
      cases named : cookie.name == cookieName with
      | true => rfl
      | false => exact ih
  cases jar with
  | nil => rfl
  | cons cookie rest =>
    have field : cookieField (cookie :: rest) = some ("; ".toList.intercalate ((cookie :: rest).map Cookie.text)) := rfl
    unfold requestCookie
    rw [field]
    simp only [Option.bind_some]
    rw [fieldPieces field cookieParts,parts]

theorem opaqueToken {c : Char} (known : opaqueChar c = true) : tokenChar c = true := by
  have marks : c = '_' ∨ c = '-' ∨ (('0' ≤ c ∧ c ≤ '9') ∨ ('A' ≤ c ∧ c ≤ 'Z') ∨ ('a' ≤ c ∧ c ≤ 'z')) := by
    simp only [opaqueChar,letterOrDigit,Bool.or_eq_true,Bool.and_eq_true,decide_eq_true_eq,beq_iff_eq] at known
    tauto
  have range : '!' ≤ c ∧ c ≤ '~' := by
    rcases marks with rfl | rfl | digit | upper | lower
    · decide
    · decide
    · exact ⟨Char.le_trans (by decide) digit.1,Char.le_trans digit.2 (by decide)⟩
    · exact ⟨Char.le_trans (by decide) upper.1,Char.le_trans upper.2 (by decide)⟩
    · exact ⟨Char.le_trans (by decide) lower.1,Char.le_trans lower.2 (by decide)⟩
  have unlisted : ∀ listed : List Char, listed.any opaqueChar = false → listed.contains c = false := by
    intro listed outside
    rw [List.contains_eq_mem,decide_eq_false_iff_not]
    exact fun mem => absurd known (List.any_eq_false.mp outside c mem)
  unfold tokenChar octetChar
  rw [unlisted _ (by decide),unlisted _ (by decide),decide_eq_true range.1,decide_eq_true range.2]
  rfl

def attributes (age : Int) : List (List Char) :=
  [" Max-Age=".toList ++ Nat.toDigits 10 age.toNat," Path=/".toList," Secure".toList," HttpOnly".toList,
    " SameSite=Lax".toList]

theorem secureText (age : Int) : secureCookie name value age =
    [';'].intercalate ((name ++ '=' :: value) :: attributes age) := by
  simp only [secureCookie,attributes,List.intercalate,List.intersperse,List.flatten_cons,List.flatten_nil,List.append_assoc,
    List.cons_append,List.append_nil]
  rfl

theorem attributesApart (age : Int) : ∀ a ∈ attributes age, ';' ∉ a := by
  intro a mem
  simp only [attributes,List.mem_cons,List.not_mem_nil,or_false] at mem
  rcases mem with rfl | rfl | rfl | rfl | rfl
  · intro inside
    rcases List.mem_append.mp inside with text | digits
    · exact absurd text (by decide)
    · exact (digitPlain digits).2.2 rfl
  all_goals decide

theorem attributesAge (age : Int) : (attributes age).filterMap maxAge = [decide (age ≤ 0)] := by
  unfold attributes
  rw [List.filterMap_cons_some (maxAgeDigits age.toNat)]
  have zero : decide (age.toNat = 0) = decide (age ≤ 0) := decide_eq_decide.mpr Int.toNat_eq_zero
  have others : [" Path=/".toList," Secure".toList," HttpOnly".toList," SameSite=Lax".toList].filterMap maxAge = [] := by
    decide
  rw [zero,others]

theorem secureReceived (cookie : Cookie) (same : name = cookie.name ∧ value = cookie.value) (age : Int) :
    receive (secureCookie name value age) jar = if age ≤ 0 then remove cookie.name jar else put cookie jar := by
  have text : name ++ '=' :: value = cookie.text := by rw [same.1,same.2,Cookie.text]
  rw [secureText,text,receivePair (attributesApart age),attributesAge]
  simp

theorem csrfReceived {value : String} (cookie : Cookie) (same : cookie.name = CSRF_COOKIE ∧ value.toList = cookie.value) :
    receive (csrfCookie value) jar = put cookie jar := by
  have kept : [" Max-Age=43200".toList," Path=/".toList," Secure".toList," SameSite=Lax".toList].filterMap maxAge = [false] := by
    decide
  have text : csrfCookie value = [';'].intercalate (cookie.text ::
      [" Max-Age=43200".toList," Path=/".toList," Secure".toList," SameSite=Lax".toList]) := by
    simp only [csrfCookie,Cookie.text,same.1,same.2,List.intercalate,List.intersperse,List.flatten_cons,
      List.flatten_nil,List.append_assoc,List.cons_append,List.append_nil]
    rfl
  have apart : [" Max-Age=43200".toList," Path=/".toList," Secure".toList," SameSite=Lax".toList].any
      (fun a => a.contains ';') = false := by decide
  rw [text,receivePair fun a mem inside => List.any_eq_false.mp apart a mem (List.contains_iff_mem.mpr inside),kept]
  rfl

end Fields

section Worlds
variable (node : Node) (authority : List Char → Option Authority) (origins : Origins)

abbrev Browser := Nat

/- The store with its logs, the jars, and who began which login and was given which csrf value. -/
structure World where
  ledger : Ledger
  jars : Browser → Jar
  begun : List (Browser × String)
  given : List (Browser × String)

def World.empty : World := ⟨.empty,fun _ => [],[],[]⟩

/- A request of a browser, which names the origin of the page it comes from. -/
def request (w : World) (i : Browser) (origin : Option String) : Request :=
  ⟨origin,cookieField (w.jars i)⟩

def receiveAll (fields : List Text) (jar : Jar) : Jar := fields.foldl (fun kept field => receive field kept) jar

def answered (w : World) (i : Browser) (fields : List Text) : Browser → Jar :=
  fun j => if j = i then receiveAll fields (w.jars j) else w.jars j

inductive Move where
  | login (i : Browser) (returnTo : Option String) (requestId browserSecret : String) (now dateNow : Time)
  | exchange (i : Browser) (origin : Option String) (body : JsValue) (token : String) (now dateNow : Time)
  | page (i : Browser) (drawn : String)
  | logout (i : Browser) (origin : Option String) (formInput : JsValue) (requestId : String) (random : Digest) (now : Time)
  | elsewhere (e : Event)
  | forget (i : Browser) (name : List Char)

def step (w : World) : Move → World
  | .login i returnTo requestId browserSecret now dateNow =>
    match validatedReturnTo authority returnTo,
      login node authority origins returnTo requestId browserSecret now dateNow w.ledger.store with
    | .ok returnPath, .ok (_,reply) => { w with
        ledger := call node now w.ledger (.createLogin returnPath requestId browserSecret)
        jars := answered w i reply.setCookies
        begun := w.begun ++ [(i,requestId)] }
    | _, _ => w
  | .exchange i origin body token now dateNow =>
    match exchangeInput origins (request w i origin) body,
      exchange node origins (request w i origin) body token now dateNow w.ledger.store with
    | .ok input, .ok (_,reply) => { w with
        ledger := call node now w.ledger (.exchangeLogin input token)
        jars := answered w i reply.setCookies }
    | _, _ => w
  | .page i drawn =>
    let csrf := uiCsrf (request w i none).cookie drawn
    { w with
      jars := answered w i csrf.2
      given := w.given ++ [(i,csrf.1)] }
  | .logout i origin formInput requestId random now =>
    match (requestCookie (request w i origin).cookie CONSOLE_SESSION_COOKIE).map String.ofList,
      logout node origins (request w i origin) formInput requestId random now w.ledger.store with
    | some token, .ok (_,reply) => { w with
        ledger := call node now w.ledger (.beginLogout (node.sha256 token) "/app" requestId random)
        jars := answered w i reply.setCookies }
    | _, _ => w
  | .elsewhere e => { w with ledger := ConsoleRuns.step node w.ledger e }
  | .forget i name => { w with jars := fun j => if j = i then remove name (w.jars j) else w.jars j }

/- Random request ids and session tokens do not repeat; a csrf value is 32 random bytes. -/
def Fresh (w : World) : Move → Prop
  | .login _ _ requestId _ _ _ => requestId ∉ requestIds w.ledger
  | .exchange _ _ _ token _ _ => FreshToken node w.ledger token
  | .page _ drawn => matchesClass opaqueChar 43 43 drawn = true
  | .logout _ _ _ requestId _ _ => requestId ∉ requestIds w.ledger
  | .elsewhere e => ConsoleRuns.Fresh node w.ledger e
  | .forget _ _ => True

instance freshMove (w : World) : (m : Move) → Decidable (Fresh node w m)
  | .login _ _ requestId _ _ _ => inferInstanceAs (Decidable (requestId ∉ requestIds w.ledger))
  | .exchange _ _ _ token _ _ => inferInstanceAs (Decidable (FreshToken node w.ledger token))
  | .page _ drawn => inferInstanceAs (Decidable (matchesClass opaqueChar 43 43 drawn = true))
  | .logout _ _ _ requestId _ _ => inferInstanceAs (Decidable (requestId ∉ requestIds w.ledger))
  | .elsewhere e => inferInstanceAs (Decidable (ConsoleRuns.Fresh node w.ledger e))
  | .forget _ _ => isTrue trivial

/- Whoever a browser is, it began the login itself, alone, and every handoff of that login is
of this account and of an auth session that still lasts. A form is taken from a browser with
the csrf value that this browser was given. -/
structure BrowserSafe (w : World) : Prop where
  ownLogin : ∀ i now principal, authenticate node (request w i none).cookie now w.ledger.store = .ok (some principal) →
    ∃ requestId, (i,requestId) ∈ w.begun ∧ (∀ j, (j,requestId) ∈ w.begun → j = i) ∧
      handoffsOf w.ledger.handoffs requestId ≠ [] ∧ ∀ h ∈ handoffsOf w.ledger.handoffs requestId,
        h.accountId = principal.accountId ∧ ∃ a ∈ w.ledger.store.authSessions, a.id = h.authSessionId ∧ now < a.expiresAt
  ownForm : ∀ i origin formInput form, validateUiMutation origins (request w i origin) formInput = .ok form →
    origin = some origins.appOrigin ∧ (i,form.csrf) ∈ w.given

end Worlds

section Calls
variable {node : Node} {now : Time} {s : Ledger} {store next : Store}

theorem exchangeToken {input : ExchangeInput} {token : String} {view : ConsoleSessionView}
    (ok : exchangeLogin node input token now store = .ok (next,view)) : view.token = token ∧
    matchesClass opaqueChar 43 43 token = true := by
  simp only [exchangeLogin,insertSession,bindOk,orFailOk,ensureOk] at ok
  obtain ⟨_,_,_,_,_,_,_,_,_,_,_,_,_,_,_,_,_,_,_,_,_,_,_,hashed,_,_,_,_,_,_,last⟩ := ok
  cases last
  refine ⟨rfl,?_⟩
  unfold consoleSecretHash at hashed
  split at hashed
  · rename_i shape
    exact shape
  · cases hashed

theorem exchangeLogged {input : ExchangeInput} {token : String} {view : ConsoleSessionView}
    (ok : exchangeLogin node input token now s.store = .ok (next,view)) :
    ∃ x, (call node now s (.exchangeLogin input token)).exchanges = s.exchanges ++ [x] ∧ x.input = input ∧
      x.session.sessionHash = node.sha256 token := by
  obtain ⟨row,c,opening,rfl⟩ := exchangeOk ok
  have opened : openedSessions s.store { s.store with
      transactions := updateWhere (fun r => r.requestId == input.requestId && r.consumedAt.isNone) (consumedRequest now)
        s.store.transactions
      sessions := s.store.sessions ++ [c] } = [c] := openedAlone opening.fresh
  refine ⟨⟨input,now,c,authorityExpiry s.store c⟩,?_,rfl,opening.token⟩
  simp only [call,ok,opened,List.map_cons,List.map_nil]

theorem callLogged (op : Op) : (∃ more, (call node now s op).logins = s.logins ++ more) ∧
    ((call node now s op).exchanges = s.exchanges ∨ ∃ input token x, op = .exchangeLogin input token ∧
      (call node now s op).exchanges = s.exchanges ++ [x] ∧ x.session.sessionHash = node.sha256 token) := by
  have same : ∃ more, s.logins = s.logins ++ more := ⟨[],(List.append_nil _).symm⟩
  cases op with
  | createLogin returnPath requestId browserSecret =>
    simp only [call]
    split
    · exact ⟨⟨_,rfl⟩,.inl rfl⟩
    · exact ⟨same,.inl rfl⟩
  | exchangeLogin input token =>
    cases out : exchangeLogin node input token now s.store with
    | ok pair =>
      obtain ⟨next,view⟩ := pair
      obtain ⟨x,logged,-,hashed⟩ := exchangeLogged out
      refine ⟨?_,.inr ⟨input,token,x,rfl,logged,hashed⟩⟩
      simp only [call,out]
      exact same
    | error fault =>
      simp only [call,out]
      exact ⟨same,.inl trivial⟩
  | authorizeLogin input code => simp only [call]; split <;> exact ⟨same,.inl rfl⟩
  | beginLogout sessionHash returnPath requestId random => simp only [call]; split <;> exact ⟨same,.inl rfl⟩
  | validateLogout requestId authSessionId consume => simp only [call]; split <;> exact ⟨same,.inl rfl⟩
  | revokeSession sessionHash => simp only [call]; split <;> exact ⟨same,.inl rfl⟩

end Calls

section Rules
variable {node : Node} {authority : List Char → Option Authority} {origins : Origins} {w next : World} {i j : Browser}
variable {c : Cookie}

structure Explained (node : Node) (w : World) (i : Browser) (c : Cookie) : Prop where
  login : ∀ requestId, c.name = consoleLoginCookieName requestId → (i,requestId) ∈ w.begun
  session : c.name = CONSOLE_SESSION_COOKIE → ∃ x ∈ w.ledger.exchanges,
    x.session.sessionHash = node.sha256 (String.ofList c.value) ∧ (i,x.input.requestId) ∈ w.begun
  csrf : c.name = CSRF_COOKIE → (i,String.ofList c.value) ∈ w.given

structure Held (node : Node) (w : World) : Prop where
  sound : Sound node w.ledger
  hashes : (w.ledger.exchanges.map (·.session.sessionHash)).Nodup
  began : ∀ entry ∈ w.begun, entry.2 ∈ w.ledger.logins.map (·.requestId)
  alone : (w.begun.map (·.2)).Nodup
  explained : ∀ i, ∀ c ∈ w.jars i, Explained node w i c

theorem explainedMono (explained : Explained node w i c) (exchanges : ∀ x ∈ w.ledger.exchanges, x ∈ next.ledger.exchanges)
    (begun : ∀ entry ∈ w.begun, entry ∈ next.begun) (given : ∀ entry ∈ w.given, entry ∈ next.given) :
    Explained node next i c where
  login requestId named := begun _ (explained.login requestId named)
  session named := by
    obtain ⟨x,mem,hashed,own⟩ := explained.session named
    exact ⟨x,exchanges x mem,hashed,begun _ own⟩
  csrf named := given _ (explained.csrf named)

theorem loginNames {a b : String} (same : consoleLoginCookieName a = consoleLoginCookieName b) : a = b :=
  String.toList_inj.mp (List.append_cancel_left same)

theorem loginApart (requestId : String) : consoleLoginCookieName requestId ≠ CONSOLE_SESSION_COOKIE ∧
    consoleLoginCookieName requestId ≠ CSRF_COOKIE := by
  have long : 27 ≤ (consoleLoginCookieName requestId).length := by
    simp only [consoleLoginCookieName,List.length_append]
    exact Nat.le_add_right 27 _
  constructor <;> intro same <;> rw [same] at long <;> exact absurd long (by decide)

theorem heldEmpty : Held node .empty where
  sound := emptySound node
  hashes := List.nodup_nil
  began _ mem := absurd mem List.not_mem_nil
  alone := List.nodup_nil
  explained _ _ mem := absurd mem List.not_mem_nil

theorem opaqueOctets {least most : Nat} {text : String} (shape : matchesClass opaqueChar least most text = true) :
    text.toList.all octetChar = true := by
  simp only [matchesClass,Bool.and_eq_true] at shape
  exact List.all_eq_true.mpr fun c mem => tokenOctet (opaqueToken (List.all_eq_true.mp shape.2 c mem))

theorem loginToken {requestId : String} (shape : requestIdShape requestId = true) :
    consoleLoginCookieName requestId ≠ [] ∧ (consoleLoginCookieName requestId).all tokenChar = true := by
  simp only [requestIdShape,matchesClass,Bool.and_eq_true,beq_iff_eq,String.toList_ofList] at shape
  unfold consoleLoginCookieName
  refine ⟨List.append_ne_nil_of_left_ne_nil (by decide) _,List.all_eq_true.mpr fun c mem => ?_⟩
  rcases List.mem_append.mp mem with front | id
  · have listed : CONSOLE_LOGIN_COOKIE_PREFIX.all tokenChar = true := by decide
    exact List.all_eq_true.mp listed c front
  · rw [← List.take_append_drop 8 requestId.toList] at id
    rcases List.mem_append.mp id with front | rest
    · rw [shape.1] at front
      have listed : "console_".toList.all tokenChar = true := by decide
      exact List.all_eq_true.mp listed c front
    · exact opaqueToken (List.all_eq_true.mp shape.2.2 c rest)

theorem sessionName : CONSOLE_SESSION_COOKIE ≠ [] ∧ CONSOLE_SESSION_COOKIE.all tokenChar = true := by decide

theorem csrfName : CSRF_COOKIE ≠ [] ∧ CSRF_COOKIE.all tokenChar = true := by decide

def sessionCookieOf {token : String} (shape : matchesClass opaqueChar 43 43 token = true) : Cookie :=
  ⟨CONSOLE_SESSION_COOKIE,token.toList,sessionName,opaqueOctets shape⟩

def csrfCookieOf {value : String} (shape : matchesClass opaqueChar 43 43 value = true) : Cookie :=
  ⟨CSRF_COOKIE,value.toList,csrfName,opaqueOctets shape⟩

def loginCookieOf {requestId secret : String} (named : requestIdShape requestId = true)
    (shape : matchesClass opaqueChar 43 43 secret = true) : Cookie :=
  ⟨consoleLoginCookieName requestId,secret.toList,loginToken named,opaqueOctets shape⟩

theorem cleared {name : Text} {jar : Jar} (token : name ≠ [] ∧ name.all tokenChar = true) :
    receive (clearCookie name) jar = remove name jar :=
  secureReceived ⟨name,[],token,rfl⟩ ⟨rfl,rfl⟩ 0

theorem createdShapes {returnPath requestId secret : String} {now : Time} {store kept : Store} {created : ConsoleLoginTransaction}
    (ok : createLogin node returnPath requestId secret now store = .ok (kept,created)) :
    requestIdShape requestId = true ∧ matchesClass opaqueChar 43 43 secret = true := by
  simp only [createLogin,insertRequest,bindOk,ensureOk] at ok
  obtain ⟨_,_,_,hashed,_,⟨_,shape,_⟩,_⟩ := ok
  simp only [ConsoleTransaction.check,Bool.and_eq_true] at shape
  refine ⟨shape.1.1.1.1.1.1.1.1.1,?_⟩
  unfold consoleSecretHash at hashed
  split at hashed
  · rename_i drawn
    exact drawn
  · cases hashed

theorem loginOk {returnTo : Option String} {requestId secret : String} {now dateNow : Time} {store kept : Store} {reply : Reply}
    {returnPath : String} (path : validatedReturnTo authority returnTo = .ok returnPath)
    (ok : login node authority origins returnTo requestId secret now dateNow store = .ok (kept,reply)) :
    ∃ created age, createLogin node returnPath requestId secret now store = .ok (kept,created) ∧ 1 ≤ age ∧
      reply.setCookies = [secureCookie (consoleLoginCookieName requestId) secret.toList age] := by
  simp only [login,path,bindOk,ensureOk] at ok
  obtain ⟨_,_,_,taken,_,_,⟨kept_,created⟩,made,last⟩ := ok
  cases taken
  cases last
  obtain ⟨rfl,-⟩ := createOk made
  exact ⟨_,_,made,Int.le_max_left _ _,rfl⟩

theorem exchangeRouteOk {asked : Request} {body : JsValue} {token : String} {now dateNow : Time} {store kept : Store}
    {reply : Reply} {input : ExchangeInput} (read : exchangeInput origins asked body = .ok input)
    (ok : exchange node origins asked body token now dateNow store = .ok (kept,reply)) :
    ∃ view age, exchangeLogin node input token now store = .ok (kept,view) ∧ 1 ≤ age ∧
      reply.setCookies = [secureCookie CONSOLE_SESSION_COOKIE token.toList age,clearCookie (consoleLoginCookieName input.requestId)] := by
  simp only [exchange,read,bindOk] at ok
  obtain ⟨_,taken,⟨kept_,view⟩,done,last⟩ := ok
  cases taken
  cases last
  cases out : exchangeLogin node input token now store with
  | error fault =>
    rw [out] at done
    cases done
  | ok pair =>
    rw [out] at done
    cases done
    obtain ⟨same,-⟩ := exchangeToken out
    exact ⟨view,_,rfl,Int.le_max_left _ _,by rw [same]⟩

theorem exchangedFrom {origin : Option String} {body : JsValue} {input : ExchangeInput}
    (read : exchangeInput origins (request w i origin) body = .ok input) :
    ∃ c ∈ w.jars i, c.name = consoleLoginCookieName input.requestId := by
  simp only [exchangeInput,bindOk,ensureOk,orFailOk] at read
  obtain ⟨_,_,parsed,_,secret,found,last⟩ := read
  cases last
  have field : (request w i origin).cookie = cookieField (w.jars i) := rfl
  rw [field,jarRead] at found
  obtain ⟨c,mem,named,-⟩ := storedFrom found
  exact ⟨c,mem,named⟩

theorem answeredElse (fields : List Text) (other : j ≠ i) : answered w i fields j = w.jars j := if_neg other

theorem answeredHere (fields : List Text) : answered w i fields i = receiveAll fields (w.jars i) := if_pos rfl

theorem explainedReply {fields : List Text} (held : Held node w) (jars : next.jars = answered w i fields)
    (exchanges : ∀ x ∈ w.ledger.exchanges, x ∈ next.ledger.exchanges) (begun : ∀ entry ∈ w.begun, entry ∈ next.begun)
    (given : ∀ entry ∈ w.given, entry ∈ next.given)
    (here : ∀ c ∈ receiveAll fields (w.jars i), c ∈ w.jars i ∨ Explained node next i c) :
    ∀ j, ∀ c ∈ next.jars j, Explained node next j c := by
  intro j c mem
  have old : ∀ j, ∀ c ∈ w.jars j, Explained node next j c := fun j c mem =>
    explainedMono (held.explained j c mem) exchanges begun given
  rw [jars] at mem
  by_cases same : j = i
  · rw [same,answeredHere] at mem
    rw [same]
    exact (here c mem).elim (old i c) id
  · rw [answeredElse fields same] at mem
    exact old j c mem

theorem beganLater {more logins : List Login} (held : Held node w) (grown : logins = w.ledger.logins ++ more) :
    ∀ entry ∈ w.begun, entry.2 ∈ logins.map (·.requestId) := by
  intro entry mem
  rw [grown,List.map_append]
  exact List.mem_append_left _ (held.began entry mem)

theorem heldLogin {returnTo : Option String} {requestId secret : String} {now dateNow : Time} (held : Held node w)
    (fresh : requestId ∉ requestIds w.ledger) :
    Held node (step node authority origins w (.login i returnTo requestId secret now dateNow)) := by
  simp only [step]
  split
  · rename_i returnPath kept reply path ok
    obtain ⟨created,age,made,positive,fields⟩ := loginOk path ok
    obtain ⟨named,shape⟩ := createdShapes made
    obtain ⟨rfl,-⟩ := createOk made
    have logged : (call node now w.ledger (.createLogin returnPath requestId secret)).logins =
        w.ledger.logins ++ [⟨requestId,secret,returnPath⟩] := by simp only [call,made]
    have exchanges : (call node now w.ledger (.createLogin returnPath requestId secret)).exchanges = w.ledger.exchanges := by
      simp only [call,made]
    have absent : requestId ∉ w.begun.map (·.2) := fun mem => by
      obtain ⟨entry,inside,same⟩ := List.mem_map.mp mem
      exact fresh (List.mem_append_left _ (same ▸ held.began entry inside))
    have drawn : FreshOp node w.ledger (.createLogin returnPath requestId secret) := by
      refine ⟨fun id same => ?_,fun token same => ?_⟩
      · cases same
        exact fresh
      · cases same
    refine ⟨callSound held.sound drawn,?_,?_,?_,?_⟩
    · rw [exchanges]
      exact held.hashes
    · intro entry mem
      rw [logged,List.map_append]
      rcases List.mem_append.mp mem with old | new
      · exact List.mem_append_left _ (held.began entry old)
      · rw [List.mem_singleton.mp new]
        exact List.mem_append_right _ (List.mem_singleton_self _)
    · rw [List.map_append]
      exact List.nodup_append.mpr ⟨held.alone,List.nodup_singleton _,fun a old b new => by
        rw [List.mem_singleton.mp new]
        rintro rfl
        exact absent old⟩
    · refine explainedReply held rfl (fun x mem => exchanges ▸ mem) (fun _ => List.mem_append_left _) (fun _ mem => mem) ?_
      intro c mem
      rw [fields] at mem
      simp only [receiveAll,List.foldl_cons,List.foldl_nil] at mem
      rw [@secureReceived _ _ _ (loginCookieOf named shape) (⟨rfl,rfl⟩ : consoleLoginCookieName requestId = _ ∧ secret.toList = _),
        if_neg (by omega)] at mem
      rcases memPut mem with rfl | ⟨old,-⟩
      · refine .inr ⟨fun other same => ?_,fun same => ?_,fun same => ?_⟩
        · rw [← loginNames same]
          exact List.mem_append_right _ (List.mem_singleton_self _)
        · exact absurd same (loginApart requestId).1
        · exact absurd same (loginApart requestId).2
      · exact .inl old
  · exact held

theorem hashesGrow {s : Ledger} {x : Exchange} {token : String} (nodup : (s.exchanges.map (·.session.sessionHash)).Nodup)
    (fresh : FreshToken node s token) (hashed : x.session.sessionHash = node.sha256 token) :
    ((s.exchanges ++ [x]).map (·.session.sessionHash)).Nodup := by
  rw [List.map_append]
  refine List.nodup_append.mpr ⟨nodup,List.nodup_singleton _,fun a old b new => ?_⟩
  rintro rfl
  rw [List.map_singleton,List.mem_singleton] at new
  exact fresh (hashed ▸ new ▸ old)

theorem heldExchange {origin : Option String} {body : JsValue} {token : String} {now dateNow : Time} (held : Held node w)
    (fresh : FreshToken node w.ledger token) :
    Held node (step node authority origins w (.exchange i origin body token now dateNow)) := by
  simp only [step]
  split
  · rename_i input kept reply read ok
    obtain ⟨view,age,done,positive,fields⟩ := exchangeRouteOk read ok
    obtain ⟨x,logged,same,hashed⟩ := exchangeLogged done
    obtain ⟨-,shape⟩ := exchangeToken done
    obtain ⟨own,mem,named⟩ := exchangedFrom read
    obtain ⟨more,logins⟩ := (@callLogged node now w.ledger (.exchangeLogin input token)).1
    have later := beganLater held logins
    have drawn : FreshOp node w.ledger (.exchangeLogin input token) := ⟨nofun,by rintro id ⟨⟩; exact fresh⟩
    refine ⟨callSound held.sound drawn,?_,later,held.alone,?_⟩
    · rw [logged]
      exact hashesGrow held.hashes fresh hashed
    · refine explainedReply held rfl (fun x mem => logged ▸ List.mem_append_left _ mem) (fun _ mem => mem)
        (fun _ mem => mem) ?_
      intro c inside
      rw [fields] at inside
      simp only [receiveAll,List.foldl_cons,List.foldl_nil] at inside
      rw [@secureReceived _ _ _ (sessionCookieOf shape) (⟨rfl,rfl⟩ : CONSOLE_SESSION_COOKIE = _ ∧ token.toList = _),
        if_neg (by omega),cleared (named ▸ own.token)] at inside
      rcases memPut (memRemove.mp inside).1 with rfl | ⟨old,-⟩
      · refine .inr ⟨fun other wrong => absurd wrong.symm (loginApart other).1,fun _ => ?_,fun wrong => ?_⟩
        · refine ⟨x,logged ▸ List.mem_append_right _ (List.mem_singleton_self _),?_,?_⟩
          · rw [hashed]
            exact congrArg node.sha256 String.ofList_toList.symm
          · rw [same]
            exact (held.explained i own mem).login _ named
        · exact absurd (show CONSOLE_SESSION_COOKIE = CSRF_COOKIE from wrong) (by decide)
      · exact .inl old
  · exact held

theorem heldPage {drawn : String} (held : Held node w) (shape : matchesClass opaqueChar 43 43 drawn = true) :
    Held node (step node authority origins w (.page i drawn)) := by
  refine ⟨held.sound,held.hashes,held.began,held.alone,?_⟩
  refine explainedReply held rfl (fun _ mem => mem) (fun _ mem => mem) (fun _ => List.mem_append_left _) ?_
  intro c mem
  have cases_ : (uiCsrf (request w i none).cookie drawn).2 = [] ∨ uiCsrf (request w i none).cookie drawn = (drawn,[csrfCookie drawn]) := by
    unfold uiCsrf
    split
    · split
      · exact .inl rfl
      · exact .inr rfl
    · exact .inr rfl
  rcases cases_ with none_ | new
  · rw [none_] at mem
    exact .inl mem
  · rw [new] at mem
    simp only [receiveAll,List.foldl_cons,List.foldl_nil] at mem
    rw [csrfReceived (csrfCookieOf shape) ⟨rfl,rfl⟩] at mem
    rcases memPut mem with rfl | ⟨old,-⟩
    · refine .inr ⟨fun other wrong => absurd wrong.symm (loginApart other).2,fun wrong => ?_,fun _ => ?_⟩
      · exact absurd (show CSRF_COOKIE = CONSOLE_SESSION_COOKIE from wrong) (by decide)
      refine List.mem_append_right _ (List.mem_singleton.mpr ?_)
      rw [new]
      exact congrArg (i,·) String.ofList_toList
    · exact .inl old

theorem logoutOk {asked : Request} {formInput : JsValue} {requestId : String} {random : Digest} {now : Time}
    {store kept : Store} {reply : Reply}
    (ok : logout node origins asked formInput requestId random now store = .ok (kept,reply)) :
    reply.setCookies = [clearCookie CONSOLE_SESSION_COOKIE,clearCookie CSRF_COOKIE] := by
  simp only [logout,bindOk] at ok
  obtain ⟨_,_,_,_,_,_,last⟩ := ok
  cases last
  rfl

theorem heldLogout {origin : Option String} {formInput : JsValue} {requestId : String} {random : Digest} {now : Time}
    (held : Held node w) (fresh : requestId ∉ requestIds w.ledger) :
    Held node (step node authority origins w (.logout i origin formInput requestId random now)) := by
  simp only [step]
  split
  · rename_i token kept reply found ok
    have fields := logoutOk ok
    obtain ⟨⟨more,logins⟩,exchanges⟩ := @callLogged node now w.ledger (.beginLogout (node.sha256 token) "/app" requestId random)
    have kept_ := exchanges.resolve_right (by rintro ⟨_,_,_,other,-⟩; cases other)
    have later := beganLater held logins
    have drawn : FreshOp node w.ledger (.beginLogout (node.sha256 token) "/app" requestId random) :=
      ⟨by rintro id ⟨⟩; exact fresh,nofun⟩
    refine ⟨callSound held.sound drawn,?_,later,held.alone,?_⟩
    · rw [kept_]
      exact held.hashes
    · refine explainedReply held rfl (fun x mem => kept_ ▸ mem) (fun _ mem => mem) (fun _ mem => mem) fun c mem => .inl ?_
      rw [fields] at mem
      simp only [receiveAll,List.foldl_cons,List.foldl_nil] at mem
      rw [cleared sessionName,cleared csrfName] at mem
      exact (memRemove.mp (memRemove.mp mem).1).1
  · exact held

theorem heldElsewhere {e : Event} (held : Held node w) (fresh : Fresh node w (.elsewhere e)) :
    Held node (step node authority origins w (.elsewhere e)) := by
  have grown : (∃ more, (ConsoleRuns.step node w.ledger e).logins = w.ledger.logins ++ more) ∧
      ∃ more, (ConsoleRuns.step node w.ledger e).exchanges = w.ledger.exchanges ++ more ∧
        ((w.ledger.exchanges ++ more).map (·.session.sessionHash)).Nodup := by
    cases e with
    | around db authSessions => exact ⟨⟨[],(List.append_nil _).symm⟩,[],(List.append_nil _).symm,by
        rw [List.append_nil]; exact held.hashes⟩
    | call now op =>
      obtain ⟨logins,same | ⟨input,token,x,rfl,logged,hashed⟩⟩ := @callLogged node now w.ledger op
      · exact ⟨logins,[],same.trans (List.append_nil _).symm,by rw [List.append_nil]; exact held.hashes⟩
      · exact ⟨logins,[x],logged,hashesGrow held.hashes (fresh.2 token rfl) hashed⟩
  obtain ⟨⟨more,logins⟩,added,exchanges,nodup⟩ := grown
  have later := beganLater held logins
  have explained : ∀ j, ∀ c ∈ w.jars j, Explained node (step node authority origins w (.elsewhere e)) j c := fun j c mem =>
    explainedMono (held.explained j c mem) (fun x inside => exchanges.symm ▸ List.mem_append_left _ inside)
      (fun _ mem => mem) fun _ mem => mem
  exact ⟨stepSound held.sound fresh,exchanges.symm ▸ nodup,later,held.alone,explained⟩

theorem heldStep {m : Move} (held : Held node w) (fresh : Fresh node w m) : Held node (step node authority origins w m) := by
  cases m with
  | login i returnTo requestId secret now dateNow => exact heldLogin held fresh
  | exchange i origin body token now dateNow => exact heldExchange held fresh
  | page i drawn => exact heldPage held fresh
  | logout i origin formInput requestId random now => exact heldLogout held fresh
  | elsewhere e => exact heldElsewhere held fresh
  | forget i name =>
    refine ⟨held.sound,held.hashes,held.began,held.alone,fun j c mem => ?_⟩
    have kept : c ∈ w.jars j := by
      dsimp only [step] at mem
      split at mem
      · exact (memRemove.mp mem).1
      · exact mem
    exact explainedMono (held.explained j c kept) (fun _ mem => mem) (fun _ mem => mem) fun _ mem => mem

theorem cookieHeld {origin : Option String} {name value : Text}
    (found : requestCookie (request w i origin).cookie name = some value) : ∃ c ∈ w.jars i, c.name = name ∧ c.value = value := by
  have field : (request w i origin).cookie = cookieField (w.jars i) := rfl
  rw [field,jarRead] at found
  exact storedFrom found

theorem authenticateOk {cookie : Option Text} {now : Time} {store : Store} {principal : AccountPrincipal}
    (ok : authenticate node cookie now store = .ok (some principal)) :
    ∃ token session, requestCookie cookie CONSOLE_SESSION_COOKIE = some token ∧
      resolveSession (node.sha256 (String.ofList token)) now store = some session ∧ session.accountId = principal.accountId := by
  unfold authenticate at ok
  split at ok
  · cases ok
  · rename_i token found
    obtain ⟨text,read,rfl⟩ := Option.map_eq_some_iff.mp found
    split at ok
    · split at ok
      · cases ok
      · rename_i session resolved
        dsimp only at ok
        split at ok
        · cases ok
          exact ⟨text,session,read,resolved,rfl⟩
        · cases ok
    · cases ok

theorem mutationOk {asked : Request} {formInput : JsValue} {form : UiForm}
    (ok : validateUiMutation origins asked formInput = .ok form) :
    asked.origin = some origins.appOrigin ∧ ∃ cookie, requestCookie asked.cookie CSRF_COOKIE = some cookie ∧
      String.ofList cookie = form.csrf := by
  simp only [validateUiMutation,bindOk,ensureOk,orFailOk] at ok
  obtain ⟨_,sent,_,_,cookie,found,_,same,last⟩ := ok
  cases last
  exact ⟨beq_iff_eq.mp sent,cookie,found,String.toByteArray_inj.mp (ByteArray.ext (of_decide_eq_true same))⟩

theorem heldSafe (held : Held node w) : BrowserSafe node origins w where
  ownLogin i now principal signedIn := by
    obtain ⟨token,session,found,resolved,account⟩ := authenticateOk signedIn
    obtain ⟨c,mem,named,rfl⟩ := cookieHeld found
    obtain ⟨x,exchanged,hashed,own⟩ := (held.explained i c mem).session named
    obtain ⟨row,stored,sameHash,sameAccount,-,-,⟨a,ha,ofSession,lasting⟩,-⟩ := resolveOk resolved
    obtain ⟨opener,opens,whole⟩ := held.sound.opened row stored
    have same : opener = x := by
      refine List.inj_on_of_nodup_map held.hashes opens exchanged ?_
      have rowHash : row.sessionHash = opener.session.sessionHash := (congrArg ConsoleSession.sessionHash whole).trans rfl
      exact rowHash.symm.trans (sameHash.trans hashed.symm)
    subst same
    have parts := held.sound.exchanged opener exchanged
    have ofRow : row.accountId = opener.session.accountId ∧ row.authSessionId = opener.session.authSessionId :=
      ⟨(congrArg ConsoleSession.accountId whole).trans rfl,(congrArg ConsoleSession.authSessionId whole).trans rfl⟩
    refine ⟨opener.input.requestId,own,fun j other => ?_,fun none_ => ?_,fun h handed => ⟨?_,a,ha,?_,lasting⟩⟩
    · exact congrArg Prod.fst (List.inj_on_of_nodup_map held.alone other own rfl)
    · have code := parts.code
      rw [none_] at code
      cases code
    · rw [(parts.bound h handed).2,← ofRow.1,← sameAccount,account]
    · rw [ofSession,ofRow.2,(parts.bound h handed).1]
  ownForm i origin formInput form taken := by
    obtain ⟨sent,cookie,found,value⟩ := mutationOk taken
    obtain ⟨c,mem,named,rfl⟩ := cookieHeld found
    exact ⟨sent,value ▸ (held.explained i c mem).csrf named⟩

/- In every run of browsers and of anybody else at the console host. -/
theorem browsersSafe (node : Node) (authority : List Char → Option Authority) (origins : Origins) (moves : List Move)
    (fresh : Guarded (step node authority origins) (Fresh node) .empty moves) :
    BrowserSafe node origins (run (step node authority origins) .empty moves) :=
  heldSafe (invariantRun (fun _ _ held ok => heldStep held ok) (@heldEmpty node) fresh)

def sampleOrigins : Origins := ⟨"https://auth.example.test","https://app.example.test"⟩

def handedOver : JsValue := .obj [("request",.str loginRequest),("code",.str earlierCode)]

def browserMoves : List Move :=
  [.elsewhere (.around signedUp [⟨"session_0001","user_0001",seconds 1,hours 8⟩]),
    .login 0 (some "/app") loginRequest browserSecret (seconds 10) (seconds 10),
    .elsewhere (.call (seconds 11) (.authorizeLogin ⟨loginRequest,"session_0001",System.sampleAccount,hours 8⟩ earlierCode)),
    .exchange 1 (some sampleOrigins.appOrigin) handedOver laterCode (seconds 12) (seconds 12),
    .exchange 0 (some sampleOrigins.appOrigin) handedOver sessionToken (seconds 13) (seconds 13)]

def signedInWorld : World := run (step consoleNode (fun _ => none) sampleOrigins) .empty browserMoves

theorem signedInFacts : Guarded (step consoleNode (fun _ => none) sampleOrigins) (Fresh consoleNode) .empty browserMoves ∧
    authenticate consoleNode (request signedInWorld 0 none).cookie (seconds 14) signedInWorld.ledger.store =
      .ok (some ⟨System.sampleAccount,1,.emailOtp⟩) ∧ (signedInWorld.jars 1).length = 0 := by decide

theorem handedToOne : (signedInWorld.jars 1).length = 0 ∧ ∃ requestId, (0,requestId) ∈ signedInWorld.begun ∧
    ∀ h ∈ handoffsOf signedInWorld.ledger.handoffs requestId, h.accountId = System.sampleAccount := by
  obtain ⟨fresh,signedIn,refused⟩ := signedInFacts
  have safe : BrowserSafe consoleNode sampleOrigins signedInWorld :=
    browsersSafe consoleNode (fun _ => none) sampleOrigins browserMoves fresh
  obtain ⟨requestId,own,-,-,handed⟩ := safe.ownLogin 0 (seconds 14) _ signedIn
  exact ⟨refused,requestId,own,fun h mem => (handed h mem).1⟩

end Rules
end Wepuu.ConsoleBrowsers
