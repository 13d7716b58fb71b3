import Wepuu.PathRouting
import Wepuu.Resources

/-! The two public origins of the control API: the hook that keeps their routes apart reads
the raw text of a target, and the router its decoded path. -/
namespace Wepuu.OriginBoundary
open PathRouting
open Resources (toLowerCase)

section Hook

structure Origins where
  authOrigin : String
  appOrigin : String
  authHost : String
  appHost : String
  deriving DecidableEq, Repr

def splitOrigins (o : Origins) : Bool := o.authOrigin ≠ o.appOrigin

inductive Boundary where
  | auth
  | app
  | unknown
  deriving DecidableEq, Repr

structure Request where
  method : Method
  url : String
  host : Option String
  deriving DecidableEq, Repr

def requestBoundary (o : Origins) (request : Request) : Boundary :=
  if !splitOrigins o then .auth
  else
    let host := request.host.map toLowerCase
    if host = some (toLowerCase o.authHost) then .auth
    else if host = some (toLowerCase o.appHost) then .app
    else .unknown

def appAccountRoute (path : String) : Bool :=
  path = "/v1/account/tenants" || path = "/v1/account/deployment-readiness"

def pairingRoute (path : String) : Bool :=
  match segments path with
  | ["","v1","tenants",tenant,"pairing"] => tenant ≠ ""
  | _ => false

def completeRoute (path : String) : Bool :=
  match segments path with
  | ["","v1","tenants",tenant,"grants",grant,"complete"] => tenant ≠ "" && grant ≠ ""
  | _ => false

def authOnly (path : String) : Bool :=
  (startsWith path "/v1/account" && !appAccountRoute path) || startsWith path "/v1/pairing"
    || startsWith path "/v1/consent" || startsWith path "/v1/oauth"
    || pairingRoute path || completeRoute path

def appOnly (path : String) : Bool :=
  startsWith path "/app" || startsWith path "/v1/console"
    || startsWith path "/v1/session" || appAccountRoute path
    || (startsWith path "/v1/tenants" && !authOnly path)

inductive Hooked where
  | passed
  | redirected (location : String)
  | notFound
  deriving DecidableEq, Repr

/- resolve is what new URL(target, appOrigin).href gives. -/
def preHandler (o : Origins) (resolve : String → String) (request : Request) : Hooked :=
  if !splitOrigins o then .passed
  else
    let path := beforeQuery request.url
    let boundary := requestBoundary o request
    if startsWith path "/app" && boundary = .auth then .redirected (resolve request.url)
    else if boundary = .unknown || (appOnly path && boundary ≠ .app) || (authOnly path && boundary ≠ .auth) then
      .notFound
    else .passed

/- The provider that a handler authenticates with; without a console provider it answers 503. -/
def identityProviderFor {P : Type} (o : Origins) (identityProvider : P) (consoleIdentityProvider : Option P)
    (request : Request) : Except Nat P :=
  if splitOrigins o && requestBoundary o request = .app then
    match consoleIdentityProvider with
    | none => .error 503
    | some provider => .ok provider
  else .ok identityProvider

end Hook

section Server

def routes : List Route := [
  ⟨some .get,[.text "assets",.text "wepuu-v1.css"]⟩,
  ⟨some .get,[.text "assets",.text "pairing-v1.js"]⟩,
  ⟨some .get,[.text "assets",.text "consent-complete-v1.js"]⟩,
  ⟨some .get,[.text "assets",.text "consent-complete-v2.js"]⟩,
  ⟨some .get,[.text "assets",.text "consent-start-v1.js"]⟩,
  ⟨some .get,[.text "assets",.text "email-otp-v1.js"]⟩,
  ⟨some .get,[.text "assets",.text "console-handoff-v1.js"]⟩,
  ⟨some .get,[.text "health",.text "live"]⟩,
  ⟨some .get,[.text "health",.text "ready"]⟩,
  ⟨some .get,[.text "livez"]⟩,
  ⟨some .get,[.text "readyz"]⟩,
  ⟨some .get,[.text "internal",.text "metrics"]⟩,
  ⟨some .get,[.text "v1",.text "pairing",.text "start"]⟩,
  ⟨some .get,[.text "v1",.text "consent",.text "complete"]⟩,
  ⟨some .get,[.text "v1",.text "consent",.text "start"]⟩,
  ⟨some .get,[.text "v1",.text "console",.text "login"]⟩,
  ⟨some .get,[.text "v1",.text "account",.text "console",.text "authorize"]⟩,
  ⟨some .get,[.text "v1",.text "session",.text "callback"]⟩,
  ⟨some .post,[.text "v1",.text "session",.text "exchange"]⟩,
  ⟨some .get,[.text "v1",.text "account",.text "console",.text "logout"]⟩,
  ⟨some .post,[.text "v1",.text "account",.text "console",.text "logout"]⟩,
  ⟨some .get,[.text "v1",.text "account",.text "login"]⟩,
  ⟨some .post,[.text "v1",.text "account",.text "email",.text "send"]⟩,
  ⟨some .post,[.text "v1",.text "account",.text "email",.text "resend"]⟩,
  ⟨some .post,[.text "v1",.text "account",.text "email",.text "change"]⟩,
  ⟨some .post,[.text "v1",.text "account",.text "email",.text "verify"]⟩,
  ⟨some .post,[.text "v1",.text "account",.text "bootstrap"]⟩,
  ⟨none,[.text "api",.text "auth",.rest]⟩,
  ⟨some .get,[.text "v1",.text "account",.text "session"]⟩,
  ⟨some .get,[.text "v1",.text "account",.text "tenants"]⟩,
  ⟨some .post,[.text "v1",.text "account",.text "logout"]⟩,
  ⟨some .get,[.text ""]⟩,
  ⟨some .get,[.text "app"]⟩,
  ⟨some .get,[.text "app",.text "tenants",.param "tenantId"]⟩,
  ⟨some .get,[.text "app",.text "tenants",.param "tenantId",.text "sites"]⟩,
  ⟨some .get,[.text "app",.text "tenants",.param "tenantId",.text "grants"]⟩,
  ⟨some .get,[.text "app",.text "tenants",.param "tenantId",.text "activity"]⟩,
  ⟨some .get,[.text "app",.text "tenants",.param "tenantId",.text "sites",.param "objectId"]⟩,
  ⟨some .get,[.text "app",.text "tenants",.param "tenantId",.text "grants",.param "objectId"]⟩,
  ⟨some .get,[.text "app",.text "account"]⟩,
  ⟨some .get,[.text "app",.text "compatibility"]⟩,
  ⟨some .get,[.text "app",.text "readiness"]⟩,
  ⟨some .get,[.text "v1",.text "account",.text "deployment-readiness"]⟩,
  ⟨some .post,[.text "app",.text "logout"]⟩,
  ⟨some .post,[.text "app",.text "tenants",.param "tenantId",.text "grants",.param "objectId",.text "revoke"]⟩,
  ⟨some .post,[.text "app",.text "tenants",.param "tenantId",.text "sites",.param "objectId",.text "disconnect"]⟩,
  ⟨some .get,[.text "v1",.text "tenants",.param "tenantId"]⟩,
  ⟨some .post,[.text "v1",.text "tenants",.param "tenantId",.text "pairing"]⟩,
  ⟨some .get,[.text "v1",.text "tenants",.param "tenantId",.text "security-events"]⟩,
  ⟨some .post,[.text "v1",.text "oauth",.text "consent",.text "start"]⟩,
  ⟨some .get,[.text "v1",.text "tenants",.param "tenantId",.text "sites"]⟩,
  ⟨some .get,[.text "v1",.text "tenants",.param "tenantId",.text "grants"]⟩,
  ⟨some .post,[.text "v1",.text "tenants",.param "tenantId",.text "sites",.param "siteId",.text "grants"]⟩,
  ⟨some .post,[.text "v1",.text "tenants",.param "tenantId",.text "grants",.param "grantId",.text "complete"]⟩,
  ⟨some .post,[.text "v1",.text "tenants",.param "tenantId",.text "grants",.param "objectId",.text "revoke"]⟩,
  ⟨some .post,[.text "v1",.text "tenants",.param "tenantId",.text "sites",.param "objectId",.text "disconnect"]⟩]

inductive Answer where
  | ran (route : Route)
  | redirected (location : String)
  | notFound
  | badUrl
  deriving DecidableEq, Repr

/- The hook also runs before the not-found handler; the router itself answers a target that
does not decode. -/
def respond (o : Origins) (router : Router) (resolve : String → String) (request : Request) : Answer :=
  match router.find request.method request.url with
  | .undecodable => .badUrl
  | found =>
    match preHandler o resolve request with
    | .redirected location => .redirected location
    | .notFound => .notFound
    | .passed =>
      match found with
      | .route r => .ran r
      | _ => .notFound

inductive Side where
  | app
  | auth
  | neutral
  deriving DecidableEq, Repr

def sideOf : List String → Side
  | "app" :: _ => .app
  | "v1" :: "console" :: _ => .app
  | "v1" :: "session" :: _ => .app
  | ["v1","account","tenants"] => .app
  | ["v1","account","deployment-readiness"] => .app
  | "v1" :: "account" :: _ => .auth
  | "v1" :: "pairing" :: _ => .auth
  | "v1" :: "consent" :: _ => .auth
  | "v1" :: "oauth" :: _ => .auth
  | ["v1","tenants",_,"pairing"] => .auth
  | ["v1","tenants",_,"grants",_,"complete"] => .auth
  | "v1" :: "tenants" :: _ => .app
  | _ => .neutral

def side (r : Route) : Side := sideOf (r.pattern.map PatternPart.written)

def sentTo (host : String) (request : Request) : Prop := request.host.map toLowerCase = some (toLowerCase host)

instance (host : String) (request : Request) : Decidable (sentTo host request) := by unfold sentTo; infer_instance

/- A request may reach the routes of a side only under that side's host. -/
def Admits (o : Origins) (request : Request) : Side → Prop
  | .app => sentTo o.appHost request
  | .auth => sentTo o.authHost request
  | .neutral => True

def Refused (answer : Answer) : Prop := answer = .notFound ∨ ∃ location, answer = .redirected location

def Separated (o : Origins) (router : Router) (resolve : String → String) (request : Request) : Prop :=
  ∀ r, router.find request.method request.url = .route r →
    Admits o request (side r) ∨ Refused (respond o router resolve request)

/- The raw text is of the class of the route it is dispatched to, where the other host sent it. -/
def Spelled (o : Origins) (router : Router) (request : Request) : Prop :=
  ∀ r, router.find request.method request.url = .route r →
    (side r = .app → sentTo o.authHost request → ¬sentTo o.appHost request →
      appOnly (beforeQuery request.url) = true) ∧
    (side r = .auth → sentTo o.appHost request → ¬sentTo o.authHost request →
      authOnly (beforeQuery request.url) = true)

def Canonical (url : String) : Prop := Bare url ∧ "" ∉ (segments (beforeQuery url)).tail

instance (url : String) : Decidable (Canonical url) := by unfold Canonical Bare; infer_instance

end Server

section Sides
variable {path : String} {words : List String}

def tenantTails : List (List PatternPart) := [
  [.param "tenantId"],
  [.param "tenantId",.text "pairing"],
  [.param "tenantId",.text "security-events"],
  [.param "tenantId",.text "sites"],
  [.param "tenantId",.text "grants"],
  [.param "tenantId",.text "sites",.param "siteId",.text "grants"],
  [.param "tenantId",.text "grants",.param "grantId",.text "complete"],
  [.param "tenantId",.text "grants",.param "objectId",.text "revoke"],
  [.param "tenantId",.text "sites",.param "objectId",.text "disconnect"]]

def Decides (r : Route) : Prop :=
  (∀ p ∈ r.pattern, p = .text p.written) ∨ [.text "app"] <+: r.pattern ∨
  (∃ tail ∈ tenantTails, r.pattern = .text "v1" :: .text "tenants" :: tail) ∨
  r.pattern = [.text "api",.text "auth",.rest]

instance (r : Route) : Decidable (Decides r) := by unfold Decides; infer_instance

theorem routesDecide : ∀ r ∈ routes, Decides r := by
  decide

theorem fitsWord {word : String} (fit : fits [.text word] words = true) : words = [word] := by
  obtain ⟨_,rfl,below⟩ := fitsText fit
  rw [fitsNil below]

theorem fitsAction {kind id action : String} (fit : fits [.text kind,.param id,.text action] words = true) :
    ∃ segment, words = [kind,segment,action] := by
  obtain ⟨_,rfl,below⟩ := fitsText fit
  obtain ⟨segment,_,rfl,rest⟩ := fitsParam below
  exact ⟨segment,by rw [fitsWord rest]⟩

theorem tenantSide {tail : List PatternPart} (known : tail ∈ tenantTails) (fit : fits tail words = true) :
    sideOf ("v1" :: "tenants" :: words) = sideOf ("v1" :: "tenants" :: tail.map PatternPart.written) := by
  simp only [tenantTails,List.mem_cons,List.not_mem_nil,or_false] at known
  rcases known with rfl | rfl | rfl | rfl | rfl | rfl | rfl | rfl | rfl
  all_goals
    obtain ⟨tenant,rest,rfl,below⟩ := fitsParam fit
    first
    | obtain rfl := fitsNil below
      rfl
    | obtain rfl := fitsWord below
      rfl
    | obtain ⟨id,rfl⟩ := fitsAction below
      rfl

theorem takesSide {r : Route} (mem : r ∈ routes) (takes : r.takes path = true) :
    ∃ words, segments path = "" :: words ∧ sideOf words = side r := by
  unfold Route.takes at takes
  split at takes
  case h_2 => contradiction
  rename_i words cut
  refine ⟨words,cut,?_⟩
  unfold side
  rcases routesDecide r mem with literal | ⟨more,under⟩ | ⟨tail,known,shape⟩ | shape
  · rw [fitsLiteral literal takes]
  · rw [← under] at takes ⊢
    obtain ⟨_,rfl,_⟩ := fitsText takes
    rfl
  · rw [shape] at takes ⊢
    obtain ⟨_,rfl,below⟩ := fitsText takes
    obtain ⟨_,rfl,rest⟩ := fitsText below
    exact tenantSide known rest
  · rw [shape] at takes ⊢
    obtain ⟨_,rfl,below⟩ := fitsText takes
    obtain ⟨_,rfl,_⟩ := fitsText below
    rfl

end Sides
section Texts
variable {path : String} {words : List String}

theorem beginsWith (front : List String) {rest : List String} (text : String) (cut : segments path = "" :: front ++ rest)
    (same : String.ofList (joined ("" :: front)) = text) : startsWith path text = true :=
  same ▸ segmentsStart (List.cons_ne_nil _ _) cut

theorem wholePath (text : String) (cut : segments path = "" :: words)
    (same : String.ofList (joined ("" :: words)) = text) : path = text := by
  rw [← same,← cut,joinedSegments,String.ofList_toList]

theorem pairingIff : pairingRoute path = true ↔
    ∃ tenant, segments path = ["","v1","tenants",tenant,"pairing"] ∧ tenant ≠ "" := by
  unfold pairingRoute
  split
  case h_1 tenant cut => simp [cut]
  case h_2 other =>
    constructor
    · intro no
      contradiction
    · rintro ⟨tenant,cut,_⟩
      exact absurd cut (other tenant)

theorem completeIff : completeRoute path = true ↔
    ∃ tenant grant, segments path = ["","v1","tenants",tenant,"grants",grant,"complete"] ∧ tenant ≠ "" ∧ grant ≠ "" := by
  unfold completeRoute
  split
  case h_1 tenant grant cut => simp [cut]
  case h_2 other =>
    constructor
    · intro no
      contradiction
    · rintro ⟨tenant,grant,cut,_⟩
      exact absurd cut (other tenant grant)

theorem unmatched (cut : segments path = "" :: words) (app : sideOf words = .app) :
    pairingRoute path = false ∧ completeRoute path = false := by
  constructor
  · rw [Bool.eq_false_iff]
    intro matched
    obtain ⟨tenant,same,_⟩ := pairingIff.mp matched
    cases (List.cons.inj (cut.symm.trans same)).2
    contradiction
  · rw [Bool.eq_false_iff]
    intro matched
    obtain ⟨tenant,grant,same,_⟩ := completeIff.mp matched
    cases (List.cons.inj (cut.symm.trans same)).2
    contradiction

theorem tenantsNotAuth (cut : segments path = "" :: "v1" :: "tenants" :: words)
    (app : sideOf ("v1" :: "tenants" :: words) = .app) : authOnly path = false := by
  have begins := beginsWith ["v1","tenants"] "/v1/tenants" cut (by decide)
  have apart := unmatched cut app
  unfold authOnly
  rw [startsApart begins (b := "/v1/account") (by decide),startsApart begins (b := "/v1/pairing") (by decide),
    startsApart begins (b := "/v1/consent") (by decide),startsApart begins (b := "/v1/oauth") (by decide),
    apart.1,apart.2]
  rfl

theorem appOnlySide (cut : segments path = "" :: words) (app : sideOf words = .app) : appOnly path = true := by
  have whole := app
  unfold sideOf at app
  split at app
  case h_1 rest => simp [appOnly,beginsWith ["app"] "/app" cut (by decide)]
  case h_2 rest => simp [appOnly,beginsWith ["v1","console"] "/v1/console" cut (by decide)]
  case h_3 rest => simp [appOnly,beginsWith ["v1","session"] "/v1/session" cut (by decide)]
  case h_4 =>
    rw [wholePath "/v1/account/tenants" cut (by decide)]
    decide
  case h_5 =>
    rw [wholePath "/v1/account/deployment-readiness" cut (by decide)]
    decide
  case h_12 rest _ _ =>
    have begins := beginsWith ["v1","tenants"] "/v1/tenants" cut (by decide)
    simp [appOnly,begins,tenantsNotAuth cut whole]
  all_goals contradiction

theorem authOnlySide (cut : segments path = "" :: words) (full : "" ∉ words) (auth : sideOf words = .auth) :
    authOnly path = true := by
  have whole := auth
  unfold sideOf at auth
  split at auth
  case h_6 rest tenants readiness =>
    have begins := beginsWith ["v1","account"] "/v1/account" cut (by decide)
    have own : appAccountRoute path = false := by
      rw [Bool.eq_false_iff]
      intro listed
      rw [appAccountRoute,Bool.or_eq_true,decide_eq_true_eq,decide_eq_true_eq] at listed
      rcases listed with rfl | rfl
      · cases (List.cons.inj (cut.symm.trans (by decide : _ = ["","v1","account","tenants"]))).2
        contradiction
      · cases (List.cons.inj (cut.symm.trans (by decide : _ = ["","v1","account","deployment-readiness"]))).2
        contradiction
    simp [authOnly,begins,own]
  case h_7 rest => simp [authOnly,beginsWith ["v1","pairing"] "/v1/pairing" cut (by decide)]
  case h_8 rest => simp [authOnly,beginsWith ["v1","consent"] "/v1/consent" cut (by decide)]
  case h_9 rest => simp [authOnly,beginsWith ["v1","oauth"] "/v1/oauth" cut (by decide)]
  case h_10 tenant =>
    have matched := pairingIff.mpr ⟨tenant,cut,fun none_ => full (by simp [none_])⟩
    simp [authOnly,matched]
  case h_11 tenant grant =>
    have matched := completeIff.mpr ⟨tenant,grant,cut,fun none_ => full (by simp [none_]),
      fun none_ => full (by simp [none_])⟩
    simp [authOnly,matched]
  all_goals contradiction

end Texts
section Boundaries
variable {o : Origins} {router : Router} {resolve : String → String} {request : Request}

theorem boundaryIs (split_ : splitOrigins o = true) : requestBoundary o request =
    if sentTo o.authHost request then .auth else if sentTo o.appHost request then .app else .unknown := by
  unfold requestBoundary
  rw [split_]
  rfl

theorem passedIff (split_ : splitOrigins o = true) : preHandler o resolve request = .passed ↔
    requestBoundary o request ≠ .unknown ∧
    (appOnly (beforeQuery request.url) = true → requestBoundary o request = .app) ∧
    (authOnly (beforeQuery request.url) = true → requestBoundary o request = .auth) := by
  have under : startsWith (beforeQuery request.url) "/app" = true → appOnly (beforeQuery request.url) = true := by
    intro begins
    simp [appOnly,begins]
  unfold preHandler
  rw [split_]
  cases boundary : requestBoundary o request <;>
    cases app : appOnly (beforeQuery request.url) <;>
    cases auth : authOnly (beforeQuery request.url) <;>
    cases begins : startsWith (beforeQuery request.url) "/app" <;>
    simp_all

theorem refusedIff {r : Route} (found : router.find request.method request.url = .route r) :
    Refused (respond o router resolve request) ↔ preHandler o resolve request ≠ .passed := by
  unfold respond Refused
  rw [found]
  cases preHandler o resolve request <;> simp

theorem separatedIff (split_ : splitOrigins o = true) :
    Separated o router resolve request ↔ Spelled o router request := by
  apply forall_congr'
  intro r
  apply forall_congr'
  intro found
  rw [refusedIff found,ne_eq,passedIff split_,boundaryIs split_]
  by_cases auth : sentTo o.authHost request <;> by_cases app : sentTo o.appHost request <;>
    cases own : side r <;> simp [Admits,auth,app]

theorem canonicalSpelled (serves : Serves router routes) (canonical : Canonical request.url) : Spelled o router request := by
  intro r found
  obtain ⟨path,decoded,takes⟩ := serves.fitted _ _ _ found
  rw [serves.bare _ canonical.1] at decoded
  cases decoded
  obtain ⟨words,cut,same⟩ := takesSide (serves.listed _ _ _ found).1 takes
  have full := canonical.2
  rw [cut,List.tail_cons] at full
  exact ⟨fun app _ _ => appOnlySide cut (same.trans app),fun auth _ _ => authOnlySide cut full (same.trans auth)⟩

/- With two origins, a handler runs under its own host only, exactly for the targets whose raw
text is of the class of the route they are dispatched to. -/
theorem originsSeparated (split_ : splitOrigins o = true) (serves : Serves router routes) (request : Request) :
    (Separated o router resolve request ↔ Spelled o router request) ∧
    (Canonical request.url → Spelled o router request) :=
  ⟨separatedIff split_,canonicalSpelled serves⟩

end Boundaries
section Providers
variable {o : Origins} {router : Router} {resolve : String → String} {request : Request} {P : Type}

theorem ranPassed {r : Route} (ran : respond o router resolve request = .ran r) :
    router.find request.method request.url = .route r ∧ preHandler o resolve request = .passed := by
  unfold respond at ran
  cases found : router.find request.method request.url <;> cases hook : preHandler o resolve request <;> simp_all

theorem consoleAsked (split_ : splitOrigins o = true) (spelled : Spelled o router request)
    (apart : toLowerCase o.authHost ≠ toLowerCase o.appHost) {r : Route}
    (ran : respond o router resolve request = .ran r) (app : side r = .app) (identity console : P) :
    identityProviderFor o identity (some console) request = .ok console := by
  obtain ⟨found,passed⟩ := ranPassed ran
  have all : Separated o router resolve request := (separatedIff split_).mpr spelled
  have separated := all r found
  rw [refusedIff found,app] at separated
  have sent : sentTo o.appHost request := separated.resolve_right fun no => no passed
  have other : ¬sentTo o.authHost request := fun auth => apart (Option.some.inj (auth.symm.trans sent))
  unfold identityProviderFor
  rw [split_,boundaryIs split_,if_neg other,if_pos sent]
  rfl

end Providers

section Samples

def sampleOrigins : Origins where
  authOrigin := "https://auth.example.test"
  appOrigin := "https://app.example.test"
  authHost := "auth.example.test"
  appHost := "app.example.test"

def located (url : String) : String := sampleOrigins.appOrigin ++ url

def accountPage : Request := ⟨.get,"/app/account?from=menu",some "AUTH.example.test"⟩

def escapedPage : Request := ⟨.get,"/%61pp/account",some "auth.example.test"⟩

theorem accountSeparated : Separated sampleOrigins (unescaping routes) located accountPage := by
  have both : (Separated sampleOrigins (unescaping routes) located accountPage ↔ _) ∧ _ :=
    originsSeparated (by decide) (unescapingServes routes) accountPage
  exact both.1.mpr (both.2 (by decide))

theorem escapedDispatch : (unescaping routes).find escapedPage.method escapedPage.url =
    .route ⟨some .get,[.text "app",.text "account"]⟩ := by
  decide

theorem escapedUnseparated : splitOrigins sampleOrigins = true ∧ Serves (unescaping routes) routes ∧
    ¬Separated sampleOrigins (unescaping routes) located escapedPage := by
  refine ⟨by decide,unescapingServes routes,?_⟩
  intro separated
  rcases separated _ escapedDispatch with sent | refused
  · rw [show side ⟨some .get,[.text "app",.text "account"]⟩ = .app by rfl] at sent
    exact absurd sent (by decide : ¬sentTo sampleOrigins.appHost escapedPage)
  · rw [refusedIff escapedDispatch] at refused
    exact refused (by decide)

end Samples

end Wepuu.OriginBoundary
