import Wepuu.NodeApi
import Wepuu.Runs

/-! The redirect URIs of a native client in packages/oauth-provider. The list of a client is
changed in place, and what is dynamic in it is derived again from the list on each request. -/
namespace Wepuu.LoopbackRedirects
open NodeApi Runs

section Source

/- What allowRegisteredNativeLoopbackPort reads of the query of the authorization request. -/
structure AuthorizationRequest where
  clientId : Option String
  redirectUri : Option String
  deriving DecidableEq, Repr

structure Client where
  redirectUris : Option (List String)
  deriving DecidableEq, Repr

abbrev Clients := String → Option Client

def nativeLoopbackRedirectMatches (node : Node) (registered candidate : String) : Bool :=
  match node.parseUrl registered, node.parseUrl candidate with
  | some expected, some observed =>
    expected.protocol == "http:" && expected.hostname == "127.0.0.1" && expected.port == "" &&
    expected.username == "" && expected.password == "" &&
    observed.protocol == expected.protocol && observed.hostname == expected.hostname && observed.port != "" &&
    observed.username == "" && observed.password == "" &&
    observed.pathname == expected.pathname && observed.search == expected.search &&
    observed.hash == "" && expected.hash == ""
  | _, _ => false

def dynamicVariants (node : Node) (redirectUris : List String) : List String :=
  redirectUris.filter fun current => redirectUris.any fun registered => nativeLoopbackRedirectMatches node registered current

/- splice at indexOf removes the first occurrence. -/
def bounded (node : Node) (redirectUris : List String) : List String :=
  if 8 < (dynamicVariants node redirectUris).length then
    match (dynamicVariants node redirectUris).head? with
    | some oldest => redirectUris.erase oldest
    | none => redirectUris
  else redirectUris

def allowed (node : Node) (redirectUris : List String) (redirectUri : String) : List String × Bool :=
  if redirectUris.contains redirectUri then (redirectUris,true)
  else if !redirectUris.any fun registered => nativeLoopbackRedirectMatches node registered redirectUri then
    (redirectUris,false)
  else (bounded node (redirectUris ++ [redirectUri]),true)

def allowRegisteredNativeLoopbackPort (node : Node) (clients : Clients) (request : AuthorizationRequest) :
    Clients × Bool :=
  match request.clientId, request.redirectUri with
  | some clientId, some redirectUri => match clients clientId with
    | some ⟨some redirectUris⟩ =>
      (Function.update clients clientId (some ⟨some (allowed node redirectUris redirectUri).1⟩),
        (allowed node redirectUris redirectUri).2)
    | _ => (clients,false)
  | _, _ => (clients,false)

end Source

section Requests
variable (node : Node)

def next (clients : Clients) (request : AuthorizationRequest) : Clients :=
  (allowRegisteredNativeLoopbackPort node clients request).1

def redirectUrisOf (clients : Clients) (clientId : String) : List String :=
  ((clients clientId).bind (·.redirectUris)).getD []

def registering (clients : Clients) (clientId : String) (registered : List String) : Clients :=
  Function.update clients clientId (some ⟨some registered⟩)

def portlessLoopback (uri : String) : Bool :=
  (node.parseUrl uri).any fun url => url.protocol == "http:" && url.hostname == "127.0.0.1" && url.port == ""

/- What was registered stays, as often as it was; what came later is a variant of it. -/
structure Loyal (registered uris : List String) : Prop where
  stays : ∀ uri ∈ registered, uris.count uri = registered.count uri
  few : (uris.filter fun uri => !registered.contains uri).length ≤ 8
  matched : ∀ uri ∈ uris, uri ∉ registered → ∃ r ∈ registered,
    portlessLoopback node r = true ∧ nativeLoopbackRedirectMatches node r uri = true

structure Kept (clientId : String) (registered : List String) (clients : Clients) : Prop where
  loyal : Loyal node registered (redirectUrisOf clients clientId)
  accepted : ∀ redirectUri,
    (allowRegisteredNativeLoopbackPort node clients ⟨some clientId,some redirectUri⟩).2 = true →
    redirectUri ∈ redirectUrisOf (next node clients ⟨some clientId,some redirectUri⟩) clientId

/- The URI does not become a variant after eight or more of which a registered one comes first. -/
def SparedUri (registered uris : List String) (uri : String) : Prop :=
  uri ∉ uris → (∃ r ∈ uris, nativeLoopbackRedirectMatches node r uri = true) → 8 ≤ (dynamicVariants node uris).length →
    ∀ oldest, (dynamicVariants node uris).head? = some oldest → oldest ∉ registered

def Spared (clientId : String) (registered : List String) (clients : Clients) (request : AuthorizationRequest) : Prop :=
  ∀ uri, request = ⟨some clientId,some uri⟩ → SparedUri node registered (redirectUrisOf clients clientId) uri

end Requests

section Matching
variable {node : Node} {registered candidate : String} {uris : List String} {uri : String}

theorem matchesPortless (hit : nativeLoopbackRedirectMatches node registered candidate = true) :
    portlessLoopback node registered = true ∧ portlessLoopback node candidate = false := by
  unfold nativeLoopbackRedirectMatches at hit
  split at hit
  · rename_i expected observed left right
    simp only [Bool.and_eq_true,beq_iff_eq,bne_iff_ne] at hit
    obtain ⟨⟨⟨⟨⟨⟨⟨⟨⟨⟨⟨⟨⟨http,host⟩,port⟩,-⟩,-⟩,-⟩,-⟩,other⟩,-⟩,-⟩,-⟩,-⟩,-⟩,-⟩ := hit
    simp [portlessLoopback,left,right,http,host,port,other]
  · cases hit

theorem variantsAdded (added : ∃ r ∈ uris, nativeLoopbackRedirectMatches node r uri = true) :
    dynamicVariants node (uris ++ [uri]) = dynamicVariants node uris ++ [uri] := by
  obtain ⟨r,mem,hit⟩ := added
  have portless := (matchesPortless hit).2
  have idle : ∀ current, nativeLoopbackRedirectMatches node uri current = false := fun current => by
    by_contra on
    exact absurd (matchesPortless (Bool.not_eq_false _ ▸ on)).1 (by rw [portless]; decide)
  have same : ∀ current, ((uris ++ [uri]).any fun registered => nativeLoopbackRedirectMatches node registered current) =
      uris.any fun registered => nativeLoopbackRedirectMatches node registered current := fun current => by
    rw [List.any_append,List.any_cons,idle,List.any_nil,Bool.or_false,Bool.or_false]
  have dynamic : (uris.any fun registered => nativeLoopbackRedirectMatches node registered uri) = true :=
    List.any_eq_true.mpr ⟨r,mem,hit⟩
  unfold dynamicVariants
  simp only [same,List.filter_append,List.filter_cons,dynamic,if_true,List.filter_nil]

theorem allowedCases (node : Node) (uris : List String) (uri : String) :
    (uri ∈ uris ∧ allowed node uris uri = (uris,true)) ∨
    ((¬∃ r ∈ uris, nativeLoopbackRedirectMatches node r uri = true) ∧ uri ∉ uris ∧ allowed node uris uri = (uris,false)) ∨
    ((∃ r ∈ uris, nativeLoopbackRedirectMatches node r uri = true) ∧ uri ∉ uris ∧
      allowed node uris uri = (bounded node (uris ++ [uri]),true)) := by
  unfold allowed
  split
  · rename_i listed
    exact .inl ⟨List.contains_iff_mem.mp listed,rfl⟩
  · rename_i unlisted
    have absent : uri ∉ uris := fun mem => unlisted (List.contains_iff_mem.mpr mem)
    split
    · rename_i unmatched
      refine .inr (.inl ⟨fun ⟨r,mem,hit⟩ => ?_,absent,rfl⟩)
      rw [Bool.not_eq_true',List.any_eq_false] at unmatched
      exact unmatched r mem hit
    · rename_i some_
      rw [Bool.not_eq_true',Bool.not_eq_false,List.any_eq_true] at some_
      exact .inr (.inr ⟨some_,absent,rfl⟩)

theorem boundedCases (added : ∃ r ∈ uris, nativeLoopbackRedirectMatches node r uri = true) :
    ((dynamicVariants node uris).length < 8 ∧ bounded node (uris ++ [uri]) = uris ++ [uri]) ∨
    (8 ≤ (dynamicVariants node uris).length ∧ ∃ oldest ∈ uris, (dynamicVariants node uris).head? = some oldest ∧
      bounded node (uris ++ [uri]) = uris.erase oldest ++ [uri]) := by
  unfold bounded
  rw [variantsAdded added,List.length_append,List.length_singleton]
  split
  · rename_i many
    refine .inr ⟨by omega,?_⟩
    match found : dynamicVariants node uris with
    | [] =>
      rw [found,List.length_nil] at many
      omega
    | oldest :: rest =>
      have mem : oldest ∈ uris := by
        refine (List.mem_filter.mp (?_ : oldest ∈ dynamicVariants node uris)).1
        rw [found]
        exact List.mem_cons_self
      exact ⟨oldest,mem,rfl,List.erase_append_left _ mem⟩
  · exact .inl ⟨by omega,rfl⟩

theorem acceptedListed (node : Node) (ok : (allowed node uris uri).2 = true) : uri ∈ (allowed node uris uri).1 := by
  rcases allowedCases node uris uri with ⟨mem,same⟩ | ⟨-,-,same⟩ | ⟨added,-,same⟩
  · rw [same]
    exact mem
  · rw [same] at ok
    cases ok
  · rw [same]
    rcases boundedCases added with ⟨-,all⟩ | ⟨-,_,-,-,all⟩
    · rw [all]
      exact List.mem_append_right _ List.mem_cons_self
    · rw [all]
      exact List.mem_append_right _ List.mem_cons_self

end Matching

section Steps
variable {node : Node} {registered uris : List String} {uri : String}

theorem variantNew (loyal : Loyal node registered uris) (unlisted : uri ∉ uris) : uri ∉ registered := by
  intro mem
  have listed : 0 < uris.count uri := loyal.stays uri mem ▸ List.count_pos_iff.mpr mem
  exact unlisted (List.count_pos_iff.mp listed)

theorem registeredListed (loyal : Loyal node registered uris) {r : String} (mem : r ∈ registered) : r ∈ uris :=
  List.count_pos_iff.mp (loyal.stays r mem ▸ List.count_pos_iff.mpr mem)

theorem variantMatched (loyal : Loyal node registered uris)
    (added : ∃ r ∈ uris, nativeLoopbackRedirectMatches node r uri = true) :
    ∃ r ∈ registered, portlessLoopback node r = true ∧ nativeLoopbackRedirectMatches node r uri = true := by
  obtain ⟨r,mem,hit⟩ := added
  have portless := (matchesPortless hit).1
  by_cases known : r ∈ registered
  · exact ⟨r,known,portless,hit⟩
  · obtain ⟨first,-,-,other⟩ := loyal.matched r mem known
    exact absurd (matchesPortless other).2 (by rw [portless]; decide)

theorem unregisteredDynamic (loyal : Loyal node registered uris) :
    (uris.filter fun uri => !registered.contains uri).length ≤ (dynamicVariants node uris).length := by
  unfold dynamicVariants
  rw [← List.countP_eq_length_filter,← List.countP_eq_length_filter]
  refine List.countP_mono_left fun uri mem new => ?_
  have fresh : uri ∉ registered := fun known => by
    rw [List.contains_iff_mem.mpr known] at new
    cases new
  obtain ⟨r,known,-,hit⟩ := loyal.matched uri mem fresh
  exact List.any_eq_true.mpr ⟨r,registeredListed loyal known,hit⟩

theorem addedLoyal (loyal : Loyal node registered uris)
    (room : (uris.filter fun uri => !registered.contains uri).length < 8)
    (matched : ∃ r ∈ registered, portlessLoopback node r = true ∧ nativeLoopbackRedirectMatches node r uri = true)
    (new : uri ∉ registered) : Loyal node registered (uris ++ [uri]) where
  stays other mem := by
    have apart : uri ≠ other := fun same => new (same ▸ mem)
    rw [List.count_append,List.count_singleton,loyal.stays other mem,if_neg (by rw [beq_iff_eq]; exact apart)]
    rfl
  few := by
    rw [List.filter_append,List.length_append]
    have one := List.length_filter_le (fun uri => !registered.contains uri) [uri]
    rw [List.length_singleton] at one
    omega
  matched other mem fresh := by
    rcases List.mem_append.mp mem with old | last
    · exact loyal.matched other old fresh
    · rw [List.mem_singleton.mp last]
      exact matched

theorem erasedLoyal (loyal : Loyal node registered uris) {oldest : String} (listed : oldest ∈ uris)
    (dynamic : oldest ∉ registered) : Loyal node registered (uris.erase oldest) ∧
      ((uris.erase oldest).filter fun uri => !registered.contains uri).length < 8 := by
  have counted : ((uris.erase oldest).filter fun uri => !registered.contains uri).length + 1 =
      (uris.filter fun uri => !registered.contains uri).length := by
    have chosen : (!registered.contains oldest) = true := by
      rw [Bool.not_eq_true',Bool.eq_false_iff]
      exact fun known => dynamic (List.contains_iff_mem.mp known)
    rw [((List.perm_cons_erase listed).filter _).length_eq,List.filter_cons,if_pos chosen,List.length_cons]
  have few := loyal.few
  refine ⟨⟨fun other mem => ?_,by omega,fun other mem fresh => loyal.matched other (List.mem_of_mem_erase mem) fresh⟩,by omega⟩
  have apart : other ≠ oldest := fun same => dynamic (same ▸ mem)
  rw [List.count_erase_of_ne apart,loyal.stays other mem]

theorem erasedRegistered (loyal : Loyal node registered uris) {oldest : String} (apart : uri ≠ oldest)
    (after : Loyal node registered (uris.erase oldest ++ [uri])) : oldest ∉ registered := by
  intro known
  have stays := after.stays oldest known
  have before := loyal.stays oldest known
  have some_ : 0 < registered.count oldest := List.count_pos_iff.mpr known
  rw [List.count_append,List.count_erase_self,List.count_singleton,if_neg (by rw [beq_iff_eq]; exact apart)] at stays
  omega

theorem allowedLoyal (loyal : Loyal node registered uris) :
    Loyal node registered (allowed node uris uri).1 ↔ SparedUri node registered uris uri := by
  rcases allowedCases node uris uri with ⟨mem,same⟩ | ⟨none_,-,same⟩ | ⟨added,unlisted,same⟩
  · rw [same]
    exact ⟨fun _ unlisted => absurd mem unlisted,fun _ => loyal⟩
  · rw [same]
    exact ⟨fun _ _ some_ => absurd some_ none_,fun _ => loyal⟩
  · rw [same]
    have new := variantNew loyal unlisted
    have matched := variantMatched loyal added
    have dynamic := unregisteredDynamic loyal
    rcases boundedCases added with ⟨few,all⟩ | ⟨many,oldest,listed,first,rest⟩
    · rw [all]
      exact ⟨fun _ _ _ many => absurd many (Nat.not_le.mpr few),fun _ =>
        addedLoyal loyal (Nat.lt_of_le_of_lt dynamic few) matched new⟩
    · rw [rest]
      have apart : uri ≠ oldest := fun same => unlisted (same ▸ listed)
      constructor
      · intro after _ _ _ other here
        rw [first] at here
        exact Option.some.inj here ▸ erasedRegistered loyal apart after
      · intro spared
        obtain ⟨kept,room⟩ := erasedLoyal loyal listed (spared unlisted added many oldest first)
        exact addedLoyal kept room matched new

theorem registeredLoyal (node : Node) (registered : List String) : Loyal node registered registered where
  stays _ _ := rfl
  few := by
    have none_ : registered.filter (fun uri => !registered.contains uri) = [] :=
      List.filter_eq_nil_iff.mpr fun uri mem new => by
        rw [List.contains_iff_mem.mpr mem] at new
        cases new
    rw [none_]
    decide
  matched uri mem new := absurd mem new

end Steps

section Runs
variable {node : Node} {clients : Clients} {clientId : String} {registered uris : List String}

theorem nextOwn (node : Node) (found : clients clientId = some ⟨some uris⟩) (uri : String) :
    next node clients ⟨some clientId,some uri⟩ clientId = some ⟨some (allowed node uris uri).1⟩ := by
  simp only [next,allowRegisteredNativeLoopbackPort,found,Function.update_self]

theorem nextOther (node : Node) {request : AuthorizationRequest} (other : ∀ uri, request ≠ ⟨some clientId,some uri⟩) :
    next node clients request clientId = clients clientId := by
  obtain ⟨own | own,uri | uri⟩ := request
  · rfl
  · rfl
  · rfl
  · have apart : clientId ≠ own := fun same => other uri (same ▸ rfl)
    simp only [next,allowRegisteredNativeLoopbackPort]
    split
    · exact Function.update_of_ne apart _ _
    · rfl

structure Sound (node : Node) (clientId : String) (registered : List String) (clients : Clients) : Prop where
  found : clients clientId = some ⟨some (redirectUrisOf clients clientId)⟩
  loyal : Loyal node registered (redirectUrisOf clients clientId)

theorem ownList (found : clients clientId = some ⟨some uris⟩) : redirectUrisOf clients clientId = uris := by
  simp [redirectUrisOf,found]

theorem soundKept (sound : Sound node clientId registered clients) : Kept node clientId registered clients where
  loyal := sound.loyal
  accepted uri ok := by
    simp only [allowRegisteredNativeLoopbackPort,sound.found] at ok
    rw [ownList (nextOwn node sound.found uri)]
    exact acceptedListed node ok

theorem startSound (node : Node) (clients : Clients) (clientId : String) (registered : List String) :
    Sound node clientId registered (registering clients clientId registered) := by
  have found : registering clients clientId registered clientId = some ⟨some registered⟩ := Function.update_self _ _ _
  have own := ownList found
  exact ⟨own.symm ▸ found,own.symm ▸ registeredLoyal node registered⟩

theorem soundStep (sound : Sound node clientId registered clients) (request : AuthorizationRequest) :
    Sound node clientId registered (next node clients request) ↔ Spared node clientId registered clients request := by
  by_cases own : ∃ uri, request = ⟨some clientId,some uri⟩
  · obtain ⟨uri,rfl⟩ := own
    have found := nextOwn node sound.found uri
    have list := ownList found
    constructor
    · rintro after uri' same
      cases same
      exact (allowedLoyal sound.loyal).mp (list ▸ after.loyal)
    · intro spared
      have after := (allowedLoyal sound.loyal).mpr (spared uri rfl)
      exact ⟨list.symm ▸ found,list.symm ▸ after⟩
  · have same := @nextOther clients clientId node request fun uri same => own ⟨uri,same⟩
    have list : redirectUrisOf (next node clients request) clientId = redirectUrisOf clients clientId := by
      simp only [redirectUrisOf,same]
    exact ⟨fun _ uri here => absurd ⟨uri,here⟩ own,fun _ => ⟨by rw [same,list]; exact sound.found,list.symm ▸ sound.loyal⟩⟩

theorem foundNext (node : Node) (found : clients clientId = some ⟨some uris⟩) (request : AuthorizationRequest) :
    ∃ after, next node clients request clientId = some ⟨some after⟩ := by
  by_cases own : ∃ uri, request = ⟨some clientId,some uri⟩
  · obtain ⟨uri,rfl⟩ := own
    exact ⟨_,nextOwn node found uri⟩
  · exact ⟨uris,(nextOther node fun uri same => own ⟨uri,same⟩).trans found⟩

theorem keptGuarded {requests : List AuthorizationRequest} (sound : Sound node clientId registered clients)
    (kept : ∀ done rest, requests = done ++ rest → Kept node clientId registered (run (next node) clients done)) :
    Guarded (next node) (Spared node clientId registered) clients requests := by
  induction requests generalizing clients with
  | nil => trivial
  | cons request rest ih =>
    obtain ⟨after,found⟩ := foundNext node sound.found request
    have moved : Sound node clientId registered (next node clients request) :=
      ⟨(ownList found).symm ▸ found,(kept [request] rest rfl).loyal⟩
    refine ⟨(soundStep sound request).mp moved,ih moved fun done later same => ?_⟩
    exact kept (request :: done) later (by rw [same]; rfl)

theorem registeredKept (node : Node) (clients : Clients) (clientId : String) (registered : List String)
    (requests : List AuthorizationRequest) :
    (∀ done rest, requests = done ++ rest →
      Kept node clientId registered (run (next node) (registering clients clientId registered) done)) ↔
    Guarded (next node) (Spared node clientId registered) (registering clients clientId registered) requests := by
  have sound := startSound node clients clientId registered
  refine ⟨keptGuarded sound,fun spared done rest same => ?_⟩
  rw [same,guardedAppend] at spared
  exact soundKept (invariantRun (fun _ request inv ok => (soundStep inv request).mpr ok) sound spared.1)

/- Where no registered URI is a variant of another one, every request is spared. -/
def Plain (node : Node) (registered : List String) : Prop :=
  ∀ r ∈ registered, ∀ uri ∈ registered, nativeLoopbackRedirectMatches node r uri = false

theorem plainSpared (plain : Plain node registered) (sound : Sound node clientId registered clients)
    (request : AuthorizationRequest) : Spared node clientId registered clients request := by
  intro uri _ _ _ _ oldest first known
  have mem : oldest ∈ dynamicVariants node (redirectUrisOf clients clientId) := List.mem_of_mem_head? first
  obtain ⟨r,own,-,hit⟩ := variantMatched sound.loyal (List.any_eq_true.mp (List.mem_filter.mp mem).2)
  rw [plain r own oldest known] at hit
  cases hit

theorem plainGuarded (plain : Plain node registered) (sound : Sound node clientId registered clients)
    (requests : List AuthorizationRequest) :
    Guarded (next node) (Spared node clientId registered) clients requests := by
  induction requests generalizing clients with
  | nil => trivial
  | cons request rest ih =>
    have spared := plainSpared plain sound request
    exact ⟨spared,ih ((soundStep sound request).mpr spared)⟩

/- A client that has also registered one fixed port, and the URLs of eight other ports. -/
def callback (port : String) : String := "http://127.0.0.1:" ++ port ++ "/callback"
def callbackUrl (port : String) : Url :=
  ⟨"http:","","","127.0.0.1",port,"/callback","","",callback port⟩
def ports : List String := ["53123","53124","53125","53126","53127","53128","53129","53130"]
def callbackNode : Node := tabled [] [] (("http://127.0.0.1/callback",
  ⟨"http:","","","127.0.0.1","","/callback","","","http://127.0.0.1/callback"⟩) ::
    ("3000" :: ports).map fun port => (callback port,callbackUrl port))

def eightPorts : List AuthorizationRequest := ports.map fun port => ⟨some "codex-client",some (callback port)⟩

theorem fixedPortGone : ¬ ∀ done rest, eightPorts = done ++ rest →
    Kept callbackNode "codex-client" ["http://127.0.0.1/callback",callback "3000"]
      (run (next callbackNode) (registering (fun _ => none) "codex-client"
        ["http://127.0.0.1/callback",callback "3000"]) done) := by
  intro kept
  have stays := (kept eightPorts [] (List.append_nil _).symm).loyal.stays (callback "3000") (by decide)
  revert stays
  decide

end Runs
end Wepuu.LoopbackRedirects
