import Wepuu.LoopbackRedirects
import Wepuu.Resources
import Wepuu.Words

/-! Which texts the parsed comparison of nativeLoopbackRedirectMatches admits. The accessors
of a WHATWG URL show a normalized host, hide an empty query, fragment or userinfo, and the
text itself is what the list gets. -/
namespace Wepuu.RedirectSpellings
open LoopbackRedirects NodeApi Resources Schema Words

section Parsing

/- The record of a parsed http URL. A colon is in the host only between brackets. -/
structure HttpUrl extends UrlParts where
  userMarks : ∀ c ∈ username.toList ++ password.toList, c ≠ '/' ∧ c ≠ ':' ∧ c ≠ '@'
  hostMarks : '/' ∉ host.toList ∧ '@' ∉ host.toList ∧ (':' ∈ host.toList → host.toList.head? = some '[')
  portDigits : ∀ text, port = some text → text ≠ "" ∧ text.toList.all Char.isDigit = true
  pathStart : path.toList.head? = some '/'
  pathMarks : undelimited path
  queryMark : ∀ text, query = some text → '#' ∉ text.toList

def httpAccessors (u : UrlParts) : Url where
  protocol := "http:"
  username := u.username
  password := u.password
  hostname := u.host
  port := u.port.getD ""
  pathname := u.path
  search := shown "?" u.query
  hash := shown "#" u.fragment
  href := "http://" ++ credentials u ++ u.host ++ after ":" u.port ++ u.path ++ after "?" u.query ++ after "#" u.fragment

def WhatwgHttp (node : Node) : Prop :=
  ∀ text url, node.parseUrl text = some url → url.protocol = "http:" → ∃ u : HttpUrl, url = httpAccessors u.toUrlParts

def authority (url : Url) : String :=
  credentials ⟨url.username,url.password,"",none,"",none,none⟩ ++ url.hostname ++
    (if url.port = "" then "" else ":" ++ url.port)
def serialized (url : Url) : String :=
  url.protocol ++ "//" ++ authority url ++ url.pathname ++ url.search ++ url.hash

end Parsing

section Spellings

def decimal (port : String) : Prop := port ≠ "" ∧ port.toList.all Char.isDigit = true

/- The candidate is the registered port-less text with a port after the host. -/
def Spelled (registered candidate : String) : Prop := ∃ port rest, decimal port ∧
  (rest = "" ∨ ∃ c ∈ ['/','?','#'], rest.toList.head? = some c) ∧
  registered = "http://127.0.0.1" ++ rest ∧ candidate = "http://127.0.0.1:" ++ port ++ rest

def Literal (redirectUris : List String) (redirectUri : String) : Prop :=
  redirectUri ∈ redirectUris ∨ ∃ registered ∈ redirectUris, Spelled registered redirectUri

/- The serialization of the candidate is the registered one's with a port after the host. -/
def SameAddress (node : Node) (registered candidate : String) : Prop := ∃ expected observed port rest,
  node.parseUrl registered = some expected ∧ node.parseUrl candidate = some observed ∧
  expected.protocol = "http:" ∧ observed.protocol = "http:" ∧ decimal port ∧
  rest.toList.head? = some '/' ∧ '#' ∉ rest.toList ∧
  serialized expected = "http://127.0.0.1" ++ rest ∧ serialized observed = "http://127.0.0.1:" ++ port ++ rest

/- The text of an http URL is its own serialization, with no empty query or fragment. -/
def Printed (node : Node) (text : String) : Prop :=
  ∀ url, node.parseUrl text = some url → url.protocol = "http:" → text = serialized url

end Spellings

section Addresses
variable {node : Node} {u : HttpUrl} {registered candidate : String}

theorem digitPlain {text : String} (digits : text.toList.all Char.isDigit = true) {c : Char} (mark : c.isDigit = false) :
    c ∉ text.toList := fun mem => by
  rw [List.all_eq_true.mp digits c mem] at mark
  cases mark

theorem portPlain (u : HttpUrl) {c : Char} (mark : c.isDigit = false) : c ∉ (u.port.getD "").toList := by
  cases port : u.port with
  | none => exact List.not_mem_nil
  | some text => exact digitPlain (u.portDigits text port).2 mark

theorem authorityText (u : HttpUrl) : authority (httpAccessors u.toUrlParts) =
    credentials u.toUrlParts ++ u.host ++ (if u.port.getD "" = "" then "" else ":" ++ u.port.getD "") := rfl

theorem authoritySlash (u : HttpUrl) : '/' ∉ (authority (httpAccessors u.toUrlParts)).toList := by
  have user : '/' ∉ u.username.toList ++ u.password.toList := fun mem => (u.userMarks '/' mem).1 rfl
  rw [List.mem_append,not_or] at user
  have port := portPlain u (by decide : Char.isDigit '/' = false)
  rw [authorityText]
  simp only [credentials,String.toList_append,List.mem_append,not_or]
  refine ⟨⟨?_,u.hostMarks.1⟩,?_⟩
  · split
    · exact List.not_mem_nil
    · split <;> simp [user]
  · split
    · exact List.not_mem_nil
    · simp [port]

theorem authorityCut {front rest : String} (bare : '/' ∉ front.toList) (start : rest.toList.head? = some '/')
    (same : serialized (httpAccessors u.toUrlParts) = "http://" ++ front ++ rest) :
    authority (httpAccessors u.toUrlParts) = front ∧ u.path ++ shown "?" u.query ++ shown "#" u.fragment = rest := by
  have texts := congrArg String.toList same
  have scheme : "http:".toList ++ "//".toList = "http://".toList := by decide
  simp only [serialized,String.toList_append,List.append_assoc] at texts
  simp only [httpAccessors,← List.append_assoc] at texts
  rw [scheme] at texts
  simp only [List.append_assoc] at texts
  have tail := List.append_cancel_left texts
  have head : (u.path.toList ++ ((shown "?" u.query).toList ++ (shown "#" u.fragment).toList)).head? = some '/' := by
    rw [List.head?_append,u.pathStart]
    rfl
  obtain ⟨front_,rest_⟩ := cutAt (authoritySlash u) bare (.inr head) (.inr start) tail
  exact ⟨String.toList_inj.mp front_,String.toList_inj.mp (by simpa [String.toList_append] using rest_)⟩

theorem authorityPlain (bare : '@' ∉ (authority (httpAccessors u.toUrlParts)).toList) :
    u.username = "" ∧ u.password = "" ∧ authority (httpAccessors u.toUrlParts) =
      u.host ++ (if u.port.getD "" = "" then "" else ":" ++ u.port.getD "") := by
  by_cases none_ : u.username = "" ∧ u.password = ""
  · refine ⟨none_.1,none_.2,?_⟩
    rw [authorityText]
    simp [credentials,none_.1,none_.2]
  · refine absurd ?_ bare
    rw [authorityText]
    simp only [credentials,String.toList_append,List.mem_append]
    exact .inl (.inl (by rw [if_neg none_]; simp))

theorem portlessAuthority (same : authority (httpAccessors u.toUrlParts) = "127.0.0.1") :
    u.username = "" ∧ u.password = "" ∧ u.host = "127.0.0.1" ∧ u.port.getD "" = "" := by
  obtain ⟨username,password,text⟩ := authorityPlain (u := u) (by rw [same]; decide)
  rw [same] at text
  refine ⟨username,password,?_⟩
  split at text
  · rename_i none_
    rw [String.append_empty] at text
    exact ⟨text.symm,none_⟩
  · have colon : ':' ∈ "127.0.0.1".toList := by
      rw [text]
      simp
    exact absurd colon (by decide)

theorem portAuthority {port : String} (number : decimal port)
    (same : authority (httpAccessors u.toUrlParts) = "127.0.0.1:" ++ port) :
    u.username = "" ∧ u.password = "" ∧ u.host = "127.0.0.1" ∧ u.port.getD "" = port := by
  have plain := digitPlain number.2 (by decide : Char.isDigit '@' = false)
  obtain ⟨username,password,text⟩ := authorityPlain (u := u) (by
    rw [same]
    simp [plain])
  rw [same] at text
  have bracket : u.host.toList.head? ≠ some '[' := by
    intro bracket
    have heads := congrArg (fun text => text.toList.head?) text
    have first : "127.0.0.1:".toList.head? = some '1' := by decide
    simp only [String.toList_append,List.head?_append,bracket,first,Option.some_or,Option.some.injEq] at heads
    revert heads
    decide
  have noColon : ':' ∉ u.host.toList := fun mem => bracket (u.hostMarks.2.2 mem)
  refine ⟨username,password,?_⟩
  have texts := congrArg String.toList text
  split at texts
  · simp only [String.toList_append,String.append_empty] at texts
    refine absurd ?_ noColon
    rw [← texts]
    simp
  · simp only [String.toList_append] at texts
    have left : "127.0.0.1:".toList = "127.0.0.1".toList ++ ":".toList := by decide
    rw [left,List.append_assoc] at texts
    obtain ⟨host,rest⟩ := cutAt (by decide) noColon (.inr (by simp)) (.inr (by simp)) texts
    exact ⟨String.toList_inj.mp host.symm,String.toList_inj.mp (List.append_cancel_left rest).symm⟩

theorem shownFragment {fragment : Option String} (bare : '#' ∉ (shown "#" fragment).toList) : shown "#" fragment = "" := by
  cases fragment with
  | none => rfl
  | some text =>
    by_cases blank : text = ""
    · simp [shown,blank]
    · refine absurd ?_ bare
      simp [shown,blank]

theorem shownStart (query : Option String) :
    (shown "?" query).toList = [] ∨ (shown "?" query).toList.head? = some '?' := by
  cases query with
  | none => exact .inl rfl
  | some text =>
    by_cases blank : text = ""
    · exact .inl (by simp [shown,blank])
    · exact .inr (by simp [shown,blank])

theorem shownQuery (u : HttpUrl) : '#' ∉ (shown "?" u.query).toList := by
  cases query : u.query with
  | none => exact List.not_mem_nil
  | some text =>
    have marks := u.queryMark text query
    by_cases blank : text = ""
    · simp [shown,blank]
    · simp [shown,blank,marks]

theorem restCut {rest : String} (bare : '#' ∉ rest.toList)
    (same : u.path ++ shown "?" u.query ++ shown "#" u.fragment = rest) :
    shown "#" u.fragment = "" ∧ u.path ++ shown "?" u.query = rest := by
  have none_ : shown "#" u.fragment = "" := shownFragment fun mem => bare (by
    rw [← same]
    simp [mem])
  rw [none_,String.append_empty] at same
  exact ⟨none_,same⟩

theorem restSame {v : HttpUrl} (same : u.path ++ shown "?" u.query = v.path ++ shown "?" v.query) :
    u.path = v.path ∧ shown "?" u.query = shown "?" v.query := by
  have texts := congrArg String.toList same
  simp only [String.toList_append] at texts
  obtain ⟨path,query⟩ := cutAt u.pathMarks.1 v.pathMarks.1 (shownStart u.query) (shownStart v.query) texts
  exact ⟨String.toList_inj.mp path,String.toList_inj.mp query⟩

theorem serializedLoopback (user : u.username = "") (pass : u.password = "") (host : u.host = "127.0.0.1")
    (hash : shown "#" u.fragment = "") : serialized (httpAccessors u.toUrlParts) =
      "http://127.0.0.1" ++ (if u.port.getD "" = "" then "" else ":" ++ u.port.getD "") ++
        (u.path ++ shown "?" u.query) := by
  have text : serialized (httpAccessors u.toUrlParts) = "http:" ++ "//" ++ authority (httpAccessors u.toUrlParts) ++
      u.path ++ shown "?" u.query ++ shown "#" u.fragment := rfl
  have bare : credentials u.toUrlParts = "" := by simp [credentials,user,pass]
  have scheme : "http:" ++ "//" ++ "127.0.0.1" = "http://127.0.0.1" := by decide
  rw [text,authorityText,bare,host,hash,String.empty_append,String.append_empty]
  simp only [← String.append_assoc]
  rw [scheme]

theorem portDecimal (u : HttpUrl) (some_ : u.port.getD "" ≠ "") : decimal (u.port.getD "") := by
  cases port : u.port with
  | none =>
    rw [port] at some_
    exact absurd rfl some_
  | some text => exact u.portDigits text port

end Addresses

section Matching
variable {node : Node} {registered candidate : String}

theorem matchesForward (whatwg : WhatwgHttp node) (hit : nativeLoopbackRedirectMatches node registered candidate = true) :
    SameAddress node registered candidate := by
  unfold nativeLoopbackRedirectMatches at hit
  split at hit
  · rename_i expected observed left right
    simp only [Bool.and_eq_true,beq_iff_eq,bne_iff_ne] at hit
    obtain ⟨⟨⟨⟨⟨⟨⟨⟨⟨⟨⟨⟨⟨http,host⟩,none_⟩,user⟩,pass⟩,scheme⟩,same⟩,port⟩,user'⟩,pass'⟩,path⟩,query⟩,hash⟩,hash'⟩ := hit
    obtain ⟨u,rfl⟩ := whatwg registered expected left http
    obtain ⟨v,rfl⟩ := whatwg candidate observed right (scheme.trans http)
    have bare : '#' ∉ (u.path ++ shown "?" u.query).toList := by
      rw [String.toList_append,List.mem_append,not_or]
      exact ⟨u.pathMarks.2,shownQuery u⟩
    have start : (u.path ++ shown "?" u.query).toList.head? = some '/' := by
      rw [String.toList_append,List.head?_append,u.pathStart]
      rfl
    refine ⟨_,_,v.port.getD "",u.path ++ shown "?" u.query,left,right,http,scheme.trans http,portDecimal v port,start,
      bare,?_,?_⟩
    · have none' : u.port.getD "" = "" := none_
      rw [serializedLoopback user pass host hash',if_pos none',String.append_empty]
    · have rest : u.path ++ shown "?" u.query = v.path ++ shown "?" v.query := by
        rw [show v.path = u.path from path,show shown "?" v.query = shown "?" u.query from query]
      have number : v.port.getD "" ≠ "" := port
      have colon : "http://127.0.0.1" ++ ":" = "http://127.0.0.1:" := by decide
      rw [serializedLoopback user' pass' (same.trans host) hash,if_neg number,rest]
      simp only [← String.append_assoc]
      rw [colon]
  · cases hit

theorem matchesBackward (whatwg : WhatwgHttp node) (same : SameAddress node registered candidate) :
    nativeLoopbackRedirectMatches node registered candidate = true := by
  obtain ⟨expected,observed,port,rest,left,right,http,http',number,start,bare,first,second⟩ := same
  obtain ⟨u,rfl⟩ := whatwg registered expected left http
  obtain ⟨v,rfl⟩ := whatwg candidate observed right http'
  have split_ : "http://127.0.0.1" = "http://" ++ "127.0.0.1" := by decide
  have split' : "http://127.0.0.1:" ++ port = "http://" ++ ("127.0.0.1:" ++ port) := by
    rw [← String.append_assoc]
    congr 1
  have plain : '/' ∉ ("127.0.0.1:" ++ port).toList := by
    rw [String.toList_append,List.mem_append,not_or]
    exact ⟨by decide,digitPlain number.2 (by decide)⟩
  rw [split_] at first
  rw [split'] at second
  obtain ⟨front,tail⟩ := authorityCut (by decide) start first
  obtain ⟨front',tail'⟩ := authorityCut plain start second
  obtain ⟨user,pass,host,none_⟩ := portlessAuthority front
  obtain ⟨user',pass',host',port_⟩ := portAuthority number front'
  obtain ⟨hash,text⟩ := restCut bare tail
  obtain ⟨hash',text'⟩ := restCut bare tail'
  obtain ⟨path,query⟩ := restSame (text'.trans text.symm)
  unfold nativeLoopbackRedirectMatches
  rw [left,right]
  simp only [httpAccessors,user,pass,host,none_,user',pass',host',port_,hash,hash',path,query,beq_self_eq_true,
    Bool.true_and,Bool.and_true,bne_iff_ne]
  exact number.1

theorem matchesExactly (whatwg : WhatwgHttp node) : nativeLoopbackRedirectMatches node registered candidate = true ↔
    SameAddress node registered candidate := ⟨matchesForward whatwg,matchesBackward whatwg⟩

theorem printedSpelled (same : SameAddress node registered candidate) (first : Printed node registered)
    (second : Printed node candidate) : Spelled registered candidate := by
  obtain ⟨expected,observed,port,rest,left,right,http,http',number,start,-,text,text'⟩ := same
  exact ⟨port,rest,number,.inr ⟨'/',List.mem_cons_self,start⟩,(first _ left http).trans text,(second _ right http').trans text'⟩

end Matching

section Admission
variable {node : Node}

/- What is admitted is literal exactly where no other spelling of a registered address is asked
for; between texts as they are printed there is none. -/
theorem literalExactly (node : Node) (whatwg : WhatwgHttp node) (clients : Clients) (clientId : String)
    (redirectUris : List String) (redirectUri : String) :
    (((allowRegisteredNativeLoopbackPort node (registering clients clientId redirectUris)
      ⟨some clientId,some redirectUri⟩).2 = true → Literal redirectUris redirectUri) ↔
    (redirectUri ∉ redirectUris → (∃ registered ∈ redirectUris, SameAddress node registered redirectUri) →
      ∃ registered ∈ redirectUris, Spelled registered redirectUri)) ∧
    ((∀ registered ∈ redirectUris, Printed node registered) → Printed node redirectUri →
      redirectUri ∉ redirectUris → (∃ registered ∈ redirectUris, SameAddress node registered redirectUri) →
        ∃ registered ∈ redirectUris, Spelled registered redirectUri) := by
  refine ⟨?_,fun printed printed' _ ⟨registered,mem,same⟩ => ⟨registered,mem,printedSpelled same (printed _ mem) printed'⟩⟩
  have answer : (allowRegisteredNativeLoopbackPort node (registering clients clientId redirectUris)
      ⟨some clientId,some redirectUri⟩).2 = (allowed node redirectUris redirectUri).2 := by
    simp only [allowRegisteredNativeLoopbackPort,registering,Function.update_self]
  simp only [answer,Literal,← matchesExactly whatwg]
  rcases allowedCases node redirectUris redirectUri with ⟨listed,same⟩ | ⟨none_,-,same⟩ | ⟨added,unlisted,same⟩
  · exact ⟨fun _ unlisted => absurd listed unlisted,fun _ _ => .inl listed⟩
  · rw [same]
    exact ⟨fun _ _ added => absurd added none_,fun _ bad => by cases bad⟩
  · rw [same]
    exact ⟨fun literal _ _ => (literal rfl).resolve_left unlisted,fun spelled _ => .inr (spelled unlisted added)⟩

def httpTable (urls : List (String × HttpUrl)) : List (String × Url) :=
  urls.map fun (text,u) => (text,httpAccessors u.toUrlParts)

theorem tabledHttp (digests : List (String × Digest)) (macs : List ((Key × String) × Digest))
    (urls : List (String × HttpUrl)) : WhatwgHttp (tabled digests macs (httpTable urls)) := by
  intro text url parsed _
  obtain ⟨before,later,split_,_⟩ := List.lookup_eq_some_iff.mp parsed
  have mem : (text,url) ∈ httpTable urls := split_ ▸ List.mem_append_right before List.mem_cons_self
  obtain ⟨p,_,same⟩ := List.mem_map.mp mem
  exact ⟨p.2,(congrArg Prod.snd same).symm⟩

def loopbackUrl (port fragment : Option String) (digits : ∀ text, port = some text →
    text ≠ "" ∧ text.toList.all Char.isDigit = true) : HttpUrl where
  username := ""
  password := ""
  host := "127.0.0.1"
  port := port
  path := "/callback"
  query := none
  fragment := fragment
  userMarks := by simp
  hostMarks := by decide
  portDigits := digits
  pathStart := by decide
  pathMarks := by decide
  queryMark := nofun

def portUrl (fragment : Option String) : HttpUrl := loopbackUrl (some "53123") fragment fun text same => by
  cases same
  decide

def registeredCallback : String := "http://127.0.0.1/callback"
def emptyFragment : String := "http://127.0.0.1:53123/callback#"
def spellingNode : Node := tabled [] [] (httpTable [(registeredCallback,loopbackUrl none none nofun),
  (callback "53123",portUrl none),(emptyFragment,portUrl (some ""))])

theorem portLiteral :
    (allowRegisteredNativeLoopbackPort spellingNode (registering (fun _ => none) "codex-client" [registeredCallback])
      ⟨some "codex-client",some (callback "53123")⟩).2 = true ∧
    Literal [registeredCallback] (callback "53123") :=
  ⟨by decide,(literalExactly spellingNode (tabledHttp [] [] _) (fun _ => none) "codex-client" [registeredCallback]
    (callback "53123")).1.mpr (fun _ _ => ⟨registeredCallback,List.mem_cons_self,"53123","/callback",
      ⟨by decide,by decide⟩,.inr ⟨'/',by decide,by decide⟩,by decide,by decide⟩) (by decide)⟩

theorem emptyFragmentAdmitted :
    (allowRegisteredNativeLoopbackPort spellingNode (registering (fun _ => none) "codex-client" [registeredCallback])
      ⟨some "codex-client",some emptyFragment⟩).2 = true ∧
    emptyFragment ∈ redirectUrisOf (next spellingNode (registering (fun _ => none) "codex-client" [registeredCallback])
      ⟨some "codex-client",some emptyFragment⟩) "codex-client" ∧
    ¬Literal [registeredCallback] emptyFragment := by
  refine ⟨by decide,by decide,?_⟩
  rintro (listed | ⟨registered,mem,port,rest,-,-,first,second⟩)
  · revert listed
    decide
  · rw [List.mem_singleton.mp mem] at first
    have whole : registeredCallback = "http://127.0.0.1" ++ "/callback" := by decide
    rw [whole,String.append_right_inj] at first
    have last := congrArg (fun text => text.toList.getLast?) second
    have mark : emptyFragment.toList.getLast? = some '#' := by decide
    have letter : "/callback".toList.getLast? = some 'k' := by decide
    simp only [← first,String.toList_append,List.getLast?_append,mark,letter,Option.some_or,Option.some.injEq] at last
    revert last
    decide

end Admission
end Wepuu.RedirectSpellings
