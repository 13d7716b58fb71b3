import Wepuu.Consent
import Wepuu.ConsentPlan

/-! The resource URI of a site. The accessors of a WHATWG URL hide an empty query and an
empty fragment that its href keeps, and canonicalizeResource looks at the accessors. -/
namespace Wepuu.Resources
open Consent ConsentPlan NodeApi Relational Schema Wepuu.System

section Parsing

/- The record of a parsed https URL: a null query is not an empty one. -/
structure UrlParts where
  username : String
  password : String
  host : String
  port : Option String
  path : String
  query : Option String
  fragment : Option String
  deriving DecidableEq, Repr

def undelimited (text : String) : Prop := '?' ∉ text.toList ∧ '#' ∉ text.toList

instance (text : String) : Decidable (undelimited text) := by unfold undelimited; infer_instance

def toLowerCase (host : String) : String := String.ofList (host.toList.map Char.toLower)

structure HttpsUrl extends UrlParts where
  lowered : toLowerCase host = host
  portShown : ∀ text, port = some text → text ≠ "" ∧ text ≠ "443"
  hostMarks : undelimited host
  pathMarks : undelimited path

def after (mark : String) : Option String → String
  | none => ""
  | some text => mark ++ text

def shown (mark : String) : Option String → String
  | none => ""
  | some text => if text = "" then "" else mark ++ text

def credentials (u : UrlParts) : String :=
  if u.username = "" ∧ u.password = "" then ""
  else u.username ++ (if u.password = "" then "" else ":" ++ u.password) ++ "@"

def href (u : UrlParts) : String :=
  "https://" ++ credentials u ++ u.host ++ after ":" u.port ++ u.path ++ after "?" u.query ++ after "#" u.fragment

def accessors (u : UrlParts) : Url where
  protocol := "https:"
  username := u.username
  password := u.password
  hostname := u.host
  port := u.port.getD ""
  pathname := u.path
  search := shown "?" u.query
  hash := shown "#" u.fragment
  href := href u

/- The two assignments of canonicalizeResource. -/
def assigned (u : UrlParts) : UrlParts := { u with host := toLowerCase u.host, port := none }

/- The parser on https URLs: a query or a fragment begins at a mark of the text, and href
reads back. -/
structure Whatwg (node : Node) : Prop where
  parts : ∀ text url, node.parseUrl text = some url → url.protocol = "https:" →
    ∃ u : HttpsUrl, url = accessors u.toUrlParts ∧ (u.query = none ∧ u.fragment = none ↔ undelimited text)
  again : ∀ text url, node.parseUrl text = some url → url.protocol = "https:" → node.parseUrl url.href = some url

def urlTable (urls : List (String × HttpsUrl)) : List (String × Url) :=
  urls.map fun (text,u) => (text,accessors u.toUrlParts)

theorem tabledWhatwg {digests : List (String × Digest)} {macs : List ((Key × String) × Digest)}
    {urls : List (String × HttpsUrl)}
    (marks : ∀ p ∈ urls, (p.2.query = none ∧ p.2.fragment = none ↔ undelimited p.1))
    (again : ∀ p ∈ urls, (urlTable urls).lookup (href p.2.toUrlParts) = some (accessors p.2.toUrlParts)) :
    Whatwg (tabled digests macs (urlTable urls)) := by
  have known : ∀ text url, (tabled digests macs (urlTable urls)).parseUrl text = some url →
      ∃ p ∈ urls, text = p.1 ∧ url = accessors p.2.toUrlParts := by
    intro text url parsed
    obtain ⟨before,later,split_,_⟩ := List.lookup_eq_some_iff.mp parsed
    have mem : (text,url) ∈ urlTable urls := split_ ▸ List.mem_append_right before List.mem_cons_self
    obtain ⟨p,hp,same⟩ := List.mem_map.mp mem
    exact ⟨p,hp,(congrArg Prod.fst same).symm,(congrArg Prod.snd same).symm⟩
  constructor
  · intro text url parsed _
    obtain ⟨p,hp,rfl,rfl⟩ := known text url parsed
    exact ⟨p.2,rfl,marks p hp⟩
  · intro text url parsed _
    obtain ⟨p,hp,rfl,rfl⟩ := known text url parsed
    exact again p hp

end Parsing

section Canonical
variable {node : Node} {input resource : String}

structure Accepted (u : UrlParts) : Prop where
  username : u.username = ""
  password : u.password = ""
  port : u.port = none
  query : shown "?" u.query = ""
  fragment : shown "#" u.fragment = ""
  notRoot : u.path ≠ "/"
  notSlash : u.path.toList.getLast? ≠ some '/'

theorem assignedIdle (u : HttpsUrl) (port : u.port = none) : assigned u.toUrlParts = u.toUrlParts := by
  unfold assigned
  rw [u.lowered,← port]

theorem portAllowed (u : HttpsUrl) : (u.port.getD "" == "" || u.port.getD "" == "443") = true ↔ u.port = none := by
  have texts := u.portShown
  cases port : u.port with
  | none => simp
  | some text =>
    obtain ⟨notEmpty,notDefault⟩ := texts text port
    simp [notEmpty,notDefault]

theorem acceptedSchema (whatwg : Whatwg node) {u : HttpsUrl} (parsed : node.parseUrl input = some (accessors u.toUrlParts))
    (accepted : Accepted u.toUrlParts) : canonicalResource node (href u.toUrlParts) = true := by
  have again : node.parseUrl (href u.toUrlParts) = some (accessors u.toUrlParts) := whatwg.again input _ parsed rfl
  unfold canonicalResource
  simp [again,accessors,accepted.username,accepted.password,accepted.port,accepted.query,accepted.fragment]

theorem canonicalizeExact (whatwg : Whatwg node) : canonicalizeResource node input = .ok resource ↔
    ∃ u : HttpsUrl, node.parseUrl input = some (accessors u.toUrlParts) ∧ Accepted u.toUrlParts ∧
      (u.query = none ∧ u.fragment = none ↔ undelimited input) ∧ resource = href (assigned u.toUrlParts) := by
  simp only [canonicalizeResource,bindOk,orFailOk,ensureOk]
  constructor
  · rintro ⟨url,parsed,_,first,_,port,_,path,_,_,last⟩
    simp only [Bool.and_eq_true,beq_iff_eq] at first
    obtain ⟨⟨⟨⟨https,username⟩,password⟩,search⟩,hash⟩ := first
    obtain ⟨u,rfl,marks⟩ := whatwg.parts input url parsed https
    have noPort : u.port = none := (portAllowed u).mp port
    simp only [Bool.not_eq_true',Bool.or_eq_false_iff,beq_eq_false_iff_ne] at path
    refine ⟨u,parsed,⟨username,password,noPort,search,hash,path.1,path.2⟩,marks,?_⟩
    rw [assignedIdle u noPort]
    exact (Except.ok.inj last).symm
  · rintro ⟨u,parsed,accepted,_,rfl⟩
    refine ⟨_,parsed,(),?_,(),(portAllowed u).mpr accepted.port,(),?_,(),acceptedSchema whatwg parsed accepted,?_⟩
    · simp [accessors,accepted.username,accepted.password,accepted.query,accepted.fragment]
    · simp [accessors,accepted.notRoot,accepted.notSlash]
    · rw [assignedIdle u accepted.port]
      rfl

theorem acceptedHref {u : UrlParts} (accepted : Accepted u) :
    href u = "https://" ++ u.host ++ u.path ++ after "?" u.query ++ after "#" u.fragment := by
  simp [href,credentials,after,accepted.username,accepted.password,accepted.port]

theorem shownEmpty {mark : String} {part : Option String} (marked : mark ≠ "") (empty : shown mark part = "") :
    part = none ∨ part = some "" := by
  cases part with
  | none => exact .inl rfl
  | some text =>
    by_cases blank : text = ""
    · exact .inr (by rw [blank])
    · simp only [shown,if_neg blank,String.append_eq_empty_iff] at empty
      exact absurd empty.1 marked

theorem appendUndelimited {left right : String} : undelimited (left ++ right) ↔ undelimited left ∧ undelimited right := by
  unfold undelimited
  simp only [String.toList_append,List.mem_append,not_or]
  tauto

/- The text of an accepted URL has a mark exactly when its query or fragment is there. -/
theorem hrefUndelimited (u : HttpsUrl) (accepted : Accepted u.toUrlParts) :
    undelimited (href u.toUrlParts) ↔ u.query = none ∧ u.fragment = none := by
  have scheme : undelimited "https://" := by decide
  have query := shownEmpty (by decide) accepted.query
  have fragment := shownEmpty (by decide) accepted.fragment
  simp only [acceptedHref accepted,appendUndelimited,scheme,u.hostMarks,u.pathMarks,true_and]
  have marks : (undelimited (after "?" none) ∧ undelimited (after "#" none)) ∧ ¬undelimited (after "?" (some "")) ∧
      ¬undelimited (after "#" (some "")) := by decide
  rcases query with none | empty <;> rcases fragment with none' | empty' <;> simp_all

end Canonical
section Spelling
variable {node : Node} {input resource other out : String}

def endpoint (node : Node) (text : String) : Option (String × String) :=
  (node.parseUrl text).map fun url => (url.hostname,url.pathname)

theorem canonicalizeRecord (whatwg : Whatwg node) (ok : canonicalizeResource node input = .ok resource) :
    ∃ u : HttpsUrl, Accepted u.toUrlParts ∧ resource = href u.toUrlParts ∧
      node.parseUrl input = some (accessors u.toUrlParts) ∧ node.parseUrl resource = some (accessors u.toUrlParts) ∧
      (undelimited input ↔ u.query = none ∧ u.fragment = none) := by
  obtain ⟨u,parsed,accepted,marks,shape⟩ := (canonicalizeExact whatwg).mp ok
  rw [assignedIdle u accepted.port] at shape
  refine ⟨u,accepted,shape,parsed,?_,marks.symm⟩
  rw [shape]
  exact whatwg.again input _ parsed rfl

theorem endpointKept (whatwg : Whatwg node) (ok : canonicalizeResource node input = .ok resource) :
    endpoint node resource = endpoint node input := by
  obtain ⟨u,_,_,parsed,again,_⟩ := canonicalizeRecord whatwg ok
  unfold endpoint
  rw [parsed,again]

theorem canonicalizeFixed (whatwg : Whatwg node) (ok : canonicalizeResource node input = .ok resource) :
    canonicalizeResource node resource = .ok resource := by
  obtain ⟨u,accepted,shape,_,again,_⟩ := canonicalizeRecord whatwg ok
  refine (canonicalizeExact whatwg).mpr ⟨u,again,accepted,?_,?_⟩
  · rw [shape]
    exact (hrefUndelimited u accepted).symm
  · rw [assignedIdle u accepted.port]
    exact shape

theorem assertExactFixed (whatwg : Whatwg node) (ok : canonicalizeResource node input = .ok resource) :
    assertExactResource node resource = some resource := by
  obtain ⟨u,accepted,shape,_,again,_⟩ := canonicalizeRecord whatwg ok
  unfold assertExactResource
  rw [again]
  simp [accessors,accepted.username,accepted.password,accepted.port,accepted.query,accepted.fragment,shape]

structure Canonical (node : Node) (resource : String) : Prop where
  fixed : canonicalizeResource node resource = .ok resource
  exact_ : assertExactResource node resource = some resource
  bare : ∃ host path, endpoint node resource = some (host,path) ∧ resource = "https://" ++ host ++ path
  marks : undelimited resource

theorem plainBare (whatwg : Whatwg node) (ok : canonicalizeResource node input = .ok resource) (plain : undelimited input) :
    ∃ host path, endpoint node input = some (host,path) ∧ resource = "https://" ++ host ++ path := by
  obtain ⟨u,accepted,shape,parsed,_,marks⟩ := canonicalizeRecord whatwg ok
  obtain ⟨query,fragment⟩ := marks.mp plain
  refine ⟨u.host,u.path,by rw [endpoint,parsed]; rfl,?_⟩
  simp [shape,acceptedHref accepted,query,fragment,after]

theorem canonicalExactly (whatwg : Whatwg node) (ok : canonicalizeResource node input = .ok resource) :
    Canonical node resource ↔ undelimited input := by
  obtain ⟨u,accepted,shape,_,_,marks⟩ := canonicalizeRecord whatwg ok
  have text : undelimited resource ↔ undelimited input := by rw [shape,hrefUndelimited u accepted,marks]
  constructor
  · exact fun canonical => text.mp canonical.marks
  · intro plain
    obtain ⟨host,path,reached,spelled⟩ := plainBare whatwg ok plain
    exact ⟨canonicalizeFixed whatwg ok,assertExactFixed whatwg ok,
      ⟨host,path,(endpointKept whatwg ok).trans reached,spelled⟩,text.mpr plain⟩

theorem plainOnce (whatwg : Whatwg node) (left : canonicalizeResource node input = .ok resource)
    (right : canonicalizeResource node other = .ok out) (plainLeft : undelimited input) (plainRight : undelimited other)
    (same : endpoint node input = endpoint node other) : resource = out := by
  obtain ⟨host,path,reached,rfl⟩ := plainBare whatwg left plainLeft
  obtain ⟨host',path',reached',rfl⟩ := plainBare whatwg right plainRight
  rw [reached,reached',Option.some.injEq,Prod.mk.injEq] at same
  rw [same.1,same.2]

end Spelling

end Wepuu.Resources
