import Wepuu.Base64Url
import Wepuu.JsValues
import Wepuu.PolicyText
import Wepuu.Templates

/-! The content security policy of the consent page. The origin of the redirect target goes
into it as the template of a text replacement. -/
namespace Wepuu.ConsentPolicy
open Base64Url JsValues NodeApi PolicyText Schema Templates

section Policies

def CONSENT_SUBMISSION_SCRIPT : String :=
  "(() => \x7b\n  for (const form of document.querySelectorAll('form[data-wepuu-consent]')) \x7b\n" ++
  "    form.addEventListener('submit', (event) => \x7b\n" ++
  "      if (form.dataset.submitting === 'true') \x7b\n        event.preventDefault();\n        return;\n" ++
  "      \x7d\n      const submitter = event.submitter;\n" ++
  "      if (!(submitter instanceof HTMLButtonElement)\n          || submitter.name !== 'decision'\n" ++
  "          || (submitter.value !== 'approve' && submitter.value !== 'deny')) \x7b\n" ++
  "        event.preventDefault();\n        return;\n      \x7d\n" ++
  "      const decision = document.createElement('input');\n      decision.type = 'hidden';\n" ++
  "      decision.name = 'decision';\n      decision.value = submitter.value;\n" ++
  "      form.append(decision);\n      form.dataset.submitting = 'true';\n" ++
  "      for (const button of form.querySelectorAll('button[type=\"submit\"]')) \x7b\n" ++
  "        button.setAttribute('aria-disabled', 'true');\n      \x7d\n" ++
  "      const status = form.querySelector('[data-wepuu-submit-status]');\n" ++
  "      if (status instanceof HTMLElement) status.hidden = false;\n    \x7d);\n  \x7d\n\x7d)();"

/- digest('base64'): other digits than base64url for 62 and 63, and padding. -/
def base64 (bytes : List UInt8) : String := String.ofList
  ((encode bytes).map (fun c => if c = '-' then '+' else if c = '_' then '/' else c) ++
    List.replicate ((3 - bytes.length % 3) % 3) '=')

def UI_CSP : String :=
  "default-src 'none'; style-src 'self'; script-src 'self'; img-src 'self' data:; connect-src 'self'; " ++
  "form-action 'self'; frame-ancestors 'none'; base-uri 'none'"

def consentScriptHash (node : Node) : String := base64 (node.sha256 CONSENT_SUBMISSION_SCRIPT)

def CONSENT_INTERACTION_CSP (node : Node) : String :=
  replace UI_CSP "script-src 'self'" ("script-src 'self' 'sha256-" ++ consentScriptHash node ++ "'")

def origin (target : Url) : String :=
  target.protocol ++ "//" ++ target.hostname ++ (if target.port = "" then "" else ":" ++ target.port)

def allowedTarget (target : Url) : Bool :=
  target.protocol == "https:" ||
  (target.protocol == "http:" && target.hostname == "127.0.0.1" && target.port != "")

def consentInteractionCsp (node : Node) : JsValue → Option String
  | .str redirectUri => match node.parseUrl redirectUri with
    | some target =>
      if !allowedTarget target || target.username != "" || target.password != "" || target.hash != "" then none
      else some (replace (CONSENT_INTERACTION_CSP node) "form-action 'self'" ("form-action 'self' " ++ origin target))
    | none => none
  | _ => none

end Policies

section Meaning

def formActionName : List Char := "form-action".toList
def scriptName : List Char := "script-src".toList
def selfSource : List Char := "'self'".toList
def hashStart : List Char := "'sha256-".toList

def addSource (source : List Char) (d : Directive) : Directive :=
  if d.name = formActionName then { d with sources := d.sources ++ [source] } else d

def intended (node : Node) (target : Url) : List Directive :=
  (directives (CONSENT_INTERACTION_CSP node).toList).map (addSource (origin target).toList)

/- Neither the end of a directive nor a pattern of a replacement template. -/
def harmless (hostname : String) : Bool := !hostname.toList.contains ';' && inert hostname.toList

def HostChars (node : Node) : Prop := ∀ text url, node.parseUrl text = some url →
  url.protocol = "https:" ∨ url.protocol = "http:" →
    url.hostname.toList.all visible = true ∧ url.port.toList.all Char.isDigit = true

end Meaning

section Layout
variable {node : Node}

def styles : List Char := "default-src 'none'; style-src 'self'".toList
def scripts : List Char := " script-src 'self' 'sha256-".toList
def quote : List Char := "'".toList
def images : List Char := " img-src 'self' data:; connect-src 'self'".toList
def formAction : List Char := "form-action 'self'".toList
def frames : List Char := " frame-ancestors 'none'; base-uri 'none'".toList

def layout (hash form : List Char) : List Char :=
  styles ++ ';' :: (scripts ++ hash ++ quote ++ ';' :: (images ++ ';' :: (' ' :: form ++ ';' :: frames)))

def hashChar (c : Char) : Bool := urlChar c || c == '+' || c == '/' || c == '='

theorem hashChars (node : Node) : ∀ c ∈ (consentScriptHash node).toList, hashChar c = true := by
  intro c mem
  simp only [consentScriptHash,base64,String.toList_ofList,List.mem_append,List.mem_map] at mem
  rcases mem with ⟨d,digit,rfl⟩ | padding
  · have known := encodeChars _ d digit
    split
    · rfl
    · split
      · rfl
      · simp [hashChar,known]
  · rw [List.eq_of_mem_replicate padding]
    rfl

theorem hashLacks {c : Char} (other : hashChar c = false) : c ∉ (consentScriptHash node).toList := fun mem => by
  rw [hashChars node c mem] at other
  cases other

theorem replacedText {text search template : String} {before after : List Char}
    (found : firstOccurrence search.toList text.toList = some (before,after)) :
    (replace text search template).toList =
      before ++ substitute before search.toList after template.toList ++ after := by
  rw [replace,String.toList_ofList,replaceFirst,found]

def script : List Char := "script-src 'self'".toList
def afterScript : List Char := ';' :: (images ++ ';' :: (' ' :: formAction ++ ';' :: frames))

theorem uiPieces : UI_CSP = "default-src 'none'; style-src 'self'" ++ ("; " ++ ("script-src 'self'" ++ (";" ++
    (" img-src 'self' data:; connect-src 'self'" ++ ("; " ++ ("form-action 'self'" ++ (";" ++
      " frame-ancestors 'none'; base-uri 'none'"))))))) := by
  decide +kernel

theorem uiLayout : UI_CSP.toList = styles ++ ';' :: ' ' :: (script ++ afterScript) := by
  have mark : ";".toList = [';'] := String.toList_ofList
  have gap : "; ".toList = [';',' '] := String.toList_ofList
  rw [uiPieces]
  simp only [String.toList_append,mark,gap]
  rfl

theorem scriptFound : firstOccurrence "script-src 'self'".toList UI_CSP.toList =
    some (styles ++ [';',' '],afterScript) := by
  have absent : firstOccurrence script styles = none := by decide
  have later : firstOccurrence script (' ' :: (script ++ afterScript)) = some ([' '],afterScript) := by
    have other : script.isPrefixOf (' ' :: (script ++ afterScript)) = false := rfl
    rw [firstOccurrence,other,occurrenceHere (by decide)]
    rfl
  rw [uiLayout]
  show firstOccurrence script _ = _
  rw [occurrenceAcross (by decide) absent,later]
  rfl

theorem cspLayout : (CONSENT_INTERACTION_CSP node).toList = layout (consentScriptHash node).toList formAction := by
  have named : ' ' :: "script-src 'self' 'sha256-".toList = scripts := by decide
  have bare : '$' ∉ ("script-src 'self' 'sha256-" ++ consentScriptHash node ++ "'").toList := by
    simp only [String.toList_append,List.mem_append,not_or]
    exact ⟨⟨by decide,hashLacks (by decide)⟩,by decide⟩
  rw [CONSENT_INTERACTION_CSP,replacedText scriptFound,substituteInert (bareInert bare)]
  simp only [String.toList_append,layout,afterScript,← named,quote,List.append_assoc,List.cons_append,List.nil_append]

theorem piecesClosed : ∀ text ∈ [styles,scripts,quote,images,formAction,frames], '$' ∉ text ∧ ',' ∉ text := by
  decide

def beforeForm (hash : List Char) : List Char := styles ++ ';' :: (scripts ++ hash ++ quote ++ ';' :: images)

theorem formFound : firstOccurrence "form-action 'self'".toList (CONSENT_INTERACTION_CSP node).toList =
    some (beforeForm (consentScriptHash node).toList ++ [';',' '],';' :: frames) := by
  have start : styles ++ ';' :: scripts =
      "default-src 'none'; style-src 'self'; script-src 'self' 'sha25".toList ++ '6' :: ['-'] := by
    decide
  have first : firstOccurrence "form-action 'self'".toList
      "default-src 'none'; style-src 'self'; script-src 'self' 'sha25".toList = none := by decide
  have last : firstOccurrence "form-action 'self'".toList (images ++ ';' :: (' ' :: formAction ++ ';' :: frames)) =
      some (images ++ [';',' '],';' :: frames) := by decide
  have spaceless : ' ' ∉ ['-'] ++ (consentScriptHash node).toList ++ quote := by
    simp only [List.mem_append,not_or]
    exact ⟨⟨by decide,hashLacks (by decide)⟩,by decide⟩
  have cut : (CONSENT_INTERACTION_CSP node).toList =
      "default-src 'none'; style-src 'self'; script-src 'self' 'sha25".toList ++ '6' ::
        ((['-'] ++ (consentScriptHash node).toList ++ quote) ++ ';' ::
          (images ++ ';' :: (' ' :: formAction ++ ';' :: frames))) := by
    have shape := congrArg (· ++ ((consentScriptHash node).toList ++ quote ++ ';' ::
      (images ++ ';' :: (' ' :: formAction ++ ';' :: frames)))) start
    simpa only [cspLayout,layout,List.append_assoc,List.cons_append,List.nil_append] using shape
  have second := lackedAbsent (by decide : ' ' ∈ "form-action 'self'".toList) spaceless
  have shape := congrArg (· ++ ((consentScriptHash node).toList ++ quote ++ ';' :: (images ++ [';',' ']))) start
  rw [cut,occurrenceAcross (by decide) first,occurrenceAcross (by decide) second,last]
  simp only [Option.map_some,Option.some.injEq,Prod.mk.injEq,and_true,beforeForm]
  simpa only [List.append_assoc,List.cons_append,List.nil_append] using shape.symm

def spliced (node : Node) (target : Url) : List Char :=
  substitute (beforeForm (consentScriptHash node).toList ++ [';',' ']) formAction (';' :: frames) (origin target).toList

theorem policyLayout (node : Node) (target : Url) :
    (replace (CONSENT_INTERACTION_CSP node) "form-action 'self'" ("form-action 'self' " ++ origin target)).toList =
      layout (consentScriptHash node).toList (formAction ++ ' ' :: spliced node target) := by
  have front : "form-action 'self' ".toList = formAction ++ [' '] := by decide
  have named : "form-action 'self'".toList = formAction := rfl
  have bare : '$' ∉ formAction ++ [' '] := by decide
  rw [replacedText formFound,String.toList_append,front,substituteAfter bare,named]
  simp only [beforeForm,layout,spliced,List.append_assoc,List.cons_append,List.nil_append]

end Layout

section Reading
variable {node : Node} {target : Url} {form : List Char}

def scriptDirective (hash : List Char) : Directive :=
  ⟨scriptName,[selfSource,hashStart ++ hash ++ quote]⟩

theorem hashVisible {c : Char} (known : hashChar c = true) : visible c = true := by
  simp only [hashChar,urlChar,Bool.or_eq_true,Bool.and_eq_true,decide_eq_true_eq,beq_iff_eq] at known
  simp only [visible,Bool.and_eq_true,decide_eq_true_eq]
  rcases known with ((((((⟨low,high⟩ | ⟨low,high⟩) | ⟨low,high⟩) | rfl) | rfl) | rfl) | rfl) | rfl
  · exact ⟨Nat.lt_of_lt_of_le (by decide) low,Nat.lt_of_le_of_lt high (by decide)⟩
  · exact ⟨Nat.lt_of_lt_of_le (by decide) low,Nat.lt_of_le_of_lt high (by decide)⟩
  · exact ⟨Nat.lt_of_lt_of_le (by decide) low,Nat.lt_of_le_of_lt high (by decide)⟩
  all_goals exact ⟨by decide,by decide⟩

theorem scriptRead (node : Node) : directive (scripts ++ (consentScriptHash node).toList ++ quote) =
    some (scriptDirective (consentScriptHash node).toList) := by
  have words : scripts = ' ' :: (scriptName ++ ' ' :: (selfSource ++ ' ' :: hashStart)) := by
    decide
  have name : scriptName.map Char.toLower = scriptName := by decide
  have seen : (hashStart ++ (consentScriptHash node).toList ++ quote).all visible = true := by
    rw [List.all_append,List.all_append,List.all_eq_true.mpr fun c mem => hashVisible (hashChars node c mem)]
    decide
  have read := directiveRead (by decide) (by decide : scriptName.all visible = true)
    (by decide) (by decide : selfSource.all visible = true) (by simp [quote]) seen
  rw [name] at read
  rw [words]
  simpa only [scriptDirective,List.append_assoc,List.cons_append] using read

theorem formRead {source : List Char} (some_ : source ≠ []) (seen : source.all visible = true) :
    directive (' ' :: (formAction ++ ' ' :: source)) = some ⟨formActionName,[selfSource,source]⟩ := by
  have words : formAction = formActionName ++ ' ' :: selfSource := by decide
  have name : formActionName.map Char.toLower = formActionName := by decide
  have read := directiveRead (by decide) (by decide : formActionName.all visible = true)
    (by decide) (by decide : selfSource.all visible = true) some_ seen
  rw [name] at read
  rw [words]
  simpa only [List.append_assoc,List.cons_append] using read

def leading (hash : List Char) : List Directive := directives styles ++ [scriptDirective hash] ++ directives images

theorem layoutRead (node : Node) (form : List Char) : directives (layout (consentScriptHash node).toList form) =
    leading (consentScriptHash node).toList ++ (directives (' ' :: form) ++ directives frames) := by
  have bare : ';' ∉ scripts ++ (consentScriptHash node).toList ++ quote := by
    simp only [List.mem_append,not_or]
    exact ⟨⟨by decide,hashLacks (by decide)⟩,by decide⟩
  have script := directivesAlone bare
  rw [scriptRead] at script
  rw [layout,directivesAcross,directivesAcross,directivesAcross,directivesAcross,script]
  simp only [leading,Option.toList_some,List.append_assoc]

theorem addKept {source : List Char} {ds : List Directive} (other : (ds.all fun d => d.name != formActionName) = true) :
    ds.map (addSource source) = ds := by
  have same : ∀ d ∈ ds, addSource source d = id d := fun d mem => if_neg (bne_iff_ne.mp (List.all_eq_true.mp other d mem))
  rw [List.map_congr_left same,List.map_id]

theorem leadingKept (source hash : List Char) : (leading hash).map (addSource source) = leading hash := by
  have script : scriptName ≠ formActionName := by decide
  refine addKept ?_
  rw [leading,List.all_append,List.all_append]
  simp only [List.all_cons,List.all_nil,Bool.and_true,Bool.and_eq_true,bne_iff_ne]
  exact ⟨⟨by decide,script⟩,by decide⟩

theorem intendedRead (node : Node) (target : Url) : intended node target =
    leading (consentScriptHash node).toList ++
      (⟨formActionName,[selfSource,(origin target).toList]⟩ :: directives frames) := by
  have form : directives (' ' :: formAction) = [⟨formActionName,[selfSource]⟩] := by decide
  have rest : (directives frames).map (addSource (origin target).toList) = directives frames := addKept (by decide)
  have added : addSource (origin target).toList ⟨formActionName,[selfSource]⟩ =
      ⟨formActionName,[selfSource,(origin target).toList]⟩ := if_pos rfl
  rw [intended,cspLayout,layoutRead,List.map_append,leadingKept,List.map_append,rest,form,List.map_singleton,added]
  rfl

end Reading

section Hosts
variable {target : Url}

def schemeText (target : Url) : List Char := target.protocol.toList ++ ['/','/']

def portText (target : Url) : List Char := if target.port = "" then [] else ':' :: target.port.toList

theorem originText (target : Url) :
    (origin target).toList = schemeText target ++ (target.hostname.toList ++ portText target) := by
  unfold origin schemeText portText
  split <;> simp

theorem portChars (digits : target.port.toList.all Char.isDigit = true) :
    ∀ c ∈ portText target, c = ':' ∨ c.isDigit = true := by
  intro c mem
  unfold portText at mem
  split at mem
  · cases mem
  · exact (List.mem_cons.mp mem).imp_right (List.all_eq_true.mp digits c)

theorem originMark (web : target.protocol = "https:" ∨ target.protocol = "http:")
    (digits : target.port.toList.all Char.isDigit = true) {c : Char} (mark : c ∈ [';','$',',']) :
    c ∉ schemeText target ∧ c ∉ portText target ∧ (c ∈ (origin target).toList ↔ c ∈ target.hostname.toList) := by
  have scheme : ∀ c ∈ [';','$',','], c ∉ schemeText target := by
    simp only [List.forall_mem_cons,schemeText]
    rcases web with web | web <;> rw [web] <;> exact ⟨by decide,by decide,by decide,nofun⟩
  have other : ∀ c ∈ [';','$',','], c ≠ ':' ∧ c.isDigit = false := by
    simp only [List.forall_mem_cons]
    exact ⟨by decide,by decide,by decide,nofun⟩
  have port : c ∉ portText target := fun mem => by
    rcases portChars digits c mem with same | digit
    · exact (other c mark).1 same
    · rw [(other c mark).2] at digit
      cases digit
  refine ⟨scheme c mark,port,?_⟩
  rw [originText,List.mem_append,List.mem_append,or_iff_right (scheme c mark),or_iff_left port]

theorem originHarmless (web : target.protocol = "https:" ∨ target.protocol = "http:")
    (digits : target.port.toList.all Char.isDigit = true) :
    harmless target.hostname = true ↔ ';' ∉ (origin target).toList ∧ inert (origin target).toList = true := by
  obtain ⟨scheme,port,-⟩ := originMark web digits (by simp : '$' ∈ [';','$',','])
  have starts : ∀ c ∈ (portText target).head?, begins c = false := by
    intro c first
    unfold portText at first
    split at first
    · cases first
    · cases first
      rfl
  rw [(originMark web digits (by simp : ';' ∈ [';','$',','])).2.2,originText,inertAfter scheme,inertBefore port starts,
    harmless,Bool.and_eq_true,Bool.not_eq_true',List.contains_eq_mem,decide_eq_false_iff_not]

theorem originVisible (web : target.protocol = "https:" ∨ target.protocol = "http:")
    (seen : target.hostname.toList.all visible = true) (digits : target.port.toList.all Char.isDigit = true) :
    (origin target).toList ≠ [] ∧ (origin target).toList.all visible = true := by
  have scheme : schemeText target ≠ [] ∧ (schemeText target).all visible = true := by
    unfold schemeText
    rcases web with web | web <;> rw [web] <;> decide
  have port : (portText target).all visible = true := by
    refine List.all_eq_true.mpr fun c mem => ?_
    rcases portChars digits c mem with rfl | digit
    · decide
    · simp only [Char.isDigit,Bool.and_eq_true,decide_eq_true_eq] at digit
      exact Bool.and_eq_true_iff.mpr ⟨decide_eq_true (Nat.lt_of_lt_of_le (by decide) digit.1),
        decide_eq_true (Nat.lt_of_le_of_lt digit.2 (by decide))⟩
  rw [originText,List.all_append,List.all_append,scheme.2,seen,port]
  exact ⟨List.append_ne_nil_of_left_ne_nil scheme.1 _,rfl⟩

end Hosts

section Origins
variable {node : Node} {target : Url} {redirectUri : JsValue} {policy : String}

theorem acceptedTarget (accepted : consentInteractionCsp node redirectUri = some policy) :
    ∃ text target, redirectUri = .str text ∧ node.parseUrl text = some target ∧
      allowedTarget target = true ∧
      policy.toList = layout (consentScriptHash node).toList (formAction ++ ' ' :: spliced node target) := by
  unfold consentInteractionCsp at accepted
  split at accepted
  · rename_i text
    split at accepted
    · rename_i target parsed
      split at accepted
      · cases accepted
      · rename_i checked
        have allowed : allowedTarget target = true := by
          cases holds : allowedTarget target with
          | true => rfl
          | false => exact absurd (by simp [holds]) checked
        refine ⟨text,target,rfl,parsed,allowed,?_⟩
        rw [← Option.some.inj accepted]
        exact policyLayout node target
    · cases accepted
  · cases accepted

theorem allowedWeb (allowed : allowedTarget target = true) :
    target.protocol = "https:" ∨ target.protocol = "http:" ∧ target.hostname = "127.0.0.1" := by
  simp only [allowedTarget,Bool.or_eq_true,Bool.and_eq_true,beq_iff_eq] at allowed
  exact allowed.imp_right fun http => http.1

theorem listedHarmless {text : List Char}
    (sub : text.Sublist (layout (consentScriptHash node).toList (formAction ++ ' ' :: spliced node target)))
    (listed : ⟨formActionName,[selfSource,(origin target).toList]⟩ ∈ directives text) :
    ';' ∉ (origin target).toList ∧ inert (origin target).toList = true := by
  obtain ⟨within,bare⟩ := sourceWithin listed (by simp : (origin target).toList ∈ [selfSource,(origin target).toList])
  refine ⟨bare,?_⟩
  by_contra spoiled
  have bareHash : '$' ∉ (consentScriptHash node).toList := hashLacks (by decide)
  have closed : ∀ text ∈ [styles,scripts,quote,images,formAction,frames], '$' ∉ text := fun text mem =>
    (piecesClosed text mem).1
  have none_ : '$' ∉ (beforeForm (consentScriptHash node).toList ++ [';',' ']) ++ formAction ++ ';' :: frames := by
    simp only [beforeForm,List.mem_append,List.mem_cons,not_or]
    simp [bareHash,closed]
  have fewer := (dollarsMost none_ (origin target).toList).2 (Bool.not_eq_true _ ▸ spoiled)
  have most := (within.trans sub).count_le '$'
  have rest : (layout (consentScriptHash node).toList (formAction ++ ' ' :: spliced node target)).count '$' =
      (spliced node target).count '$' := by
    have zero : ∀ text ∈ [styles,scripts,quote,images,formAction,frames], text.count '$' = 0 := fun text mem =>
      List.count_eq_zero.mpr (closed text mem)
    simp [layout,List.count_append,zero,List.count_eq_zero.mpr bareHash]
  rw [rest] at most
  exact absurd fewer (Nat.not_lt.mpr most)

theorem intendedListed (node : Node) (target : Url) :
    ⟨formActionName,[selfSource,(origin target).toList]⟩ ∈ intended node target := by
  rw [intendedRead]
  exact List.mem_append_right _ List.mem_cons_self

theorem directivesExact (web : target.protocol = "https:" ∨ target.protocol = "http:")
    (seen : target.hostname.toList.all visible = true) (digits : target.port.toList.all Char.isDigit = true) :
    directives (layout (consentScriptHash node).toList (formAction ++ ' ' :: spliced node target)) = intended node target ↔
      harmless target.hostname = true := by
  rw [originHarmless web digits]
  constructor
  · exact fun same => listedHarmless (List.Sublist.refl _) (same ▸ intendedListed node target)
  · rintro ⟨bare,plain⟩
    obtain ⟨some_,read⟩ := originVisible web seen digits
    have form : ';' ∉ ' ' :: (formAction ++ ' ' :: (origin target).toList) := by
      have closed : ';' ∉ formAction := by decide
      simp [closed,bare]
    rw [spliced,substituteInert plain,layoutRead,directivesAlone form,formRead some_ read,intendedRead]
    rfl

theorem servedExact (web : target.protocol = "https:" ∨ target.protocol = "http:")
    (seen : target.hostname.toList.all visible = true) (digits : target.port.toList.all Char.isDigit = true) :
    served (layout (consentScriptHash node).toList (formAction ++ ' ' :: spliced node target)) = [intended node target] ↔
      harmless target.hostname = true ∧ ',' ∉ target.hostname.toList := by
  have mark := (originMark web digits (by simp : ',' ∈ [';','$',','])).2.2
  constructor
  · intro same
    have one : intended node target ∈
        served (layout (consentScriptHash node).toList (formAction ++ ' ' :: spliced node target)) := by
      rw [same]
      exact List.mem_singleton_self _
    obtain ⟨text,read,sub,bare⟩ := policyWithin one
    have listed : ⟨formActionName,[selfSource,(origin target).toList]⟩ ∈ directives text := by
      rw [← read]
      exact intendedListed node target
    refine ⟨(originHarmless web digits).mpr (listedHarmless sub listed),fun comma => bare ?_⟩
    exact (sourceWithin listed (by simp : (origin target).toList ∈ [selfSource,(origin target).toList])).1.subset
      (mark.mpr comma)
  · rintro ⟨plain,comma⟩
    have inert_ := ((originHarmless web digits).mp plain).2
    have bareHash : ',' ∉ (consentScriptHash node).toList := hashLacks (by decide)
    have closed : ∀ text ∈ [styles,scripts,quote,images,formAction,frames], ',' ∉ text := fun text mem =>
      (piecesClosed text mem).2
    have bare : ',' ∉ layout (consentScriptHash node).toList (formAction ++ ' ' :: spliced node target) := by
      rw [spliced,substituteInert inert_]
      simp [layout,bareHash,closed,mark,comma]
    have read : directives (layout (consentScriptHash node).toList (formAction ++ ' ' :: spliced node target)) =
        intended node target := (directivesExact web seen digits).mpr plain
    rw [servedAlone bare (read ▸ List.ne_nil_of_mem (intendedListed node target)),read]

/- The policy of an accepted redirect URI is the intended one exactly when its host has no
semicolon and no pattern of a replacement template; read as a header, also no comma. -/
theorem policyExact (node : Node) (hosts : HostChars node) (redirectUri : JsValue) (policy : String)
    (accepted : consentInteractionCsp node redirectUri = some policy) :
    ∃ text target, redirectUri = .str text ∧ node.parseUrl text = some target ∧
      (directives policy.toList = intended node target ↔ harmless target.hostname = true) ∧
      (served policy.toList = [intended node target] ↔
        harmless target.hostname = true ∧ ',' ∉ target.hostname.toList) := by
  obtain ⟨text,target,given,parsed,allowed,shape⟩ := acceptedTarget accepted
  have web := (allowedWeb allowed).imp_right And.left
  obtain ⟨seen,digits⟩ := hosts text target parsed web
  rw [shape]
  exact ⟨text,target,given,parsed,directivesExact web seen digits,servedExact web seen digits⟩

theorem loopbackPolicy {text : String} (hosts : HostChars node) (parsed : node.parseUrl text = some target)
    (http : target.protocol = "http:") (accepted : consentInteractionCsp node (.str text) = some policy) :
    directives policy.toList = intended node target := by
  obtain ⟨_,_,given,again,allowed,shape⟩ := acceptedTarget accepted
  obtain rfl := JsValue.str.inj given
  obtain rfl := Option.some.inj (parsed.symm.trans again)
  obtain ⟨seen,digits⟩ := hosts text target parsed (.inr http)
  have host : target.hostname = "127.0.0.1" := by
    rcases allowedWeb allowed with https | loopback
    · rw [http] at https
      exact absurd https (by decide)
    · exact loopback.2
  rw [shape,directivesExact (.inr http) seen digits,host]
  decide

end Origins

section Sample

def callbackTarget (hostname : String) : Url :=
  ⟨"https:","","",hostname,"","/callback","","","https://" ++ hostname ++ "/callback"⟩

def callbackUri (hostname : String) : String := "https://" ++ hostname ++ "/callback"

/- The digest of the script, and three redirect URIs. -/
def scriptDigest : Digest :=
  [0x96,0xd6,0x87,0xaf,0x7e,0xce,0x99,0xce,0xaf,0x9e,0xe0,0x1a,0xd3,0x06,0x62,0x46,0x2e,0x89,0x6b,0x81,0x49,0xf9,0x05,
    0x5b,0x9e,0xe9,0x66,0x07,0xe4,0xa5,0x76,0x9a]

def policyNode : Node := tabled [(CONSENT_SUBMISSION_SCRIPT,scriptDigest)] []
  (["client.example","client.example;sandbox","client.example$&"].map fun hostname =>
    (callbackUri hostname,callbackTarget hostname))

theorem policyHosts : HostChars policyNode := by
  intro text url parsed _
  obtain ⟨before,later,split_,_⟩ := List.lookup_eq_some_iff.mp parsed
  have mem : (text,url) ∈ ["client.example","client.example;sandbox","client.example$&"].map fun hostname =>
      (callbackUri hostname,callbackTarget hostname) := split_ ▸ List.mem_append_right before List.mem_cons_self
  obtain ⟨hostname,known,same⟩ := List.mem_map.mp mem
  have seen : ∀ hostname ∈ ["client.example","client.example;sandbox","client.example$&"],
      hostname.toList.all visible = true := by decide
  obtain rfl := congrArg Prod.snd same
  exact ⟨seen hostname known,rfl⟩

theorem callbackAccepted (hostname : String)
    (known : policyNode.parseUrl (callbackUri hostname) = some (callbackTarget hostname)) :
    consentInteractionCsp policyNode (.str (callbackUri hostname)) =
      some (replace (CONSENT_INTERACTION_CSP policyNode) "form-action 'self'"
        ("form-action 'self' " ++ origin (callbackTarget hostname))) := by
  simp only [consentInteractionCsp,known]
  rfl

theorem callbackPolicy : ∃ policy, consentInteractionCsp policyNode (.str (callbackUri "client.example")) = some policy ∧
    directives policy.toList = intended policyNode (callbackTarget "client.example") := by
  have accepted := callbackAccepted "client.example" rfl
  obtain ⟨_,target,given,parsed,exact_,-⟩ := policyExact policyNode policyHosts _ _ accepted
  obtain rfl := JsValue.str.inj given
  obtain rfl : callbackTarget "client.example" = target := Option.some.inj parsed
  exact ⟨_,accepted,exact_.mpr (by decide)⟩

/- A host with a semicolon brings a directive of its own; one with a pattern brings the
replaced text into the sources. -/
theorem hostSpliced :
    (∃ policy, consentInteractionCsp policyNode (.str (callbackUri "client.example;sandbox")) = some policy ∧
      directives policy.toList ≠ intended policyNode (callbackTarget "client.example;sandbox") ∧
      ⟨"sandbox".toList,[]⟩ ∈ directives policy.toList) ∧
    ∃ policy, consentInteractionCsp policyNode (.str (callbackUri "client.example$&")) = some policy ∧
      directives policy.toList ≠ intended policyNode (callbackTarget "client.example$&") ∧
      ⟨formActionName,[selfSource,"https://client.exampleform-action".toList,selfSource]⟩ ∈ directives policy.toList := by
  have read : ∀ hostname, hostname.toList.all visible = true → harmless hostname = false →
      directives (layout (consentScriptHash policyNode).toList
        (formAction ++ ' ' :: spliced policyNode (callbackTarget hostname))) ≠
      intended policyNode (callbackTarget hostname) := by
    intro hostname seen spoiled same
    rw [directivesExact (.inl rfl) seen rfl] at same
    exact absurd (same.symm.trans spoiled) (by decide)
  refine ⟨⟨_,callbackAccepted _ rfl,?_,?_⟩,_,callbackAccepted _ rfl,?_,?_⟩
  · rw [policyLayout]
    exact read _ (by decide) (by decide)
  · have plain : inert (origin (callbackTarget "client.example;sandbox")).toList = true := by decide
    rw [policyLayout,spliced,substituteInert plain,layoutRead]
    refine List.mem_append_right _ (List.mem_append_left _ ?_)
    decide
  · rw [policyLayout]
    exact read _ (by decide) (by decide)
  · have start : (origin (callbackTarget "client.example$&")).toList = "https://client.example".toList ++ ['$','&'] := by
      decide
    rw [policyLayout,spliced,start,substituteAfter (by decide),layoutRead]
    refine List.mem_append_right _ (List.mem_append_left _ ?_)
    simp only [substitute,pattern,if_true]
    decide

end Sample

end Wepuu.ConsentPolicy
