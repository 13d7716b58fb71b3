import Wepuu.GrantLifecycle
import Wepuu.Secrets

/-! Single use of a stored token under one codec. A token that was consumed stays so, a
second consume finds it consumed, and for a refresh token that is a replay, which revokes
the grant. HMAC-SHA256 is assumed not to collide on the identifiers of the run. -/
namespace Wepuu.SingleUse
open Artifacts Footprint GrantLifecycle Grants NodeApi Outbox Relational Runs Schema Secrets Statements
open Wepuu.System

def attempts (model id : String) (e : Event) : Bool := match e.op with
  | .consume adapter target _ => adapter.model == model && target == id
  | _ => false

def answer (node : Node) (db : Db) (e : Event) : Option ConsumeOutcome := match exec node e db with
  | .ok (_,.consumption outcome) => some outcome
  | _ => none

def successes (node : Node) (model id : String) (db : Db) (e : Event) : List Event :=
  if attempts model id e ∧ answer node db e = some .consumed then [e] else []

def emissions (node : Node) (model id : String) (db : Db) (e : Event) : List OutboxRow :=
  if attempts model id e then newEvents db (step node db e) else []

def Apart (node : Node) (codec : SecretArtifactCodec) (id : String) (ids : List String) : Prop :=
  ∀ i ∈ ids, ∀ key ∈ codec.keys, node.hmacSha256 key i = node.hmacSha256 key id → i = id

instance (node codec id ids) : Decidable (Apart node codec id ids) := by unfold Apart; infer_instance

def Keyed (node : Node) (codec : SecretArtifactCodec) (model : String) (ids : List String) (db : Db) : Prop :=
  ∀ a ∈ db.secretArtifacts, a.model = model →
    ∃ i ∈ ids, ∃ lookup, current node codec i = .ok lookup ∧ atLookup model lookup a = true

def Throughout (node : Node) (codec : SecretArtifactCodec) (model id : String) (good : SecretArtifact → Prop)
    (db : Db) : Prop :=
  ∀ a ∈ db.secretArtifacts, located node codec model id a = true → good a

def spent (a : SecretArtifact) : Prop := a.consumedAt.isSome = true
def boundTo (grantId : GrantId) (a : SecretArtifact) : Prop := memberText a.payload "grantId" = some grantId

section Rows
variable {node : Node} {codec : SecretArtifactCodec} {model id : String} {ids : List String} {db : Db} {e : Event}

theorem storedHere (codecs : ∀ c ∈ codecOf e, c = codec) {a : SecretArtifact}
    (stored : (footprint node e db).stores a) (ours : a.model = model) :
    ∃ i lookup, storedId model e = some i ∧ current node codec i = .ok lookup ∧ atLookup model lookup a = true := by
  obtain ⟨adapter,i,payload,expiresIn,dateNow,op,row⟩ := storesRow stored
  obtain ⟨_,lookup,hl,rfl⟩ := storedRowExact row
  have same : adapter.codec = codec := codecs _ (by simp [codecOf,op])
  simp only [storedSecret] at ours
  refine ⟨i,lookup,?_,by rw [← same]; exact hl,?_⟩
  · simp [storedId,op,ours]
  · simp [atLookup,storedSecret,ours]

theorem keyedStep (wf : WellFormed db) (codecs : ∀ c ∈ codecOf e, c = codec) (keyed : Keyed node codec model ids db) :
    Keyed node codec model (ids ++ (storedId model e).toList) (step node db e) := by
  intro b mem ours
  have moved : ∀ {a : SecretArtifact} {lookup : SecretArtifactLookup}, SameSecret a b →
      atLookup model lookup a = true → atLookup model lookup b = true := by
    intro a lookup same at_
    simpa only [atLookup,same.model,same.lookupVersion,same.artifactHash] using at_
  rcases writesSecrets (stepWrites wf) b mem with ⟨a,ha,⟨same,_⟩⟩ | ⟨a,stored,⟨same,_⟩⟩
  · obtain ⟨i,hi,lookup,hl,at_⟩ := keyed a ha (same.model.symm.trans ours)
    exact ⟨i,List.mem_append_left _ hi,lookup,hl,moved same at_⟩
  · obtain ⟨i,lookup,named,hl,at_⟩ := storedHere codecs stored (same.model.symm.trans ours)
    exact ⟨i,List.mem_append_right _ (by simp [named]),lookup,hl,moved same at_⟩

theorem keyedRun {es : List Event} (wf : WellFormed db) (codecs : ∀ e ∈ es, ∀ c ∈ codecOf e, c = codec)
    (keyed : Keyed node codec model ids db) :
    Keyed node codec model (ids ++ storedIds model es) (run (step node) db es) := by
  induction es generalizing ids db with
  | nil => simpa [storedIds] using keyed
  | cons e es ih =>
    have first := keyedStep wf (codecs e List.mem_cons_self) keyed
    have rest := ih (stepWellFormed wf) (fun o mem => codecs o (List.mem_cons_of_mem _ mem)) first
    have split : ids ++ storedIds model (e :: es) = ids ++ (storedId model e).toList ++ storedIds model es := by
      cases named : storedId model e <;> simp [storedIds,named]
    rw [split]
    exact rest

theorem reachableKeyed {es : List Event} (codecs : ∀ e ∈ es, ∀ c ∈ codecOf e, c = codec) :
    Keyed node codec model (storedIds model es) (run (step node) Db.empty es) := by
  have start : Keyed node codec model [] Db.empty := by
    intro a mem
    simp [Db.empty] at mem
  simpa using keyedRun wellFormedEmpty codecs start

theorem locatedStored (keyed : Keyed node codec model ids db) (apart : Apart node codec id ids)
    {a : SecretArtifact} (mem : a ∈ db.secretArtifacts) (hit : located node codec model id a = true) :
    id ∈ ids ∧ ∃ lookup, current node codec id = .ok lookup ∧ atLookup model lookup a = true := by
  obtain ⟨found,candidate,at_⟩ := locatedIff.mp hit
  have ours : a.model = model := by
    simp only [atLookup,Bool.and_eq_true,beq_iff_eq] at at_
    exact at_.1.1
  obtain ⟨i,hi,lookup,hl,stored⟩ := keyed a mem ours
  obtain ⟨key,rest,keys,rfl,_⟩ := currentExact hl
  simp only [atLookup,Bool.and_eq_true,beq_iff_eq] at at_ stored
  have newest : found.version = codec.keys.length := by
    rw [← at_.1.2,stored.1.2,keys]
    rfl
  have here := newestCandidate candidate newest
  obtain ⟨key',rest',keys',rfl,_⟩ := currentExact here
  rw [keys] at keys'
  cases keys'
  have same : i = id := by
    refine apart i hi key (by rw [keys]; exact List.mem_cons_self) ?_
    exact stored.2.symm.trans at_.2
  rw [same] at hi
  exact ⟨hi,_,here,by simp [atLookup,ours,at_.1.2,at_.2]⟩

theorem locatedUnique (wf : WellFormed db) (keyed : Keyed node codec model ids db)
    (apart : Apart node codec id ids) {a b : SecretArtifact} (left : a ∈ db.secretArtifacts)
    (right : b ∈ db.secretArtifacts) (hitA : located node codec model id a = true)
    (hitB : located node codec model id b = true) : a = b := by
  obtain ⟨_,lookup,hl,atA⟩ := locatedStored keyed apart left hitA
  obtain ⟨_,lookup',hl',atB⟩ := locatedStored keyed apart right hitB
  rw [hl] at hl'
  cases hl'
  refine indexedEq wf.secretIndex secretClashSymm left right ?_
  simp only [atLookup,Bool.and_eq_true,beq_iff_eq] at atA atB
  simp [secretClash,atA.1.1,atA.1.2,atA.2,atB.1.1,atB.1.2,atB.2]

theorem spentStays {a b : SecretArtifact} (same : SameSecret a b) (used : spent a) : spent b := by
  unfold spent
  rw [same.consumed used]
  exact used

theorem throughoutStep {good : SecretArtifact → Prop} (stable : ∀ a b, SameSecret a b → good a → good b)
    (wf : WellFormed db) (codecs : ∀ c ∈ codecOf e, c = codec)
    (apart : Apart node codec id (storedId model e).toList) (other : storedId model e ≠ some id)
    (all : Throughout node codec model id good db) : Throughout node codec model id good (step node db e) := by
  intro b mem hit
  rcases writesSecrets (stepWrites wf) b mem with ⟨a,ha,⟨same,_⟩⟩ | ⟨a,stored,⟨same,_⟩⟩
  · exact stable a b same (all a ha (by rw [← sameLocated same]; exact hit))
  · rw [sameLocated same] at hit
    have only : Keyed node codec model (storedId model e).toList { db with secretArtifacts := [a] } := by
      intro o mem ours
      rw [List.mem_singleton.mp mem] at ours ⊢
      obtain ⟨i,lookup,named,found⟩ := storedHere codecs stored ours
      exact ⟨i,by simp [named],lookup,found⟩
    obtain ⟨again,_⟩ := locatedStored only apart (List.mem_singleton_self a) hit
    simp only [Option.mem_toList] at again
    exact absurd again other

end Rows

/- The rest of a run in which the id is not stored again. -/
structure Rest (codec : SecretArtifactCodec) (node : Node) (model id : String) (es : List Event) : Prop where
  codecs : ∀ e ∈ es, ∀ c ∈ codecOf e, c = codec
  apart : Apart node codec id (storedIds model es)
  notAgain : id ∉ storedIds model es

section Rests
variable {node : Node} {codec : SecretArtifactCodec} {model id : String} {db : Db} {e : Event} {es fs : List Event}

theorem storedIdsAppend : storedIds model (es ++ fs) = storedIds model es ++ storedIds model fs :=
  List.filterMap_append

theorem restAppend : Rest codec node model id (es ++ fs) ↔ Rest codec node model id es ∧ Rest codec node model id fs := by
  constructor
  · rintro ⟨codecs,apart,notAgain⟩
    rw [storedIdsAppend] at apart notAgain
    rw [List.mem_append,not_or] at notAgain
    exact ⟨⟨fun e mem => codecs e (List.mem_append_left _ mem),fun i mem => apart i (List.mem_append_left _ mem),
        notAgain.1⟩,
      ⟨fun e mem => codecs e (List.mem_append_right _ mem),fun i mem => apart i (List.mem_append_right _ mem),
        notAgain.2⟩⟩
  · rintro ⟨left,right⟩
    refine ⟨?_,?_,?_⟩
    · intro e mem
      exact (List.mem_append.mp mem).elim (left.codecs e) (right.codecs e)
    · intro i mem
      rw [storedIdsAppend] at mem
      exact (List.mem_append.mp mem).elim (left.apart i) (right.apart i)
    · rw [storedIdsAppend,List.mem_append,not_or]
      exact ⟨left.notAgain,right.notAgain⟩

theorem restCons : Rest codec node model id (e :: es) ↔ Rest codec node model id [e] ∧ Rest codec node model id es :=
  @restAppend _ _ _ _ [e] es

theorem throughoutRest {good : SecretArtifact → Prop} (stable : ∀ a b, SameSecret a b → good a → good b)
    (wf : WellFormed db) (rest : Rest codec node model id [e]) (all : Throughout node codec model id good db) :
    Throughout node codec model id good (step node db e) := by
  have here : storedIds model [e] = (storedId model e).toList := by
    cases named : storedId model e <;> simp [storedIds,named]
  have apart := rest.apart
  have other := rest.notAgain
  rw [here] at apart other
  refine throughoutStep stable wf (rest.codecs e (List.mem_singleton_self e)) apart ?_ all
  intro named
  exact other (by simp [named])

theorem throughoutRun {good : SecretArtifact → Prop} (stable : ∀ a b, SameSecret a b → good a → good b)
    (wf : WellFormed db) (rest : Rest codec node model id es) (all : Throughout node codec model id good db) :
    Throughout node codec model id good (run (step node) db es) := by
  induction es generalizing db with
  | nil => exact all
  | cons e es ih =>
    obtain ⟨first,later⟩ := restCons.mp rest
    exact ih (stepWellFormed wf) later (throughoutRest stable wf first all)

end Rests

section Lookups
variable {node : Node} {adapter : OidcAdapter} {now : Time} {lookups : List SecretArtifactLookup} {db : Db}

theorem consumeLookupsPass (none : ∀ lookup ∈ lookups, ∀ a ∈ db.secretArtifacts,
    consumable adapter.model lookup now a = false) :
    consumeLookups node adapter now lookups db = .ok (db,Option.none) := by
  induction lookups with
  | nil => rfl
  | cons lookup rest ih =>
    have nothing : db.secretArtifacts.find? (consumable adapter.model lookup now) = Option.none := by
      refine List.find?_eq_none.mpr fun a mem => ?_
      simp [none lookup List.mem_cons_self a mem]
    unfold consumeLookups
    rw [nothing]
    exact ih fun l mem => none l (List.mem_cons_of_mem _ mem)

theorem replayLookupsFound {grantId : GrantId}
    (some_ : ∃ lookup ∈ lookups, replayedGrant adapter.model db lookup = some grantId)
    (only : ∀ lookup ∈ lookups, ∀ other, replayedGrant adapter.model db lookup = some other → other = grantId) :
    replayLookups adapter now lookups db = (do
      let (next,_) ← revokeRefreshGrant grantId now "refresh_replay" now db
      .ok (next,.replay)) := by
  induction lookups with
  | nil =>
    obtain ⟨_,mem,_⟩ := some_
    simp at mem
  | cons lookup rest ih =>
    unfold replayLookups
    cases here : replayedGrant adapter.model db lookup with
    | some other =>
      have same := only lookup List.mem_cons_self other here
      simp only [replayedGrant] at here
      rw [here,same]
    | none =>
      have later : ∃ lookup ∈ rest, replayedGrant adapter.model db lookup = some grantId := by
        obtain ⟨l,mem,found⟩ := some_
        rcases List.mem_cons.mp mem with rfl | rest
        · rw [here] at found
          contradiction
        · exact ⟨l,rest,found⟩
      simp only [replayedGrant] at here
      rw [here]
      exact ih later fun l mem => only l (List.mem_cons_of_mem _ mem)

end Lookups

section Consuming
variable {node : Node} {codec : SecretArtifactCodec} {adapter : OidcAdapter} {id : String} {ids : List String}
variable {dateNow now : Time} {db next : Db}

theorem consumedSpends (wf : WellFormed db) (keyed : Keyed node adapter.codec adapter.model ids db)
    (apart : Apart node adapter.codec id ids) (secret : secretModel adapter = true)
    (ok : consume node adapter id dateNow now db = .ok (next,.consumed)) :
    id ∈ ids ∧ Throughout node adapter.codec adapter.model id spent next := by
  obtain ⟨lookup,candidate,a,mem,hit,⟨_,rows⟩ | ⟨bad,_⟩⟩ := consumeStopped secret ok (.inl rfl)
  · have found := (consumableLocated candidate hit).1
    refine ⟨(locatedStored keyed apart mem found).1,?_⟩
    intro b after located_
    rw [rows] at after
    obtain ⟨o,ho,rfl⟩ := memUpdateWhere.mp after
    by_cases chosen : consumable adapter.model lookup now o = true
    · rw [if_pos chosen]
      rfl
    · rw [if_neg chosen] at located_
      rw [locatedUnique wf keyed apart ho mem located_ found] at chosen
      exact absurd hit chosen
  · cases bad

theorem spentPasses {model : String} (used : Throughout node codec model id spent db) :
    ∀ lookup ∈ candidates node codec id, ∀ a ∈ db.secretArtifacts, consumable model lookup now a = false := by
  intro lookup candidate a mem
  by_contra hit
  obtain ⟨found,unused⟩ := consumableLocated candidate (by simpa using hit)
  have again := used a mem found
  simp [spent,unused] at again

end Consuming

section Refreshing
variable {db next : Db}

theorem revokedDead {g : Grant} : g.live = false ↔ g.status = .revoked := by
  cases status : g.status <;> simp [Grant.live,status]

theorem unchangedQuiet (wf : WellFormed db) (same : next.revocationOutbox = db.revocationOutbox) :
    newEvents db next = [] := by
  refine List.filter_eq_nil_iff.mpr fun r mem => ?_
  rw [same] at mem
  simpa using wf.numbered r mem

theorem revokeRefreshGrantExact (wf : WellFormed db) {g : Grant} (mem : g ∈ db.grants) (observedAt now : Time)
    (reason : String) :
    ∃ next, revokeRefreshGrant g.id observedAt reason now db = .ok (next,true) ∧
      (∃ r ∈ next.grants, Advances g r ∧ r.status = .revoked) ∧
      (g.live = false → newEvents db next = []) ∧
      (g.live = true → ∃ row, newEvents db next = [row] ∧ row.eventType = .grant ∧ row.grantId = some g.id) := by
  have found : db.grants.find? (fun o => o.id == g.id) = some g := by
    cases hit : db.grants.find? (fun o => o.id == g.id) with
    | none =>
      have none := List.find?_eq_none.mp hit g mem
      simp at none
    | some o =>
      have named : o.id = g.id := by simpa using List.find?_some hit
      rw [sameGrant wf (List.mem_of_find?_eq_some hit) mem named]
  have nothing : newEvents db db = [] := unchangedQuiet wf rfl
  have chosen : db.grants.any (liveGrant g.tenantId g.id) = g.live := by
    rw [Bool.eq_iff_iff,List.any_eq_true]
    constructor
    · rintro ⟨o,ho,hit⟩
      simp only [liveGrant,Bool.and_eq_true,beq_iff_eq] at hit
      rw [← sameGrant wf ho mem hit.1.2]
      exact hit.2
    · intro live
      exact ⟨g,mem,by simp [liveGrant,live]⟩
  unfold revokeRefreshGrant
  simp only [found]
  by_cases live : g.live = true
  · obtain ⟨site,hs⟩ := Option.isSome_iff_exists.mp (wf.grantSite g mem)
    obtain ⟨sm,st,_⟩ := siteAtSome hs
    rw [if_pos (chosen.trans live),hs]
    have known : db.hasTenant g.tenantId = true := by
      rw [← st]
      exact wf.siteTenant site sm
    have emitted := @insertEventOk .doNothing
      ⟨g.tenantId,g.siteId,site.resourceUri,.grant,some g.id,none,reason⟩ now
      (refreshRevoked g g.id observedAt reason db) wf.numbered known
    refine ⟨_,bindOk.mpr ⟨site,rfl,bindOk.mpr ⟨_,emitted,rfl⟩⟩,?_,?_,?_⟩
    · refine ⟨refreshRevokedGrant reason observedAt g,updatedRow mem (by simp [liveGrant,live]),?_,rfl⟩
      exact refreshRevokedAdvances (liveNotRevoked live)
    · intro dead
      rw [live] at dead
      cases dead
    · intro _
      refine ⟨newRow ⟨g.tenantId,g.siteId,site.resourceUri,.grant,some g.id,none,reason⟩ now
        (refreshRevoked g g.id observedAt reason db),?_,rfl,rfl⟩
      simp only [newEvents] at nothing
      simp only [newEvents,refreshRevoked,List.filter_append,nothing]
      simp [newRow]
  · rw [if_neg (by rw [chosen]; exact live)]
    refine ⟨_,rfl,⟨g,untouchedRow mem (by simp [liveGrant,live]),.same g,?_⟩,fun _ => nothing,fun bad => absurd bad live⟩
    exact revokedDead.mp (by simpa using live)

def Ended (grantId : GrantId) (db : Db) : Prop := ∀ g ∈ db.grants, g.id = grantId → g.status = .revoked

theorem endedQuiet {grantId : GrantId} {observedAt now : Time} {reason : String} {flag : Bool}
    (ended : Ended grantId db) (ok : revokeRefreshGrant grantId observedAt reason now db = .ok (next,flag)) :
    next.revocationOutbox = db.revocationOutbox := by
  unfold revokeRefreshGrant at ok
  split at ok
  · cases ok
    rfl
  · rename_i bound found
    have named : bound.id = grantId := by simpa using List.find?_some found
    split at ok
    · rename_i live
      obtain ⟨g,hg,hit⟩ := List.any_eq_true.mp live
      simp only [liveGrant,Bool.and_eq_true,beq_iff_eq] at hit
      have dead := ended g hg (hit.1.2.trans named)
      simp [Grant.live,dead] at hit
    · cases ok
      rfl

theorem endedStep {node : Node} {e : Event} {grantId : GrantId} (wf : WellFormed db)
    (fresh : proposedGrant e ≠ some grantId) (ended : Ended grantId db) : Ended grantId (step node db e) := by
  intro r mem named
  rcases stepGrants wf mem with ⟨g,hg,moved⟩ | proposed
  · have dead := ended g hg (by rw [← (advancesKeeps moved).id,named])
    rw [revokedStays moved dead]
    exact dead
  · rw [named] at proposed
    exact absurd proposed fresh

end Refreshing

theorem attemptsExact {model id : String} {e : Event} (tried : attempts model id e = true) :
    ∃ adapter dateNow, e.op = .consume adapter id dateNow ∧ adapter.model = model := by
  obtain ⟨now,op⟩ := e
  cases op <;> simp only [attempts,Bool.false_eq_true] at tried
  simp only [Bool.and_eq_true,beq_iff_eq] at tried
  obtain ⟨rfl,rfl⟩ := tried
  exact ⟨_,_,rfl,rfl⟩

theorem answerExact {node : Node} {db : Db} {e : Event} {adapter : OidcAdapter} {id : String} {dateNow : Time}
    {outcome : ConsumeOutcome} (op : e.op = .consume adapter id dateNow) :
    answer node db e = some outcome ↔ consume node adapter id dateNow e.now db = .ok (step node db e,outcome) := by
  simp only [answer,step,exec,op]
  cases consume node adapter id dateNow e.now db with
  | error fault => simp [answered,Except.map]
  | ok pair => simp [answered,Except.map,settle,Prod.ext_iff]

section Attempts
variable {node : Node} {codec : SecretArtifactCodec} {model id : String} {ids : List String} {db : Db} {e : Event}

theorem successSpends (wf : WellFormed db) (keyed : Keyed node codec model ids db)
    (apart : Apart node codec id ids) (secret : secretArtifactModels.contains model = true)
    (codecs : ∀ c ∈ codecOf e, c = codec) (tried : attempts model id e = true)
    (won : answer node db e = some .consumed) :
    id ∈ ids ∧ Throughout node codec model id spent (step node db e) := by
  obtain ⟨adapter,dateNow,op,rfl⟩ := attemptsExact tried
  have same : adapter.codec = codec := codecs _ (by simp [codecOf,op])
  subst same
  exact consumedSpends wf keyed apart secret ((answerExact op).mp won)

theorem spentLoses (used : Throughout node codec model id spent db)
    (secret : secretArtifactModels.contains model = true) (codecs : ∀ c ∈ codecOf e, c = codec)
    (tried : attempts model id e = true) {outcome : ConsumeOutcome} (out : answer node db e = some outcome) :
    outcome = .missing ∨ outcome = .replay := by
  obtain ⟨adapter,dateNow,op,rfl⟩ := attemptsExact tried
  have same : adapter.codec = codec := codecs _ (by simp [codecOf,op])
  subst same
  have ok := (answerExact op).mp out
  cases outcome with
  | missing => exact .inl rfl
  | replay => exact .inr rfl
  | consumed =>
    obtain ⟨lookup,candidate,a,mem,hit,_⟩ := consumeStopped secret ok (.inl rfl)
    rw [spentPasses used lookup candidate a mem] at hit
    contradiction
  | rateLimited =>
    obtain ⟨lookup,candidate,a,mem,hit,_⟩ := consumeStopped secret ok (.inr rfl)
    rw [spentPasses used lookup candidate a mem] at hit
    contradiction

theorem spentNoSuccess {es : List Event} (wf : WellFormed db) (rest : Rest codec node model id es)
    (secret : secretArtifactModels.contains model = true) (used : Throughout node codec model id spent db) :
    collect (step node) (successes node model id) db es = [] := by
  induction es generalizing db with
  | nil => rfl
  | cons e es ih =>
    obtain ⟨first,later⟩ := restCons.mp rest
    have none : successes node model id db e = [] := by
      refine if_neg ?_
      rintro ⟨tried,won⟩
      have lost := spentLoses used secret (first.codecs e (List.mem_singleton_self e)) tried won
      simp at lost
    rw [collect,none,List.nil_append]
    exact ih (stepWellFormed wf) later (throughoutRest (fun _ _ => spentStays) wf first used)

theorem endedEmitsNothing {grantId : GrantId} (wf : WellFormed db)
    (used : Throughout node codec model id (fun a => spent a ∧ boundTo grantId a) db) (ended : Ended grantId db)
    (secret : secretArtifactModels.contains model = true) (codecs : ∀ c ∈ codecOf e, c = codec) :
    emissions node model id db e = [] := by
  unfold emissions
  split
  · rename_i tried
    cases out : exec node e db with
    | error fault =>
      refine unchangedQuiet wf ?_
      simp only [step,out,settle]
    | ok pair =>
      obtain ⟨adapter,dateNow,op,rfl⟩ := attemptsExact tried
      have same : adapter.codec = codec := codecs _ (by simp [codecOf,op])
      subst same
      obtain ⟨next,reply⟩ := pair
      have done : step node db e = next := by simp only [step,out,settle]
      simp only [exec,op] at out
      obtain ⟨outcome,ok,_⟩ := answeredOk out
      rw [done]
      refine unchangedQuiet wf ?_
      have passes : consumeLookups node adapter e.now (candidates node adapter.codec id) db = .ok (db,none) :=
        consumeLookupsPass (spentPasses fun a mem hit => (used a mem hit).1)
      rcases consumeCases secret ok with tried | ⟨_,⟨_,replayed⟩ | ⟨_,rfl⟩⟩
      · rw [passes] at tried
        cases tried
      · rcases replayLookupsCases replayed with ⟨_,rfl⟩ | ⟨_,lookup,candidate,other,flag,found,revoked⟩
        · rfl
        · obtain ⟨a,hit,text⟩ := Option.bind_eq_some_iff.mp found
          have at_ := List.find?_some hit
          simp only [Bool.and_eq_true] at at_
          have bound := (used a (List.mem_of_find?_eq_some hit) (locatedIff.mpr ⟨lookup,candidate,at_.1⟩)).2
          rw [boundTo,text] at bound
          cases bound
          exact endedQuiet ended revoked
      · rfl
  · rfl

theorem replayAnswers (wf : WellFormed db) (refresh : model = "RefreshToken") (keyed : Keyed node codec model ids db)
    (apart : Apart node codec id ids) (used : Throughout node codec model id spent db)
    (codecs : ∀ c ∈ codecOf e, c = codec) (tried : attempts model id e = true)
    {a : SecretArtifact} (mem : a ∈ db.secretArtifacts) (hit : located node codec model id a = true)
    {g : Grant} (known : g ∈ db.grants) (bound : boundTo g.id a) :
    answer node db e = some .replay ∧
    (∃ r ∈ (step node db e).grants, Advances g r ∧ r.status = .revoked) ∧
    (g.live = false → newEvents db (step node db e) = []) ∧
    (g.live = true → ∃ row, newEvents db (step node db e) = [row] ∧ row.eventType = .grant ∧
      row.grantId = some g.id) := by
  obtain ⟨adapter,dateNow,op,rfl⟩ := attemptsExact tried
  have same : adapter.codec = codec := codecs _ (by simp [codecOf,op])
  subst same
  obtain ⟨next,revoked,effects⟩ := revokeRefreshGrantExact wf known e.now e.now "refresh_replay"
  have passes : consumeLookups node adapter e.now (candidates node adapter.codec id) db = .ok (db,none) :=
    consumeLookupsPass (spentPasses used)
  have replays : replayLookups adapter e.now (candidates node adapter.codec id) db = .ok (next,.replay) := by
    rw [@replayLookupsFound adapter e.now _ db g.id ?_ ?_,revoked]
    · rfl
    · obtain ⟨_,lookup,hl,at_⟩ := locatedStored keyed apart mem hit
      refine ⟨lookup,currentCandidate hl,?_⟩
      have found : db.secretArtifacts.find? (fun a => atLookup adapter.model lookup a && a.consumedAt.isSome) =
          some a := by
        cases first : db.secretArtifacts.find? (fun a => atLookup adapter.model lookup a && a.consumedAt.isSome) with
        | none =>
          have consumed : a.consumedAt.isSome = true := used a mem hit
          have missed := List.find?_eq_none.mp first a mem
          simp [at_,consumed] at missed
        | some b =>
          have there := List.find?_some first
          simp only [Bool.and_eq_true] at there
          rw [locatedUnique wf keyed apart (List.mem_of_find?_eq_some first) mem
            (locatedIff.mpr ⟨lookup,currentCandidate hl,there.1⟩) hit]
      rw [replayedGrant,found]
      exact bound
    · intro lookup candidate other found
      obtain ⟨b,first,text⟩ := Option.bind_eq_some_iff.mp found
      have there := List.find?_some first
      simp only [Bool.and_eq_true] at there
      rw [locatedUnique wf keyed apart (List.mem_of_find?_eq_some first) mem
        (locatedIff.mpr ⟨lookup,candidate,there.1⟩) hit,bound] at text
      exact (Option.some.inj text).symm
  have ok : consume node adapter id dateNow e.now db = .ok (next,.replay) := by
    unfold consume
    rw [if_pos (by rw [secretModel,refresh]; decide),passes]
    simp only [bindOk]
    refine ⟨(db,none),rfl,?_⟩
    simp only [refreshModel,refresh,beq_self_eq_true,if_true]
    exact replays
  have done : step node db e = next := by simp only [step,exec,op,ok,answered,Except.map,settle]
  rw [answerExact op,done]
  exact ⟨ok,effects⟩

theorem replaysQuiet {es : List Event} {grantId : GrantId} (wf : WellFormed db)
    (rest : Rest codec node model id es) (fresh : grantId ∉ proposals es)
    (used : Throughout node codec model id (fun a => spent a ∧ boundTo grantId a) db) (ended : Ended grantId db)
    (secret : secretArtifactModels.contains model = true) :
    collect (step node) (emissions node model id) db es = [] := by
  induction es generalizing db with
  | nil => rfl
  | cons e es ih =>
    obtain ⟨first,later⟩ := restCons.mp rest
    have other : proposedGrant e ≠ some grantId := by
      intro named
      exact fresh (List.mem_filterMap.mpr ⟨e,List.mem_cons_self,named⟩)
    have laterFresh : grantId ∉ proposals es := by
      intro mem
      obtain ⟨o,ho,named⟩ := List.mem_filterMap.mp mem
      exact fresh (List.mem_filterMap.mpr ⟨o,List.mem_cons_of_mem _ ho,named⟩)
    rw [collect,endedEmitsNothing wf used ended secret (first.codecs e (List.mem_singleton_self e)),List.nil_append]
    refine ih (stepWellFormed wf) later laterFresh (throughoutRest ?_ wf first used) (endedStep wf other ended)
    intro a b same both
    refine ⟨spentStays same both.1,?_⟩
    rw [boundTo,same.payload]
    exact both.2

theorem oneSuccess {es : List Event} (wf : WellFormed db) (keyed : Keyed node codec model ids db)
    (secret : secretArtifactModels.contains model = true) (codecs : ∀ e ∈ es, ∀ c ∈ codecOf e, c = codec)
    (apart : Apart node codec id (ids ++ storedIds model es)) (once : (ids ++ storedIds model es).count id ≤ 1) :
    (collect (step node) (successes node model id) db es).length ≤ 1 := by
  induction es generalizing db ids with
  | nil => exact Nat.zero_le _
  | cons e es ih =>
    have here := codecs e List.mem_cons_self
    have split : ids ++ storedIds model (e :: es) = ids ++ (storedId model e).toList ++ storedIds model es := by
      cases named : storedId model e <;> simp [storedIds,named]
    by_cases won : attempts model id e ∧ answer node db e = some .consumed
    · obtain ⟨stored,used⟩ := successSpends wf keyed
        (fun i mem => apart i (List.mem_append_left _ mem)) secret here won.1 won.2
      have notAgain : id ∉ storedIds model es := by
        intro again
        rw [split,List.count_append,List.count_append] at once
        have first : 1 ≤ ids.count id := List.one_le_count_iff.mpr stored
        have second : 1 ≤ (storedIds model es).count id := List.one_le_count_iff.mpr again
        omega
      have rest : Rest codec node model id es := by
        refine ⟨fun o mem => codecs o (List.mem_cons_of_mem _ mem),fun i mem => apart i ?_,notAgain⟩
        rw [split]
        exact List.mem_append_right _ mem
      rw [collect,spentNoSuccess (stepWellFormed wf) rest secret used,successes,if_pos won]
      exact Nat.le_refl 1
    · rw [split] at apart once
      rw [collect,successes,if_neg won,List.nil_append]
      exact ih (stepWellFormed wf) (keyedStep wf here keyed)
        (fun o mem => codecs o (List.mem_cons_of_mem _ mem)) apart once

end Attempts

theorem afterSuccess {node : Node} {codec : SecretArtifactCodec} {model id : String} {before mid after : List Event}
    {c : Event} (secret : secretArtifactModels.contains model = true)
    (codecs : ∀ e ∈ before ++ c :: mid ++ after, ∀ d ∈ codecOf e, d = codec)
    (apart : Apart node codec id (storedIds model (before ++ c :: mid ++ after)))
    (once : (storedIds model (before ++ c :: mid ++ after)).count id ≤ 1) (tried : attempts model id c = true)
    (won : answer node (run (step node) Db.empty before) c = some .consumed) :
    Throughout node codec model id spent (run (step node) Db.empty (before ++ c :: mid)) ∧
    Rest codec node model id after := by
  have shape : before ++ c :: mid ++ after = before ++ ([c] ++ (mid ++ after)) := by simp
  rw [shape] at codecs apart once
  rw [storedIdsAppend] at apart once
  have wf := reachableWellFormed node before
  obtain ⟨stored,used⟩ := successSpends wf (reachableKeyed fun o mem => codecs o (List.mem_append_left _ mem))
    (fun i mem => apart i (List.mem_append_left _ mem)) secret (codecs c (by simp)) tried won
  have rest : Rest codec node model id ([c] ++ (mid ++ after)) := by
    refine ⟨fun o mem => codecs o (List.mem_append_right _ mem),fun i mem => apart i (List.mem_append_right _ mem),?_⟩
    intro again
    have first : 1 ≤ (storedIds model before).count id := List.one_le_count_iff.mpr stored
    have second : 1 ≤ (storedIds model ([c] ++ (mid ++ after))).count id := List.one_le_count_iff.mpr again
    rw [List.count_append] at once
    omega
  obtain ⟨restMid,restAfter⟩ := restAppend.mp (restAppend.mp rest).2
  refine ⟨?_,restAfter⟩
  rw [runAppend,runCons]
  exact throughoutRun (fun _ _ => spentStays) (stepWellFormed wf) restMid used

/- The replays of a spent token from one on: together they emit one event if its grant was
live, and the grant is never live again. -/
theorem replaysTogether {node : Node} {codec : SecretArtifactCodec} {model id : String} {ids : List String} {db : Db}
    {r : Event} {after : List Event} (wf : WellFormed db) (refresh : model = "RefreshToken")
    (keyed : Keyed node codec model ids db) (apart : Apart node codec id ids)
    (used : Throughout node codec model id spent db) (rest : Rest codec node model id (r :: after))
    (tried : attempts model id r = true) {a : SecretArtifact} (mem : a ∈ db.secretArtifacts)
    (hit : located node codec model id a = true) {g : Grant} (known : g ∈ db.grants) (bound : boundTo g.id a)
    (fresh : g.id ∉ proposals after) :
    (g.live = false → collect (step node) (emissions node model id) db (r :: after) = []) ∧
    (g.live = true → ∃ row, collect (step node) (emissions node model id) db (r :: after) = [row] ∧
      row.eventType = .grant ∧ row.grantId = some g.id) := by
  have secret : secretArtifactModels.contains model = true := by rw [refresh]; decide
  obtain ⟨restR,restLater⟩ := restCons.mp rest
  obtain ⟨_,⟨o,ho,moved,revoked⟩,effects⟩ := replayAnswers wf refresh keyed apart used
    (rest.codecs r List.mem_cons_self) tried mem hit known bound
  have bounds : Throughout node codec model id (fun a => spent a ∧ boundTo g.id a) db := by
    intro b hb hitB
    rw [locatedUnique wf keyed apart hb mem hitB hit]
    exact ⟨used a mem hit,bound⟩
  have ended : Ended g.id (step node db r) := by
    intro p hp named
    rw [sameGrant (stepWellFormed wf) hp ho (by rw [named,(advancesKeeps moved).id])]
    exact revoked
  have later : collect (step node) (emissions node model id) (step node db r) after = [] := by
    refine replaysQuiet (stepWellFormed wf) restLater fresh (throughoutRest ?_ wf restR bounds) ended secret
    intro a b same both
    refine ⟨spentStays same both.1,?_⟩
    rw [boundTo,same.payload]
    exact both.2
  rw [collect,later,List.append_nil,emissions,if_pos tried]
  exact effects

theorem notProposedAgain {node : Node} {before after : List Event} {g : Grant}
    (known : g ∈ (run (step node) Db.empty before).grants) (once : (proposals (before ++ after)).count g.id ≤ 1) :
    g.id ∉ proposals after := by
  intro again
  rw [proposals,List.filterMap_append,List.count_append] at once
  have first : 1 ≤ (before.filterMap proposedGrant).count g.id := by
    refine List.one_le_count_iff.mpr ?_
    rcases runIds wellFormedEmpty known with ⟨o,ho,_⟩ | proposed
    · simp [Db.empty] at ho
    · exact proposed
  have second : 1 ≤ (after.filterMap proposedGrant).count g.id := List.one_le_count_iff.mpr again
  omega

theorem consumedOnce (node : Node) (codec : SecretArtifactCodec) (model id : String) (es : List Event)
    (secret : secretArtifactModels.contains model = true) (codecs : ∀ e ∈ es, ∀ c ∈ codecOf e, c = codec)
    (apart : Apart node codec id (storedIds model es)) (once : (storedIds model es).count id ≤ 1) :
    (collect (step node) (successes node model id) Db.empty es).length ≤ 1 ∧
    (model = "RefreshToken" → ∀ before c mid r after, es = before ++ (c :: mid) ++ r :: after →
      attempts model id c = true → answer node (run (step node) Db.empty before) c = some .consumed →
      attempts model id r = true →
      let db := run (step node) Db.empty (before ++ c :: mid)
      ∀ a ∈ db.secretArtifacts, located node codec model id a = true →
      ∀ g ∈ db.grants, member a.payload "grantId" = some (.str g.id) →
        answer node db r = some .replay ∧
        (∃ o ∈ (step node db r).grants, Advances g o ∧ o.status = .revoked) ∧
        ((proposals es).count g.id ≤ 1 →
          (g.live = false → collect (step node) (emissions node model id) db (r :: after) = []) ∧
          (g.live = true → ∃ row, collect (step node) (emissions node model id) db (r :: after) = [row] ∧
            row.eventType = .grant ∧ row.grantId = some g.id))) ∧
    ∀ before r after, es = before ++ r :: after → attempts model id r = true →
      let db := run (step node) Db.empty before
      answer node db r = some .rateLimited →
        (step node db r).secretArtifacts = db.secretArtifacts ∧ (step node db r).grants = db.grants ∧
        ∃ a ∈ (step node db r).secretArtifacts, located node codec model id a = true ∧ a.consumedAt = none := by
  have start : Keyed node codec model [] Db.empty := by
    intro a mem
    simp [Db.empty] at mem
  refine ⟨oneSuccess wellFormedEmpty start secret codecs apart once,?_,?_⟩
  · rintro refresh before c mid r after rfl triedC won triedR db a ha hit g hg text
    have wf : WellFormed db := reachableWellFormed node (before ++ c :: mid)
    obtain ⟨used,rest⟩ := afterSuccess secret codecs apart once triedC won
    have keyed : Keyed node codec model (storedIds model (before ++ c :: mid)) db :=
      reachableKeyed fun o mem => codecs o (List.mem_append_left _ mem)
    have apartDb : Apart node codec id (storedIds model (before ++ c :: mid)) := by
      intro i mem
      refine apart i ?_
      rw [storedIdsAppend]
      exact List.mem_append_left _ mem
    have bound : boundTo g.id a := by simp [boundTo,memberText,text,JsonValue.text]
    obtain ⟨replayed,revoked,_⟩ := replayAnswers wf refresh keyed apartDb used
      (rest.codecs r List.mem_cons_self) triedR ha hit hg bound
    refine ⟨replayed,revoked,fun proposed => ?_⟩
    refine replaysTogether wf refresh keyed apartDb used rest triedR ha hit hg bound ?_
    intro later
    have again := notProposedAgain hg proposed
    obtain ⟨o,ho,named⟩ := List.mem_filterMap.mp later
    exact again (List.mem_filterMap.mpr ⟨o,List.mem_cons_of_mem _ ho,named⟩)
  · rintro before r after rfl tried db out
    obtain ⟨adapter,dateNow,op,rfl⟩ := attemptsExact tried
    have same : adapter.codec = codec := codecs r (by simp) _ (by simp [codecOf,op])
    subst same
    obtain ⟨lookup,candidate,a,mem,hit,⟨bad,_⟩ | ⟨_,elsewhere⟩⟩ :=
      consumeStopped secret ((answerExact op).mp out) (.inr rfl)
    · cases bad
    · refine ⟨elsewhere.secrets,elsewhere.grants,a,?_,consumableLocated candidate hit⟩
      rw [elsewhere.secrets]
      exact mem

theorem tokenReplayed :
    ∃ row, collect (step refreshNode) (emissions refreshNode "RefreshToken" "refresh_0001")
      (run (step refreshNode) Db.empty (approvedHistory ++ [issueToken (seconds 30)] ++ [redeemToken (seconds 40)]))
      [redeemToken (seconds 50),redeemToken (seconds 60)] = [row] ∧ row.eventType = .grant ∧
      row.grantId = some "grant_0001" := by
  have out := (consumedOnce refreshNode artifactCodec "RefreshToken" "refresh_0001"
    (approvedHistory ++ [issueToken (seconds 30)] ++ [redeemToken (seconds 40)] ++
      [redeemToken (seconds 50),redeemToken (seconds 60)]) (by decide) (by decide) (by decide) (by decide)).2.1
    rfl (approvedHistory ++ [issueToken (seconds 30)]) (redeemToken (seconds 40)) [] (redeemToken (seconds 50))
    [redeemToken (seconds 60)] rfl rfl (by decide) rfl
  obtain ⟨_,_,events⟩ := out ⟨"RefreshToken",1,tokenDigest,none,refreshPayload,some (seconds 3630),some (seconds 40)⟩
    (by decide) (by decide) approvedSample (by decide) (by decide)
  exact (events (by decide)).2 rfl

end Wepuu.SingleUse
