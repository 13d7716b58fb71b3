import Wepuu.Footprint
import Wepuu.TokenClaims

/-! The life of a grant over any run: its status only moves forward, and a grant that is
revoked or whose site is not active resolves to no claims ever again. Every proposed
grant id of a run is fresh, as the control API draws it at random for each call. -/
namespace Wepuu.GrantLifecycle
open Footprint Grants NodeApi Outbox Relational Runs Schema Statements TokenClaims Wepuu.System

def proposedGrant (e : Event) : Option GrantId := match e.op with
  | .createPending _ record => some record.id
  | _ => none

def proposals (es : List Event) : List GrantId := es.filterMap proposedGrant

inductive Moves : GrantStatus → GrantStatus → Prop
  | stays (s : GrantStatus) : Moves s s
  | approved : Moves .pending .active
  | denied : Moves .pending .revoked
  | revoked : Moves .active .revoked

theorem advancesMoves {g r : Grant} (moved : Advances g r) (known : g.status ≠ .suspended) :
    Moves g.status r.status := by
  cases moved with
  | same => exact .stays _
  | approve pending =>
    rw [pending]
    exact .approved
  | revoke notRevoked at_ reason =>
    cases status : g.status with
    | pending => exact .denied
    | active => exact .revoked
    | suspended => exact absurd status known
    | revoked => exact absurd status notRevoked

section Steps
variable {node : Node} {db : Db} {e : Event}

theorem opensProposed {g : Grant} (opened : (footprint node e db).opens g) : proposedGrant e = some g.id := by
  obtain ⟨now,op⟩ := e
  cases op <;> simp only [footprint] at opened
  rw [opened]
  rfl

theorem stepGrants (wf : WellFormed db) {r : Grant} (mem : r ∈ (step node db e).grants) :
    (∃ g ∈ db.grants, Advances g r) ∨ proposedGrant e = some r.id := by
  rcases writesGrants (stepWrites wf) r mem with old | ⟨g,opened,moved⟩
  · exact .inl old
  · rw [(advancesKeeps moved).id]
    exact .inr (opensProposed opened)

theorem stepOpens (wf : WellFormed db) {r : Grant} (mem : r ∈ (step node db e).grants)
    (new : ∀ g ∈ db.grants, g.id ≠ r.id) : r.status = .pending := by
  rcases stepGrants wf mem with ⟨g,hg,moved⟩ | proposed
  · exact absurd (advancesKeeps moved).id.symm (new g hg)
  · obtain ⟨now,op⟩ := e
    cases op <;> simp only [proposedGrant] at proposed <;> try contradiction
    rename_i context record
    rcases settleCases db (exec node ⟨now,.createPending context record⟩ db) with same | ⟨next,reply,ok,done⟩
    · rw [step,same] at mem
      exact absurd rfl (new r mem)
    · obtain ⟨out,created,_⟩ := answeredOk ok
      rw [step,done] at mem
      rcases createPendingCases created with ⟨_,_,_,_,rfl,_⟩ | ⟨_,_,rfl,_⟩
      · exact absurd rfl (new r mem)
      · rcases List.mem_append.mp mem with old | fresh
        · exact absurd rfl (new r old)
        · rw [List.mem_singleton.mp fresh]
          rfl

theorem runIds {es : List Event} (wf : WellFormed db) {r : Grant} (mem : r ∈ (run (step node) db es).grants) :
    (∃ g ∈ db.grants, g.id = r.id) ∨ r.id ∈ proposals es := by
  induction es generalizing db with
  | nil => exact .inl ⟨r,mem,rfl⟩
  | cons e es ih =>
    rcases ih (stepWellFormed wf) mem with ⟨g,hg,same⟩ | later
    · rcases stepGrants wf hg with ⟨o,ho,moved⟩ | proposed
      · exact .inl ⟨o,ho,by rw [← same,(advancesKeeps moved).id]⟩
      · refine .inr (List.mem_filterMap.mpr ⟨e,List.mem_cons_self,?_⟩)
        rw [proposed,same]
    · refine .inr ?_
      obtain ⟨o,ho,named⟩ := List.mem_filterMap.mp later
      exact List.mem_filterMap.mpr ⟨o,List.mem_cons_of_mem _ ho,named⟩

end Steps

def Dead (target : GrantId) (db : Db) : Prop :=
  ∀ g ∈ db.grants, g.id = target → g.status = .revoked ∨
    ∀ s ∈ db.sites, s.tenantId = g.tenantId → s.id = g.siteId → s.status ≠ .active

theorem writeDead {scope : Scope} {target : GrantId} {db next : Db} (wf : WellFormed db)
    (fresh : ∀ g, scope.opens g → g.id ≠ target) (dead : Dead target db) (write : Write scope db next) :
    Dead target next := by
  cases write with
  | elsewhere same =>
    intro g mem named
    rw [same.grants] at mem
    rw [same.sites]
    exact dead g mem named
  | openGrant allowed _ _ _ =>
    intro g mem named
    rcases List.mem_append.mp mem with old | new
    · exact dead g old named
    · rw [List.mem_singleton.mp new] at named
      exact absurd named (fresh _ allowed)
  | moveGrants p f moves _ =>
    intro r mem named
    obtain ⟨g,hg,rfl⟩ := memUpdateWhere.mp mem
    have moved : Advances g (if p g then f g else g) := by
      split
      · exact moves g hg ‹_›
      · exact .same g
    have same := advancesKeeps moved
    rw [same.id] at named
    rcases dead g hg named with revoked | closed
    · left
      rw [revokedStays moved revoked]
      exact revoked
    · right
      rw [same.tenantId,same.siteId]
      exact closed
  | dropGrants p _ => exact fun g mem => dead g (memDeleteWhere.mp mem).1
  | @openSite s free _ =>
    intro g mem named
    rcases dead g mem named with revoked | closed
    · exact .inl revoked
    · right
      intro o ho tenant site
      rcases List.mem_append.mp ho with old | new
      · exact closed o old tenant site
      · -- The site of an existing grant has a row already, so a new one has another key.
        obtain ⟨known,hk,key⟩ := hasSiteIff.mp (wf.grantSite g mem)
        rw [List.mem_singleton.mp new] at tenant site
        have clear := free known hk
        simp [siteClash,tenant,site,key.1,key.2] at clear
  | closeSites p at_ =>
    intro g mem named
    rcases dead g mem named with revoked | closed
    · exact .inl revoked
    · right
      intro o ho tenant site
      obtain ⟨s,hs,rfl⟩ := memUpdateWhere.mp ho
      split
      · simp
      · rename_i kept
        simp only [if_neg kept] at tenant site
        exact closed s hs tenant site
  | dropSites p _ =>
    intro g mem named
    rcases dead g mem named with revoked | closed
    · exact .inl revoked
    · exact .inr fun o ho => closed o (memDeleteWhere.mp ho).1
  | emit ok =>
    obtain ⟨_,rfl⟩ := insertEventExact wf.numbered ok
    exact dead
  | _ => exact dead

theorem writesDead {scope : Scope} {target : GrantId} {db next : Db} (wf : WellFormed db)
    (fresh : ∀ g, scope.opens g → g.id ≠ target) (dead : Dead target db) (writes : Writes scope db next) :
    Dead target next := by
  induction writes with
  | refl => exact dead
  | tail first last ih => exact writeDead (writesKeep wf first) fresh ih last

theorem runDead {node : Node} {target : GrantId} {db : Db} {es : List Event} (wf : WellFormed db)
    (fresh : target ∉ proposals es) (dead : Dead target db) : Dead target (run (step node) db es) := by
  induction es generalizing db with
  | nil => exact dead
  | cons e es ih =>
    have other : proposedGrant e ≠ some target := by
      intro named
      exact fresh (List.mem_filterMap.mpr ⟨e,List.mem_cons_self,named⟩)
    have later : target ∉ proposals es := by
      intro mem
      obtain ⟨o,ho,named⟩ := List.mem_filterMap.mp mem
      exact fresh (List.mem_filterMap.mpr ⟨o,List.mem_cons_of_mem _ ho,named⟩)
    refine ih (stepWellFormed wf) later (writesDead wf ?_ dead (stepWrites wf))
    intro g opened same
    rw [← same] at other
    exact other (opensProposed opened)

theorem deadResolves {target : GrantId} {db : Db} (dead : Dead target db) (subject : AccountId)
    (client resource : Option String) : resolve subject ⟨some target,client,resource⟩ db = none := by
  cases out : resolve subject ⟨some target,client,resource⟩ db with
  | none => rfl
  | some claims =>
    obtain ⟨g,hg,s,hs,active,open_,tenant,site,bound⟩ := resolvedActive out
    simp only [unboundOr,Option.all_some,beq_iff_eq] at bound
    rcases dead g hg bound.symm with revoked | closed
    · rw [revoked] at active
      cases active
    · exact absurd open_ (closed s hs tenant site)

theorem deadDenied {token : Token} {target : GrantId} {db : Db} {dateNow : Time} (dead : Dead target db)
    (access : token.kind = "AccessToken") (bound : token.grantId = some target) :
    extraTokenClaims token dateNow db = .error (.thrown "access_denied") := by
  unfold extraTokenClaims
  rw [if_neg (not_not.mpr access),bound]
  cases token.accountId with
  | none => rfl
  | some account => simp only [deadResolves dead]

theorem runAdvances {node : Node} {db : Db} {es : List Event} {g r : Grant} (wf : WellFormed db)
    (before : g ∈ db.grants) (fresh : g.id ∉ proposals es) (after : r ∈ (run (step node) db es).grants)
    (same : r.id = g.id) : Advances g r := by
  have trace : ∀ (es : List Event) (d : Db), WellFormed d → (∀ o ∈ d.grants, o.id = g.id → Advances g o) →
      g.id ∉ proposals es → ∀ r ∈ (run (step node) d es).grants, r.id = g.id → Advances g r := by
    intro es
    induction es with
    | nil => exact fun d _ rows _ => rows
    | cons e es ih =>
      intro d wfd rows fresh
      refine ih (step node d e) (stepWellFormed wfd) ?_ ?_
      · intro o ho named
        rcases stepGrants wfd ho with ⟨p,hp,moved⟩ | proposed
        · exact advancesTrans (rows p hp (by rw [← named,(advancesKeeps moved).id])) moved
        · exact absurd (List.mem_filterMap.mpr ⟨e,List.mem_cons_self,by rw [proposed,named]⟩) fresh
      · intro mem
        obtain ⟨o,ho,named⟩ := List.mem_filterMap.mp mem
        exact fresh (List.mem_filterMap.mpr ⟨o,List.mem_cons_of_mem _ ho,named⟩)
  refine trace es db wf ?_ fresh r after same
  intro o ho named
  rw [sameGrant wf ho before named]
  exact .same g

theorem grantLifecycle (node : Node) (before after : List Event)
    (fresh : (proposals (before ++ after)).Nodup) :
    let db := run (step node) Db.empty before
    let next := run (step node) db after
    (∀ e, ∀ r ∈ (step node db e).grants, (∀ g ∈ db.grants, g.id ≠ r.id) → r.status = .pending) ∧
    (∀ g ∈ db.grants, ∀ r ∈ next.grants, r.id = g.id →
      SameGrant g r ∧ Moves g.status r.status ∧ (g.status = .revoked → r = g)) ∧
    ∀ g ∈ db.grants, (g.status = .revoked ∨
        ∀ s ∈ db.sites, s.tenantId = g.tenantId → s.id = g.siteId → s.status ≠ .active) →
      (∀ subject client resource, resolve subject ⟨some g.id,client,resource⟩ next = none) ∧
      ∀ token dateNow, token.kind = "AccessToken" → token.grantId = some g.id →
        extraTokenClaims token dateNow next = .error (.thrown "access_denied") := by
  have wf := reachableWellFormed node before
  have later : ∀ g ∈ (run (step node) Db.empty before).grants, g.id ∉ proposals after := by
    intro g mem again
    rcases runIds wellFormedEmpty mem with ⟨o,ho,_⟩ | proposed
    · simp [Db.empty] at ho
    · rw [proposals,List.filterMap_append] at fresh
      exact (List.nodup_append.mp fresh).2.2 _ proposed _ again rfl
  refine ⟨fun e r mem new => stepOpens wf mem new,?_,?_⟩
  · intro g hg r hr same
    have moved := runAdvances wf hg (later g hg) hr same
    exact ⟨advancesKeeps moved,advancesMoves moved (wf.neverSuspended g hg),revokedStays moved⟩
  · intro g hg stopped
    have dead : Dead g.id (run (step node) Db.empty before) := by
      intro o ho named
      rw [sameGrant wf ho hg named]
      exact stopped
    have still : Dead g.id (run (step node) (run (step node) Db.empty before) after) :=
      runDead wf (later g hg) dead
    exact ⟨fun subject client resource => deadResolves still subject client resource,
      fun token dateNow access bound => deadDenied still access bound⟩

def revokedHistory : List Event := approvedHistory ++
  [⟨seconds 30,.revokeGrantWithEvent sampleContext sampleTenant "grant_0001"⟩]

def reconsentHistory : List Event :=
  [⟨seconds 40,.createPending sampleContext (samplePending "grant_0002" "begin_0000000000000002" (seconds 40))⟩,
    ⟨seconds 50,.activate sampleContext sampleTenant "grant_0002" "complete_00000000000002" "proof_0002"⟩]

def sampleToken (grantId : Option GrantId) : Token :=
  ⟨"AccessToken",some sampleAccount,grantId,some "client_0001",some sampleResource,some "mcp:read"⟩

def revokedSample : Grant :=
  { approvedSample with
    status := .revoked, revokedAt := some (seconds 30), revocationReason := some "platform_user_revoked" }

/- The revoked grant's token is denied while the new grant of the same tuple resolves. -/
theorem revokedGrantDenied :
    extraTokenClaims (sampleToken (some "grant_0001")) (seconds 60) (run (step (sampleNode [] []))
      (run (step (sampleNode [] [])) Db.empty revokedHistory) reconsentHistory) =
        .error (.thrown "access_denied") ∧
    (resolve sampleAccount ⟨none,some "client_0001",some sampleResource⟩ (run (step (sampleNode [] []))
      (run (step (sampleNode [] [])) Db.empty revokedHistory) reconsentHistory)).isSome = true := by
  have known : revokedSample ∈ (run (step (sampleNode [] [])) Db.empty revokedHistory).grants := by decide
  refine ⟨?_,by decide⟩
  exact ((grantLifecycle (sampleNode [] []) revokedHistory reconsentHistory (by decide)).2.2
    revokedSample known (.inl rfl)).2 _ _ rfl rfl

end Wepuu.GrantLifecycle
