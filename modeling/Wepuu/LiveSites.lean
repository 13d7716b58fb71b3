import Wepuu.ConsentRetry
import Wepuu.DeletionClosure
import Wepuu.GrantCeiling

/-! A live grant stands at an active site in every reachable state, although approval never
looks at the site: whatever ends a site ends its grants in the same transaction. With the
two partial indexes the authorization service then finds at most one grant of a request. -/
namespace Wepuu.LiveSites
open Consent ConsentPlan Deletion DeletionClosure DeletionCompletes Footprint Frames GrantCeiling Grants NodeApi Outbox
open Pairing Reconsent Relational Runs Schema SiteRows Statements Tenancy Words Wepuu.System

section Closing
variable {node : Node} {e : Event} {db next : Db} {observedAt now : Time}

theorem revokeSitesMoved {rest : List Site} {events out : Nat}
    (ok : revokeSites observedAt now rest db events = .ok (next,out)) :
    ∀ s ∈ next.sites, s ∈ db.sites ∨ ∃ t ∈ rest, t.tenantId = s.tenantId ∧ t.id = s.id := by
  induction rest generalizing db events with
  | nil =>
    cases ok
    exact fun s mem => .inl mem
  | cons head rest ih =>
    simp only [revokeSites,bindOk] at ok
    obtain ⟨emitted,inserted,ok⟩ := ok
    have sites : emitted.sites = updateWhere (siteIn head.tenantId head.id) (revokedSite observedAt) db.sites :=
      insertEventSites inserted
    intro s mem
    rcases ih ok s mem with before | ⟨t,ht,key⟩
    · have stored : s ∈ updateWhere (siteIn head.tenantId head.id) (revokedSite observedAt) db.sites := sites ▸ before
      obtain ⟨o,ho,rfl⟩ := memUpdateWhere.mp stored
      by_cases chosen : siteIn head.tenantId head.id o = true
      · rw [if_pos chosen]
        simp only [siteIn,Bool.and_eq_true,beq_iff_eq] at chosen
        exact .inr ⟨head,List.mem_cons_self,chosen.1.symm,chosen.2.symm⟩
      · rw [if_neg chosen]
        exact .inl ho
    · exact .inr ⟨t,List.mem_cons_of_mem _ ht,key⟩

theorem effectCloses {jobId : JobId} (effect : Effect jobId observedAt now db next) {s : Site} (mem : s ∈ next.sites) :
    s ∈ db.sites ∨ SiteGrantsDown next s.tenantId s.id := by
  cases effect with
  | idle _ => exact .inl mem
  | revoked _ _ ok =>
    unfold revokeScope at ok
    split at ok
    · have same := revokeAccountOnly ok .sites (by decide)
      exact .inl (same ▸ mem)
    · simp only [revokeTenantScope,bindOk] at ok
      obtain ⟨⟨revoked,count⟩,loop,last⟩ := ok
      cases last
      rcases revokeSitesMoved loop s mem with same | listed
      · exact .inl same
      · exact .inr ((revokeSitesDown loop).2 (.inl listed)).2
  | purged _ _ ok =>
    unfold purgeScope at ok
    split at ok
    · simp only [purgeAccount,bindOk,ensureOk] at ok
      obtain ⟨_,_,last⟩ := ok
      cases last
      exact .inl mem
    · cases ok
      exact .inl (memDeleteWhere.mp mem).1

theorem disconnectCloses {context : TenantContext} {tenant : TenantId} {site : SiteId} {out : Bool}
    (ok : disconnectSiteWithEvent context tenant site now db = .ok (next,out)) {s : Site} (mem : s ∈ next.sites) :
    s ∈ db.sites ∨ SiteGrantsDown next s.tenantId s.id := by
  unfold disconnectSiteWithEvent at ok
  split at ok
  · split at ok
    · cases ok
      exact .inl mem
    · simp only [bindOk] at ok
      obtain ⟨emitted,inserted,last⟩ := ok
      cases last
      rw [insertEventSites inserted] at mem
      obtain ⟨o,ho,rfl⟩ := memUpdateWhere.mp mem
      by_cases chosen : siteTarget tenant site o = true
      · rw [if_pos chosen]
        simp only [siteTarget,Bool.and_eq_true,beq_iff_eq] at chosen
        refine .inr fun g hg ownTenant ownSite => ?_
        rw [insertEventGrants inserted] at hg
        obtain ⟨p,_,rfl⟩ := memUpdateWhere.mp hg
        by_cases live : liveAtSite tenant site p = true
        · rw [if_pos live]
          rfl
        · rw [if_neg live] at ownTenant ownSite ⊢
          cases status : p.status with
          | revoked => rfl
          | _ => simp [liveAtSite,Grant.live,status,ownTenant,ownSite,revokedSite,chosen.1.1,chosen.1.2] at live
      · rw [if_neg chosen]
        exact .inl ho
  · cases ok
    exact .inl mem

theorem stepCloses (wf : WellFormed db) {s : Site} (mem : s ∈ (step node db e).sites) :
    s ∈ db.sites ∨ (∀ o ∈ db.sites, o.tenantId = s.tenantId → o.id ≠ s.id) ∨
      SiteGrantsDown (step node db e) s.tenantId s.id := by
  by_cases untouched : Table.sites ∈ touches e.op
  · rcases settleCases db (exec node e db) with same | ⟨next,reply,ok,done⟩
    · rw [step,same] at mem
      exact .inl mem
    obtain ⟨now,op⟩ := e
    cases op <;> try (simp [touches] at untouched; done)
    case completePairing context record proof site key =>
      rcases stepSites wf mem with ⟨o,ho,_,_,_,rfl | revoked⟩ | ⟨_,new⟩
      · exact .inl ho
      · rw [step,done] at mem
        have made := silentOk ok
        simp only [complete] at made
        split at made
        · split at made <;> cases made
          exact .inl mem
        · simp only [bindOk,ensureOk,orFailOk] at made
          obtain ⟨url,_,_,_,_,_,sites,inserted,_,_,_,_,recorded⟩ := made
          obtain ⟨_,rfl⟩ := insertRowExact.mp inserted
          obtain ⟨_,_,_,_,rfl⟩ := insertIdempotencyExact recorded
          rcases List.mem_append.mp mem with old | new
          · exact .inl old
          · rw [List.mem_singleton.mp new] at revoked
            cases revoked
      · exact .inr (.inl new)
    case disconnectSiteWithEvent context tenant site =>
      rw [step,done] at mem ⊢
      obtain ⟨_,made,_⟩ := answeredOk ok
      exact (disconnectCloses made mem).imp_right .inr
    case advanceDeletionJob jobId observedAt =>
      exact (effectCloses (advanceEffect jobId observedAt now wf) mem).imp_right .inr
  · have same : (step node db e).sites = db.sites := stepOnly .sites untouched
    exact .inl (same ▸ mem)

end Closing
section Stored
variable {node : Node} {e : Event} {db : Db}

/- What GrantService.begin writes: its scopes have passed the parse. -/
def begunByService (node : Node) (e : Event) : Prop := match e.op with
  | .createPending _ record => ∃ (service : GrantService) (input : BeginInput) (resource challenge : String) (dateNow : Time),
      parseBegin service node input = .ok (resource,challenge) ∧
      record = pendingRecord node input resource challenge dateNow
  | _ => True

structure Standing (db : Db) : Prop where
  wellFormed : WellFormed db
  active : ∀ g ∈ db.grants, g.live = true → ∀ s ∈ db.sites, s.tenantId = g.tenantId → s.id = g.siteId →
    s.status = .active
  scopes : ∀ g ∈ db.grants, scopeSet g.scopes = true

theorem standingEmpty : Standing Db.empty :=
  ⟨wellFormedEmpty,fun _ mem => absurd mem List.not_mem_nil,fun _ mem => absurd mem List.not_mem_nil⟩

theorem stepActive (inv : Standing db) : ∀ g ∈ (step node db e).grants, g.live = true →
    ∀ s ∈ (step node db e).sites, s.tenantId = g.tenantId → s.id = g.siteId → s.status = .active := by
  intro r hr live s hs tenant id
  rcases stepAsked inv.wellFormed hr with ⟨g,hg,moved⟩ | ⟨context,record,op,rfl,active,_⟩
  · have keeps := advancesKeeps moved
    rcases stepCloses inv.wellFormed hs with before | new | down
    · exact inv.active g hg (advancesLive moved live) s before (tenant.trans keeps.tenantId) (id.trans keeps.siteId)
    · -- its grant was there, so the key had a row
      obtain ⟨o,ho,sameTenant,sameId⟩ := hasSiteIff.mp (inv.wellFormed.grantSite g hg)
      rw [← keeps.tenantId,← tenant] at sameTenant
      rw [← keeps.siteId,← id] at sameId
      exact absurd sameId (new o ho sameTenant)
    · exact absurd (down r hr tenant.symm id.symm) (liveNotRevoked live)
  · have same : (step node db e).sites = db.sites := stepOnly .sites (by simp [op,touches])
    obtain ⟨o,ho,found⟩ := List.any_eq_true.mp active
    simp only [Bool.and_eq_true,beq_iff_eq] at found
    obtain ⟨⟨⟨⟨sameTenant,sameId⟩,_⟩,status⟩,_⟩ := found
    have row : s = o := by
      refine indexedEq inv.wellFormed.siteIndex siteClashSymm (same ▸ hs) ho ?_
      simp only [siteClash,tenant,id,sameTenant,sameId,pendingGrant,beq_self_eq_true,Bool.and_self,Bool.true_or]
    rw [row]
    exact status

theorem stepScopes (inv : Standing db) (served : begunByService node e) :
    ∀ g ∈ (step node db e).grants, scopeSet g.scopes = true := by
  intro r hr
  rcases stepAsked inv.wellFormed hr with ⟨g,hg,moved⟩ | ⟨context,record,op,rfl,_⟩
  · rw [(advancesKeeps moved).scopes]
    exact inv.scopes g hg
  · rw [begunByService,op] at served
    obtain ⟨service,input,resource,challenge,dateNow,parsed,rfl⟩ := served
    exact (parseBeginExact.mp parsed).1

theorem stepStanding (inv : Standing db) (served : begunByService node e) : Standing (step node db e) :=
  ⟨stepWellFormed inv.wellFormed,stepActive inv,stepScopes inv served⟩

theorem reachableStanding (node : Node) (es : List Event)
    (served : Guarded (step node) (fun _ e => begunByService node e) Db.empty es) :
    Standing (run (step node) Db.empty es) :=
  invariantRun (fun _ _ inv served => stepStanding inv served) standingEmpty served

end Stored

section Requested

theorem scopeIndexText (scope : McpScope) : scopeIndex scope.text = scope.order := by
  cases scope <;> decide

theorem distinctNodup (parts : List String) : (distinct parts).Nodup := by
  unfold distinct
  match parts with
  | [] => exact List.nodup_nil
  | head :: tail =>
    have shorter := List.length_filter_le (fun b => !b == head) tail
    rw [List.eraseDups_cons]
    refine List.nodup_cons.mpr ⟨fun again => ?_,distinctNodup _⟩
    have left := List.mem_eraseDups.mp again
    simp at left
termination_by parts.length

theorem ascendingOrder {scopes : List McpScope} (sorted : ascending scopes = true) :
    scopes.Pairwise fun a b => a.order < b.order := by
  induction scopes with
  | nil => exact List.Pairwise.nil
  | cons a rest ih =>
    cases rest with
    | nil => exact List.pairwise_singleton _ _
    | cons b rest =>
      simp only [ascending,Bool.and_eq_true,decide_eq_true_eq] at sorted
      have later := ih sorted.2
      refine List.pairwise_cons.mpr ⟨fun c mem => ?_,later⟩
      rcases List.mem_cons.mp mem with rfl | mem
      · exact sorted.1
      · exact Nat.lt_trans sorted.1 ((List.pairwise_cons.mp later).1 c mem)

/- The comparator of the sort. -/
def placedBefore (left right : String) : Prop := scopeIndex left - scopeIndex right ≤ 0

instance : DecidableRel placedBefore := fun left right =>
  inferInstanceAs (Decidable (scopeIndex left - scopeIndex right ≤ 0))
instance : Std.Total placedBefore := ⟨fun a b => by unfold placedBefore; omega⟩
instance : IsTrans String placedBefore := ⟨fun a b c ab bc => by unfold placedBefore at *; omega⟩

theorem inScopeOrderSorted (parts : List String) : (inScopeOrder parts).Pairwise placedBefore :=
  List.pairwise_insertionSort placedBefore parts

theorem requestedExact {scopes : List McpScope} (canonical : scopeSet scopes = true) (requested : List String) :
    scopeTexts scopes = inScopeOrder (distinct requested) ↔ ∀ scope, scope ∈ scopeTexts scopes ↔ scope ∈ requested := by
  constructor
  · intro same scope
    rw [same]
    exact memInScopeOrder
  · intro sets
    simp only [scopeSet,Bool.and_eq_true,decide_eq_true_eq] at canonical
    obtain ⟨⟨_,once⟩,sorted⟩ := canonical
    have texts : (scopeTexts scopes).Nodup := once.map fun a b same => scopeTextInjective a b same
    have ordered : (scopeTexts scopes).Pairwise placedBefore := by
      refine List.pairwise_map.mpr ((ascendingOrder sorted).imp fun {a b} lower => ?_)
      simp only [placedBefore,scopeIndexText]
      omega
    have nodup : (inScopeOrder (distinct requested)).Nodup :=
      (List.perm_insertionSort _ _).nodup_iff.mpr (distinctNodup requested)
    have perm : (scopeTexts scopes).Perm (inScopeOrder (distinct requested)) :=
      (List.perm_ext_iff_of_nodup texts nodup).mpr fun scope => (sets scope).trans memInScopeOrder.symm
    refine perm.eq_of_pairwise (fun a b left right ab ba => ?_) ordered (inScopeOrderSorted _)
    -- equal positions in the order of the known scopes
    obtain ⟨s,_,rfl⟩ := List.mem_map.mp left
    obtain ⟨t,_,rfl⟩ := List.mem_map.mp (perm.mem_iff.mpr right)
    simp only [placedBefore,scopeIndexText] at ab ba
    have same : s.order = t.order := by omega
    cases s <;> cases t <;> first | rfl | (exact absurd same (by decide))

end Requested

section Finding
variable {db : Db} {input : ExactBinding} {g o : Grant} {s t : Site}

structure Asked (input : ExactBinding) (g : Grant) (s : Site) : Prop where
  tenant : s.tenantId = g.tenantId
  site : s.id = g.siteId
  subject : g.subjectId = input.subjectId
  client : g.clientId = input.clientId
  resource : s.resourceUri = input.resource
  scopes : ∀ scope, scope ∈ scopeTexts g.scopes ↔ scope ∈ input.scopes
  grantActive : g.status = .active
  siteActive : s.status = .active

theorem exactRowAsked (canonical : scopeSet g.scopes = true) :
    exactRow input (inScopeOrder (distinct input.scopes)) g s = true ↔ Asked input g s := by
  simp only [exactRow,Bool.and_eq_true,beq_iff_eq,requestedExact canonical]
  constructor
  · rintro ⟨⟨⟨⟨⟨⟨⟨tenant,site⟩,subject⟩,client⟩,resource⟩,scopes⟩,grantActive⟩,siteActive⟩
    exact ⟨tenant,site,subject,client,resource,scopes,grantActive,siteActive⟩
  · intro asked
    exact ⟨⟨⟨⟨⟨⟨⟨asked.tenant,asked.site⟩,asked.subject⟩,asked.client⟩,asked.resource⟩,asked.scopes⟩,
      asked.grantActive⟩,asked.siteActive⟩

theorem oneSite (wf : WellFormed db) (left : s ∈ db.sites) (right : t ∈ db.sites) (live : siteLive s = true)
    (other : siteLive t = true) (resource : s.resourceUri = t.resourceUri) : s = t :=
  indexedEq wf.siteIndex siteClashSymm left right (by simp [siteClash,live,other,resource])

theorem oneGrant (wf : WellFormed db) (left : g ∈ db.grants) (right : o ∈ db.grants) (live : g.live = true)
    (other : o.live = true) (tenant : g.tenantId = o.tenantId) (site : g.siteId = o.siteId)
    (subject : g.subjectId = o.subjectId) (client : g.clientId = o.clientId) : g = o :=
  indexedEq wf.grantIndex grantClashSymm left right
    (by simp [grantClash,live,other,tenant,site,subject,client])

theorem askedOnce (wf : WellFormed db) (hg : g ∈ db.grants) (hs : s ∈ db.sites) (asked : Asked input g s)
    (ho : o ∈ db.grants) (ht : t ∈ db.sites) (again : Asked input o t) : g = o ∧ s = t := by
  have site : s = t := oneSite wf hs ht (by simp [siteLive,asked.siteActive]) (by simp [siteLive,again.siteActive])
    (asked.resource.trans again.resource.symm)
  refine ⟨oneGrant wf hg ho (by simp [Grant.live,asked.grantActive]) (by simp [Grant.live,again.grantActive]) ?_ ?_
    (asked.subject.trans again.subject.symm) (asked.client.trans again.client.symm),site⟩
  · rw [← asked.tenant,site,again.tenant]
  · rw [← asked.site,site,again.site]

theorem indexedNodup {α : Type} {clash : α → α → Bool} {rows : List α} (indexed : Indexed clash rows)
    (own : ∀ r, clash r r = true) : rows.Nodup := by
  refine indexed.imp fun {a b} free same => ?_
  rw [← same,own a] at free
  contradiction

def exactRows (input : ExactBinding) (db : Db) : List (Grant × Site) :=
  db.grants.flatMap fun g =>
    (db.sites.filter (exactRow input (inScopeOrder (distinct input.scopes)) g)).map fun s => (g,s)

theorem memExactRows (inv : Standing db) : (g,s) ∈ exactRows input db ↔ g ∈ db.grants ∧ s ∈ db.sites ∧ Asked input g s := by
  simp only [exactRows,List.mem_flatMap,List.mem_map,List.mem_filter,Prod.mk.injEq]
  constructor
  · rintro ⟨g,hg,s,⟨hs,row⟩,rfl,rfl⟩
    exact ⟨hg,hs,(exactRowAsked (inv.scopes g hg)).mp row⟩
  · rintro ⟨hg,hs,asked⟩
    exact ⟨g,hg,s,⟨hs,(exactRowAsked (inv.scopes g hg)).mpr asked⟩,rfl,rfl⟩

theorem exactRowsNodup (wf : WellFormed db) : (exactRows input db).Nodup := by
  have grants := indexedNodup wf.grantIndex fun g => by simp [grantClash]
  have sites := indexedNodup wf.siteIndex fun s => by simp [siteClash]
  refine List.nodup_flatMap.mpr ⟨fun g _ => (sites.filter _).map fun a b same => (Prod.mk.inj same).2,?_⟩
  refine grants.imp fun {a b} apart => List.disjoint_left.mpr fun p left right => ?_
  obtain ⟨_,_,rfl⟩ := List.mem_map.mp left
  obtain ⟨_,_,same⟩ := List.mem_map.mp right
  exact apart (Prod.mk.inj same).1.symm

theorem exactRowsOne (inv : Standing db) : exactRows input db = [] ∨ ∃ g s, exactRows input db = [(g,s)] := by
  match rows : exactRows input db with
  | [] => exact .inl rfl
  | [(g,s)] => exact .inr ⟨g,s,rfl⟩
  | (g,s) :: (o,t) :: rest =>
    have first : (g,s) ∈ exactRows input db := by simp [rows]
    have second : (o,t) ∈ exactRows input db := by simp [rows]
    obtain ⟨hg,hs,asked⟩ := (memExactRows inv).mp first
    obtain ⟨ho,ht,again⟩ := (memExactRows inv).mp second
    obtain ⟨rfl,rfl⟩ := askedOnce inv.wellFormed hg hs asked ho ht again
    have twice := @exactRowsNodup _ input inv.wellFormed
    simp [rows] at twice

def boundTo (g : Grant) (s : Site) : AuthorizationGrantBinding :=
  ⟨g.tenantId,g.siteId,g.id,g.subjectId,g.clientId,s.resourceUri,g.scopes⟩

theorem requestedEmpty (none_ : inScopeOrder (distinct input.scopes) = []) (canonical : scopeSet g.scopes = true) :
    ¬Asked input g s := by
  intro asked
  have same := (requestedExact canonical input.scopes).mpr asked.scopes
  rw [none_,scopeTexts,List.map_eq_nil_iff] at same
  rw [same] at canonical
  exact absurd canonical (by decide)

theorem resolveExactFinds (inv : Standing db) (input : ExactBinding) : ∃ found, resolveExact input db = .ok found ∧
    ∀ binding, found = some binding ↔ ∃ g ∈ db.grants, ∃ s ∈ db.sites, Asked input g s ∧ binding = boundTo g s := by
  unfold resolveExact
  simp only
  by_cases empty : (inScopeOrder (distinct input.scopes)).isEmpty = true
  · rw [if_pos empty]
    refine ⟨none,rfl,fun binding => ⟨fun bad => by simp at bad,?_⟩⟩
    rintro ⟨g,hg,s,_,asked,_⟩
    exact absurd asked (requestedEmpty (by simpa using empty) (inv.scopes g hg))
  rw [if_neg empty]
  rcases @exactRowsOne _ input inv with rows | ⟨g,s,rows⟩
  · have query := rows
    unfold exactRows at query
    rw [query]
    refine ⟨none,rfl,fun binding => ⟨fun bad => by simp at bad,?_⟩⟩
    rintro ⟨g,hg,s,hs,asked,_⟩
    have listed := (memExactRows inv).mpr ⟨hg,hs,asked⟩
    rw [rows] at listed
    exact absurd listed List.not_mem_nil
  · have query := rows
    unfold exactRows at query
    rw [query]
    have listed : (g,s) ∈ exactRows input db := by simp [rows]
    obtain ⟨hg,hs,asked⟩ := (memExactRows inv).mp listed
    refine ⟨some (boundTo g s),?_,fun binding => ⟨fun same => ?_,?_⟩⟩
    · simp only [List.take,inv.scopes g hg,if_true]
      rfl
    · exact ⟨g,hg,s,hs,asked,(Option.some.inj same).symm⟩
    · rintro ⟨o,ho,t,ht,again,rfl⟩
      obtain ⟨rfl,rfl⟩ := askedOnce inv.wellFormed hg hs asked ho ht again
      rfl

structure OneEach (db : Db) : Prop where
  atActiveSite : ∀ g ∈ db.grants, g.status = .active →
    db.hasSite g.tenantId g.siteId = true ∧
    ∀ s ∈ db.sites, s.tenantId = g.tenantId → s.id = g.siteId → s.status = .active
  liveGrant : ∀ tenant site subject client, db.grants.countP (fun g =>
    g.live && g.tenantId == tenant && g.siteId == site && g.subjectId == subject && g.clientId == client) ≤ 1
  liveSite : ∀ resource, db.sites.countP (fun s => siteLive s && s.resourceUri == resource) ≤ 1

theorem standingOne (inv : Standing db) : OneEach db where
  atActiveSite g hg active :=
    ⟨inv.wellFormed.grantSite g hg,inv.active g hg (by simp [Grant.live,active])⟩
  liveGrant tenant site subject client := by
    refine indexedCount inv.wellFormed.grantIndex fun a _ b _ left right => ?_
    simp only [Bool.and_eq_true,beq_iff_eq] at left right
    obtain ⟨⟨⟨⟨la,rfl⟩,rfl⟩,rfl⟩,rfl⟩ := left
    obtain ⟨⟨⟨⟨lb,t⟩,s⟩,u⟩,c⟩ := right
    simp [grantClash,la,lb,t,s,u,c]
  liveSite resource := by
    refine indexedCount inv.wellFormed.siteIndex fun a _ b _ left right => ?_
    simp only [Bool.and_eq_true,beq_iff_eq] at left right
    simp [siteClash,left.1,right.1,left.2,right.2]

/- No reachable state makes the resolver ambiguous, and it finds exactly what is granted. -/
theorem exactGrantFound (node : Node) (es : List Event)
    (served : Guarded (step node) (fun _ e => begunByService node e) Db.empty es) :
    let db := run (step node) Db.empty es
    OneEach db ∧ ∀ input, ∃ found, resolveExact input db = .ok found ∧
      ∀ binding, found = some binding ↔ ∃ g ∈ db.grants, ∃ s ∈ db.sites, Asked input g s ∧ binding = boundTo g s :=
  ⟨standingOne (reachableStanding node es served),resolveExactFinds (reachableStanding node es served)⟩

def servedRecord : NewPendingGrant :=
  pendingRecord consentNode (sampleBegin "grant_0001" firstKeyDigest) sampleResource
    (sampleService.challengeFactory (immutableInput (sampleBegin "grant_0001" firstKeyDigest) sampleResource)) (seconds 10)

def servedHistory : List Event := pairedHistory ++
  [⟨seconds 10,.createPending sampleContext servedRecord⟩,
    ⟨seconds 20,.activate sampleContext sampleTenant "grant_0001" "complete_00000000000001" "proof_0001"⟩]

theorem servedByService : Guarded (step consentNode) (fun _ e => begunByService consentNode e) Db.empty servedHistory := by
  have parsed : parseBegin sampleService consentNode (sampleBegin "grant_0001" firstKeyDigest) = .ok (sampleResource,
      sampleService.challengeFactory (immutableInput (sampleBegin "grant_0001" firstKeyDigest) sampleResource)) := by
    have scopes : scopeSet (sampleBegin "grant_0001" firstKeyDigest).scopes = true := by decide
    have resource : canonicalizeResource consentNode sampleResource = .ok sampleResource := by decide
    have ids : identifiersParse (sampleBegin "grant_0001" firstKeyDigest) = true := by decide
    exact parseBeginExact.mpr ⟨scopes,resource,rfl,controlChallengeShape consentNode grantIdempotencyKey _,ids⟩
  exact ⟨trivial,trivial,trivial,trivial,trivial,⟨sampleService,sampleBegin "grant_0001" firstKeyDigest,sampleResource,
    _,seconds 10,parsed,rfl⟩,trivial,trivial⟩

def sampleExact : ExactBinding := ⟨sampleAccount,"client_0001",sampleResource,["mcp:read","mcp:read"]⟩

theorem settleOpens {outcome : Grant → Grant} {context : TenantContext} {tenant : TenantId} {grantId : GrantId}
    {key : String} {digest : Digest} {now : Time} {db : Db}
    (absent : completionRecord context tenant key db = none)
    (one : db.grants.countP (pendingTarget context tenant grantId now db) = 1)
    (access : idempotencyTenantAccess context db ⟨tenant,.grantComplete,key,digest,grantId⟩ = true)
    (checked : IdempotencyRecord.check ⟨tenant,.grantComplete,key,digest,grantId⟩ = true)
    (unused : ∀ r ∈ db.idempotencyRecords, idempotencyClash ⟨tenant,.grantComplete,key,digest,grantId⟩ r = false)
    (known : db.hasTenant tenant = true) :
    settleConsent outcome context tenant grantId key digest now db = .ok { db with
      grants := updateWhere (pendingTarget context tenant grantId now db) outcome db.grants
      idempotencyRecords := db.idempotencyRecords ++ [⟨tenant,.grantComplete,key,digest,grantId⟩] } := by
  have records := insertRowExact.mpr ⟨unused,rfl⟩
  unfold settleConsent
  simp only [absent,insertIdempotency,bindOk,ensureOk,orFailOk]
  exact ⟨(),beq_iff_eq.mpr one,(),access,(),checked,_,records,(),known,rfl⟩

def pairedDb : Db := run (step consentNode) Db.empty pairedHistory

def requestedDb : Db := { pairedDb with
  grants := [pendingGrant servedRecord]
  idempotencyRecords := pairedDb.idempotencyRecords ++ [creationRecord servedRecord] }

theorem pairedRows : sampleSiteRow ∈ pairedDb.sites ∧ pairedDb.grants = [] ∧ pairedDb.hasTenant sampleTenant = true ∧
    hasActiveMembership pairedDb sampleTenant sampleAccount = true ∧
    ∀ r ∈ pairedDb.idempotencyRecords, r.operation ≠ .grantCreate ∧ r.operation ≠ .grantComplete := by
  decide

theorem servedCall : FirstCall sampleService consentNode sampleContext (sampleBegin "grant_0001" firstKeyDigest)
    pairedDb := by
  obtain ⟨site,grants,_,membership,records⟩ := pairedRows
  exact {
    tenant := rfl
    membership := membership
    subject := .inl rfl
    site := ⟨sampleSiteRow,site,rfl,rfl,rfl,rfl⟩
    scopes := by decide
    identifiers := by decide
    challenge := controlChallengeShape consentNode grantIdempotencyKey
    signs := fun _ => rfl
    newKey := fun r mem _ op => absurd op (records r mem).1
    newId := by simp [grants] }

theorem servedCreated : step consentNode pairedDb ⟨seconds 10,.createPending sampleContext servedRecord⟩ =
    requestedDb := by
  obtain ⟨site,grants,known,_⟩ := pairedRows
  have admitted : Admitted sampleContext servedRecord pairedDb := firstCallAdmitted servedCall site rfl rfl rfl _
  have recorded : idempotencyTenantAccess sampleContext pairedDb (creationRecord servedRecord) = true ∧
      (creationRecord servedRecord).check = true ∧
      ∀ r ∈ pairedDb.idempotencyRecords, idempotencyClash (creationRecord servedRecord) r = false :=
    firstCallRecord servedCall sampleResource _
  obtain ⟨access,checked,unused⟩ := recorded
  have created := createPendingOpens admitted (by simp [grants]) known access checked unused
  simp only [step,exec]
  rw [created,grants]
  rfl

def servedCompletion : IdempotencyRecord := ⟨sampleTenant,.grantComplete,"complete_00000000000001",
  completionDigest consentNode "grant_0001" "proof_0001","grant_0001"⟩

theorem requestedOnly {r : IdempotencyRecord} (mem : r ∈ requestedDb.idempotencyRecords) :
    r.operation ≠ .grantComplete := by
  obtain ⟨_,_,_,_,records⟩ := pairedRows
  rcases List.mem_append.mp mem with old | new
  · exact (records r old).2
  · rw [List.mem_singleton.mp new]
    simp [creationRecord]

theorem requestedTarget : pendingTarget sampleContext sampleTenant "grant_0001" (seconds 20) requestedDb
    (pendingGrant servedRecord) = true := by
  simp only [pendingTarget,grantTenantAccess,Bool.and_eq_true,Bool.or_eq_true,beq_iff_eq,decide_eq_true_eq]
  exact ⟨⟨⟨⟨rfl,rfl⟩,rfl⟩,by decide⟩,rfl,.inl rfl⟩

theorem servedApproved : step consentNode requestedDb
      ⟨seconds 20,.activate sampleContext sampleTenant "grant_0001" "complete_00000000000001" "proof_0001"⟩ =
    { requestedDb with
      grants := [{ pendingGrant servedRecord with status := .active }]
      idempotencyRecords := requestedDb.idempotencyRecords ++ [servedCompletion] } := by
  obtain ⟨_,_,known,membership,_⟩ := pairedRows
  have absent : completionRecord sampleContext sampleTenant "complete_00000000000001" requestedDb = none := by
    refine List.find?_eq_none.mpr fun r mem hit => requestedOnly mem ?_
    simp only [Bool.and_eq_true,beq_iff_eq] at hit
    exact hit.1.1.2
  have access : idempotencyTenantAccess sampleContext requestedDb servedCompletion = true := by
    simp only [idempotencyTenantAccess,Bool.and_eq_true,beq_iff_eq]
    exact ⟨rfl,membership⟩
  have checked : servedCompletion.check = true := by
    have shapes : idempotencyKeyShape "complete_00000000000001" = true ∧ opaqueId "grant_0001" = true := by decide
    simp [IdempotencyRecord.check,servedCompletion,shapes,completionDigest,consentNode.sha256Length]
  have unused : ∀ r ∈ requestedDb.idempotencyRecords, idempotencyClash servedCompletion r = false := by
    intro r mem
    by_contra hit
    simp only [idempotencyClash,Bool.not_eq_false,Bool.and_eq_true,beq_iff_eq] at hit
    exact requestedOnly mem hit.1.2.symm
  have grants : requestedDb.grants = [pendingGrant servedRecord] := rfl
  have one : requestedDb.grants.countP
      (pendingTarget sampleContext sampleTenant "grant_0001" (seconds 20) requestedDb) = 1 := by
    simp [grants,requestedTarget]
  have granted : updateWhere (pendingTarget sampleContext sampleTenant "grant_0001" (seconds 20) requestedDb)
      approvedGrant requestedDb.grants = [{ pendingGrant servedRecord with status := .active }] := by
    simp [updateWhere,grants,requestedTarget,approvedGrant]
  have approved : settleConsent approvedGrant sampleContext sampleTenant "grant_0001" "complete_00000000000001" _
      (seconds 20) requestedDb = .ok _ := settleOpens absent one access checked unused known
  simp only [step,exec,activate]
  rw [approved,granted]
  rfl

theorem servedRows :
    { pendingGrant servedRecord with status := .active } ∈ (run (step consentNode) Db.empty servedHistory).grants ∧
    sampleSiteRow ∈ (run (step consentNode) Db.empty servedHistory).sites := by
  unfold servedHistory
  rw [runAppend,runCons,runCons,runNil]
  change _ ∈ (step consentNode (step consentNode pairedDb _) _).grants ∧ _
  rw [show run (step consentNode) Db.empty pairedHistory = pairedDb from rfl,servedCreated,servedApproved]
  exact ⟨List.mem_singleton_self _,pairedRows.1⟩

theorem servedGrantFound : ∃ found, resolveExact sampleExact (run (step consentNode) Db.empty servedHistory) = .ok found ∧
    found = some (boundTo { pendingGrant servedRecord with status := .active } sampleSiteRow) := by
  obtain ⟨_,finds⟩ := exactGrantFound consentNode servedHistory servedByService
  obtain ⟨found,ok,exactly⟩ := finds sampleExact
  refine ⟨found,ok,(exactly _).mpr ⟨_,servedRows.1,sampleSiteRow,servedRows.2,?_,rfl⟩⟩
  exact ⟨rfl,rfl,rfl,rfl,rfl,fun scope => by simp [sampleExact,servedRecord,pendingGrant,pendingRecord,sampleBegin,
    scopeTexts,McpScope.text],rfl,rfl⟩

end Finding

end Wepuu.LiveSites
