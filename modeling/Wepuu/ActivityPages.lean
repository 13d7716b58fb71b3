import Wepuu.ControlReads
import Wepuu.Paging

/-! The activity pages of the console. A reader follows the Next links while the services go on
to record events; each page is loaded from the database of its moment. -/
namespace Wepuu.ActivityPages
open ControlReads Grants NodeApi Paging Relational RowSecurity Schema Tenancy

section Pages
variable (collation : Collation) (context : TenantContext) (state : ControlState)

structure MembershipView where
  tenantId : TenantId
  role : MembershipRole
  isHome : Bool
  deriving DecidableEq, Repr

def currentMembership : Option MembershipView :=
  (state.db.memberships.find? fun m => m.accountId == context.accountId && m.status == .active &&
    (state.db.tenants.any fun t => t.id == m.tenantId && t.status == .active) && m.tenantId == context.tenantId).map fun m =>
      ⟨m.tenantId,m.role,state.db.homeTenants.any fun h => h.accountId == m.accountId && h.tenantId == m.tenantId⟩

def pageSize : Nat := 20

structure ActivityModel where
  membership : MembershipView
  sites : List SiteView
  grants : List GrantView
  events : List SecurityEventView
  page : Nat
  outcome : Option SecurityOutcome
  hasNext : Bool
  deriving DecidableEq, Repr

/- One event more than a page shows is read, to know whether there is another page. -/
def tenantPageModel (page : Nat) (outcome : Option SecurityOutcome) : Except Fault ActivityModel := do
  let membership ← orFail (.thrown "not_found") (currentMembership context state)
  ensure (findTenant context state).isSome (.thrown "not_found")
  let grants ← listGrants collation context state
  let rows := listSecurityEvents context state (pageSize + 1 : Nat) ((page - 1) * pageSize : Nat) outcome
  .ok ⟨membership,listSites collation context state,grants,rows.take pageSize,page,outcome,decide (pageSize < rows.length)⟩

def activityQuery (page : Option Int) : Except Fault Nat :=
  match page with
  | none => .ok 1
  | some n => if 1 ≤ n ∧ n ≤ 500 then .ok n.toNat else .error (.thrown "invalid_request")

def activityPage (page : Option Int) (outcome : Option SecurityOutcome) : Except Fault ActivityModel := do
  let page ← activityQuery page
  tenantPageModel collation context state page outcome

def nextLink (model : ActivityModel) : Option Int := if model.hasNext then some (model.page + 1) else none

/- A walk along the Next links: the pages it has loaded, the last one first. Between two of
them events of the tenant are only added. -/
inductive Walk (outcome : Option SecurityOutcome) (start : ControlState) : List ActivityModel → ControlState → Prop
  | opened {first : ActivityModel} (loaded : activityPage collation context start none outcome = .ok first) :
      Walk outcome start [first] start
  | followed {last : ActivityModel} {earlier : List ActivityModel} {before now : ControlState} {page : Int}
      {model : ActivityModel} (walked : Walk outcome start (last :: earlier) before) (link : nextLink last = some page)
      (added : ∀ e ∈ before.db.securityEvents, e.tenantId = context.tenantId → e ∈ now.db.securityEvents)
      (loaded : activityPage collation context now (some page) outcome = .ok model) :
      Walk outcome start (model :: last :: earlier) now

end Pages

section Rows
variable {collation : Collation} {context : TenantContext} {state later : ControlState} {outcome : Option SecurityOutcome}

def matching (context : TenantContext) (outcome : Option SecurityOutcome) (state : ControlState) : List SecurityEventRow :=
  (state.db.securityEvents.filter fun e => outcome.all (e.outcome == ·) && e.tenantId == context.tenantId).insertionSort eventOrder

theorem matchingGrows (added : ∀ e ∈ state.db.securityEvents, e.tenantId = context.tenantId → e ∈ later.db.securityEvents) :
    (matching context outcome state).Sublist (matching context outcome later) := by
  refine orderedSublist ((List.Nodup.of_map _ state.keys.securityEvents).filter _) (fun e mem => ?_) fun a left b right ab ba => ?_
  · obtain ⟨stored,own⟩ := List.mem_filter.mp mem
    exact List.mem_filter.mpr ⟨added e stored (beq_iff_eq.mp (Bool.and_eq_true_iff.mp own).2),own⟩
  · obtain ⟨first,second⟩ := thenByBoth ab ba
    exact keyOnce later.keys.securityEvents (List.mem_filter.mp left).1 (List.mem_filter.mp right).1 (Nat.le_antisymm second first)

theorem membersMatching (member : hasActiveMembership state.db context.tenantId context.accountId = true) (limit offset : Int) :
    listSecurityEvents context state limit offset outcome =
      (((matching context outcome state).drop (safeOffset offset)).take (safeLimit limit)).map securityEventView := by
  have seen : ∀ e : SecurityEventRow, securityEventAccess context state.db e = (e.tenantId == context.tenantId) := by
    intro e
    rw [securityEventAccess]
    by_cases own : e.tenantId = context.tenantId
    · rw [own,member,Bool.and_true]
    · rw [beq_eq_false_iff_ne.mpr own,Bool.false_and]
  unfold listSecurityEvents matching
  simp only [seen]

theorem foundMember (found : (findTenant context state).isSome = true) :
    hasActiveMembership state.db context.tenantId context.accountId = true := by
  obtain ⟨view,some_⟩ := Option.isSome_iff_exists.mp found
  obtain ⟨row,hit,_⟩ := Option.map_eq_some_iff.mp some_
  have chosen := List.find?_some hit
  simp only [tenantAccess,Bool.and_eq_true,beq_iff_eq] at chosen
  rw [← chosen.1]
  exact chosen.2.2

/- Up to page 500 neither bound of SecurityEventRepository.list cuts anything off. -/
theorem loadedPage {page : Option Int} {model : ActivityModel} (loaded : activityPage collation context state page outcome = .ok model) :
    ∃ n, activityQuery page = .ok (n + 1) ∧ n < 500 ∧ model.page = n + 1 ∧ model.outcome = outcome ∧
      model.events = (shown pageSize n (matching context outcome state)).map securityEventView ∧
      (model.hasNext = false → (matching context outcome state).length ≤ (n + 1) * pageSize) ∧
      (model.hasNext = true → (n + 1) * pageSize < (matching context outcome state).length) := by
  simp only [activityPage,tenantPageModel,bindOk,orFailOk,ensureOk] at loaded
  obtain ⟨number,asked,_,_,_,found,grants,_,last⟩ := loaded
  cases last
  have within : 1 ≤ number ∧ number ≤ 500 := by
    unfold activityQuery at asked
    split at asked
    · cases asked
      decide
    · split at asked
      · cases asked
        omega
      · cases asked
  obtain ⟨n,rfl⟩ : ∃ n, number = n + 1 := ⟨number - 1,by omega⟩
  have offset : safeOffset ((n + 1 - 1) * pageSize : Nat) = n * pageSize := by
    unfold safeOffset pageSize
    omega
  have limit : safeLimit (pageSize + 1 : Nat) = pageSize + 1 := by decide
  have rows : listSecurityEvents context state (pageSize + 1 : Nat) ((n + 1 - 1) * pageSize : Nat) outcome =
      (((matching context outcome state).drop (n * pageSize)).take (pageSize + 1)).map securityEventView := by
    rw [membersMatching (foundMember found),offset,limit]
  have length := congrArg List.length rows
  rw [List.length_map,List.length_take,List.length_drop] at length
  refine ⟨n,asked,by omega,rfl,rfl,?_,fun done => ?_,fun more => ?_⟩
  · rw [rows,← List.map_take,List.take_take]
    rfl
  · have full := of_decide_eq_false done
    rw [length] at full
    unfold pageSize at full ⊢
    omega
  · have full := of_decide_eq_true more
    rw [length] at full
    unfold pageSize at full ⊢
    omega

end Rows

section Walks
variable {collation : Collation} {context : TenantContext} {outcome : Option SecurityOutcome} {start state : ControlState}

theorem walkCovers {pages : List ActivityModel} (walked : Walk collation context outcome start pages state) :
    ∃ n last earlier, pages = last :: earlier ∧ last.page = n + 1 ∧
      (last.hasNext = false → (matching context outcome state).length ≤ (n + 1) * pageSize) ∧
      (last.hasNext = true → (n + 1) * pageSize < (matching context outcome state).length) ∧
      ∀ e ∈ matching context outcome start,
        (∃ model ∈ pages, securityEventView e ∈ model.events) ∨ e ∈ ahead pageSize (n + 1) (matching context outcome state) := by
  induction walked with
  | opened loaded =>
    obtain ⟨n,asked,_,page,_,events,done,more⟩ := loadedPage loaded
    cases asked
    refine ⟨0,_,[],rfl,page,done,more,fun e mem => ?_⟩
    have all : e ∈ ahead pageSize 0 (matching context outcome start) := by
      rw [ahead,Nat.zero_mul,List.drop_zero]
      exact mem
    rcases shownOrAhead (List.Sublist.refl _) all with visible | later
    · exact .inl ⟨_,List.mem_singleton_self _,events ▸ List.mem_map_of_mem visible⟩
    · exact .inr later
  | followed walked link added loaded ih =>
    obtain ⟨n,last,earlier,same,page,_,_,covers⟩ := ih
    cases same
    obtain ⟨m,asked,_,number,_,events,done,more⟩ := loadedPage loaded
    have next : m = n + 1 := by
      unfold nextLink at link
      split at link <;> cases link
      simp only [activityQuery] at asked
      split at asked <;> cases asked
      omega
    subst next
    refine ⟨n + 1,_,_,rfl,number,done,more,fun e mem => ?_⟩
    rcases covers e mem with ⟨model,earlierPage,visible⟩ | waiting
    · exact .inl ⟨model,List.mem_cons_of_mem _ earlierPage,visible⟩
    · rcases shownOrAhead (matchingGrows added) waiting with visible | later
      · exact .inl ⟨_,List.mem_cons_self,events ▸ List.mem_map_of_mem visible⟩
      · exact .inr later

/- A walk that has come to a page without a Next link has shown every event there was at its
start, and up to ten thousand events its Next links are answered. -/
theorem walkShowsAll (collation : Collation) (context : TenantContext) (outcome : Option SecurityOutcome)
    (start state : ControlState) (last : ActivityModel) (earlier : List ActivityModel)
    (walked : Walk collation context outcome start (last :: earlier) state) :
    (last.hasNext = false → ∀ e ∈ start.db.securityEvents, e.tenantId = context.tenantId → outcome.all (e.outcome == ·) = true →
      ∃ model ∈ last :: earlier, securityEventView e ∈ model.events) ∧
    (last.hasNext = true → (matching context outcome state).length ≤ 10000 →
      ∃ page, nextLink last = some page ∧ activityQuery (some page) = .ok (last.page + 1)) := by
  obtain ⟨n,_,_,same,page,done,more,covers⟩ := walkCovers walked
  cases same
  constructor
  · intro ended e stored own passes
    have mem : e ∈ matching context outcome start := by
      refine (List.mem_insertionSort _).mpr (List.mem_filter.mpr ⟨stored,?_⟩)
      rw [passes,own,beq_self_eq_true,Bool.and_true]
    refine (covers e mem).resolve_right ?_
    rw [nothingAhead (done ended)]
    exact List.not_mem_nil
  · intro ended few
    have before := more ended
    unfold pageSize at before
    refine ⟨last.page + 1,if_pos ended,?_⟩
    rw [page,activityQuery]
    have within : (1 : Int) ≤ ((n + 1 : Nat) : Int) + 1 ∧ ((n + 1 : Nat) : Int) + 1 ≤ 500 := by omega
    rw [if_pos within]
    exact congrArg Except.ok (by omega)

end Walks

def recorded (id : Nat) : SecurityEventRow :=
  ⟨id,System.sampleTenant,seconds (100 + id),.tokenIssued,.success,.noReason,"correlation_0001",.authorizationService⟩

def recordedState (events : Nat) (keys : ((List.range events).map fun id => (recorded id).id).Nodup) : ControlState where
  db := { approvedDb with securityEvents := (List.range events).map recorded }
  stamps := sampleStamps
  keys := { aloneState.keys with securityEvents := (congrArg List.Nodup List.map_map).mpr keys }

def before : ControlState := recordedState 21 (by decide)
def after : ControlState := recordedState 22 (by decide)

def firstPage : ActivityModel where
  membership := ⟨System.sampleTenant,.owner,true⟩
  sites := [siteView (System.sampleSiteRow,seconds 5)]
  grants := [grantView System.approvedSample]
  events := (List.range 20).map fun i => securityEventView (recorded (20 - i))
  page := 1
  outcome := none
  hasNext := true

def secondPage : ActivityModel :=
  { firstPage with events := [securityEventView (recorded 1),securityEventView (recorded 0)], page := 2, hasNext := false }

theorem walkedTwice : Walk textOrder System.sampleContext none before [secondPage,firstPage] after :=
  .followed (.opened (by decide)) rfl (by decide) (by decide)

theorem oldestShown :
    (∃ model ∈ [secondPage,firstPage], securityEventView (recorded 0) ∈ model.events) ∧
    securityEventView (recorded 1) ∈ firstPage.events ∧ securityEventView (recorded 1) ∈ secondPage.events :=
  ⟨(walkShowsAll textOrder System.sampleContext none before after secondPage [firstPage] walkedTwice).1 rfl (recorded 0)
    (by decide) rfl rfl,by decide,by decide⟩

end Wepuu.ActivityPages
