import Wepuu.RevocationCoverage
import Wepuu.DeletionClosure

/-! oauth.rotate_refresh_family on one family, between any operations of the system that do
not rotate this family or create it again. The function never reads platform.grants. -/
namespace Wepuu.RefreshRotation
open Deletion DeletionClosure DeletionCompletes Families Footprint Frames Grants NodeApi Outbox Relational RevocationCoverage Runs Schema
open Statements Wepuu.System

def familyAt (target : FamilyId) (db : Db) : Option RefreshFamily :=
  db.refreshFamilies.find? fun f => f.familyId == target

inductive Move where
  | call (expectedGeneration : Int) (observedAt now : Time)
  | other (event : Event)

def turn (node : Node) (target : FamilyId) (db : Db) : Move → Db
  | .call expectedGeneration observedAt now =>
    settle db (rotateRefreshFamily target expectedGeneration observedAt now db)
  | .other event => step node db event

def answer (target : FamilyId) (db : Db) : Move → Option RefreshRotationResult
  | .call expectedGeneration observedAt now => match rotateRefreshFamily target expectedGeneration observedAt now db with
    | .ok (_,result) => some result
    | .error _ => none
  | .other _ => none

def expected : Move → Int
  | .call expectedGeneration _ _ => expectedGeneration
  | .other _ => 0

theorem repositoryCalls {node : Node} {familyId : String} {target : FamilyId} {db : Db} {g : Int} {at_ now : Time}
    (read : uuidIn familyId = some target) (natural : 0 ≤ g) (fits : g ≤ int4Max) :
    step node db ⟨now,.rotate familyId g at_⟩ = turn node target db (.call g at_ now) := by
  simp only [step,exec,rotateRuns read natural fits,turn]
  cases rotateRefreshFamily target g at_ now db <;> rfl

def Apart (target : FamilyId) : Move → Prop
  | .call _ _ _ => True
  | .other event => match event.op with
    | .createFamily input => uuidIn input.familyId ≠ some target
    | .rotate family _ _ => uuidIn family ≠ some target
    | _ => True

def grantRevoked (family : RefreshFamily) (db : Db) : Bool :=
  db.grants.any fun g => g.tenantId == family.tenantId && g.id == family.grantId && g.status == .revoked

def advanced (at_ : Time) (f : RefreshFamily) : RefreshFamily :=
  { f with currentGeneration := f.currentGeneration + 1, lastUsedAt := at_ }
def replayed (at_ : Time) (f : RefreshFamily) : RefreshFamily :=
  { f with status := .revoked, revokedAt := some at_, revocationReason := some "refresh_replay" }

inductive Turned (target : FamilyId) (g : Int) (at_ now : Time) (db : Db) : Db → Option RefreshRotationResult → Prop
  | denied (stale : ∀ f, familyAt target db = some f → usable at_ f = false ∨ f.currentGeneration < g) :
      Turned target g at_ now db db (some .denied)
  | stuck {f : RefreshFamily} (found : familyAt target db = some f) (live : usable at_ f = true)
      (older : g < f.currentGeneration) (missing : db.siteAt f.tenantId f.siteId = none) :
      Turned target g at_ now db db none
  | rotated {f : RefreshFamily} (found : familyAt target db = some f) (live : usable at_ f = true)
      (current : f.currentGeneration = g) :
      Turned target g at_ now db
        { db with refreshFamilies := updateWhere (fun f => f.familyId == target) (advanced at_) db.refreshFamilies }
        (some .rotated)
  | replay {f : RefreshFamily} {site : Site} {next : Db} (found : familyAt target db = some f)
      (live : usable at_ f = true) (older : g < f.currentGeneration)
      (known : db.siteAt f.tenantId f.siteId = some site)
      (emitted : insertEvent .raise (replayEvent f site) now (replayRevoked f target at_ db) = .ok next) :
      Turned target g at_ now db next (some .replay)

section Calls
variable {node : Node} {target : FamilyId} {g : Int} {at_ now : Time} {db : Db}

theorem turnCalled : turn node target db (.call g at_ now) = settle db (rotateRefreshFamily target g at_ now db) := rfl

theorem turned (wf : WellFormed db) : Turned target g at_ now db
    (settle db (rotateRefreshFamily target g at_ now db)) (answer target db (.call g at_ now)) := by
  simp only [answer]
  cases found : familyAt target db with
  | none =>
    have denied : rotateRefreshFamily target g at_ now db = .ok (db,.denied) := by
      unfold rotateRefreshFamily
      rw [show (db.refreshFamilies.find? fun f => f.familyId == target) = none from found]
    rw [denied]
    exact .denied fun f some_ => by rw [found] at some_; cases some_
  | some f =>
    have here : (db.refreshFamilies.find? fun f => f.familyId == target) = some f := found
    by_cases live : usable at_ f = true
    · by_cases current : f.currentGeneration = g
      · unfold rotateRefreshFamily
        rw [here]
        simp only [live,if_true,if_pos current]
        exact .rotated found live current
      · by_cases older : g < f.currentGeneration
        · cases known : db.siteAt f.tenantId f.siteId with
          | none =>
            unfold rotateRefreshFamily
            rw [here]
            simp only [live,if_true,if_neg current,if_pos older,known]
            exact .stuck found live older known
          | some site =>
            have tenant : db.hasTenant f.tenantId = true := by
              obtain ⟨mem,same,-⟩ := siteAtSome known
              rw [← same]
              exact wf.siteTenant site mem
            have numbered : Numbered (replayRevoked f target at_ db) := wf.numbered
            obtain ⟨next,emitted⟩ : ∃ next, insertEvent .raise (replayEvent f site) now
              (replayRevoked f target at_ db) = .ok next := ⟨_,insertEventOk numbered tenant⟩
            have ran : rotateRefreshFamily target g at_ now db = .ok (next,.replay) := by
              unfold rotateRefreshFamily
              rw [here]
              simp only [live,if_true,if_neg current,if_pos older,known,orFail,bind,Except.bind]
              rw [show (⟨f.tenantId,f.siteId,site.resourceUri,.grant,some f.grantId,none,"refresh_replay"⟩ :
                NewEvent) = replayEvent f site from rfl,emitted]
            rw [ran]
            exact .replay found live older known emitted
        · unfold rotateRefreshFamily
          rw [here]
          simp only [live,if_true,if_neg current,if_neg older]
          exact .denied fun o some_ => by
            rw [found] at some_
            cases some_
            exact .inr (by omega)
    · unfold rotateRefreshFamily
      rw [here]
      simp only [if_neg live]
      exact .denied fun o some_ => by
        rw [found] at some_
        cases some_
        exact .inl (by simpa using live)

end Calls

def FamilyIndex (db : Db) : Prop := Indexed familyClash db.refreshFamilies

theorem familyClashSymm (a b : RefreshFamily) : familyClash a b = familyClash b a := by
  simp only [familyClash,Bool.beq_comm (a := a.familyId)]

section Others
variable {node : Node} {target : FamilyId} {db next : Db} {e : Event}

theorem indexKept {rows : List RefreshFamily} {p : RefreshFamily → Bool} {change : RefreshFamily → RefreshFamily}
    (keeps : ∀ f, (change f).familyId = f.familyId) (index : Indexed familyClash rows) :
    Indexed familyClash (updateWhere p change rows) := by
  refine indexedUpdate index fun a b clash => ?_
  have idOf : ∀ f : RefreshFamily, (if p f then change f else f).familyId = f.familyId := by
    intro f
    split
    · exact keeps f
    · rfl
  rw [familyClash,idOf a,idOf b] at clash
  exact clash

theorem statementIndex {rows after : List RefreshFamily} (statement : FamilyStatement rows after)
    (index : Indexed familyClash rows) : Indexed familyClash after := by
  cases statement with
  | none => exact index
  | update moves => exact indexKept (fun f => (moves f).familyId) index
  | delete => exact indexedDelete index

theorem stepIndex (wf : WellFormed db) (index : FamilyIndex db) : FamilyIndex (step node db e) := by
  by_cases touched : Table.refreshFamilies ∈ touches e.op
  · rcases settleCases db (exec node e db) with same | ⟨next,reply,ok,done⟩
    · rw [step,same]
      exact index
    rw [step,done]
    obtain ⟨now,op⟩ := e
    cases op <;> try (simp [touches] at touched; done)
    case createFamily input =>
      have made := silentOk ok
      simp only [Families.create,bindOk,ensureOk,orFailOk] at made
      obtain ⟨_,_,familyId,read,families,inserted,_,_,last⟩ := made
      cases last
      obtain ⟨free,rfl⟩ := insertRowExact.mp inserted
      exact indexedAppend index familyClashSymm free
    case rotate family g at_ =>
      obtain ⟨_,made,_⟩ := answeredOk ok
      unfold FamilyIndex
      rcases rotateRows made with same | ⟨_,_,change,keeps,same⟩
      · rw [same]
        exact index
      · rw [same]
        exact indexKept (fun f => (keeps f).1) index
    case advanceDeletionJob jobId at_ =>
      cases ok
      exact statementIndex (effectStatement (advanceEffect jobId at_ now wf)) index
  · have same : (step node db e).refreshFamilies = db.refreshFamilies := stepOnly .refreshFamilies touched
    rw [FamilyIndex,same]
    exact index

structure Kept (db : Db) : Prop where
  wellFormed : WellFormed db
  index : FamilyIndex db

theorem keptStep (kept : Kept db) : Kept (step node db e) :=
  ⟨stepWellFormed kept.wellFormed,stepIndex kept.wellFormed kept.index⟩

theorem reachableKept (node : Node) (es : List Event) : Kept (run (step node) Db.empty es) :=
  invariantAlways (fun _ _ kept => keptStep kept) ⟨wellFormedEmpty,indexedNil _⟩ es

theorem otherCarried (wf : WellFormed db) (apart : Apart target (.other e)) :
    ∀ f ∈ (step node db e).refreshFamilies, f.familyId = target → ∃ o ∈ db.refreshFamilies, Carried o f := by
  intro f mem named
  by_cases touched : Table.refreshFamilies ∈ touches e.op
  · rcases settleCases db (exec node e db) with same | ⟨next,reply,ok,done⟩
    · rw [step,same] at mem
      exact ⟨f,mem,carriedRefl f⟩
    rw [step,done] at mem
    obtain ⟨now,op⟩ := e
    cases op <;> try (simp [touches] at touched; done)
    case createFamily input =>
      have made := silentOk ok
      simp only [Families.create,bindOk,ensureOk,orFailOk] at made
      obtain ⟨_,_,familyId,read,families,inserted,_,_,last⟩ := made
      cases last
      obtain ⟨_,rfl⟩ := insertRowExact.mp inserted
      rcases List.mem_append.mp mem with old | new
      · exact ⟨f,old,carriedRefl f⟩
      · rw [List.mem_singleton.mp new] at named
        exact absurd (read.trans (congrArg some named)) apart
    case rotate family g at_ =>
      obtain ⟨_,made,_⟩ := answeredOk ok
      rcases rotateRows made with same | ⟨other,read,change,keeps,same⟩
      · exact ⟨f,same ▸ mem,carriedRefl f⟩
      · rw [same] at mem
        obtain ⟨o,ho,rfl⟩ := memUpdateWhere.mp mem
        split at named
        · rename_i chosen
          rw [(keeps o).1,eq_of_beq chosen] at named
          exact absurd (read.trans (congrArg some named)) apart
        · rename_i other
          rw [if_neg other]
          exact ⟨o,ho,carriedRefl o⟩
    case advanceDeletionJob jobId at_ =>
      cases ok
      exact statementCarried (effectStatement (advanceEffect jobId at_ now wf)) f mem
  · have same : (step node db e).refreshFamilies = db.refreshFamilies := stepOnly .refreshFamilies touched
    exact ⟨f,same ▸ mem,carriedRefl f⟩

end Others

def Past (target : FamilyId) (g : Int) (db : Db) : Prop :=
  ∀ f, familyAt target db = some f → f.status = .active → g < f.currentGeneration
def Ended (target : FamilyId) (db : Db) : Prop := ∀ f, familyAt target db = some f → f.status ≠ .active

section Turns
variable (node : Node) {target : FamilyId} {g : Int} {db : Db} {m : Move}

theorem foundRow {f : RefreshFamily} (found : familyAt target db = some f) :
    f ∈ db.refreshFamilies ∧ f.familyId = target := by
  have named : (f.familyId == target) = true := List.find?_some (p := fun f : RefreshFamily => f.familyId == target) found
  exact ⟨List.mem_of_find?_eq_some found,eq_of_beq named⟩

theorem rowFound (index : FamilyIndex db) {f : RefreshFamily} (mem : f ∈ db.refreshFamilies)
    (named : f.familyId = target) : familyAt target db = some f := by
  cases found : familyAt target db with
  | none => exact absurd (beq_iff_eq.mpr named) (List.find?_eq_none.mp found f mem)
  | some o =>
    obtain ⟨ho,same⟩ := foundRow found
    rw [indexedEq index familyClashSymm ho mem (by rw [familyClash,same,named]; exact beq_self_eq_true target)]

theorem familyChanged {next : Db} (change : RefreshFamily → RefreshFamily)
    (keeps : ∀ f, (change f).familyId = f.familyId)
    (same : next.refreshFamilies = updateWhere (fun f => f.familyId == target) change db.refreshFamilies) :
    familyAt target next = (familyAt target db).map change := by
  have kept : ∀ f, ((change f).familyId == target) = (f.familyId == target) := fun f => by rw [keeps]
  rw [familyAt,same]
  exact findChanged kept

inductive Family (target : FamilyId) (db next : Db) : Move → Prop
  | carried {m : Move} (kept : ∀ f, familyAt target next = some f → ∃ o, familyAt target db = some o ∧ Carried o f) :
      Family target db next m
  | advanced {f : RefreshFamily} {at_ now : Time} (found : familyAt target db = some f)
      (after : familyAt target next = some (advanced at_ f)) :
      Family target db next (.call f.currentGeneration at_ now)

theorem turnFamily (wf : WellFormed db) (index : FamilyIndex db) (apart : Apart target m) :
    Family target db (turn node target db m) m := by
  cases m with
  | other e =>
    refine .carried fun f found => ?_
    obtain ⟨mem,named⟩ := foundRow found
    obtain ⟨o,ho,carried⟩ := otherCarried wf apart f mem named
    exact ⟨o,rowFound index ho (carried.familyId.symm.trans named),carried⟩
  | call g at_ now =>
    have went : Turned target g at_ now db _ _ := turned wf
    rw [turnCalled]
    generalize settle db (rotateRefreshFamily target g at_ now db) = next at went ⊢
    generalize answer target db (.call g at_ now) = out at went
    cases went with
    | denied _ => exact .carried fun f found => ⟨f,found,carriedRefl f⟩
    | stuck _ _ _ _ => exact .carried fun f found => ⟨f,found,carriedRefl f⟩
    | @rotated f found live current =>
      subst current
      refine .advanced found ?_
      rw [familyChanged (advanced at_) (fun _ => rfl) rfl,found]
      rfl
    | @replay f site next found live older known emitted =>
      refine .carried fun r after => ⟨f,found,?_⟩
      have same : next.refreshFamilies = (replayRevoked f target at_ db).refreshFamilies :=
        insertEventOnly emitted .refreshFamilies (by decide)
      rw [familyChanged (replayed at_) (fun _ => rfl) same,found] at after
      cases after
      exact ⟨rfl,rfl,rfl,rfl,rfl,fun active => by simp [replayed] at active⟩

theorem pastTurn (wf : WellFormed db) (index : FamilyIndex db) (apart : Apart target m) (past : Past target g db) :
    Past target g (turn node target db m) := by
  intro f after active
  cases turnFamily node wf index apart with
  | carried kept =>
    obtain ⟨o,found,carried⟩ := kept f after
    rw [carried.currentGeneration]
    exact past o found (carried.status active)
  | advanced found moved =>
    rw [moved] at after
    cases after
    have before := past _ found active
    exact Int.lt_trans before (Int.ofNat_lt.mpr (Nat.lt_succ_self _))

theorem endedTurn (wf : WellFormed db) (index : FamilyIndex db) (apart : Apart target m)
    (ended : Ended target db) : Ended target (turn node target db m) := by
  intro f after active
  cases turnFamily node wf index apart with
  | carried kept =>
    obtain ⟨o,found,carried⟩ := kept f after
    exact ended o found (carried.status active)
  | advanced found moved =>
    rw [moved] at after
    cases after
    exact ended _ found active

theorem afterRotated (wf : WellFormed db) (rotated : answer target db m = some .rotated) :
    (∃ f, familyAt target db = some f ∧ f.status = .active ∧ f.currentGeneration = expected m) ∧
    Past target (expected m) (turn node target db m) := by
  cases m with
  | other e => cases rotated
  | call g at_ now =>
    have went : Turned target g at_ now db _ _ := turned wf
    rw [rotated] at went
    rw [turnCalled]
    generalize settle db (rotateRefreshFamily target g at_ now db) = next at went ⊢
    cases went with
    | @rotated f found live current =>
      simp only [usable,Bool.and_eq_true,beq_iff_eq] at live
      refine ⟨⟨f,found,live.1.1,current⟩,fun r after _ => ?_⟩
      rw [familyChanged (advanced at_) (fun _ => rfl) rfl,found] at after
      cases after
      rw [← current]
      exact Int.ofNat_lt.mpr (Nat.lt_succ_self _)

theorem afterReplay (wf : WellFormed db) (replay : answer target db m = some .replay) :
    Ended target (turn node target db m) := by
  cases m with
  | other e => cases replay
  | call g at_ now =>
    have went : Turned target g at_ now db _ _ := turned wf
    rw [replay] at went
    rw [turnCalled]
    generalize settle db (rotateRefreshFamily target g at_ now db) = next at went ⊢
    cases went with
    | @replay f site next found live older known emitted =>
      intro r after active
      have same : next.refreshFamilies = (replayRevoked f target at_ db).refreshFamilies :=
        insertEventOnly emitted .refreshFamilies (by decide)
      rw [familyChanged (replayed at_) (fun _ => rfl) same,found] at after
      cases after
      simp [replayed] at active

end Turns

def rotations (node : Node) (target : FamilyId) (db : Db) (moves : List Move) : List (Int × RefreshRotationResult) :=
  collect (turn node target) (fun db m => (answer target db m).toList.map fun result => (expected m,result)) db moves

section Runs
variable (node : Node) {target : FamilyId} {g : Int} {db : Db} {m : Move} {moves : List Move}

theorem keptTurn (kept : Kept db) : Kept (turn node target db m) := by
  cases m with
  | other e => exact keptStep kept
  | call g at_ now =>
    have went : Turned target g at_ now db _ _ := turned kept.wellFormed
    rw [turnCalled]
    generalize settle db (rotateRefreshFamily target g at_ now db) = next at went ⊢
    generalize answer target db (.call g at_ now) = out at went
    cases went with
    | denied _ => exact kept
    | stuck _ _ _ _ => exact kept
    | rotated _ _ _ =>
      have same : Elsewhere db { db with
          refreshFamilies := updateWhere (fun f => f.familyId == target) (advanced at_) db.refreshFamilies } :=
        ⟨rfl,rfl,rfl,rfl,rfl,rfl,fun _ known => known⟩
      have writes : Writes (ending fun _ => True) db _ := elsewhereWrites same
      exact ⟨writesKeep kept.wellFormed writes,indexKept (fun _ => rfl) kept.index⟩
    | @replay f site next _ _ _ _ emitted =>
      have same : next.refreshFamilies = (replayRevoked f target at_ db).refreshFamilies :=
        insertEventOnly emitted .refreshFamilies (by decide)
      have writes : Writes (ending fun _ => True) db next := replayWrites (fun _ _ => trivial) emitted
      have rows : Indexed familyClash (updateWhere (fun f => f.familyId == target) (replayed at_) db.refreshFamilies) :=
        indexKept (fun _ => rfl) kept.index
      refine ⟨writesKeep kept.wellFormed writes,?_⟩
      rw [FamilyIndex,same]
      exact rows

theorem rotatedAbove (kept : Kept db) (apart : ∀ m ∈ moves, Apart target m) (past : Past target g db) :
    ∀ entry ∈ rotations node target db moves, entry.2 = .rotated → g < entry.1 := by
  induction moves generalizing db with
  | nil => intro entry mem; cases mem
  | cons m rest ih =>
    have first := apart m List.mem_cons_self
    have next : Kept (turn node target db m) := keptTurn node kept
    have later := ih next (fun m mem => apart m (List.mem_cons_of_mem _ mem))
      (pastTurn node kept.wellFormed kept.index first past)
    intro entry mem rotated
    rcases List.mem_append.mp mem with here | after
    · obtain ⟨result,answered,rfl⟩ := List.mem_map.mp here
      have won : answer target db m = some .rotated := (Option.mem_toList.mp answered).trans (congrArg some rotated)
      obtain ⟨⟨f,found,active,current⟩,-⟩ := afterRotated node kept.wellFormed won
      rw [← current]
      exact past f found active
    · exact later entry after rotated

theorem endedNone (kept : Kept db) (apart : ∀ m ∈ moves, Apart target m) (ended : Ended target db) :
    ∀ entry ∈ rotations node target db moves, entry.2 ≠ .rotated := by
  induction moves generalizing db with
  | nil => intro entry mem; cases mem
  | cons m rest ih =>
    have first := apart m List.mem_cons_self
    have next : Kept (turn node target db m) := keptTurn node kept
    have later := ih next (fun m mem => apart m (List.mem_cons_of_mem _ mem))
      (endedTurn node kept.wellFormed kept.index first ended)
    intro entry mem rotated
    rcases List.mem_append.mp mem with here | after
    · obtain ⟨result,answered,rfl⟩ := List.mem_map.mp here
      have won : answer target db m = some .rotated := (Option.mem_toList.mp answered).trans (congrArg some rotated)
      obtain ⟨⟨f,found,active,-⟩,-⟩ := afterRotated node kept.wellFormed won
      exact ended f found active
    · exact later entry after rotated

/- No generation is rotated twice, and a replay ends the rotations. -/
def Ordered (earlier later : Int × RefreshRotationResult) : Prop :=
  (earlier.2 = .rotated → later.2 = .rotated → earlier.1 < later.1) ∧ (earlier.2 = .replay → later.2 ≠ .rotated)

theorem rotationsOrdered (kept : Kept db) (apart : ∀ m ∈ moves, Apart target m) :
    (rotations node target db moves).Pairwise Ordered := by
  induction moves generalizing db with
  | nil => exact .nil
  | cons m rest ih =>
    have next : Kept (turn node target db m) := keptTurn node kept
    have others : ∀ m ∈ rest, Apart target m := fun m mem => apart m (List.mem_cons_of_mem _ mem)
    have tail := ih next others
    rw [rotations,collect]
    cases answered : answer target db m with
    | none => exact tail
    | some result =>
      refine List.pairwise_cons.mpr ⟨fun entry mem => ⟨fun won => ?_,fun replay => ?_⟩,tail⟩
      · cases won
        exact rotatedAbove node next others (afterRotated node kept.wellFormed answered).2 entry mem
      · cases replay
        exact endedNone node next others (afterReplay node kept.wellFormed answered) entry mem

end Runs

structure Replayed (target : FamilyId) (f : RefreshFamily) (db next : Db) : Prop where
  family : ∃ r, familyAt target next = some r ∧ r.status = .revoked
  grant : ∀ r ∈ next.grants, r.tenantId = f.tenantId → r.id = f.grantId → r.status = .revoked
  event : ∃ row, newEvents db next = [row] ∧ row.eventType = .grant ∧ row.tenantId = f.tenantId ∧
    row.siteId = f.siteId ∧ row.grantId = some f.grantId

structure CallSafe (node : Node) (target : FamilyId) (db : Db) (g : Int) (at_ now : Time) : Prop where
  advances : answer target db (.call g at_ now) = some .rotated → ∃ f r, familyAt target db = some f ∧
    familyAt target (turn node target db (.call g at_ now)) = some r ∧ r.currentGeneration = f.currentGeneration + 1
  replays : ∀ f, familyAt target db = some f → usable at_ f = true → g < f.currentGeneration →
    answer target db (.call g at_ now) = some .replay ∧
    Replayed target f db (turn node target db (.call g at_ now))
  refuses : ∀ f, familyAt target db = some f →
    (grantRevoked f db = true ∨ f.lastUsedAt + days 30 ≤ at_ ∨ f.absoluteExpiresAt ≤ at_) →
    answer target db (.call g at_ now) ≠ some .rotated

def Safe (node : Node) (target : FamilyId) (db : Db) : Move → Prop
  | .call g at_ now => CallSafe node target db g at_ now
  | .other _ => True

/- A call that names the current generation of a live family finds its grant not revoked,
and one that names an older generation finds the row of its site. -/
def Held (target : FamilyId) (db : Db) : Move → Prop
  | .call g at_ _ => ∀ f ∈ familyAt target db, usable at_ f = true →
    (f.currentGeneration = g → grantRevoked f db = false) ∧
    (g < f.currentGeneration → db.hasSite f.tenantId f.siteId = true)
  | .other _ => True

instance (target db m) : Decidable (Held target db m) := by
  cases m <;> unfold Held <;> infer_instance

section Exactness
variable {node : Node} {target : FamilyId} {g : Int} {at_ now : Time} {db next : Db} {f : RefreshFamily} {site : Site}

theorem replayedExact (kept : Kept db) (found : familyAt target db = some f)
    (emitted : insertEvent .raise (replayEvent f site) now (replayRevoked f target at_ db) = .ok next) :
    Replayed target f db next := by
  have numbered : Numbered (replayRevoked f target at_ db) := kept.wellFormed.numbered
  obtain ⟨-,rfl⟩ := insertEventExact numbered emitted
  refine ⟨⟨replayed at_ f,?_,rfl⟩,?_,⟨newRow (replayEvent f site) now (replayRevoked f target at_ db),?_,rfl,rfl,rfl,rfl⟩⟩
  · rw [familyChanged (replayed at_) (fun _ => rfl) rfl,found]
    rfl
  · intro r mem tenant id
    obtain ⟨o,-,rfl⟩ := memUpdateWhere.mp mem
    by_cases chosen : liveGrant f.tenantId f.grantId o = true
    · rw [if_pos chosen]
      rfl
    · rw [if_neg chosen] at tenant id ⊢
      simp only [liveGrant,tenant,id,beq_self_eq_true,Bool.true_and,Bool.not_eq_true] at chosen
      cases status : o.status <;> simp [Grant.live,status] at chosen ⊢
  · have older : db.revocationOutbox.filter (fun r => decide (db.outboxNextId ≤ r.id)) = [] := by
      refine List.filter_eq_nil_iff.mpr fun r mem late => ?_
      have below := kept.wellFormed.numbered r mem
      simp only [decide_eq_true_eq] at late
      omega
    simp only [newEvents,replayRevoked,List.filter_append] at older ⊢
    rw [older]
    simp [newRow]

theorem currentRotates (wf : WellFormed db) (found : familyAt target db = some f) (live : usable at_ f = true)
    (current : f.currentGeneration = g) : answer target db (.call g at_ now) = some .rotated := by
  have went : Turned target g at_ now db _ _ := turned wf
  generalize answer target db (.call g at_ now) = out at went ⊢
  generalize settle db (rotateRefreshFamily target g at_ now db) = next at went
  cases went with
  | denied stale =>
    rcases stale f found with dead | ahead
    · rw [live] at dead
      contradiction
    · omega
  | stuck here _ older _ =>
    rw [found] at here
    cases here
    omega
  | rotated _ _ _ => rfl
  | replay here _ older _ _ =>
    rw [found] at here
    cases here
    omega

theorem olderReplays (kept : Kept db) (found : familyAt target db = some f) (live : usable at_ f = true)
    (older : g < f.currentGeneration) (known : db.hasSite f.tenantId f.siteId = true) :
    answer target db (.call g at_ now) = some .replay ∧
    Replayed target f db (turn node target db (.call g at_ now)) := by
  have went : Turned target g at_ now db _ _ := turned kept.wellFormed
  generalize answer target db (.call g at_ now) = out at went ⊢
  rw [turnCalled]
  generalize settle db (rotateRefreshFamily target g at_ now db) = next at went ⊢
  cases went with
  | denied stale =>
    rcases stale f found with dead | ahead
    · rw [live] at dead
      contradiction
    · omega
  | stuck here _ _ missing =>
    rw [found] at here
    cases here
    rw [Db.hasSite,missing] at known
    contradiction
  | rotated here _ current =>
    rw [found] at here
    cases here
    omega
  | replay here _ _ _ emitted =>
    rw [found] at here
    cases here
    exact ⟨rfl,replayedExact kept found emitted⟩

theorem replaySite (wf : WellFormed db) (found : familyAt target db = some f)
    (replay : answer target db (.call g at_ now) = some .replay) : db.hasSite f.tenantId f.siteId = true := by
  have went : Turned target g at_ now db _ _ := turned wf
  rw [replay] at went
  generalize settle db (rotateRefreshFamily target g at_ now db) = next at went
  cases went with
  | replay here _ _ known _ =>
    rw [found] at here
    cases here
    simp [Db.hasSite,known]

theorem rotatedUsable (wf : WellFormed db) (found : familyAt target db = some f)
    (rotated : answer target db (.call g at_ now) = some .rotated) : usable at_ f = true ∧ f.currentGeneration = g := by
  have went : Turned target g at_ now db _ _ := turned wf
  rw [rotated] at went
  generalize settle db (rotateRefreshFamily target g at_ now db) = next at went
  cases went with
  | rotated here live current =>
    rw [found] at here
    cases here
    exact ⟨live,current⟩

theorem callExactly (kept : Kept db) : CallSafe node target db g at_ now ↔ Held target db (.call g at_ now) := by
  constructor
  · intro safe f found live
    refine ⟨fun current => ?_,fun older => replaySite kept.wellFormed found (safe.replays f found live older).1⟩
    by_contra revoked
    exact safe.refuses f found (.inl (by simpa using revoked)) (currentRotates kept.wellFormed found live current)
  · intro held
    refine ⟨fun rotated => ?_,fun f found live older => ?_,fun f found never rotated => ?_⟩
    · have went : Turned target g at_ now db _ _ := turned kept.wellFormed
      rw [rotated] at went
      rw [turnCalled]
      generalize settle db (rotateRefreshFamily target g at_ now db) = next at went ⊢
      cases went with
      | @rotated f found live current =>
        refine ⟨f,advanced at_ f,found,?_,rfl⟩
        rw [familyChanged (advanced at_) (fun _ => rfl) rfl,found]
        rfl
    · exact olderReplays kept found live older ((held f found live).2 older)
    · obtain ⟨live,current⟩ := rotatedUsable kept.wellFormed found rotated
      have standing := (held f found live).1 current
      simp only [usable,Bool.and_eq_true,decide_eq_true_eq] at live
      rcases never with revoked | idle | ended
      · rw [standing] at revoked
        contradiction
      · exact absurd live.1.2 (Int.not_lt.mpr idle)
      · exact absurd live.2 (Int.not_lt.mpr ended)

theorem guardedExactly {moves : List Move} (kept : Kept db) :
    Guarded (turn node target) (Safe node target) db moves ↔ Guarded (turn node target) (Held target) db moves := by
  induction moves generalizing db with
  | nil => exact Iff.rfl
  | cons m rest ih =>
    refine and_congr ?_ (ih (keptTurn node kept))
    cases m with
    | call g at_ now => exact callExactly kept
    | other e => exact Iff.rfl

end Exactness

theorem refreshesSafe (node : Node) (history : List Event) (target : FamilyId) (moves : List Move)
    (apart : ∀ m ∈ moves, Apart target m) :
    let db := run (step node) Db.empty history
    (Guarded (turn node target) (Safe node target) db moves ∧
      (rotations node target db moves).Pairwise
        (fun earlier later => earlier.2 = .rotated → later.2 = .rotated → earlier.1 ≠ later.1) ∧
      (rotations node target db moves).Pairwise
        (fun earlier later => earlier.2 = .replay → later.2 ≠ .rotated)) ↔
    Guarded (turn node target) (Held target) db moves := by
  intro db
  have kept : Kept db := reachableKept node history
  have ordered := rotationsOrdered node kept apart
  have each : Guarded (turn node target) (Safe node target) db moves ↔
      Guarded (turn node target) (Held target) db moves := guardedExactly kept
  refine ⟨fun safe => each.mp safe.1,fun held => ⟨each.mpr held,?_,?_⟩⟩
  · exact ordered.imp fun order first second => Int.ne_of_lt (order.1 first second)
  · exact ordered.imp fun order => order.2

def sampleFamily : FamilyId := "22222222-2222-4222-8222-222222222222"
def familyHistory : List Event := approvedHistory ++
  [⟨seconds 30,.createFamily ⟨sampleFamily,sampleTenant,sampleSite,"grant_0001","client_0001",sampleAccount,
    seconds 30,seconds 30 + days 90⟩⟩]

def replayedMoves : List Move :=
  [.call 0 (seconds 40) (seconds 40),.call 1 (seconds 50) (seconds 50),.call 0 (seconds 60) (seconds 60),
    .call 2 (seconds 70) (seconds 70)]

theorem replayedSafe :
    Guarded (turn (sampleNode [] []) sampleFamily) (Safe (sampleNode [] []) sampleFamily)
      (run (step (sampleNode [] [])) Db.empty familyHistory) replayedMoves ∧
    rotations (sampleNode [] []) sampleFamily (run (step (sampleNode [] [])) Db.empty familyHistory) replayedMoves =
      [(0,.rotated),(1,.rotated),(0,.replay),(2,.denied)] := by
  have apart : ∀ m ∈ replayedMoves, Apart sampleFamily m := by simp [replayedMoves,Apart]
  have safe := refreshesSafe (sampleNode [] []) familyHistory sampleFamily replayedMoves apart
  exact ⟨(safe.mpr (by decide)).1,by decide⟩

/- The grant is revoked by its subject, and the family rotates all the same. -/
def revokedMoves : List Move :=
  [.other ⟨seconds 40,.revokeGrantWithEvent sampleContext sampleTenant "grant_0001"⟩,.call 0 (seconds 50) (seconds 50)]

theorem revokedRotates :
    rotations (sampleNode [] []) sampleFamily (run (step (sampleNode [] [])) Db.empty familyHistory) revokedMoves =
      [(0,.rotated)] ∧
    ¬ Guarded (turn (sampleNode [] []) sampleFamily) (Safe (sampleNode [] []) sampleFamily)
      (run (step (sampleNode [] [])) Db.empty familyHistory) revokedMoves := by
  refine ⟨by decide,fun safe => ?_⟩
  have held := (guardedExactly (reachableKept (sampleNode [] []) familyHistory)).mp safe
  exact absurd held (by decide)

end Wepuu.RefreshRotation
