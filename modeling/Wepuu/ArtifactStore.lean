import Wepuu.Frames
import Wepuu.KeyedViews
import Wepuu.RefreshRevocation
import Wepuu.SingleUse
import Wepuu.Traces

/-! What the two artifact tables are for: one store of entries under (model,id). Every
operation of the platform acts on them as a change of that store, and what the adapter
finds and answers is what the store says. -/
namespace Wepuu.ArtifactStore
open Artifacts Deletion Footprint Frames Grants KeyedViews NodeApi Outbox RefreshRevocation Relational Runs
open Schema Secrets SingleUse Statements Traces Wepuu.System

def findSecondary (adapter : OidcAdapter) (field value : String) (now : Time) (db : Db) : Option ProviderPayload :=
  if secretModel adapter then none
  else
    (db.providerArtifacts.find? fun a =>
      a.model == adapter.model && memberText a.payload field == some value && unexpired now a.expiresAt).map (·.payload)

def findByUid (adapter : OidcAdapter) (uid : String) (now : Time) (db : Db) : Option ProviderPayload :=
  findSecondary adapter "uid" uid now db
def findByUserCode (adapter : OidcAdapter) (userCode : String) (now : Time) (db : Db) : Option ProviderPayload :=
  findSecondary adapter "userCode" userCode now db

structure Entry where
  tenantId : Option TenantId
  payload : ProviderPayload
  expiresAt : Option Time
  consumedAt : Option Time
  deriving DecidableEq, Repr

abbrev Store := String → String → Option Entry

def Store.empty : Store := fun _ _ => none

def epoch (at_ : Time) : JsonValue := .num (toString (at_ / seconds 1))

def ofGrant (grants : GrantId → Bool) (entry : Entry) : Bool := (memberText entry.payload "grantId").any grants

inductive Change where
  | put (model id : String) (entry : Entry)
  | drop (model id : String)
  | consume (model id : String) (at_ : Time)
  | note (model id : String) (at_ : Time)
  | expire (grantId : GrantId) (at_ : Time)
  | forget (tenants : TenantId → Bool) (grants : GrantId → Bool)

def Change.apply (s : Store) : Change → Store
  | .put m i entry => fun model id => if model = m ∧ id = i then some entry else s model id
  | .drop m i => fun model id => if model = m ∧ id = i then none else s model id
  | .consume m i at_ => fun model id =>
    if model = m ∧ id = i then (s model id).map fun entry => { entry with consumedAt := some at_ } else s model id
  | .note m i at_ => fun model id =>
    if model = m ∧ id = i then
      (s model id).map fun entry => { entry with payload := setMember entry.payload "consumed" (epoch at_) }
    else s model id
  | .expire grantId at_ => fun model id =>
    if model = "RefreshToken" then
      (s model id).map fun entry => if ofGrant (· == grantId) entry then { entry with expiresAt := some at_ } else entry
    else s model id
  | .forget tenants grants => fun model id =>
    (s model id).filter fun entry => !(entry.tenantId.any tenants || ofGrant grants entry)

section Applied
variable (s : Store) (m i model id : String) (entry : Entry) (grantId : GrantId) (at_ : Time)

theorem putApplied : Change.apply s (.put m i entry) model id = if model = m ∧ id = i then some entry else s model id := rfl

theorem dropApplied : Change.apply s (.drop m i) model id = if model = m ∧ id = i then none else s model id := rfl

theorem consumeApplied : Change.apply s (.consume m i at_) model id =
    if model = m ∧ id = i then (s model id).map fun entry => { entry with consumedAt := some at_ } else s model id := rfl

theorem noteApplied : Change.apply s (.note m i at_) model id = if model = m ∧ id = i then
    (s model id).map fun entry => { entry with payload := setMember entry.payload "consumed" (epoch at_) }
    else s model id := rfl

theorem expireApplied : Change.apply s (.expire grantId at_) model id = if model = "RefreshToken" then
    (s model id).map fun entry => if ofGrant (· == grantId) entry then { entry with expiresAt := some at_ } else entry
    else s model id := rfl

theorem forgetApplied (tenants : TenantId → Bool) (grants : GrantId → Bool) :
    Change.apply s (.forget tenants grants) model id =
      (s model id).filter fun entry => !(entry.tenantId.any tenants || ofGrant grants entry) := rfl

end Applied

/- A secret artifact is stored without its id and shown with it. -/
def named (model id : String) (payload : ProviderPayload) : ProviderPayload :=
  if secretArtifactModels.contains model then setMember (dropMember payload "jti") "jti" (.str id) else payload

def usable (now : Time) (entry : Entry) : Bool := entry.consumedAt.isNone && unexpired now entry.expiresAt

def shown (now : Time) (entry : Entry) : Option ProviderPayload :=
  if unexpired now entry.expiresAt then
    some (match entry.consumedAt with
      | none => entry.payload
      | some at_ => setMember entry.payload "consumed" (epoch at_))
  else none

def read (s : Store) (model id : String) (now : Time) : Option ProviderPayload := (s model id).bind (shown now)

/- What an operation may do to the store, by its call and its reply. An operation that
raises does nothing; one that writes neither table does nothing to the store. -/
inductive Moves : Store → Event × Option Reply → Store → Prop where
  | refused {s e} : Moves s (e,none) s
  | elsewhere {s e reply} (secrets : Table.secretArtifacts ∉ touches e.op)
      (providers : Table.providerArtifacts ∉ touches e.op) : Moves s (e,some reply) s
  | put {s now adapter id payload expiresIn dateNow} :
      Moves s (⟨now,.upsert adapter id payload expiresIn dateNow⟩,some .done)
        (Change.apply s (.put adapter.model id ⟨storedTenant payload,named adapter.model id payload,
          expiresIn.map fun s => dateNow + seconds s,none⟩))
  | dropped {s now adapter id} :
      Moves s (⟨now,.destroy adapter id⟩,some .done) (Change.apply s (.drop adapter.model id))
  | consumed {s now adapter id dateNow entry} (secret : secretModel adapter = true)
      (there : s adapter.model id = some entry) (unused : usable now entry = true) :
      Moves s (⟨now,.consume adapter id dateNow⟩,some (.consumption .consumed))
        (Change.apply s (.consume adapter.model id now))
  | limited {s now adapter id dateNow entry} (refresh : refreshModel adapter = true)
      (there : s adapter.model id = some entry) (unused : usable now entry = true) :
      Moves s (⟨now,.consume adapter id dateNow⟩,some (.consumption .rateLimited)) s
  | replayed {s t now adapter id dateNow entry grantId} (refresh : refreshModel adapter = true)
      (there : s adapter.model id = some entry) (used : entry.consumedAt.isSome = true)
      (bound : memberText entry.payload "grantId" = some grantId)
      (revoked : t = s ∨ t = Change.apply s (.expire grantId now)) :
      Moves s (⟨now,.consume adapter id dateNow⟩,some (.consumption .replay)) t
  | missing {s now adapter id dateNow} (secret : secretModel adapter = true)
      (nothing : ∀ entry, s adapter.model id = some entry → usable now entry = false ∧
        (refreshModel adapter = true → entry.consumedAt.isSome = true → memberText entry.payload "grantId" = none)) :
      Moves s (⟨now,.consume adapter id dateNow⟩,some (.consumption .missing)) s
  | noted {s now adapter id dateNow entry} (plain : secretModel adapter = false)
      (there : s adapter.model id = some entry) (unused : member entry.payload "consumed" = none) :
      Moves s (⟨now,.consume adapter id dateNow⟩,some (.consumption .consumed))
        (Change.apply s (.note adapter.model id dateNow))
  | unnoted {s now adapter id dateNow} (plain : secretModel adapter = false)
      (nothing : ∀ entry, s adapter.model id = some entry → (member entry.payload "consumed").isSome = true) :
      Moves s (⟨now,.consume adapter id dateNow⟩,some (.consumption .missing)) s
  | withdrawn {s now adapter reason grantId} :
      Moves s (⟨now,.revokeByGrantId adapter reason grantId⟩,some .done)
        (Change.apply s (.forget (fun _ => false) (· == grantId)))
  | revoked {s now grantId observedAt reason} :
      Moves s (⟨now,.revokeRefreshGrant grantId observedAt reason⟩,some (.flag true))
        (Change.apply s (.expire grantId observedAt))
  | unknown {s now grantId observedAt reason} :
      Moves s (⟨now,.revokeRefreshGrant grantId observedAt reason⟩,some (.flag false)) s
  | waiting {s now jobId observedAt value} :
      Moves s (⟨now,.advanceDeletionJob jobId observedAt⟩,some (.report value)) s
  | purged {s now jobId observedAt value} (tenants : TenantId → Bool) (grants : GrantId → Bool)
      (complete : value.status = .complete) :
      Moves s (⟨now,.advanceDeletionJob jobId observedAt⟩,some (.report value))
        (Change.apply s (.forget tenants grants))

def replied (node : Node) (db : Db) (e : Event) : Event × Option Reply := match exec node e db with
  | .ok (_,reply) => (e,some reply)
  | .error _ => (e,none)

def callId (e : Event) : Option String := match e.op with
  | .upsert _ id _ _ _ | .destroy _ id | .consume _ id _ => some id
  | _ => none

def providerClash (a b : ProviderArtifact) : Bool := a.model == b.model && a.artifactId == b.artifactId

def secretAt (node : Node) (codec : SecretArtifactCodec) (key : String × String) (a : SecretArtifact) : Bool :=
  located node codec key.1 key.2 a
def secretEntry (key : String × String) (a : SecretArtifact) : Entry :=
  ⟨a.tenantId,setMember a.payload "jti" (.str key.2),a.expiresAt,a.consumedAt⟩
def plainAt (key : String × String) (a : ProviderArtifact) : Bool := providerAt key.1 key.2 a
def plainEntry (_ : String × String) (a : ProviderArtifact) : Entry := ⟨a.tenantId,a.payload,a.expiresAt,none⟩

def contents (node : Node) (codec : SecretArtifactCodec) (scope : List String) (db : Db) : Store := fun model id =>
  if id ∈ scope then
    if secretArtifactModels.contains model then view (secretAt node codec) secretEntry db.secretArtifacts (model,id)
    else view plainAt plainEntry db.providerArtifacts (model,id)
  else none

structure Sound (node : Node) (codec : SecretArtifactCodec) (scope : List String) (db : Db) : Prop where
  wf : WellFormed db
  keyed : ∀ model, Keyed node codec model scope db
  providers : Indexed providerClash db.providerArtifacts
  inScope : ∀ a ∈ db.providerArtifacts, a.artifactId ∈ scope

structure Admitted (codec : SecretArtifactCodec) (scope : List String) (e : Event) : Prop where
  codecs : ∀ c ∈ codecOf e, c = codec
  within : ∀ i ∈ callId e, i ∈ scope

instance (codec scope e) : Decidable (Admitted codec scope e) :=
  decidable_of_iff ((∀ c ∈ codecOf e, c = codec) ∧ ∀ i ∈ callId e, i ∈ scope)
    ⟨fun ⟨codecs,within⟩ => ⟨codecs,within⟩,fun ⟨codecs,within⟩ => ⟨codecs,within⟩⟩

section Rows
variable {node : Node} {codec : SecretArtifactCodec} {scope : List String} {db next : Db} {model id : String}

theorem secretSingle (sound : Sound node codec scope db) (apart : ∀ i ∈ scope, Apart node codec i scope)
    (mem : id ∈ scope) : Single (secretAt node codec) db.secretArtifacts (model,id) :=
  fun _ ha _ hb hitA hitB => locatedUnique sound.wf (sound.keyed model) (apart id mem) ha hb hitA hitB

theorem providerClashSymm (a b : ProviderArtifact) : providerClash a b = providerClash b a := by
  simp only [providerClash,Bool.beq_comm]

theorem providerSingle (sound : Sound node codec scope db) :
    Single plainAt db.providerArtifacts (model,id) := by
  intro a ha b hb hitA hitB
  refine indexedEq sound.providers providerClashSymm ha hb ?_
  simp only [plainAt,providerAt,Bool.and_eq_true,beq_iff_eq] at hitA hitB
  simp [providerClash,hitA.1,hitA.2,hitB.1,hitB.2]

theorem locatedModel {a : SecretArtifact} (hit : located node codec model id a = true) : a.model = model := by
  obtain ⟨_,_,at_⟩ := locatedIff.mp hit
  simp only [atLookup,Bool.and_eq_true,beq_iff_eq] at at_
  exact at_.1.1

theorem locatedSame (sound : Sound node codec scope db) (apart : ∀ i ∈ scope, Apart node codec i scope)
    {other : String} (memA : id ∈ scope) (memB : other ∈ scope) {a : SecretArtifact} (ha : a ∈ db.secretArtifacts)
    (hitA : located node codec model id a = true) (hitB : located node codec model other a = true) : id = other := by
  obtain ⟨_,lookupA,hlA,atA⟩ := locatedStored (sound.keyed model) (apart id memA) ha hitA
  obtain ⟨_,lookupB,hlB,atB⟩ := locatedStored (sound.keyed model) (apart other memB) ha hitB
  obtain ⟨keyA,restA,keysA,rfl,_⟩ := currentExact hlA
  obtain ⟨keyB,restB,keysB,rfl,_⟩ := currentExact hlB
  rw [keysA] at keysB
  cases keysB
  simp only [atLookup,Bool.and_eq_true,beq_iff_eq] at atA atB
  exact apart other memB id memA keyA (by rw [keysA]; exact List.mem_cons_self) (atA.2.symm.trans atB.2)

end Rows

section Secrets
variable {node : Node} {codec : SecretArtifactCodec} {scope : List String} {db : Db} {model id : String}

theorem grantShown {key : String × String} {a : SecretArtifact} :
    memberText (secretEntry key a).payload "grantId" = memberText a.payload "grantId" := by
  simp only [secretEntry,memberText,setMemberOther (show "grantId" ≠ "jti" by decide)]

theorem secretPut (sound : Sound node codec scope db) (apart : ∀ i ∈ scope, Apart node codec i scope)
    (mem : id ∈ scope) {adapter : OidcAdapter} (same : adapter.codec = codec) {i : String} (memI : i ∈ scope)
    {lookup : SecretArtifactLookup} (current_ : current node adapter.codec i = .ok lookup)
    (payload : ProviderPayload) (expiresAt : Option Time) :
    let row := storedSecret adapter lookup payload expiresAt
    view (secretAt node codec) secretEntry (upsertRow secretClash row (fun _ => row) db.secretArtifacts) (model,id) =
      if model = adapter.model ∧ id = i then some (secretEntry (model,id) row)
      else view (secretAt node codec) secretEntry db.secretArtifacts (model,id) := by
  intro row
  rw [same] at current_
  have rowAt : located node codec adapter.model i row = true :=
    locatedIff.mpr ⟨lookup,currentCandidate current_,by simp [row,atLookup,storedSecret]⟩
  have clashAt : ∀ a ∈ db.secretArtifacts, secretClash row a = located node codec adapter.model i a := by
    intro a ha
    rw [Bool.eq_iff_iff]
    constructor
    · intro hit
      simp only [secretClash,Bool.and_eq_true,beq_iff_eq] at hit
      refine locatedIff.mpr ⟨lookup,currentCandidate current_,?_⟩
      simp only [atLookup,Bool.and_eq_true,beq_iff_eq]
      exact ⟨⟨hit.1.1.symm,hit.1.2.symm⟩,hit.2.symm⟩
    · intro hit
      obtain ⟨_,found,here,at_⟩ := locatedStored (sound.keyed adapter.model) (apart i memI) ha hit
      rw [current_] at here
      cases here
      simp only [atLookup,Bool.and_eq_true,beq_iff_eq] at at_
      simp [secretClash,row,storedSecret,at_.1.1,at_.1.2,at_.2]
  by_cases here : model = adapter.model ∧ id = i
  · obtain ⟨rfl,rfl⟩ := here
    rw [if_pos ⟨rfl,rfl⟩]
    exact viewUpserted rowAt clashAt
  · rw [if_neg here]
    refine viewUpsertedElsewhere ?_ ?_
    · by_contra hit
      have found : located node codec model id row = true := by simpa [secretAt] using hit
      refine here ⟨(locatedModel found).symm,?_⟩
      obtain ⟨other,candidate,at_⟩ := locatedIff.mp found
      obtain ⟨key,rest,keys,rfl,_⟩ := currentExact current_
      simp only [atLookup,row,storedSecret,Bool.and_eq_true,beq_iff_eq] at at_
      have newest := newestCandidate candidate (by rw [← at_.1.2,keys]; rfl)
      obtain ⟨key',rest',keys',rfl,_⟩ := currentExact newest
      rw [keys] at keys'
      cases keys'
      exact apart i memI id mem key (by rw [keys]; exact List.mem_cons_self) at_.2.symm
    · intro a ha hit
      rw [clashAt a ha] at hit
      by_contra found
      have found : located node codec model id a = true := by simpa [secretAt] using found
      have models : model = adapter.model := (locatedModel found).symm.trans (locatedModel hit)
      subst models
      exact here ⟨rfl,locatedSame sound apart mem memI ha found hit⟩

theorem secretDropped (sound : Sound node codec scope db) (apart : ∀ i ∈ scope, Apart node codec i scope)
    (mem : id ∈ scope) {m i : String} (memI : i ∈ scope) :
    view (secretAt node codec) secretEntry (deleteWhere (fun a => located node codec m i a) db.secretArtifacts)
        (model,id) =
      if model = m ∧ id = i then none else view (secretAt node codec) secretEntry db.secretArtifacts (model,id) := by
  by_cases here : model = m ∧ id = i
  · obtain ⟨rfl,rfl⟩ := here
    rw [if_pos ⟨rfl,rfl⟩,viewNone]
    intro a ha
    exact (memDeleteWhere.mp ha).2
  · rw [if_neg here]
    refine viewDeletedElsewhere ?_
    intro a ha hit
    by_contra gone
    have gone : located node codec m i a = true := by simpa using gone
    have models : model = m := (locatedModel hit).symm.trans (locatedModel gone)
    subst models
    exact here ⟨rfl,locatedSame sound apart mem memI ha hit gone⟩

theorem secretConsumed (sound : Sound node codec scope db) (apart : ∀ i ∈ scope, Apart node codec i scope)
    (mem : id ∈ scope) {m i : String} (memI : i ∈ scope) {now : Time} {lookup : SecretArtifactLookup}
    (candidate : lookup ∈ candidates node codec i) {a : SecretArtifact} (ha : a ∈ db.secretArtifacts)
    (hit : consumable m lookup now a = true) :
    view (secretAt node codec) secretEntry
        (updateWhere (consumable m lookup now) (fun a => { a with consumedAt := some now }) db.secretArtifacts) (model,id) =
      if model = m ∧ id = i then
        (view (secretAt node codec) secretEntry db.secretArtifacts (model,id)).map
          fun entry => { entry with consumedAt := some now }
      else view (secretAt node codec) secretEntry db.secretArtifacts (model,id) := by
  have found := (consumableLocated candidate hit).1
  by_cases here : model = m ∧ id = i
  · obtain ⟨rfl,rfl⟩ := here
    rw [if_pos ⟨rfl,rfl⟩]
    refine viewUpdated (fun _ => rfl) ?_
    intro b hb hitB
    rw [locatedUnique sound.wf (sound.keyed model) (apart id mem) hb ha hitB found,if_pos hit]
    rfl
  · rw [if_neg here]
    refine viewUpdatedElsewhere (fun _ => rfl) ?_
    intro b hb hitB
    by_contra chosen
    have again := (consumableLocated candidate (by simpa using chosen)).1
    have models : model = m := (locatedModel hitB).symm.trans (locatedModel again)
    subst models
    exact here ⟨rfl,locatedSame sound apart mem memI hb hitB again⟩

theorem secretExpired {grantId : GrantId} {at_ : Time} :
    view (secretAt node codec) secretEntry
        (updateWhere (refreshArtifactOf grantId) (fun a => { a with expiresAt := some at_ }) db.secretArtifacts) (model,id) =
      if model = "RefreshToken" then
        (view (secretAt node codec) secretEntry db.secretArtifacts (model,id)).map fun entry =>
          if ofGrant (· == grantId) entry then { entry with expiresAt := some at_ } else entry
      else view (secretAt node codec) secretEntry db.secretArtifacts (model,id) := by
  have bound : ∀ a : SecretArtifact, ofGrant (· == grantId) (secretEntry (model,id) a) =
      (memberText a.payload "grantId" == some grantId) := by
    intro a
    rw [ofGrant,grantShown]
    cases memberText a.payload "grantId" <;> simp
  split
  · rename_i refresh
    refine viewUpdated (fun _ => rfl) ?_
    intro a _ hit
    have ours : a.model = "RefreshToken" := (locatedModel hit).trans refresh
    simp only [bound,refreshArtifactOf,ours,beq_self_eq_true,Bool.true_and]
    split <;> rfl
  · rename_i other
    refine viewUpdatedElsewhere (fun _ => rfl) ?_
    intro a _ hit
    have ours := locatedModel hit
    simp [refreshArtifactOf,ours,other]

theorem secretForgotten (sound : Sound node codec scope db) (apart : ∀ i ∈ scope, Apart node codec i scope)
    (mem : id ∈ scope) {p : SecretArtifact → Bool} {tenants : TenantId → Bool} {grants : GrantId → Bool}
    (same : ∀ a, p a = (a.tenantId.any tenants || (memberText a.payload "grantId").any grants)) :
    view (secretAt node codec) secretEntry (deleteWhere p db.secretArtifacts) (model,id) =
      (view (secretAt node codec) secretEntry db.secretArtifacts (model,id)).filter
        fun entry => !(entry.tenantId.any tenants || ofGrant grants entry) := by
  refine viewDeleted (secretSingle sound apart mem) ?_
  intro a _ _
  rw [same,ofGrant,grantShown,Bool.not_not]
  rfl

end Secrets

section Plain
variable {node : Node} {codec : SecretArtifactCodec} {scope : List String} {db : Db} {model id : String}

theorem plainPut {row : ProviderArtifact} :
    view plainAt plainEntry (upsertRow providerClash row (fun _ => row) db.providerArtifacts) (model,id) =
      if model = row.model ∧ id = row.artifactId then some (plainEntry (model,id) row)
      else view plainAt plainEntry db.providerArtifacts (model,id) := by
  by_cases here : model = row.model ∧ id = row.artifactId
  · rw [if_pos here]
    obtain ⟨rfl,rfl⟩ := here
    refine viewUpserted (by simp [plainAt,providerAt]) ?_
    intro a _
    simp only [providerClash,plainAt,providerAt]
    rw [Bool.beq_comm,Bool.beq_comm (a := row.artifactId)]
  · rw [if_neg here]
    refine viewUpsertedElsewhere ?_ ?_
    · by_contra hit
      simp only [plainAt,providerAt,Bool.not_eq_false,Bool.and_eq_true,beq_iff_eq] at hit
      exact here ⟨hit.1.symm,hit.2.symm⟩
    · intro a _ clash
      by_contra hit
      simp only [plainAt,providerAt,providerClash,Bool.not_eq_false,Bool.and_eq_true,beq_iff_eq] at hit clash
      exact here ⟨hit.1.symm.trans clash.1.symm,hit.2.symm.trans clash.2.symm⟩

theorem plainDropped {m i : String} :
    view plainAt plainEntry (deleteWhere (providerAt m i) db.providerArtifacts) (model,id) =
      if model = m ∧ id = i then none else view plainAt plainEntry db.providerArtifacts (model,id) := by
  by_cases here : model = m ∧ id = i
  · obtain ⟨rfl,rfl⟩ := here
    rw [if_pos ⟨rfl,rfl⟩,viewNone]
    intro a ha
    exact (memDeleteWhere.mp ha).2
  · rw [if_neg here]
    refine viewDeletedElsewhere ?_
    intro a _ hit
    by_contra gone
    simp only [plainAt,providerAt,Bool.not_eq_false,Bool.and_eq_true,beq_iff_eq] at hit gone
    exact here ⟨hit.1.symm.trans gone.1,hit.2.symm.trans gone.2⟩

def notable (m i : String) (a : ProviderArtifact) : Bool := providerAt m i a && (member a.payload "consumed").isNone

theorem plainNoted (sound : Sound node codec scope db) {m i : String} {at_ : Time} {a : ProviderArtifact}
    (ha : a ∈ db.providerArtifacts) (hit : notable m i a = true) :
    view plainAt plainEntry
        (updateWhere (notable m i)
          (fun a => { a with payload := setMember a.payload "consumed" (epoch at_) }) db.providerArtifacts) (model,id) =
      if model = m ∧ id = i then
        (view plainAt plainEntry db.providerArtifacts (model,id)).map
          fun entry => { entry with payload := setMember entry.payload "consumed" (epoch at_) }
      else view plainAt plainEntry db.providerArtifacts (model,id) := by
  by_cases here : model = m ∧ id = i
  · obtain ⟨rfl,rfl⟩ := here
    rw [if_pos ⟨rfl,rfl⟩]
    refine viewUpdated (fun _ => rfl) ?_
    intro b hb hitB
    simp only [notable,Bool.and_eq_true] at hit
    rw [providerSingle sound b hb a ha hitB hit.1,if_pos (by simp [notable,hit.1,hit.2])]
    rfl
  · rw [if_neg here]
    refine viewUpdatedElsewhere (fun _ => rfl) ?_
    intro b _ hitB
    by_contra chosen
    simp only [plainAt,notable,providerAt,Bool.not_eq_false,Bool.and_eq_true,beq_iff_eq] at hitB chosen
    exact here ⟨hitB.1.symm.trans chosen.1.1,hitB.2.symm.trans chosen.1.2⟩

theorem plainForgotten (sound : Sound node codec scope db) {p : ProviderArtifact → Bool} {tenants : TenantId → Bool}
    {grants : GrantId → Bool}
    (same : ∀ a, p a = (a.tenantId.any tenants || (memberText a.payload "grantId").any grants)) :
    view plainAt plainEntry (deleteWhere p db.providerArtifacts) (model,id) =
      (view plainAt plainEntry db.providerArtifacts (model,id)).filter
        fun entry => !(entry.tenantId.any tenants || ofGrant grants entry) := by
  refine viewDeleted (providerSingle sound) ?_
  intro a _ _
  rw [same,Bool.not_not]
  rfl

end Plain

section Tables
variable {node : Node} {adapter : OidcAdapter} {id : String} {db next : Db}

theorem upsertTables {payload : ProviderPayload} {expiresIn : Option Int} {dateNow : Time}
    (ok : upsert node adapter id payload expiresIn dateNow db = .ok next) :
    let expiresAt := expiresIn.map fun s => dateNow + seconds s
    (secretModel adapter = true ∧ next.providerArtifacts = db.providerArtifacts ∧
      ∃ lookup, current node adapter.codec id = .ok lookup ∧
        let row := storedSecret adapter lookup payload expiresAt
        next.secretArtifacts = upsertRow secretClash row (fun _ => row) db.secretArtifacts) ∨
    (secretModel adapter = false ∧ next.secretArtifacts = db.secretArtifacts ∧
      let row : ProviderArtifact := ⟨adapter.model,id,storedTenant payload,payload,expiresAt⟩
      next.providerArtifacts = upsertRow providerClash row (fun _ => row) db.providerArtifacts) := by
  intro expiresAt
  simp only [upsert] at ok
  split at ok
  · rename_i secret
    simp only [bindOk,ensureOk] at ok
    obtain ⟨lookup,hl,_,_,_,_,last⟩ := ok
    cases last
    exact .inl ⟨secret,rfl,lookup,hl,rfl⟩
  · rename_i plain
    obtain ⟨_,_,last⟩ := bindOk.mp ok
    cases last
    exact .inr ⟨by simpa using plain,rfl,rfl⟩

theorem insertEventTables {onConflict event now} (ok : insertEvent onConflict event now db = .ok next) :
    next.secretArtifacts = db.secretArtifacts ∧ next.providerArtifacts = db.providerArtifacts :=
  ⟨insertEventOnly ok .secretArtifacts (by decide),insertEventOnly ok .providerArtifacts (by decide)⟩

theorem revokeRefreshGrantTables {grantId observedAt reason now out}
    (ok : revokeRefreshGrant grantId observedAt reason now db = .ok (next,out)) :
    next.providerArtifacts = db.providerArtifacts ∧
    ((out = false ∧ next.secretArtifacts = db.secretArtifacts) ∨
      (out = true ∧ next.secretArtifacts = updateWhere (refreshArtifactOf grantId)
        (fun a => { a with expiresAt := some observedAt }) db.secretArtifacts)) := by
  refine ⟨revokeRefreshGrantOnly ok .providerArtifacts (by decide),?_⟩
  unfold revokeRefreshGrant at ok
  split at ok
  · cases ok
    exact .inl ⟨rfl,rfl⟩
  · split at ok
    · simp only [bindOk,orFailOk] at ok
      obtain ⟨site,_,emitted,he,last⟩ := ok
      cases last
      exact .inr ⟨rfl,(insertEventTables he).1⟩
    · cases ok
      exact .inr ⟨rfl,rfl⟩

theorem revokeByGrantIdTables {reason grantId now} (ok : revokeByGrantId adapter reason grantId now db = .ok next) :
    ∃ middle, (middle = db.secretArtifacts ∨ middle = updateWhere (refreshArtifactOf grantId)
        (fun a => { a with expiresAt := some now }) db.secretArtifacts) ∧
      next.secretArtifacts = deleteWhere (fun a => memberText a.payload "grantId" == some grantId) middle ∧
      next.providerArtifacts =
        deleteWhere (fun a => memberText a.payload "grantId" == some grantId) db.providerArtifacts := by
  simp only [revokeByGrantId,bindOk] at ok
  obtain ⟨⟨revoked,out⟩,hr,last⟩ := ok
  cases last
  unfold revokePlatformGrant at hr
  split at hr
  · obtain ⟨providers,⟨_,secrets⟩ | ⟨_,secrets⟩⟩ := revokeRefreshGrantTables hr
    · exact ⟨revoked.secretArtifacts,.inl secrets,rfl,by rw [providers]⟩
    · exact ⟨revoked.secretArtifacts,.inr secrets,rfl,by rw [providers]⟩
  · cases hr
    exact ⟨db.secretArtifacts,.inl rfl,rfl,rfl⟩

theorem advanceTables (jobId : JobId) (observedAt now : Time) (db : Db) :
    let out := advanceDeletionJob jobId observedAt now db
    (out.1.secretArtifacts = db.secretArtifacts ∧ out.1.providerArtifacts = db.providerArtifacts) ∨
    (out.2.status = .complete ∧ ∃ (tenants : TenantId → Bool) (grants : GrantId → Bool),
      out.1.secretArtifacts = deleteWhere
        (fun a => a.tenantId.any tenants || (memberText a.payload "grantId").any grants) db.secretArtifacts ∧
      out.1.providerArtifacts = deleteWhere
        (fun a => a.tenantId.any tenants || (memberText a.payload "grantId").any grants) db.providerArtifacts) := by
  cases ok : advanceBody jobId observedAt now db with
  | error fault =>
    simp only [advanceDeletionJob,ok]
    exact .inl ⟨rfl,rfl⟩
  | ok done =>
    obtain ⟨next,value⟩ := done
    simp only [advanceDeletionJob,ok]
    simp only [advanceBody,bindOk,orFailOk] at ok
    obtain ⟨job,_,ok⟩ := ok
    split at ok
    · cases ok
      exact .inl ⟨rfl,rfl⟩
    · cases ok
      exact .inl ⟨rfl,rfl⟩
    · simp only [firstPhase,bindOk] at ok
      obtain ⟨⟨revoked,sessions,events⟩,hr,last⟩ := ok
      cases last
      unfold revokeScope at hr
      split at hr
      · exact .inl ⟨revokeAccountOnly hr .secretArtifacts (by decide),revokeAccountOnly hr .providerArtifacts (by decide)⟩
      · exact .inl ⟨revokeTenantScopeOnly hr .secretArtifacts (by decide),
          revokeTenantScopeOnly hr .providerArtifacts (by decide)⟩
    · split at ok
      · cases ok
        exact .inl ⟨rfl,rfl⟩
      · simp only [purgePhase,bindOk] at ok
        obtain ⟨purged,hp,last⟩ := ok
        cases last
        refine .inr ⟨rfl,?_⟩
        unfold purgeScope at hp
        split at hp
        · simp only [purgeAccount,bindOk,ensureOk] at hp
          obtain ⟨_,_,last⟩ := hp
          cases last
          refine ⟨fun _ => false,tombstonedGrant job db,?_,?_⟩ <;>
            simp only [setJob,tombstonedPayload,Option.any_false,Bool.false_or]
        · cases hp
          exact ⟨_,_,rfl,rfl⟩

theorem consumePlainTables {dateNow now : Time} {out : ConsumeOutcome} (plain : secretModel adapter = false)
    (ok : consume node adapter id dateNow now db = .ok (next,out)) :
    next.secretArtifacts = db.secretArtifacts ∧
    next.providerArtifacts = updateWhere (notable adapter.model id)
      (fun a => { a with payload := setMember a.payload "consumed" (epoch dateNow) }) db.providerArtifacts ∧
    out = if db.providerArtifacts.countP (notable adapter.model id) == 1 then .consumed else .missing := by
  unfold consume at ok
  rw [if_neg (by simp [plain])] at ok
  cases ok
  exact ⟨rfl,rfl,rfl⟩

end Tables

section Contents
variable {node : Node} {codec : SecretArtifactCodec} {scope : List String} {db next : Db}

theorem contentsSame (secrets : next.secretArtifacts = db.secretArtifacts)
    (providers : next.providerArtifacts = db.providerArtifacts) :
    contents node codec scope next = contents node codec scope db := by
  unfold contents
  rw [secrets,providers]

theorem contentsSecret {model id : String} (mem : id ∈ scope) (secret : secretArtifactModels.contains model = true) :
    contents node codec scope db model id = view (secretAt node codec) secretEntry db.secretArtifacts (model,id) := by
  rw [contents,if_pos mem,if_pos secret]

theorem contentsPlain {model id : String} (mem : id ∈ scope) (plain : secretArtifactModels.contains model = false) :
    contents node codec scope db model id = view plainAt plainEntry db.providerArtifacts (model,id) := by
  rw [contents,if_pos mem,if_neg (by rw [plain]; decide)]

theorem contentsOutside {model id : String} (outside : id ∉ scope) : contents node codec scope db model id = none := by
  rw [contents,if_neg outside]

theorem contentsAre {s : Store} (outside : ∀ model id, id ∉ scope → s model id = none)
    (secrets : ∀ model id, id ∈ scope → secretArtifactModels.contains model = true →
      view (secretAt node codec) secretEntry next.secretArtifacts (model,id) = s model id)
    (plain : ∀ model id, id ∈ scope → secretArtifactModels.contains model = false →
      view plainAt plainEntry next.providerArtifacts (model,id) = s model id) :
    contents node codec scope next = s := by
  funext model id
  by_cases mem : id ∈ scope
  · cases kind : secretArtifactModels.contains model with
    | true => rw [contentsSecret mem kind,secrets model id mem kind]
    | false => rw [contentsPlain mem kind,plain model id mem kind]
  · rw [contentsOutside mem,outside model id mem]

theorem upsertPuts (sound : Sound node codec scope db) (apart : ∀ i ∈ scope, Apart node codec i scope)
    {adapter : OidcAdapter} {i : String} {payload : ProviderPayload} {expiresIn : Option Int}
    {dateNow : Time} (same : adapter.codec = codec) (memI : i ∈ scope)
    (ok : upsert node adapter i payload expiresIn dateNow db = .ok next) :
    contents node codec scope next = Change.apply (contents node codec scope db)
      (.put adapter.model i ⟨storedTenant payload,named adapter.model i payload,
        expiresIn.map fun s => dateNow + seconds s,none⟩) := by
  have outside : ∀ model id, id ∉ scope → Change.apply (contents node codec scope db)
      (.put adapter.model i ⟨storedTenant payload,named adapter.model i payload,
        expiresIn.map fun s => dateNow + seconds s,none⟩) model id = none := by
    intro model id out
    simp only [putApplied]
    rw [if_neg (by rintro ⟨_,rfl⟩; exact out memI),contentsOutside out]
  rcases upsertTables ok with ⟨secret,providers,lookup,current_,secrets⟩ | ⟨plain,secrets,providers⟩
  · refine contentsAre outside ?_ ?_
    · intro model id mem kind
      rw [secrets,secretPut sound apart mem same memI current_]
      simp only [putApplied,contentsSecret mem kind]
      split
      · rename_i here
        obtain ⟨rfl,rfl⟩ := here
        simp only [secretEntry,storedSecret,named,kind,if_true]
      · rfl
    · intro model id mem kind
      simp only [putApplied,contentsPlain mem kind,providers]
      rw [if_neg]
      rintro ⟨rfl,_⟩
      rw [secretModel,kind] at secret
      contradiction
  · refine contentsAre outside ?_ ?_
    · intro model id mem kind
      simp only [putApplied,contentsSecret mem kind,secrets]
      rw [if_neg]
      rintro ⟨rfl,_⟩
      rw [secretModel,kind] at plain
      contradiction
    · intro model id mem kind
      rw [providers,plainPut]
      simp only [putApplied,contentsPlain mem kind]
      split
      · rename_i here
        obtain ⟨rfl,rfl⟩ := here
        simp only [plainEntry,named,kind,Bool.false_eq_true,if_false]
      · rfl

theorem destroyDrops (sound : Sound node codec scope db) (apart : ∀ i ∈ scope, Apart node codec i scope)
    {adapter : OidcAdapter} {i : String} (same : adapter.codec = codec) (memI : i ∈ scope) :
    contents node codec scope (destroy node adapter i db) =
      Change.apply (contents node codec scope db) (.drop adapter.model i) := by
  refine contentsAre ?_ ?_ ?_
  · intro model id out
    simp only [dropApplied]
    rw [if_neg (by rintro ⟨_,rfl⟩; exact out memI),contentsOutside out]
  · intro model id mem kind
    simp only [dropApplied,contentsSecret mem kind]
    unfold destroy
    split
    · rw [same]
      exact secretDropped sound apart mem memI
    · rename_i plain
      rw [if_neg]
      rintro ⟨rfl,_⟩
      exact plain kind
  · intro model id mem kind
    simp only [dropApplied,contentsPlain mem kind]
    unfold destroy
    split
    · rename_i secret
      rw [if_neg]
      rintro ⟨rfl,_⟩
      rw [secretModel,kind] at secret
      contradiction
    · exact plainDropped

theorem consumeMarks (sound : Sound node codec scope db) (apart : ∀ i ∈ scope, Apart node codec i scope)
    {m i : String} (secret : secretArtifactModels.contains m = true) (memI : i ∈ scope) {now : Time}
    {lookup : SecretArtifactLookup} (candidate : lookup ∈ candidates node codec i) {a : SecretArtifact}
    (ha : a ∈ db.secretArtifacts) (hit : consumable m lookup now a = true)
    (secrets : next.secretArtifacts = updateWhere (consumable m lookup now)
      (fun a => { a with consumedAt := some now }) db.secretArtifacts)
    (providers : next.providerArtifacts = db.providerArtifacts) :
    contents node codec scope next = Change.apply (contents node codec scope db) (.consume m i now) := by
  refine contentsAre ?_ ?_ ?_
  · intro model id out
    simp only [consumeApplied]
    rw [if_neg (by rintro ⟨_,rfl⟩; exact out memI),contentsOutside out]
  · intro model id mem kind
    rw [secrets,secretConsumed sound apart mem memI candidate ha hit]
    simp only [consumeApplied,contentsSecret mem kind]
  · intro model id mem kind
    simp only [consumeApplied,contentsPlain mem kind,providers]
    rw [if_neg]
    rintro ⟨rfl,_⟩
    rw [kind] at secret
    contradiction

theorem consumeNotes (sound : Sound node codec scope db) {m i : String} (plain : secretArtifactModels.contains m = false) (memI : i ∈ scope) {at_ : Time}
    {a : ProviderArtifact} (ha : a ∈ db.providerArtifacts) (hit : notable m i a = true)
    (secrets : next.secretArtifacts = db.secretArtifacts)
    (providers : next.providerArtifacts = updateWhere (notable m i)
      (fun a => { a with payload := setMember a.payload "consumed" (epoch at_) }) db.providerArtifacts) :
    contents node codec scope next = Change.apply (contents node codec scope db) (.note m i at_) := by
  refine contentsAre ?_ ?_ ?_
  · intro model id out
    simp only [noteApplied]
    rw [if_neg (by rintro ⟨_,rfl⟩; exact out memI),contentsOutside out]
  · intro model id mem kind
    simp only [noteApplied,contentsSecret mem kind,secrets]
    rw [if_neg]
    rintro ⟨rfl,_⟩
    rw [kind] at plain
    contradiction
  · intro model id mem kind
    rw [providers,plainNoted sound ha hit]
    simp only [noteApplied,contentsPlain mem kind]

theorem grantExpires {grantId : GrantId} {at_ : Time}
    (secrets : next.secretArtifacts = updateWhere (refreshArtifactOf grantId)
      (fun a => { a with expiresAt := some at_ }) db.secretArtifacts)
    (providers : next.providerArtifacts = db.providerArtifacts) :
    contents node codec scope next = Change.apply (contents node codec scope db) (.expire grantId at_) := by
  refine contentsAre ?_ ?_ ?_
  · intro model id out
    simp [expireApplied,contentsOutside out]
  · intro model id mem kind
    rw [secrets,secretExpired]
    simp only [expireApplied,contentsSecret mem kind]
  · intro model id mem kind
    simp only [expireApplied,contentsPlain mem kind,providers]
    rw [if_neg]
    rintro rfl
    simp [secretArtifactModels] at kind

theorem artifactsForgotten (sound : Sound node codec scope db) (apart : ∀ i ∈ scope, Apart node codec i scope)
    {p : SecretArtifact → Bool} {q : ProviderArtifact → Bool} {tenants : TenantId → Bool}
    {grants : GrantId → Bool}
    (sameP : ∀ a, p a = (a.tenantId.any tenants || (memberText a.payload "grantId").any grants))
    (sameQ : ∀ a, q a = (a.tenantId.any tenants || (memberText a.payload "grantId").any grants))
    (secrets : next.secretArtifacts = deleteWhere p db.secretArtifacts)
    (providers : next.providerArtifacts = deleteWhere q db.providerArtifacts) :
    contents node codec scope next = Change.apply (contents node codec scope db) (.forget tenants grants) := by
  refine contentsAre ?_ ?_ ?_
  · intro model id out
    simp [forgetApplied,contentsOutside out]
  · intro model id mem kind
    rw [secrets,secretForgotten sound apart mem sameP]
    simp only [forgetApplied,contentsSecret mem kind]
  · intro model id mem kind
    rw [providers,plainForgotten sound sameQ]
    simp only [forgetApplied,contentsPlain mem kind]

end Contents

inductive ProviderWrite (scope : List String) (before : List ProviderArtifact) : List ProviderArtifact → Prop where
  | same : ProviderWrite scope before before
  | put (row : ProviderArtifact) (within : row.artifactId ∈ scope) :
      ProviderWrite scope before (upsertRow providerClash row (fun _ => row) before)
  | moved (p : ProviderArtifact → Bool) (f : ProviderArtifact → ProviderArtifact)
      (keeps : ∀ a, (f a).model = a.model ∧ (f a).artifactId = a.artifactId) :
      ProviderWrite scope before (updateWhere p f before)
  | dropped (p : ProviderArtifact → Bool) : ProviderWrite scope before (deleteWhere p before)

section Steps
variable {node : Node} {codec : SecretArtifactCodec} {scope : List String} {db next : Db} {e : Event} {reply : Reply}

theorem advanceExact {now : Time} {jobId : JobId} {observedAt : Time}
    (ok : exec node ⟨now,.advanceDeletionJob jobId observedAt⟩ db = .ok (next,reply)) :
    next = (advanceDeletionJob jobId observedAt now db).1 ∧
    reply = .report (advanceDeletionJob jobId observedAt now db).2 := by
  simp only [exec] at ok
  obtain ⟨value,ran,told⟩ := answeredOk ok
  rw [Except.ok.inj ran]
  exact ⟨rfl,told⟩

theorem execProviders (admitted : Admitted codec scope e) (ok : exec node e db = .ok (next,reply)) :
    ProviderWrite scope db.providerArtifacts next.providerArtifacts := by
  have idle : Table.providerArtifacts ∉ touches e.op →
      ProviderWrite scope db.providerArtifacts next.providerArtifacts := by
    intro outside
    have same : next.providerArtifacts = db.providerArtifacts := execOnly ok .providerArtifacts outside
    rw [same]
    exact .same
  obtain ⟨now,op⟩ := e
  cases op <;> first | (refine idle ?_; simp only [touches]; decide) | skip
  case upsert adapter id payload expiresIn dateNow =>
    rcases upsertTables (silentOk ok) with ⟨_,same,_⟩ | ⟨_,_,put⟩
    · rw [same]
      exact .same
    · rw [put]
      exact .put _ (admitted.within id rfl)
  case destroy adapter id =>
    cases ok
    unfold destroy
    split
    · exact .same
    · exact .dropped _
  case consume adapter id dateNow =>
    obtain ⟨out,ran,_⟩ := answeredOk ok
    cases kind : secretModel adapter with
    | true =>
      have same : next.providerArtifacts = db.providerArtifacts := by
        rcases consumeCases kind ran with tried | ⟨_,⟨_,replayed⟩ | ⟨_,rfl⟩⟩
        · exact consumeLookupsOnly tried .providerArtifacts (by decide)
        · exact replayLookupsOnly replayed .providerArtifacts (by decide)
        · rfl
      rw [same]
      exact .same
    | false =>
      rw [(consumePlainTables kind ran).2.1]
      exact .moved _ _ fun _ => ⟨rfl,rfl⟩
  case revokeByGrantId adapter reason grantId =>
    obtain ⟨_,_,_,providers⟩ := revokeByGrantIdTables (silentOk ok)
    rw [providers]
    exact .dropped _
  case advanceDeletionJob jobId observedAt =>
    obtain ⟨rfl,_⟩ := advanceExact ok
    rcases advanceTables jobId observedAt now db with ⟨_,same⟩ | ⟨_,_,_,_,providers⟩
    · rw [same]
      exact .same
    · rw [providers]
      exact .dropped _

theorem providersKept {before after : List ProviderArtifact} (write : ProviderWrite scope before after)
    (indexed : Indexed providerClash before) (inScope : ∀ a ∈ before, a.artifactId ∈ scope) :
    Indexed providerClash after ∧ ∀ a ∈ after, a.artifactId ∈ scope := by
  cases write with
  | same => exact ⟨indexed,inScope⟩
  | put row within =>
    refine ⟨indexedUpsert providerClashSymm ?_ indexed,?_⟩
    · intro a b hitA hitB
      simp only [providerClash,Bool.and_eq_true,beq_iff_eq] at hitA hitB ⊢
      exact ⟨hitA.1.symm.trans hitB.1,hitA.2.symm.trans hitB.2⟩
    · intro a mem
      rcases memUpsertRow mem with old | rfl | ⟨_,_,_,rfl⟩
      · exact inScope a old
      · exact within
      · exact within
  | moved p f keeps =>
    refine ⟨indexedUpdate indexed ?_,?_⟩
    · intro a b hit
      have key : ∀ c, (if p c then f c else c).model = c.model ∧ (if p c then f c else c).artifactId = c.artifactId := by
        intro c
        split
        · exact keeps c
        · exact ⟨rfl,rfl⟩
      simpa only [providerClash,(key a).1,(key a).2,(key b).1,(key b).2] using hit
    · exact columnAll (·.artifactId) (· ∈ scope) (fun a => (keeps a).2) inScope
  | dropped p => exact ⟨indexedDelete indexed,fun a mem => inScope a (memDeleteWhere.mp mem).1⟩

theorem keyedMono {model : String} {ids more : List String} (within : ∀ i ∈ ids, i ∈ more)
    (keyed : Keyed node codec model ids db) : Keyed node codec model more db := by
  intro a mem ours
  obtain ⟨i,hi,found⟩ := keyed a mem ours
  exact ⟨i,within i hi,found⟩

theorem storedCalled {model : String} {i : String} (stored : storedId model e = some i) : callId e = some i := by
  obtain ⟨now,op⟩ := e
  cases op <;> simp only [storedId] at stored <;> try contradiction
  split at stored <;> cases stored
  rfl

theorem soundStep (admitted : Admitted codec scope e) (sound : Sound node codec scope db) :
    Sound node codec scope (step node db e) := by
  have providers : Indexed providerClash (step node db e).providerArtifacts ∧
      ∀ a ∈ (step node db e).providerArtifacts, a.artifactId ∈ scope := by
    rcases settleCases db (exec node e db) with same | ⟨next,reply,ok,done⟩
    · rw [step,same]
      exact ⟨sound.providers,sound.inScope⟩
    · rw [step,done]
      exact providersKept (execProviders admitted ok) sound.providers sound.inScope
  refine ⟨stepWellFormed sound.wf,?_,providers.1,providers.2⟩
  intro model
  refine keyedMono ?_ (keyedStep sound.wf admitted.codecs (sound.keyed model))
  intro i mem
  rcases List.mem_append.mp mem with old | new
  · exact old
  · exact admitted.within i (storedCalled (Option.mem_toList.mp new))

end Steps

section Reading
variable {node : Node} {codec : SecretArtifactCodec} {scope : List String} {db : Db} {adapter : OidcAdapter} {id : String}
variable {now : Time}

theorem findSomeOnly {α β : Type} {f : α → Option β} {l : List α} {v : β} (some_ : ∃ x ∈ l, f x = some v)
    (only : ∀ x ∈ l, ∀ w, f x = some w → w = v) : l.findSome? f = some v := by
  cases found : l.findSome? f with
  | none =>
    obtain ⟨x,mem,hit⟩ := some_
    rw [List.findSome?_eq_none_iff.mp found x mem] at hit
    contradiction
  | some w =>
    obtain ⟨x,mem,hit⟩ := List.exists_of_findSome?_eq_some found
    rw [only x mem w hit]

theorem secretThere (sound : Sound node codec scope db) (apart : ∀ i ∈ scope, Apart node codec i scope) {model : String}
    (mem : id ∈ scope) (secret : secretArtifactModels.contains model = true) {entry : Entry} :
    contents node codec scope db model id = some entry ↔
      ∃ a ∈ db.secretArtifacts, located node codec model id a = true ∧ secretEntry (model,id) a = entry := by
  rw [contentsSecret mem secret]
  exact viewSome (secretSingle sound apart mem)

theorem shownPresented {model : String} {a : SecretArtifact} :
    shown now (secretEntry (model,id) a) = if unexpired now a.expiresAt then some (presented id a) else none := by
  simp only [shown,secretEntry,presented,epoch]
  cases a.consumedAt <;> rfl

theorem shownPlain {key : String × String} {a : ProviderArtifact} :
    shown now (plainEntry key a) = if unexpired now a.expiresAt then some a.payload else none := rfl

theorem findReads (sound : Sound node codec scope db) (apart : ∀ i ∈ scope, Apart node codec i scope)
    (same : adapter.codec = codec) (mem : id ∈ scope) :
    find node adapter id now db = read (contents node codec scope db) adapter.model id now := by
  unfold find read
  cases kind : secretModel adapter with
  | false =>
    rw [if_neg (by decide),contentsPlain mem kind]
    cases there : view plainAt plainEntry db.providerArtifacts (adapter.model,id) with
    | none =>
      have nothing := viewNone.mp there
      rw [List.find?_eq_none.mpr]
      · rfl
      · intro a ha
        have missed : providerAt adapter.model id a = false := nothing a ha
        simp [missed]
    | some entry =>
      obtain ⟨a,ha,hit,rfl⟩ := (viewSome (providerSingle sound)).mp there
      have hit : providerAt adapter.model id a = true := hit
      show _ = shown now (plainEntry (adapter.model,id) a)
      rw [shownPlain]
      by_cases fresh : unexpired now a.expiresAt = true
      · have found : (db.providerArtifacts.find? fun a => providerAt adapter.model id a && unexpired now a.expiresAt) =
            some a := by
          cases first : db.providerArtifacts.find? fun a => providerAt adapter.model id a && unexpired now a.expiresAt with
          | none => simpa [hit,fresh] using List.find?_eq_none.mp first a ha
          | some b =>
            have at_ := List.find?_some first
            simp only [Bool.and_eq_true] at at_
            rw [providerSingle sound b (List.mem_of_find?_eq_some first) a ha at_.1 hit]
        rw [found,if_pos fresh]
        rfl
      · rw [if_neg fresh,List.find?_eq_none.mpr]
        · rfl
        · intro b hb chosen
          simp only [Bool.and_eq_true] at chosen
          rw [providerSingle sound b hb a ha chosen.1 hit] at chosen
          exact fresh chosen.2
  | true =>
    rw [if_pos rfl,same]
    cases there : contents node codec scope db adapter.model id with
    | none =>
      rw [contentsSecret mem kind] at there
      have nothing := viewNone.mp there
      refine List.findSome?_eq_none_iff.mpr ?_
      intro lookup candidate
      rw [List.find?_eq_none.mpr]
      · rfl
      · intro a ha chosen
        simp only [Bool.and_eq_true] at chosen
        have missed : located node codec adapter.model id a = false := nothing a ha
        rw [locatedIff.mpr ⟨lookup,candidate,chosen.1⟩] at missed
        contradiction
    | some entry =>
      obtain ⟨a,ha,hit,rfl⟩ := (secretThere sound apart mem kind).mp there
      show _ = shown now (secretEntry (adapter.model,id) a)
      rw [shownPresented]
      -- whatever a lookup of the id finds is this row
      have only : ∀ lookup ∈ candidates node codec id, ∀ b, (db.secretArtifacts.find? fun a =>
          atLookup adapter.model lookup a && unexpired now a.expiresAt) = some b → b = a ∧ unexpired now a.expiresAt = true := by
        intro lookup candidate b first
        have chosen := List.find?_some first
        simp only [Bool.and_eq_true] at chosen
        have one := locatedUnique sound.wf (sound.keyed adapter.model) (apart id mem) (List.mem_of_find?_eq_some first) ha
          (locatedIff.mpr ⟨lookup,candidate,chosen.1⟩) hit
        rw [one] at chosen
        exact ⟨one,chosen.2⟩
      by_cases fresh : unexpired now a.expiresAt = true
      · rw [if_pos fresh]
        refine findSomeOnly ?_ ?_
        · obtain ⟨_,lookup,hl,at_⟩ := locatedStored (sound.keyed adapter.model) (apart id mem) ha hit
          refine ⟨lookup,currentCandidate hl,?_⟩
          cases first : db.secretArtifacts.find? fun a => atLookup adapter.model lookup a && unexpired now a.expiresAt with
          | none => simpa [at_,fresh] using List.find?_eq_none.mp first a ha
          | some b =>
            rw [(only lookup (currentCandidate hl) b first).1]
            rfl
        · intro lookup candidate w found
          obtain ⟨b,first,rfl⟩ := Option.map_eq_some_iff.mp found
          rw [(only lookup candidate b first).1]
      · rw [if_neg fresh]
        refine List.findSome?_eq_none_iff.mpr ?_
        intro lookup candidate
        cases first : db.secretArtifacts.find? fun a => atLookup adapter.model lookup a && unexpired now a.expiresAt with
        | none => rfl
        | some b => exact absurd (only lookup candidate b first).2 fresh

theorem findSecondaryReads (sound : Sound node codec scope db) (plain : secretModel adapter = false) (field value : String) :
    match findSecondary adapter field value now db with
    | some payload => memberText payload field = some value ∧
        ∃ id ∈ scope, read (contents node codec scope db) adapter.model id now = some payload
    | none => ∀ id ∈ scope, ∀ payload, read (contents node codec scope db) adapter.model id now = some payload →
        memberText payload field ≠ some value := by
  unfold findSecondary
  rw [if_neg (by rw [plain]; decide)]
  cases first : db.providerArtifacts.find? fun a =>
      a.model == adapter.model && memberText a.payload field == some value && unexpired now a.expiresAt with
  | some a =>
    have chosen := List.find?_some first
    have ha := List.mem_of_find?_eq_some first
    simp only [Bool.and_eq_true,beq_iff_eq] at chosen
    refine ⟨chosen.1.2,a.artifactId,sound.inScope a ha,?_⟩
    have there : view plainAt plainEntry db.providerArtifacts (adapter.model,a.artifactId) =
        some (plainEntry (adapter.model,a.artifactId) a) :=
      (viewSome (providerSingle sound)).mpr ⟨a,ha,by simp [plainAt,providerAt,chosen.1.1],rfl⟩
    rw [read,contentsPlain (sound.inScope a ha) plain,there]
    show shown now (plainEntry _ a) = _
    rw [shownPlain,if_pos chosen.2]
  | none =>
    intro id mem payload found text
    obtain ⟨entry,there,seen⟩ := Option.bind_eq_some_iff.mp found
    rw [contentsPlain mem plain] at there
    obtain ⟨a,ha,hit,rfl⟩ := (viewSome (providerSingle sound)).mp there
    rw [shownPlain] at seen
    split at seen <;> cases seen
    simp only [plainAt,providerAt,Bool.and_eq_true,beq_iff_eq] at hit
    refine List.find?_eq_none.mp first a ha ?_
    simp only [Bool.and_eq_true,beq_iff_eq]
    exact ⟨⟨hit.1,text⟩,‹_›⟩

end Reading

section Consuming
variable {node : Node} {adapter : OidcAdapter} {id : String} {now dateNow : Time} {db next : Db}

theorem limitedRefresh {lookups : List SecretArtifactLookup}
    (ok : consumeLookups node adapter now lookups db = .ok (next,some .rateLimited)) : refreshModel adapter = true := by
  induction lookups with
  | nil => cases ok
  | cons lookup rest ih =>
    unfold consumeLookups at ok
    split at ok
    · exact ih ok
    · split at ok
      · assumption
      · cases ok

theorem replayMissing {lookups : List SecretArtifactLookup}
    (ok : replayLookups adapter now lookups db = .ok (next,.missing)) :
    ∀ lookup ∈ lookups, replayedGrant adapter.model db lookup = none := by
  induction lookups with
  | nil => simp
  | cons lookup rest ih =>
    unfold replayLookups at ok
    split at ok
    · simp only [bindOk] at ok
      obtain ⟨_,_,last⟩ := ok
      cases last
    · rename_i none_
      intro l mem
      rcases List.mem_cons.mp mem with rfl | later
      · exact none_
      · exact ih ok l later

theorem consumeMissing (secret : secretModel adapter = true)
    (ok : consume node adapter id dateNow now db = .ok (next,.missing)) :
    next = db ∧ consumeLookups node adapter now (candidates node adapter.codec id) db = .ok (db,none) ∧
    (refreshModel adapter = true →
      replayLookups adapter now (candidates node adapter.codec id) db = .ok (db,.missing)) := by
  unfold consume at ok
  rw [if_pos secret] at ok
  simp only [bindOk] at ok
  obtain ⟨⟨tried,outcome⟩,hc,ok⟩ := ok
  cases outcome with
  | some outcome =>
    cases ok
    rcases consumeLookupsCases hc with ⟨bad,_⟩ | ⟨_,_,_,_,_,⟨bad,_⟩ | ⟨bad,_⟩⟩ <;> cases bad
  | none =>
    have same := consumeLookupsNone hc
    subst same
    simp only at ok
    split at ok
    · rename_i refresh
      rcases replayLookupsCases ok with ⟨_,same⟩ | ⟨bad,_⟩
      · subst same
        exact ⟨rfl,hc,fun _ => ok⟩
      · cases bad
    · rename_i other
      cases ok
      exact ⟨rfl,hc,fun refresh => absurd refresh other⟩

end Consuming

theorem silentReply {out : Except Fault Db} {next : Db} {reply : Reply} (ok : silent out = .ok (next,reply)) :
    reply = .done ∧ out = .ok next := by
  cases out with
  | error e => cases ok
  | ok db =>
    cases ok
    exact ⟨rfl,rfl⟩

section Moving
variable {node : Node} {codec : SecretArtifactCodec} {scope : List String} {db next : Db} {e : Event} {reply : Reply}

theorem consumeMoves (sound : Sound node codec scope db) (apart : ∀ i ∈ scope, Apart node codec i scope)
    {adapter : OidcAdapter} {id : String} {now dateNow : Time} {out : ConsumeOutcome} (same : adapter.codec = codec)
    (mem : id ∈ scope) (secret : secretModel adapter = true)
    (ok : consume node adapter id dateNow now db = .ok (next,out)) :
    Moves (contents node codec scope db) (⟨now,.consume adapter id dateNow⟩,some (.consumption out))
      (contents node codec scope next) := by
  subst same
  have there := fun {entry} => @secretThere node adapter.codec scope db id sound apart adapter.model mem secret entry
  by_cases lost : out = .missing
  · subst lost
    obtain ⟨rfl,passed,quiet⟩ := consumeMissing secret ok
    refine .missing secret fun entry found => ?_
    obtain ⟨a,ha,hit,rfl⟩ := there.mp found
    obtain ⟨_,lookup,hl,at_⟩ := locatedStored (sound.keyed adapter.model) (apart id mem) ha hit
    refine ⟨?_,?_⟩
    · rcases consumeLookupsCases passed with ⟨_,_,stale⟩ | ⟨_,_,_,_,_,⟨bad,_⟩ | ⟨bad,_⟩⟩
      · have unusable := stale lookup (currentCandidate hl) a ha
        simp only [consumable,at_,Bool.true_and] at unusable
        exact unusable
      · cases bad
      · cases bad
    · intro refresh used
      have none_ := replayMissing (quiet refresh) lookup (currentCandidate hl)
      rw [grantShown]
      unfold replayedGrant at none_
      cases first : next.secretArtifacts.find? fun a => atLookup adapter.model lookup a && a.consumedAt.isSome with
      | none =>
        have missed := List.find?_eq_none.mp first a ha
        have used : a.consumedAt.isSome = true := used
        simp [at_,used] at missed
      | some b =>
        have chosen := List.find?_some first
        simp only [Bool.and_eq_true] at chosen
        rw [first,Option.bind_some] at none_
        rw [← locatedUnique sound.wf (sound.keyed adapter.model) (apart id mem) (List.mem_of_find?_eq_some first) ha
          (locatedIff.mpr ⟨lookup,currentCandidate hl,chosen.1⟩) hit]
        exact none_
  rcases consumeCases secret ok with tried | ⟨_,⟨refresh,replayed⟩ | ⟨rfl,_⟩⟩
  · have providers : next.providerArtifacts = db.providerArtifacts :=
      consumeLookupsOnly tried .providerArtifacts (by decide)
    rcases consumeLookupsCases tried with ⟨bad,_⟩ | ⟨lookup,candidate,a,ha,hit,did⟩
    · cases bad
    · have found := there.mpr ⟨a,ha,(consumableLocated candidate hit).1,rfl⟩
      have unused : usable now (secretEntry (adapter.model,id) a) = true := by
        simp only [consumable,Bool.and_eq_true] at hit
        simp only [usable,secretEntry,hit.1.2,hit.2,Bool.and_self]
      rcases did with ⟨won,secrets⟩ | ⟨refused,elsewhere⟩
      · cases won
        rw [consumeMarks sound apart secret mem candidate ha hit secrets providers]
        exact .consumed secret found unused
      · cases refused
        rw [contentsSame elsewhere.secrets providers]
        exact .limited (limitedRefresh tried) found unused
  · rcases replayLookupsCases replayed with ⟨rfl,_⟩ | ⟨rfl,lookup,candidate,grantId,flag,granted,revoked⟩
    · exact absurd rfl lost
    · obtain ⟨a,first,text⟩ := Option.bind_eq_some_iff.mp granted
      have chosen := List.find?_some first
      simp only [Bool.and_eq_true] at chosen
      have found := there.mpr ⟨a,List.mem_of_find?_eq_some first,locatedIff.mpr ⟨lookup,candidate,chosen.1⟩,rfl⟩
      have bound : memberText (secretEntry (adapter.model,id) a).payload "grantId" = some grantId := by
        rw [grantShown]
        exact text
      refine .replayed refresh found chosen.2 bound ?_
      obtain ⟨providers,⟨_,secrets⟩ | ⟨_,secrets⟩⟩ := revokeRefreshGrantTables revoked
      · exact .inl (contentsSame secrets providers)
      · exact .inr (grantExpires secrets providers)
  · exact absurd rfl lost

theorem consumePlainMoves (sound : Sound node codec scope db) {adapter : OidcAdapter} {id : String}
    {now dateNow : Time} {out : ConsumeOutcome} (mem : id ∈ scope) (plain : secretModel adapter = false)
    (ok : consume node adapter id dateNow now db = .ok (next,out)) :
    Moves (contents node codec scope db) (⟨now,.consume adapter id dateNow⟩,some (.consumption out))
      (contents node codec scope next) := by
  obtain ⟨secrets,providers,told⟩ := consumePlainTables plain ok
  have atMost : db.providerArtifacts.countP (notable adapter.model id) ≤ 1 := by
    refine indexedCount sound.providers ?_
    intro a _ b _ hitA hitB
    simp only [notable,providerAt,Bool.and_eq_true,beq_iff_eq] at hitA hitB
    simp [providerClash,hitA.1.1,hitA.1.2,hitB.1.1,hitB.1.2]
  by_cases some_ : ∃ a ∈ db.providerArtifacts, notable adapter.model id a = true
  · obtain ⟨a,ha,hit⟩ := some_
    have one : db.providerArtifacts.countP (notable adapter.model id) = 1 := by
      have positive := List.countP_pos_iff.mpr ⟨a,ha,hit⟩
      omega
    rw [one] at told
    subst told
    rw [consumeNotes sound plain mem ha hit secrets providers]
    simp only [notable,Bool.and_eq_true,Option.isNone_iff_eq_none] at hit
    have there : contents node codec scope db adapter.model id = some (plainEntry (adapter.model,id) a) := by
      rw [contentsPlain mem plain]
      exact (viewSome (providerSingle sound)).mpr ⟨a,ha,hit.1,rfl⟩
    exact .noted plain there hit.2
  · have skipped : ∀ a ∈ db.providerArtifacts, notable adapter.model id a = false :=
      fun a ha => by simpa using fun hit => some_ ⟨a,ha,hit⟩
    rw [updateNone skipped] at providers
    have zero : db.providerArtifacts.countP (notable adapter.model id) = 0 :=
      List.countP_eq_zero.mpr fun a ha hit => some_ ⟨a,ha,hit⟩
    rw [zero] at told
    subst told
    rw [contentsSame secrets providers]
    refine .unnoted plain fun entry found => ?_
    rw [contentsPlain mem plain] at found
    obtain ⟨a,ha,hit,rfl⟩ := (viewSome (providerSingle sound)).mp found
    have hit : providerAt adapter.model id a = true := hit
    have missed := skipped a ha
    simp only [notable,hit,Bool.true_and,Option.isNone_eq_false_iff] at missed
    exact missed

theorem stepMoves (sound : Sound node codec scope db) (apart : ∀ i ∈ scope, Apart node codec i scope)
    (admitted : Admitted codec scope e) :
    Moves (contents node codec scope db) (replied node db e) (contents node codec scope (step node db e)) := by
  cases ran : exec node e db with
  | error fault =>
    simp only [replied,step,ran,settle]
    exact .refused
  | ok out =>
    obtain ⟨next,reply⟩ := out
    simp only [replied,step,ran,settle]
    have idle : Table.secretArtifacts ∉ touches e.op → Table.providerArtifacts ∉ touches e.op →
        Moves (contents node codec scope db) (e,some reply) (contents node codec scope next) := by
      intro secrets providers
      rw [contentsSame (execOnly ran .secretArtifacts secrets) (execOnly ran .providerArtifacts providers)]
      exact .elsewhere secrets providers
    obtain ⟨now,op⟩ := e
    cases op <;> first | (refine idle ?_ ?_ <;> (simp only [touches]; decide)) | skip
    case revokeRefreshGrant grantId observedAt reason =>
      obtain ⟨out,done,rfl⟩ := answeredOk ran
      obtain ⟨providers,⟨rfl,secrets⟩ | ⟨rfl,secrets⟩⟩ := revokeRefreshGrantTables done
      · rw [contentsSame secrets providers]
        exact .unknown
      · rw [grantExpires secrets providers]
        exact .revoked
    case upsert adapter id payload expiresIn dateNow =>
      obtain ⟨rfl,done⟩ := silentReply ran
      rw [upsertPuts sound apart (admitted.codecs _ rfl) (admitted.within id rfl) done]
      exact .put
    case destroy adapter id =>
      obtain ⟨rfl,done⟩ := silentReply ran
      cases done
      rw [destroyDrops sound apart (admitted.codecs _ rfl) (admitted.within id rfl)]
      exact .dropped
    case consume adapter id dateNow =>
      obtain ⟨out,done,rfl⟩ := answeredOk ran
      cases kind : secretModel adapter with
      | true => exact consumeMoves sound apart (admitted.codecs _ rfl) (admitted.within id rfl) kind done
      | false => exact consumePlainMoves sound (admitted.within id rfl) kind done
    case revokeByGrantId adapter reason grantId =>
      obtain ⟨rfl,done⟩ := silentReply ran
      obtain ⟨middle,expired,secrets,providers⟩ := revokeByGrantIdTables done
      have bound : ∀ payload : ProviderPayload, ∀ tenant : Option TenantId,
          (memberText payload "grantId" == some grantId) =
            (tenant.any (fun _ => false) || (memberText payload "grantId").any (· == grantId)) := by
        intro payload tenant
        cases memberText payload "grantId" <;> cases tenant <;> simp
      have gone : next.secretArtifacts =
          deleteWhere (fun a => memberText a.payload "grantId" == some grantId) db.secretArtifacts := by
        rcases expired with rfl | rfl
        · exact secrets
        · rw [secrets,deleteWhere,filterUpdate,deleteWhere]
          · intro a _ other
            simp only [Bool.not_eq_true'] at other
            simp [refreshArtifactOf,other]
          · exact fun _ => rfl
      rw [artifactsForgotten sound apart (fun a => bound a.payload a.tenantId) (fun a => bound a.payload a.tenantId)
        gone providers]
      exact .withdrawn
    case advanceDeletionJob jobId observedAt =>
      obtain ⟨rfl,rfl⟩ := advanceExact ran
      rcases advanceTables jobId observedAt now db with ⟨secrets,providers⟩ | ⟨done,tenants,grants,secrets,providers⟩
      · rw [contentsSame secrets providers]
        exact .waiting
      · rw [artifactsForgotten sound apart (fun _ => rfl) (fun _ => rfl) secrets providers]
        exact .purged tenants grants done

end Moving

/- The whole platform refines the store: every run is one of its traces, and at its end the
adapter finds what the store says. -/
theorem adapterRefines (node : Node) (codec : SecretArtifactCodec) (scope : List String) (es : List Event)
    (admitted : ∀ e ∈ es, Admitted codec scope e) (apart : ∀ i ∈ scope, Apart node codec i scope) :
    let db := run (step node) Db.empty es
    let s := contents node codec scope db
    Trace Moves Store.empty (labels (step node) (replied node) Db.empty es) s ∧
    (∀ adapter : OidcAdapter, adapter.codec = codec → ∀ id ∈ scope, ∀ now,
      find node adapter id now db = read s adapter.model id now) ∧
    ∀ adapter : OidcAdapter, secretModel adapter = false → ∀ field value now,
      match findSecondary adapter field value now db with
      | some payload => memberText payload field = some value ∧
          ∃ id ∈ scope, read s adapter.model id now = some payload
      | none => ∀ id ∈ scope, ∀ payload, read s adapter.model id now = some payload →
          memberText payload field ≠ some value := by
  intro db s
  have start : Sound node codec scope Db.empty := by
    refine ⟨wellFormedEmpty,fun model a mem => ?_,indexedNil _,fun a mem => ?_⟩ <;> simp [Db.empty] at mem
  have empty : contents node codec scope Db.empty = Store.empty := by
    funext model id
    simp [contents,view,Db.empty,Store.empty]
  have keeps : ∀ db e, Sound node codec scope db → Admitted codec scope e → Sound node codec scope (step node db e) :=
    fun _ _ sound fine => soundStep fine sound
  have sound : Sound node codec scope db := admittedRun keeps start admitted
  refine ⟨?_,?_,?_⟩
  · rw [← empty]
    exact simulatedRun keeps (fun _ _ sound fine => stepMoves sound apart fine) start admitted
  · exact fun adapter same id mem now => findReads sound apart same mem
  · exact fun adapter plain field value now => findSecondaryReads sound plain field value

def sessionAdapter : OidcAdapter := ⟨"Session",artifactCodec,none⟩
def openSession (at_ : Time) : Event :=
  ⟨at_,.upsert sessionAdapter "session_0001" [("uid",.str "uid_0001")] (some 600) at_⟩
def sessionHistory : List Event := [issueToken (seconds 30),openSession (seconds 35),redeemToken (seconds 40)]

theorem redeemedRead :
    let db := run (step refreshNode) Db.empty sessionHistory
    let s := contents refreshNode artifactCodec ["refresh_0001","session_0001"] db
    find refreshNode refreshAdapter "refresh_0001" (seconds 50) db = read s "RefreshToken" "refresh_0001" (seconds 50) ∧
    read s "RefreshToken" "refresh_0001" (seconds 50) =
      some [("kind",.str "RefreshToken"),("grantId",.str "grant_0001"),("jti",.str "refresh_0001"),
        ("consumed",.num "40")] ∧
    ∃ id ∈ ["refresh_0001","session_0001"], read s "Session" id (seconds 50) = some [("uid",.str "uid_0001")] := by
  intro db s
  obtain ⟨_,found,secondary⟩ := adapterRefines refreshNode artifactCodec ["refresh_0001","session_0001"] sessionHistory
    (by decide) (by decide)
  have shown_ : findByUid sessionAdapter "uid_0001" (seconds 50) db = some [("uid",.str "uid_0001")] := by decide
  have there := secondary sessionAdapter (by decide) "uid" "uid_0001" (seconds 50)
  rw [findByUid] at shown_
  rw [shown_] at there
  have here : find refreshNode refreshAdapter "refresh_0001" (seconds 50) db =
      read s "RefreshToken" "refresh_0001" (seconds 50) :=
    found refreshAdapter rfl "refresh_0001" (by decide) (seconds 50)
  refine ⟨here,?_,there.2⟩
  rw [← here]
  decide

end Wepuu.ArtifactStore
