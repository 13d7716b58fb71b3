import Wepuu.Footprint

/-! Where the rows of oauth.secret_artifacts come from, and which of them an id can find
under a codec. -/
namespace Wepuu.Secrets
open Artifacts Footprint Grants NodeApi Outbox Relational Runs Schema Statements Wepuu.System

theorem sameSecretTrans {a b c : SecretArtifact} (left : SameSecret a b) (right : SameSecret b c) :
    SameSecret a c where
  model := right.model.trans left.model
  lookupVersion := right.lookupVersion.trans left.lookupVersion
  artifactHash := right.artifactHash.trans left.artifactHash
  tenantId := right.tenantId.trans left.tenantId
  payload := right.payload.trans left.payload
  consumed used := by
    have first := left.consumed used
    rw [← first] at used
    exact (right.consumed used).trans first

structure Stems (scope : Scope) (a b : SecretArtifact) : Prop where
  same : SameSecret a b
  expiry : b.expiresAt = a.expiresAt ∨ ∃ t, b.expiresAt = some t ∧ scope.expires t

theorem stemsRefl (scope : Scope) (a : SecretArtifact) : Stems scope a a := ⟨sameSecretRefl a,.inl rfl⟩

theorem stemsTrans {scope : Scope} {a b c : SecretArtifact} (left : Stems scope a b) (right : Stems scope b c) :
    Stems scope a c := by
  refine ⟨sameSecretTrans left.same right.same,?_⟩
  rcases right.expiry with kept | moved
  · rw [kept]
    exact left.expiry
  · exact .inr moved

theorem writeSecrets {scope : Scope} {db next : Db} (write : Write scope db next) :
    ∀ b ∈ next.secretArtifacts, (∃ a ∈ db.secretArtifacts, Stems scope a b) ∨ scope.stores b := by
  have kept : ∀ b ∈ db.secretArtifacts, (∃ a ∈ db.secretArtifacts, Stems scope a b) ∨ scope.stores b :=
    fun b mem => .inl ⟨b,mem,stemsRefl scope b⟩
  cases write with
  | elsewhere same =>
    rw [same.secrets]
    exact kept
  | emit ok =>
    unfold insertEvent at ok
    split at ok <;> try contradiction
    split at ok <;> cases ok <;> exact kept
  | store allowed =>
    intro b mem
    rcases memUpsertRow mem with old | rfl | ⟨_,_,_,rfl⟩
    · exact kept b old
    · exact .inr allowed
    · exact .inr allowed
  | moveSecrets p f keeps allowed =>
    intro b mem
    obtain ⟨a,ha,rfl⟩ := memUpdateWhere.mp mem
    refine .inl ⟨a,ha,?_⟩
    split
    · exact ⟨keeps a ha ‹_›,allowed a ha ‹_›⟩
    · exact stemsRefl scope a
  | dropSecrets p => exact fun b mem => kept b (memDeleteWhere.mp mem).1
  | _ => exact kept

theorem writesSecrets {scope : Scope} {db next : Db} (writes : Writes scope db next) :
    ∀ b ∈ next.secretArtifacts,
      (∃ a ∈ db.secretArtifacts, Stems scope a b) ∨ ∃ a, scope.stores a ∧ Stems scope a b := by
  induction writes with
  | refl => exact fun b mem => .inl ⟨b,mem,stemsRefl scope b⟩
  | tail _ last ih =>
    intro b mem
    rcases writeSecrets last b mem with ⟨a,ha,same⟩ | stored
    · rcases ih a ha with ⟨o,ho,before⟩ | ⟨o,ho,before⟩
      · exact .inl ⟨o,ho,stemsTrans before same⟩
      · exact .inr ⟨o,ho,stemsTrans before same⟩
    · exact .inr ⟨b,stored,stemsRefl scope b⟩

def storedId (model : String) (e : Event) : Option String := match e.op with
  | .upsert adapter id _ _ _ => if adapter.model == model then some id else none
  | _ => none

def storedIds (model : String) (es : List Event) : List String := es.filterMap (storedId model)

def codecOf (e : Event) : Option SecretArtifactCodec := match e.op with
  | .upsert adapter _ _ _ _ | .destroy adapter _ | .consume adapter _ _ | .revokeByGrantId adapter _ _ =>
    some adapter.codec
  | _ => none

section Lookups
variable {node : Node} {codec : SecretArtifactCodec}

theorem versionedBelow {keys : List Key} {version : Nat} {key : Key}
    (mem : (version,key) ∈ versionedFrom keys) : 1 ≤ version ∧ version ≤ keys.length ∧ key ∈ keys := by
  induction keys with
  | nil => simp [versionedFrom] at mem
  | cons first rest ih =>
    rcases List.mem_cons.mp mem with head | later
    · cases head
      exact ⟨by simp,by simp,List.mem_cons_self⟩
    · obtain ⟨low,high,known⟩ := ih later
      exact ⟨low,by simp only [List.length_cons]; omega,List.mem_cons_of_mem _ known⟩

theorem currentExact {id : String} {lookup : SecretArtifactLookup}
    (ok : current node codec id = .ok lookup) :
    ∃ key rest, codec.keys = key :: rest ∧ lookup = ⟨rest.length + 1,node.hmacSha256 key id⟩ ∧
      artifactValue id = true := by
  unfold current at ok
  cases keys : codec.keys with
  | nil =>
    simp only [keys,versionedFrom] at ok
    cases ok
  | cons key rest =>
    simp only [keys,versionedFrom] at ok
    split at ok <;> cases ok
    exact ⟨key,rest,rfl,rfl,‹_›⟩

theorem memCandidates {id : String} {lookup : SecretArtifactLookup} :
    lookup ∈ candidates node codec id ↔ artifactValue id = true ∧
      ∃ version key, (version,key) ∈ versionedFrom codec.keys ∧ lookup = ⟨version,node.hmacSha256 key id⟩ := by
  unfold candidates
  by_cases valid : artifactValue id = true
  · rw [if_pos valid]
    simp only [List.mem_map,valid,true_and]
    constructor
    · rintro ⟨⟨version,key⟩,mem,rfl⟩
      exact ⟨version,key,mem,rfl⟩
    · rintro ⟨version,key,mem,rfl⟩
      exact ⟨(version,key),mem,rfl⟩
  · rw [if_neg valid]
    simp [valid]

theorem newestCandidate {id : String} {lookup : SecretArtifactLookup}
    (mem : lookup ∈ candidates node codec id) (newest : lookup.version = codec.keys.length) :
    current node codec id = .ok lookup := by
  obtain ⟨valid,version,key,versioned,rfl⟩ := memCandidates.mp mem
  cases keys : codec.keys with
  | nil => simp [keys,versionedFrom] at versioned
  | cons first rest =>
    simp only [keys,versionedFrom,List.mem_cons,Prod.mk.injEq] at versioned
    rcases versioned with ⟨rfl,rfl⟩ | later
    · simp [current,keys,versionedFrom,valid]
    · have below := (versionedBelow later).2.1
      simp only [keys,List.length_cons] at newest
      omega

theorem currentCandidate {id : String} {lookup : SecretArtifactLookup}
    (ok : current node codec id = .ok lookup) : lookup ∈ candidates node codec id := by
  obtain ⟨key,rest,keys,rfl,valid⟩ := currentExact ok
  exact memCandidates.mpr ⟨valid,rest.length + 1,key,by simp [keys,versionedFrom],rfl⟩

end Lookups

def located (node : Node) (codec : SecretArtifactCodec) (model id : String) (a : SecretArtifact) : Bool :=
  (candidates node codec id).any fun lookup => atLookup model lookup a

theorem locatedIff {node : Node} {codec : SecretArtifactCodec} {model id : String} {a : SecretArtifact} :
    located node codec model id a = true ↔
      ∃ lookup ∈ candidates node codec id, atLookup model lookup a = true := List.any_eq_true

theorem sameLocated {node : Node} {codec : SecretArtifactCodec} {model id : String} {a b : SecretArtifact}
    (same : SameSecret a b) : located node codec model id b = located node codec model id a := by
  simp only [located,atLookup,same.model,same.lookupVersion,same.artifactHash]

theorem storesRow {node : Node} {e : Event} {db : Db} {a : SecretArtifact}
    (stored : (footprint node e db).stores a) :
    ∃ adapter id payload expiresIn dateNow, e.op = .upsert adapter id payload expiresIn dateNow ∧
      storedRow node adapter id payload expiresIn dateNow = some a := by
  obtain ⟨now,op⟩ := e
  cases op <;> simp only [footprint] at stored
  exact ⟨_,_,_,_,_,rfl,stored⟩

theorem storedRowExact {node : Node} {adapter : OidcAdapter} {id : String} {payload : ProviderPayload}
    {expiresIn : Option Int} {dateNow : Time} {a : SecretArtifact}
    (stored : storedRow node adapter id payload expiresIn dateNow = some a) :
    secretModel adapter = true ∧ ∃ lookup, current node adapter.codec id = .ok lookup ∧
      a = storedSecret adapter lookup payload (expiresIn.map fun s => dateNow + seconds s) := by
  unfold storedRow at stored
  split at stored <;> try contradiction
  rename_i secret
  split at stored <;> cases stored
  exact ⟨secret,_,‹_›,rfl⟩

section Consuming
variable {node : Node} {adapter : OidcAdapter} {id : String} {dateNow now : Time} {db next : Db}

/- The first loop passes by, or stops at a consumable row: it marks the row, or the rate
limit refuses and no token is touched. -/
theorem consumeLookupsCases {lookups : List SecretArtifactLookup} {out : Option ConsumeOutcome}
    (ok : consumeLookups node adapter now lookups db = .ok (next,out)) :
    (out = none ∧ next = db ∧ ∀ lookup ∈ lookups, ∀ a ∈ db.secretArtifacts,
        consumable adapter.model lookup now a = false) ∨ ∃ lookup ∈ lookups, ∃ a ∈ db.secretArtifacts,
      consumable adapter.model lookup now a = true ∧
      ((out = some .consumed ∧ next.secretArtifacts = updateWhere (consumable adapter.model lookup now)
          (fun a => { a with consumedAt := some now }) db.secretArtifacts) ∨
        (out = some .rateLimited ∧ Elsewhere db next)) := by
  induction lookups with
  | nil =>
    cases ok
    exact .inl ⟨rfl,rfl,by simp⟩
  | cons lookup rest ih =>
    unfold consumeLookups at ok
    split at ok
    · rename_i nothing
      rcases ih ok with ⟨out,same,passed⟩ | ⟨later,mem,stopped⟩
      · refine .inl ⟨out,same,?_⟩
        intro l hl a ha
        rcases List.mem_cons.mp hl with rfl | later
        · simpa using List.find?_eq_none.mp nothing a ha
        · exact passed l later a ha
      · exact .inr ⟨later,List.mem_cons_of_mem _ mem,stopped⟩
    · rename_i stored found
      refine .inr ⟨lookup,List.mem_cons_self,stored,List.mem_of_find?_eq_some found,List.find?_some found,?_⟩
      split at ok
      · split at ok
        · simp only [bindOk] at ok
          obtain ⟨subject,_,ok⟩ := ok
          have limited := @consumeRateLimitElsewhere "oauth.refresh_family" subject 10 60 now db
          split at ok <;> cases ok
          · refine .inl ⟨rfl,?_⟩
            simp only [consumeAt,limited.secrets]
          · exact .inr ⟨rfl,limited⟩
        · cases ok
          exact .inr ⟨rfl,⟨rfl,rfl,rfl,rfl,rfl,rfl,fun _ known => known⟩⟩
      · cases ok
        exact .inl ⟨rfl,rfl⟩

theorem consumableLocated {codec : SecretArtifactCodec} {lookup : SecretArtifactLookup} {model : String} {a : SecretArtifact}
    (candidate : lookup ∈ candidates node codec id) (hit : consumable model lookup now a = true) :
    located node codec model id a = true ∧ a.consumedAt = none := by
  simp only [consumable,Bool.and_eq_true,Option.isNone_iff_eq_none] at hit
  exact ⟨locatedIff.mpr ⟨lookup,candidate,hit.1.1⟩,hit.1.2⟩

theorem replayLookupsCases {lookups : List SecretArtifactLookup} {out : ConsumeOutcome}
    (ok : replayLookups adapter now lookups db = .ok (next,out)) :
    (out = .missing ∧ next = db) ∨ (out = .replay ∧ ∃ lookup ∈ lookups, ∃ grantId flag,
      replayedGrant adapter.model db lookup = some grantId ∧
      revokeRefreshGrant grantId now "refresh_replay" now db = .ok (next,flag)) := by
  induction lookups with
  | nil =>
    cases ok
    exact .inl ⟨rfl,rfl⟩
  | cons lookup rest ih =>
    unfold replayLookups at ok
    split at ok
    · rename_i grantId found
      simp only [bindOk] at ok
      obtain ⟨⟨revoked,flag⟩,hr,last⟩ := ok
      cases last
      exact .inr ⟨rfl,lookup,List.mem_cons_self,grantId,flag,found,hr⟩
    · rcases ih ok with missing | ⟨replay,later,mem,found⟩
      · exact .inl missing
      · exact .inr ⟨replay,later,List.mem_cons_of_mem _ mem,found⟩

theorem consumeCases {out : ConsumeOutcome} (secret : secretModel adapter = true)
    (ok : consume node adapter id dateNow now db = .ok (next,out)) :
    consumeLookups node adapter now (candidates node adapter.codec id) db = .ok (next,some out) ∨
    (consumeLookups node adapter now (candidates node adapter.codec id) db = .ok (db,none) ∧
      ((refreshModel adapter = true ∧
          replayLookups adapter now (candidates node adapter.codec id) db = .ok (next,out)) ∨
        (out = .missing ∧ next = db))) := by
  unfold consume at ok
  rw [if_pos secret] at ok
  simp only [bindOk] at ok
  obtain ⟨⟨tried,outcome⟩,hc,ok⟩ := ok
  cases outcome with
  | some outcome =>
    cases ok
    exact .inl hc
  | none =>
    have same := consumeLookupsNone hc
    subst same
    simp only at ok
    split at ok
    · exact .inr ⟨hc,.inl ⟨‹_›,ok⟩⟩
    · cases ok
      exact .inr ⟨hc,.inr ⟨rfl,rfl⟩⟩

theorem consumeStopped {out : ConsumeOutcome} (secret : secretModel adapter = true)
    (ok : consume node adapter id dateNow now db = .ok (next,out)) (stopped : out = .consumed ∨ out = .rateLimited) :
    ∃ lookup ∈ candidates node adapter.codec id, ∃ a ∈ db.secretArtifacts,
      consumable adapter.model lookup now a = true ∧
      ((out = .consumed ∧ next.secretArtifacts = updateWhere (consumable adapter.model lookup now)
          (fun a => { a with consumedAt := some now }) db.secretArtifacts) ∨
        (out = .rateLimited ∧ Elsewhere db next)) := by
  rcases consumeCases secret ok with tried | ⟨_,⟨_,replayed⟩ | ⟨rfl,_⟩⟩
  · rcases consumeLookupsCases tried with ⟨bad,_⟩ | ⟨lookup,candidate,a,mem,hit,did⟩
    · cases bad
    · refine ⟨lookup,candidate,a,mem,hit,?_⟩
      simpa only [Option.some.injEq] using did
  · rcases replayLookupsCases replayed with ⟨rfl,_⟩ | ⟨rfl,_⟩ <;> simp at stopped
  · simp at stopped

end Consuming

def artifactKey : Key := List.replicate 32 1
def rateLimitKey : Key := List.replicate 32 2
def artifactCodec : SecretArtifactCodec := ⟨[artifactKey],by decide⟩
def refreshAdapter : OidcAdapter := ⟨"RefreshToken",artifactCodec,some ⟨rateLimitKey,by decide⟩⟩

/- HMAC-SHA256 of the token id and of the rate-limit subject. -/
def tokenDigest : Digest :=
  [27,248,203,128,184,205,198,222,47,205,172,109,41,89,53,232,191,70,44,240,13,56,115,53,189,105,154,76,73,
    133,204,56]
def subjectDigest : Digest :=
  [235,61,100,170,63,86,216,5,248,240,92,7,246,188,142,125,55,199,35,87,57,165,223,184,163,241,23,172,245,175,
    117,252]

def refreshNode : Node := sampleNode []
  [((artifactKey,"refresh_0001"),tokenDigest),
    ((rateLimitKey,"oauth.refresh_family\x00grant_0001"),subjectDigest)]

def refreshPayload : ProviderPayload := [("kind",.str "RefreshToken"),("grantId",.str "grant_0001")]

def issueToken (at_ : Time) : Event := ⟨at_,.upsert refreshAdapter "refresh_0001" refreshPayload (some 3600) at_⟩
def redeemToken (at_ : Time) : Event := ⟨at_,.consume refreshAdapter "refresh_0001" at_⟩

end Wepuu.Secrets
