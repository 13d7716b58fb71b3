import Wepuu.Runs
import Wepuu.Secrets

/-! Rotation of the artifact keyring. A version is counted from the oldest key of the ring
in use, so it names the same key under the next ring only while no old key is dropped. -/
namespace Wepuu.KeyRotation
open Artifacts Footprint NodeApi Relational Runs Schema Secrets Statements Wepuu.System

structure Rotation where
  prepends : Option Key
  dropsOldest : Bool
  deriving DecidableEq, Repr

structure Keyring where
  keys : List Key
  seen : List Key
  deriving DecidableEq, Repr

def rotate (ring : Keyring) (r : Rotation) : Keyring where
  keys := r.prepends.toList ++ if r.dropsOldest then ring.keys.dropLast else ring.keys
  seen := r.prepends.toList ++ ring.seen

def rotationSet (keys : List Key) : Prop :=
  1 ≤ keys.length ∧ keys.length ≤ 2 ∧ ∀ key ∈ keys, 32 ≤ key.length

def validRotation (ring : Keyring) (r : Rotation) : Prop :=
  (r.prepends.isSome = true ∨ r.dropsOldest = true) ∧ (∀ key ∈ r.prepends, key ∉ ring.seen) ∧
  rotationSet (rotate ring r).keys

instance (keys) : Decidable (rotationSet keys) := by unfold rotationSet; infer_instance
instance (ring r) : Decidable (validRotation ring r) := by unfold validRotation; infer_instance

def opened (keys : List Key) : Keyring := ⟨keys,keys⟩

def ValidHistory (start : List Key) (es : List Rotation) : Prop :=
  rotationSet start ∧ start.Nodup ∧ Guarded rotate validRotation (opened start) es

instance (start es) : Decidable (ValidHistory start es) := by unfold ValidHistory; infer_instance

def ringAfter (start : List Key) (es : List Rotation) : List Key := (run rotate (opened start) es).keys

def Stored (node : Node) (codec : SecretArtifactCodec) (model id : String) (row : SecretArtifact) : Prop :=
  ∃ limit payload expiresIn dateNow,
    storedRow node ⟨model,codec,limit⟩ id payload expiresIn dateNow = some row ∧ row.check = true

/- The three methods find the row by the id: find returns a payload while it is unexpired,
destroy removes it, and consume does not report it missing. -/
def Locates (node : Node) (codec : SecretArtifactCodec) (model id : String) (a : SecretArtifact) : Prop :=
  ∀ limit now db, a ∈ db.secretArtifacts →
    (unexpired now a.expiresAt = true → (find node ⟨model,codec,limit⟩ id now db).isSome = true) ∧
    a ∉ (destroy node ⟨model,codec,limit⟩ id db).secretArtifacts ∧
    (a.consumedAt = none → unexpired now a.expiresAt = true → ∀ dateNow next out,
      consume node ⟨model,codec,limit⟩ id dateNow now db = .ok (next,out) → out = .consumed ∨ out = .rateLimited)

/- An artifact stays in reach while the key it was stored under is in the ring. -/
def KeepsLocated (node : Node) (start : List Key) (es : List Rotation) : Prop :=
  ∀ before mid, before ++ mid <+: es → ∀ old new : SecretArtifactCodec,
    old.keys = ringAfter start before → new.keys = ringAfter start (before ++ mid) →
    ∀ key, old.keys.head? = some key → key ∈ new.keys →
    ∀ model id row later, Stored node old model id row → SameSecret row later → Locates node new model id later

def SeparateVersions (node : Node) (start : List Key) (es : List Rotation) : Prop :=
  ∀ first second, first <+: es → second <+: es → ∀ left right : SecretArtifactCodec,
    left.keys = ringAfter start first → right.keys = ringAfter start second →
    left.keys.head? ≠ right.keys.head? →
    ∀ model id row model' id' row', Stored node left model id row → Stored node right model' id' row' →
      row.lookupVersion ≠ row'.lookupVersion

def RotationSafe (node : Node) (start : List Key) (es : List Rotation) : Prop :=
  KeepsLocated node start es ∧ SeparateVersions node start es

section Locating
variable {node : Node} {codec : SecretArtifactCodec} {model id : String}

theorem storedExact {row : SecretArtifact} (stored : Stored node codec model id row) :
    secretArtifactModels.contains model = true ∧ row.model = model ∧ artifactValue id = true ∧
    ∃ key rest, codec.keys = key :: rest ∧ row.lookupVersion = codec.keys.length ∧
      row.artifactHash = node.hmacSha256 key id := by
  obtain ⟨limit,payload,expiresIn,dateNow,named,_⟩ := stored
  obtain ⟨secret,lookup,hl,rfl⟩ := storedRowExact named
  obtain ⟨key,rest,keys,rfl,valid⟩ := currentExact hl
  exact ⟨secret,rfl,valid,key,rest,keys,by rw [keys]; rfl,rfl⟩

theorem locatesLocated {a : SecretArtifact} (secret : secretArtifactModels.contains model = true)
    (locates : Locates node codec model id a) : located node codec model id a = true := by
  have gone := (locates none 0 { Db.empty with secretArtifacts := [a] } (List.mem_singleton_self a)).2.1
  by_contra missed
  apply gone
  simp only [destroy,secretModel,secret,if_true]
  refine memDeleteWhere.mpr ⟨List.mem_singleton_self a,?_⟩
  simpa [located] using missed

theorem locatedLocates {a : SecretArtifact} (secret : secretArtifactModels.contains model = true)
    (hit : located node codec model id a = true) : Locates node codec model id a := by
  obtain ⟨lookup,candidate,at_⟩ := locatedIff.mp hit
  intro limit now db mem
  refine ⟨?_,?_,?_⟩
  · intro fresh
    simp only [find,secretModel,secret,if_true,List.isSome_findSome?,List.any_eq_true]
    refine ⟨lookup,candidate,?_⟩
    rw [Option.isSome_map,List.find?_isSome]
    exact ⟨a,mem,by simp [at_,fresh]⟩
  · intro still
    simp only [destroy,secretModel,secret,if_true] at still
    obtain ⟨_,kept⟩ := memDeleteWhere.mp still
    rw [located] at hit
    rw [hit] at kept
    contradiction
  · intro unused fresh dateNow next out ok
    have open_ : consumable model lookup now a = true := by simp [consumable,at_,unused,fresh]
    have stops : ∀ {d o}, consumeLookups node ⟨model,codec,limit⟩ now (candidates node codec id) db = .ok (d,o) →
        o = some .consumed ∨ o = some .rateLimited := by
      intro d o tried
      rcases consumeLookupsCases tried with ⟨_,_,passed⟩ | ⟨_,_,_,_,_,⟨won,_⟩ | ⟨refused,_⟩⟩
      · rw [passed lookup candidate a mem] at open_
        contradiction
      · exact .inl won
      · exact .inr refused
    rcases consumeCases (by exact secret) ok with tried | ⟨tried,_⟩
    · simpa using stops tried
    · have bad := stops tried
      simp at bad

theorem reachIff {old : SecretArtifactCodec} {row later : SecretArtifact} (stored : Stored node old model id row)
    (same : SameSecret row later) {key : Key} (newest : old.keys.head? = some key) :
    Locates node codec model id later ↔ ∃ other, (old.keys.length,other) ∈ versionedFrom codec.keys ∧
      node.hmacSha256 other id = node.hmacSha256 key id := by
  obtain ⟨secret,model_,valid,key',rest,keys,version,digest⟩ := storedExact stored
  rw [keys,List.head?_cons] at newest
  cases newest
  have reach : Locates node codec model id later ↔ located node codec model id later = true :=
    ⟨locatesLocated secret,locatedLocates secret⟩
  rw [reach,locatedIff]
  constructor
  · rintro ⟨lookup,candidate,at_⟩
    obtain ⟨_,v,other,versioned,rfl⟩ := memCandidates.mp candidate
    simp only [atLookup,Bool.and_eq_true,beq_iff_eq,same.lookupVersion,same.artifactHash,version,digest] at at_
    refine ⟨other,?_,at_.2.symm⟩
    rw [at_.1.2]
    exact versioned
  · rintro ⟨other,versioned,collides⟩
    refine ⟨⟨old.keys.length,node.hmacSha256 other id⟩,
      memCandidates.mpr ⟨valid,_,other,versioned,rfl⟩,?_⟩
    simp [atLookup,same.model,model_,same.lookupVersion,version,same.artifactHash,digest,collides]

theorem someStored (node : Node) (codec : SecretArtifactCodec) :
    ∃ row, Stored node codec "AccessToken" "artifact" row := by
  obtain ⟨some_,few,_⟩ := codec.rotationSet
  cases keys : codec.keys with
  | nil => simp [keys] at some_
  | cons key rest =>
    have now : current node codec "artifact" = .ok ⟨rest.length + 1,node.hmacSha256 key "artifact"⟩ := by
      simp only [current,keys,versionedFrom]
      rw [if_pos (by decide)]
    have named : storedRow node ⟨"AccessToken",codec,none⟩ "artifact" [] none 0 =
        some (storedSecret ⟨"AccessToken",codec,none⟩ ⟨rest.length + 1,node.hmacSha256 key "artifact"⟩ [] none) := by
      have secret : secretModel ⟨"AccessToken",codec,none⟩ = true := rfl
      unfold storedRow
      rw [if_pos secret]
      simp only [now]
      rfl
    refine ⟨_,none,[],none,0,named,?_⟩
    rw [keys,List.length_cons] at few
    have low : 1 ≤ rest.length + 1 := by omega
    have high : rest.length + 1 ≤ 32767 := by omega
    simp [SecretArtifact.check,storedSecret,node.hmacLength,low,high,dropMember,member]

end Locating

section Rings
variable {ring : Keyring} {es : List Rotation}

theorem versionedSuffix {small big : List Key} (inside : small <:+ big) {entry : Nat × Key}
    (mem : entry ∈ versionedFrom small) : entry ∈ versionedFrom big := by
  obtain ⟨news,rfl⟩ := inside
  induction news with
  | nil => exact mem
  | cons key rest ih => exact List.mem_cons_of_mem _ ih

theorem keptSuffix (keeps : ∀ r ∈ es, r.dropsOldest = false) : ring.keys <:+ (run rotate ring es).keys := by
  induction es generalizing ring with
  | nil => exact List.suffix_refl _
  | cons r es ih =>
    have first : ring.keys <:+ (rotate ring r).keys := by
      simp only [rotate,keeps r List.mem_cons_self]
      exact List.suffix_append _ _
    exact first.trans (ih fun o mem => keeps o (List.mem_cons_of_mem _ mem))

theorem keptLength (keeps : ∀ r ∈ es, r.dropsOldest = false) (valid : Guarded rotate validRotation ring es) :
    (run rotate ring es).keys.length = ring.keys.length + es.length := by
  induction es generalizing ring with
  | nil => rfl
  | cons r es ih =>
    obtain ⟨⟨does,_⟩,later⟩ := valid
    have kept := keeps r List.mem_cons_self
    have prepends : r.prepends.isSome = true := by simpa [kept] using does
    obtain ⟨key,hk⟩ := Option.isSome_iff_exists.mp prepends
    rw [runCons,ih (fun o mem => keeps o (List.mem_cons_of_mem _ mem)) later]
    simp only [rotate,hk,kept,Option.toList_some,List.length_append,List.length_cons,List.length_nil]
    simp only [Bool.false_eq_true,if_false]
    omega

structure RingOk (ring : Keyring) : Prop where
  set : rotationSet ring.keys
  seen : ∀ key ∈ ring.keys, key ∈ ring.seen

theorem ringStep {r : Rotation} (inv : RingOk ring) (valid : validRotation ring r) : RingOk (rotate ring r) where
  set := valid.2.2
  seen key mem := by
    simp only [rotate,List.mem_append] at mem ⊢
    rcases mem with new | old
    · exact .inl new
    · refine .inr (inv.seen key ?_)
      split at old
      · exact List.dropLast_subset _ old
      · exact old

end Rings

theorem ringReached {start : List Key} {es : List Rotation} (valid : ValidHistory start es) :
    RingOk (run rotate (opened start) es) :=
  invariantRun (fun _ _ inv ok => ringStep inv ok) ⟨valid.1,fun _ mem => mem⟩ valid.2.2

theorem validPrefix {start : List Key} {es fs : List Rotation} (valid : ValidHistory start (es ++ fs)) :
    ValidHistory start es := ⟨valid.1,valid.2.1,((guardedAppend rotate validRotation _ es fs).mp valid.2.2).1⟩

theorem ringAfterAppend {start : List Key} {es fs : List Rotation} :
    ringAfter start (es ++ fs) = (run rotate (run rotate (opened start) es) fs).keys := by
  rw [ringAfter,runAppend]

section Safety
variable {node : Node} {start : List Key} {es : List Rotation}

theorem keepsSafe (valid : ValidHistory start es) (keeps : ∀ r ∈ es, r.dropsOldest = false) :
    RotationSafe node start es := by
  constructor
  · rintro before mid ⟨after,rfl⟩ old new oldKeys newKeys key newest _ model id row later stored same
    refine (reachIff stored same newest).mpr ⟨key,?_,rfl⟩
    have inside : old.keys <:+ new.keys := by
      rw [oldKeys,newKeys,ringAfterAppend]
      exact keptSuffix fun r mem => keeps r (by simp [mem])
    refine versionedSuffix inside ?_
    obtain ⟨rest,keys⟩ := List.head?_eq_some_iff.mp newest
    rw [keys]
    exact List.mem_cons_self
  · -- The shorter prefix has the smaller ring, and equal prefixes have one newest key.
    have ordered : ∀ first second, first <+: second → second <+: es → ∀ left right : SecretArtifactCodec,
        left.keys = ringAfter start first → right.keys = ringAfter start second →
        left.keys.head? ≠ right.keys.head? → left.keys.length < right.keys.length := by
      rintro first second ⟨more,rfl⟩ ⟨after,rfl⟩ left right leftKeys rightKeys different
      have lengths := @keptLength (run rotate (opened start) first) more (fun r mem => keeps r (by simp [mem]))
        ((guardedAppend rotate validRotation _ first more).mp (validPrefix valid).2.2).2
      rw [ringAfterAppend] at rightKeys
      rw [← rightKeys] at lengths
      have grown : more ≠ [] := by
        rintro rfl
        rw [leftKeys,rightKeys,ringAfter] at different
        exact different rfl
      have positive := List.length_pos_iff.mpr grown
      rw [leftKeys,ringAfter]
      omega
    intro first second firstPrefix secondPrefix left right leftKeys rightKeys different
      model id row model' id' row' stored stored'
    obtain ⟨_,_,_,_,_,_,version,_⟩ := storedExact stored
    obtain ⟨_,_,_,_,_,_,version',_⟩ := storedExact stored'
    rw [version,version']
    rcases List.prefix_or_prefix_of_prefix firstPrefix secondPrefix with shorter | longer
    · exact Nat.ne_of_lt (ordered first second shorter secondPrefix left right leftKeys rightKeys different)
    · exact Nat.ne_of_gt (ordered second first longer firstPrefix right left rightKeys leftKeys different.symm)

/- Dropping the oldest key loses the artifacts of the newest, or gives its version to the
key that is prepended. -/
theorem droppedUnsafe {before after : List Rotation} {r : Rotation}
    (valid : ValidHistory start (before ++ r :: after)) (drops : r.dropsOldest = true) :
    ¬RotationSafe node start (before ++ r :: after) := by
  rintro ⟨reach,apart⟩
  have wf := ringReached (validPrefix valid)
  have shape : before ++ r :: after = before ++ [r] ++ after := by simp
  rw [shape] at valid reach apart
  obtain ⟨_,fresh,next⟩ := ((guardedAppend rotate validRotation _ before [r]).mp (validPrefix valid).2.2).2.1
  have here : before <+: before ++ [r] ++ after := ⟨[r] ++ after,by simp⟩
  let old : SecretArtifactCodec := ⟨_,wf.set⟩
  let new : SecretArtifactCodec := ⟨_,next⟩
  have oldKeys : old.keys = ringAfter start before := rfl
  have newKeys : new.keys = ringAfter start (before ++ [r]) := by rw [ringAfterAppend]; rfl
  obtain ⟨row,stored⟩ := someStored node old
  obtain ⟨row',stored'⟩ := someStored node new
  obtain ⟨_,_,_,key,rest,keys,version,_⟩ := storedExact stored
  obtain ⟨_,_,_,key',rest',keys',version',_⟩ := storedExact stored'
  have dropped : new.keys = r.prepends.toList ++ old.keys.dropLast := by
    show r.prepends.toList ++ _ = _
    rw [if_pos drops]
  cases prepends : r.prepends with
  | some fresh_ =>
    rw [prepends] at dropped fresh
    have lengths : new.keys.length = old.keys.length := by
      rw [dropped,keys]
      simp
    refine apart before (before ++ [r]) here (List.prefix_append _ _) old new oldKeys newKeys ?_ _ _ row _ _ row'
      stored stored' (by rw [version,version',lengths])
    intro same
    rw [dropped,keys] at same
    have again : fresh_ = key := by simpa using same.symm
    have known : key ∈ old.keys := by
      rw [keys]
      exact List.mem_cons_self
    exact fresh fresh_ rfl (wf.seen fresh_ (by rw [again]; exact known))
  | none =>
    rw [prepends] at dropped
    have still : key ∈ new.keys := by
      rw [dropped,keys]
      rw [dropped,keys] at keys'
      cases rest with
      | nil => simp at keys'
      | cons second others => simp [List.dropLast_cons_of_ne_nil]
    have locates := reach before [r] (List.prefix_append _ _) old new oldKeys newKeys key (by rw [keys]; rfl) still
      _ _ row row stored (sameSecretRefl row)
    obtain ⟨other,versioned,_⟩ := (reachIff stored (sameSecretRefl row) (by rw [keys]; rfl)).mp locates
    have below := (versionedBelow versioned).2.1
    rw [dropped,keys] at below
    simp only [Option.toList_none,List.nil_append,List.length_dropLast,List.length_cons] at below
    omega

theorem rotationsSafe (node : Node) (start : List Key) (es : List Rotation) (valid : ValidHistory start es) :
    RotationSafe node start es ↔ ∀ r ∈ es, r.dropsOldest = false := by
  refine ⟨fun safe r mem => ?_,keepsSafe valid⟩
  obtain ⟨before,after,rfl⟩ := List.append_of_mem mem
  by_contra drops
  exact droppedUnsafe valid (by simpa using drops) safe

end Safety

def nextKey : Key := List.replicate 32 3

/- HMAC-SHA256 of the token id under the second key. -/
def renewedDigest : Digest :=
  [146,30,3,182,98,118,49,91,192,114,211,181,40,230,207,145,89,162,126,152,164,195,200,14,
    12,238,161,211,71,210,133,66]

def renewedNode : Node := sampleNode []
  [((artifactKey,"refresh_0001"),tokenDigest),((nextKey,"refresh_0001"),renewedDigest)]

def renewedToken : SecretArtifact := ⟨"RefreshToken",2,renewedDigest,none,refreshPayload,none,none⟩

def renewal : List Rotation := [⟨some nextKey,false⟩]

theorem droppedKeyLosesTokens : ¬RotationSafe renewedNode [artifactKey] (renewal ++ [⟨none,true⟩]) := by
  rintro ⟨reach,_⟩
  have stored : Stored renewedNode ⟨[nextKey,artifactKey],by decide⟩ "RefreshToken" "refresh_0001" renewedToken :=
    ⟨none,refreshPayload,none,0,by decide,by decide⟩
  have locates := reach renewal [⟨none,true⟩] (List.prefix_refl _) ⟨[nextKey,artifactKey],by decide⟩
    ⟨[nextKey],by decide⟩ rfl rfl nextKey rfl (List.mem_singleton_self _) _ _ _ _ stored (sameSecretRefl _)
  have found := (locates none 0 { Db.empty with secretArtifacts := [renewedToken] } (List.mem_singleton_self _)).1 rfl
  revert found
  decide

theorem prependedKeySafe : RotationSafe renewedNode [artifactKey] renewal :=
  (rotationsSafe renewedNode [artifactKey] renewal (by decide)).mpr (by decide)

end Wepuu.KeyRotation
