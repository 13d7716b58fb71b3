import Wepuu.Grants

/-! oauth.refresh_families: PostgresRefreshFamilyRepository.create and the SQL function
oauth.rotate_refresh_family. A family names its tenant, site and grant by value; only the
tenant is a foreign key. -/
namespace Wepuu.Families
open Grants NodeApi Outbox Relational Schema

structure NewFamily where
  familyId : String
  tenantId : TenantId
  siteId : SiteId
  grantId : GrantId
  clientId : ClientId
  subjectId : AccountId
  issuedAt : Time
  absoluteExpiresAt : Time
  deriving DecidableEq, Repr

def create (input : NewFamily) (db : Db) : Except Fault Db := do
  ensure (decide (input.absoluteExpiresAt - input.issuedAt ≤ days 90) &&
    decide (input.issuedAt < input.absoluteExpiresAt)) (.thrown "invalid_refresh_family_lifetime")
  let familyId ← orFail .invalidTextRepresentation (uuidIn input.familyId)
  let families ← orFail .uniqueViolation (insertRow familyClash
    ⟨familyId,input.tenantId,input.siteId,input.grantId,input.clientId,input.subjectId,.active,0,
      input.issuedAt,input.absoluteExpiresAt,none,none⟩ db.refreshFamilies)
  ensure (db.hasTenant input.tenantId) .foreignKeyViolation
  .ok { db with refreshFamilies := families }

inductive RefreshRotationResult where | rotated | replay | denied deriving DecidableEq, Repr

def usable (observedAt : Time) (family : RefreshFamily) : Bool :=
  family.status == .active && decide (observedAt < family.lastUsedAt + days 30) &&
  decide (observedAt < family.absoluteExpiresAt)

def replayRevoked (family : RefreshFamily) (target : FamilyId) (observedAt : Time) (db : Db) : Db :=
  { db with
    refreshFamilies := updateWhere (fun f => f.familyId == target)
      (fun f => { f with
        status := .revoked, revokedAt := some observedAt, revocationReason := some "refresh_replay" })
      db.refreshFamilies
    grants := updateWhere (liveGrant family.tenantId family.grantId)
      (revokedGrant "refresh_replay" observedAt) db.grants }

def rotateRefreshFamily (target : FamilyId) (expectedGeneration : Int) (observedAt now : Time)
    (db : Db) : Except Fault (Db × RefreshRotationResult) :=
  match db.refreshFamilies.find? (fun f => f.familyId == target) with
  | none => .ok (db,.denied)
  | some family =>
    if usable observedAt family then
      if family.currentGeneration = expectedGeneration then
        .ok ({ db with
          refreshFamilies := updateWhere (fun f => f.familyId == target)
            (fun f => { f with currentGeneration := f.currentGeneration + 1, lastUsedAt := observedAt })
            db.refreshFamilies },.rotated)
      else if expectedGeneration < family.currentGeneration then do
        let site ← orFail (raiseException "refresh_family_site_missing") (db.siteAt family.tenantId family.siteId)
        let next ← insertEvent .raise
          ⟨family.tenantId,family.siteId,site.resourceUri,.grant,some family.grantId,none,"refresh_replay"⟩ now
          (replayRevoked family target observedAt db)
        .ok (next,.replay)
      else .ok (db,.denied)
    else .ok (db,.denied)

/- PostgresRefreshFamilyRepository.rotate answers before the database is asked, which then
casts both texts. -/
def rotate (familyId : String) (expectedGeneration : Int) (observedAt now : Time)
    (db : Db) : Except Fault (Db × RefreshRotationResult) :=
  if expectedGeneration < 0 then .ok (db,.denied)
  else do
    let target ← orFail .invalidTextRepresentation (uuidIn familyId)
    ensure (decide (expectedGeneration ≤ int4Max)) .numericValueOutOfRange
    rotateRefreshFamily target expectedGeneration observedAt now db

theorem rotateOk {familyId : String} {g : Int} {observedAt now : Time} {db next : Db} {out : RefreshRotationResult}
    (ok : rotate familyId g observedAt now db = .ok (next,out)) : (next = db ∧ out = .denied) ∨
    ∃ target, uuidIn familyId = some target ∧ 0 ≤ g ∧ g ≤ int4Max ∧
      rotateRefreshFamily target g observedAt now db = .ok (next,out) := by
  unfold rotate at ok
  split at ok
  · cases ok
    exact .inl ⟨rfl,rfl⟩
  · rename_i natural
    simp only [bindOk,orFailOk,ensureOk,decide_eq_true_eq] at ok
    obtain ⟨target,read,_,fits,ran⟩ := ok
    exact .inr ⟨target,read,Int.not_lt.mp natural,fits,ran⟩

theorem rotateRuns {familyId : String} {target : FamilyId} {g : Int} {observedAt now : Time} {db : Db}
    (read : uuidIn familyId = some target) (natural : 0 ≤ g) (fits : g ≤ int4Max) :
    rotate familyId g observedAt now db = rotateRefreshFamily target g observedAt now db := by
  unfold rotate
  rw [if_neg (Int.not_lt.mpr natural),read]
  simp only [orFail,ensure,fits,decide_true,if_true,bind,Except.bind]

end Wepuu.Families
