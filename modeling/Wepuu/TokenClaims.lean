import Wepuu.Schema

/-! PostgresGrantClaimsResolver and the extraTokenClaims hook of the authorization service. -/
namespace Wepuu.TokenClaims
open Schema

structure GrantBinding where
  grantId : Option GrantId
  clientId : Option ClientId
  resource : Option String
  deriving DecidableEq, Repr

structure GrantClaims where
  tenantId : TenantId
  siteId : SiteId
  grantId : GrantId
  deriving DecidableEq, Repr

/- ($n::text IS NULL OR column = $n) -/
def unboundOr (value : Option String) (column : String) : Bool := value.all (· == column)

/- The row-level policies of wepuu_auth repeat the two status conditions. -/
def resolvable (subject : AccountId) (binding : GrantBinding) (g : Grant) (s : Site) : Bool :=
  s.tenantId == g.tenantId && s.id == g.siteId && g.subjectId == subject &&
  g.status == .active && s.status == .active && unboundOr binding.grantId g.id &&
  unboundOr binding.clientId g.clientId && unboundOr binding.resource s.resourceUri

def resolvableRows (subject : AccountId) (binding : GrantBinding) (db : Db) : List (Grant × Site) :=
  db.grants.flatMap fun g => (db.sites.filter (resolvable subject binding g)).map fun s => (g,s)

def resolve (subject : AccountId) (binding : GrantBinding) (db : Db) : Option GrantClaims :=
  match (resolvableRows subject binding db).take 2 with
  | [(g,_)] => some ⟨g.tenantId,g.siteId,g.id⟩
  | _ => none

structure Token where
  kind : String
  accountId : Option String
  grantId : Option String
  clientId : Option String
  resource : Option String
  scope : Option String
  deriving DecidableEq, Repr

structure ExtraClaims where
  nbf : Int
  clientId : Option String
  scope : Option String
  tenantId : TenantId
  siteId : SiteId
  grantId : GrantId
  deriving DecidableEq, Repr

def extraTokenClaims (token : Token) (dateNow : Time) (db : Db) : Except Fault (Option ExtraClaims) :=
  if token.kind ≠ "AccessToken" then .ok none
  else match token.accountId with
    | none => .error (.thrown "access_denied")
    | some account => match resolve account ⟨token.grantId,token.clientId,token.resource⟩ db with
      | none => .error (.thrown "access_denied")
      | some claims =>
        .ok (some ⟨dateNow / seconds 1,token.clientId,token.scope,claims.tenantId,claims.siteId,claims.grantId⟩)

/- A row of the join exists only for an active grant at its active site. -/
theorem resolvedActive {subject : AccountId} {binding : GrantBinding} {db : Db} {claims : GrantClaims}
    (found : resolve subject binding db = some claims) :
    ∃ g ∈ db.grants, ∃ s ∈ db.sites, g.status = .active ∧ s.status = .active ∧
      s.tenantId = g.tenantId ∧ s.id = g.siteId ∧ unboundOr binding.grantId g.id = true := by
  unfold resolve at found
  split at found
  · rename_i g s rows
    have mem : (g,s) ∈ resolvableRows subject binding db :=
      List.mem_of_mem_take (rows ▸ List.mem_singleton_self _)
    simp only [resolvableRows,List.mem_flatMap,List.mem_map,List.mem_filter] at mem
    obtain ⟨o,ho,t,⟨ht,hit⟩,same⟩ := mem
    cases same
    simp only [resolvable,Bool.and_eq_true,beq_iff_eq] at hit
    obtain ⟨⟨⟨⟨⟨⟨⟨tenant,site⟩,_⟩,active⟩,open_⟩,bound⟩,_⟩,_⟩ := hit
    exact ⟨g,ho,s,ht,active,open_,tenant,site,bound⟩
  · contradiction

end Wepuu.TokenClaims
