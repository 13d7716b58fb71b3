import Wepuu.NodeApi
import Wepuu.Relational
import Wepuu.Runs
import Wepuu.Words

/-! Database.migrate: the scripts of a directory under the ledger
public.wepuu_schema_migrations, in one transaction behind an advisory lock. What a script
does to the rest of the database is a parameter. -/
namespace Wepuu.Migrations
open NodeApi Relational Runs Schema Words

structure SourceFile where
  name : String
  sql : String
  deriving DecidableEq, Repr

/- readdir gives a name once, in no promised order. -/
structure Directory where
  files : List SourceFile
  distinct : (files.map (·.name)).Nodup

def digit (c : Char) : Bool := '0' ≤ c && c ≤ '9'
def nameChar (c : Char) : Bool := 'a' ≤ c && c ≤ 'z' || digit c || c == '_'

/- /^\d+_[a-z0-9_]+\.sql$/u: the first underscore ends the digits. -/
def migrationName (name : String) : Bool :=
  let digits := name.toList.takeWhile digit
  match name.toList.dropWhile digit with
  | '_' :: rest =>
    let body := rest.take (rest.length - 4)
    !digits.isEmpty && !body.isEmpty && body.all nameChar && rest.drop (rest.length - 4) == ['.','s','q','l']
  | _ => false

def scripts (directory : Directory) : List SourceFile :=
  (directory.files.filter fun f => migrationName f.name).insertionSort
    fun a b => codeUnits a.name ≤ codeUnits b.name

structure MigrationRow where
  name : String
  sha256 : String
  deriving DecidableEq, Repr

structure State (δ : Type) where
  ledger : Option (List MigrationRow)
  database : δ

def State.fresh {δ : Type} (initial : δ) : State δ := ⟨none,initial⟩

def hexDigit (n : Nat) : Char := Char.ofNat (if n < 10 then 48 + n else 87 + n)
def hex (digest : Digest) : String :=
  String.ofList (digest.flatMap fun b => [hexDigit (b.toNat / 16),hexDigit (b.toNat % 16)])
def checksum (node : Node) (sql : String) : String := hex (node.sha256 sql)

section Migrating
variable {δ : Type} (node : Node) (execute : String → δ → Except Fault δ)

def migrateFile (s : List MigrationRow × δ) (f : SourceFile) : Except Fault (List MigrationRow × δ) :=
  match s.1.find? fun row => row.name == f.name with
  | some existing =>
    if existing.sha256 ≠ checksum node f.sql then .error (.thrown "migration_checksum_mismatch") else .ok s
  | none => do
    let database ← execute f.sql s.2
    .ok (s.1 ++ [⟨f.name,checksum node f.sql⟩],database)

def migrate (directory : Directory) (s : State δ) : Except Fault (State δ) := do
  let (rows,database) ← (scripts directory).foldlM (migrateFile node execute) (s.ledger.getD [],s.database)
  .ok ⟨some rows,database⟩

/- A call of migrate that throws has rolled back. -/
def deploy (s : State δ) (directory : Directory) : State δ :=
  settle s ((migrate node execute directory s).map fun next => (next,()))

def install (fs : List SourceFile) (database : δ) : Except Fault δ :=
  fs.foldlM (fun d f => execute f.sql d) database

def ledgerOf (fs : List SourceFile) : List MigrationRow := fs.map fun f => ⟨f.name,checksum node f.sql⟩

structure Replayed (initial : δ) (fs : List SourceFile) (rows : List MigrationRow) (database : δ) : Prop where
  rows : rows = ledgerOf node fs
  distinct : (fs.map (·.name)).Nodup
  database : install execute fs initial = .ok database

end Migrating

section Files
variable {δ : Type} {node : Node} {execute : String → δ → Except Fault δ} {initial : δ} {fs gs : List SourceFile}
variable {s t : List MigrationRow × δ} {f : SourceFile}

theorem migrateFileCases (ok : migrateFile node execute s f = .ok t) :
    (t = s ∧ ⟨f.name,checksum node f.sql⟩ ∈ s.1) ∨
    ((∀ row ∈ s.1, row.name ≠ f.name) ∧ t.1 = s.1 ++ [⟨f.name,checksum node f.sql⟩] ∧
      execute f.sql s.2 = .ok t.2) := by
  unfold migrateFile at ok
  split at ok
  · rename_i existing found
    split at ok
    · cases ok
    · rename_i same
      cases ok
      have named := List.find?_some found
      simp only [beq_iff_eq] at named
      simp only [ne_eq,not_not] at same
      rw [← named,← same]
      exact .inl ⟨rfl,List.mem_of_find?_eq_some found⟩
  · rename_i none_
    simp only [bindOk] at ok
    obtain ⟨database,ran,last⟩ := ok
    cases last
    refine .inr ⟨fun row mem same => ?_,rfl,ran⟩
    exact absurd (beq_iff_eq.mpr same) (List.find?_eq_none.mp none_ row mem)

theorem installAppend {d : δ} : install execute (fs ++ gs) initial = .ok d ↔
    ∃ c, install execute fs initial = .ok c ∧ install execute gs c = .ok d := by
  simp only [install,List.foldlM_append,bindOk]

theorem filesReplayed (replayed : Replayed node execute initial fs s.1 s.2)
    (ok : gs.foldlM (migrateFile node execute) s = .ok t) :
    ∃ hs, hs.Sublist gs ∧ Replayed node execute initial (fs ++ hs) t.1 t.2 ∧
      ∀ g ∈ gs, ⟨g.name,checksum node g.sql⟩ ∈ t.1 := by
  induction gs generalizing s fs with
  | nil =>
    cases ok
    exact ⟨[],.slnil,by simpa using replayed,by simp⟩
  | cons g gs ih =>
    simp only [List.foldlM_cons,bindOk] at ok
    obtain ⟨mid,first,ok⟩ := ok
    rcases migrateFileCases first with ⟨rfl,known⟩ | ⟨new,rows,ran⟩
    · obtain ⟨hs,within,after,listed⟩ := ih replayed ok
      refine ⟨hs,within.cons g,after,?_⟩
      intro o mem
      rcases List.mem_cons.mp mem with rfl | later
      · rw [after.rows,ledgerOf,List.map_append]
        rw [replayed.rows] at known
        exact List.mem_append_left _ known
      · exact listed o later
    · have grown : Replayed node execute initial (fs ++ [g]) mid.1 mid.2 := by
        refine ⟨?_,?_,?_⟩
        · rw [rows,replayed.rows,ledgerOf,ledgerOf,List.map_append]
          rfl
        · rw [List.map_append]
          refine List.nodup_append.mpr ⟨replayed.distinct,List.nodup_singleton _,?_⟩
          rintro n old m fresh rfl
          obtain ⟨o,ho,rfl⟩ := List.mem_map.mp old
          refine new ⟨o.name,checksum node o.sql⟩ ?_ (List.mem_singleton.mp fresh)
          rw [replayed.rows]
          exact List.mem_map.mpr ⟨o,ho,rfl⟩
        · refine installAppend.mpr ⟨s.2,replayed.database,?_⟩
          simp only [install,List.foldlM_cons,List.foldlM_nil,ran]
          rfl
      obtain ⟨hs,within,after,listed⟩ := ih grown ok
      rw [List.append_assoc] at after
      refine ⟨[g] ++ hs,within.cons_cons g,after,?_⟩
      intro o mem
      rcases List.mem_cons.mp mem with rfl | later
      · rw [after.rows,ledgerOf]
        exact List.mem_map.mpr ⟨o,by simp,rfl⟩
      · exact listed o later

theorem ledgerOnce (replayed : Replayed node execute initial fs s.1 s.2) {a b : MigrationRow} (left : a ∈ s.1)
    (right : b ∈ s.1) (same : a.name = b.name) : a = b := by
  have distinct : (s.1.map (·.name)).Nodup := by
    rw [replayed.rows,ledgerOf,List.map_map]
    exact replayed.distinct
  exact List.inj_on_of_nodup_map distinct left right same

theorem knownSkipped (replayed : Replayed node execute initial fs s.1 s.2)
    (known : ∀ g ∈ gs, ⟨g.name,checksum node g.sql⟩ ∈ s.1) : gs.foldlM (migrateFile node execute) s = .ok s := by
  induction gs with
  | nil => rfl
  | cons g gs ih =>
    have first : migrateFile node execute s g = .ok s := by
      unfold migrateFile
      have there := known g List.mem_cons_self
      cases found : s.1.find? fun row => row.name == g.name with
      | none => exact absurd (beq_self_eq_true g.name) (List.find?_eq_none.mp found _ there)
      | some row =>
        have named := List.find?_some found
        simp only [beq_iff_eq] at named
        rw [ledgerOnce replayed (List.mem_of_find?_eq_some found) there named]
        simp
    rw [List.foldlM_cons,first]
    exact ih fun o mem => known o (List.mem_cons_of_mem _ mem)

theorem newInstalled (absent : ∀ g ∈ gs, ∀ row ∈ s.1, row.name ≠ g.name) (distinct : (gs.map (·.name)).Nodup) :
    gs.foldlM (migrateFile node execute) s =
      (install execute gs s.2).map fun database => (s.1 ++ ledgerOf node gs,database) := by
  induction gs generalizing s with
  | nil => simp [install,ledgerOf,Except.map,pure,Except.pure]
  | cons g gs ih =>
    rw [List.map_cons,List.nodup_cons] at distinct
    have none_ : (s.1.find? fun row => row.name == g.name) = none := by
      refine List.find?_eq_none.mpr fun row mem hit => ?_
      exact absent g List.mem_cons_self row mem (beq_iff_eq.mp hit)
    simp only [List.foldlM_cons,install,migrateFile,none_]
    cases ran : execute g.sql s.2 with
    | error fault => rfl
    | ok database =>
      have later := @ih (s.1 ++ [⟨g.name,checksum node g.sql⟩],database) ?_ distinct.2
      · simp only [bind,Except.bind]
        rw [later]
        simp only [install,ledgerOf,List.map_cons,List.append_assoc,List.cons_append,List.nil_append]
      · intro o mem row listed same
        rcases List.mem_append.mp listed with old | new
        · exact absent o (List.mem_cons_of_mem _ mem) row old same
        · rw [List.mem_singleton.mp new] at same
          exact distinct.1 (List.mem_map.mpr ⟨o,mem,same.symm⟩)

end Files

section Deployments
variable {δ : Type} {node : Node} {execute : String → δ → Except Fault δ} {initial : δ}

theorem deployCases (s : State δ) (directory : Directory) :
    (deploy node execute s directory = s ∧ ∃ fault, migrate node execute directory s = .error fault) ∨
    migrate node execute directory s = .ok (deploy node execute s directory) := by
  unfold deploy
  cases migrate node execute directory s with
  | error fault => exact .inl ⟨rfl,fault,rfl⟩
  | ok next => exact .inr rfl

def Consistent (node : Node) (execute : String → δ → Except Fault δ) (initial : δ) (fs : List SourceFile) (s : State δ) : Prop :=
  Replayed node execute initial fs (s.ledger.getD []) s.database

theorem migrateOk {directory : Directory} {s t : State δ} (ok : migrate node execute directory s = .ok t) :
    ∃ rows, t.ledger = some rows ∧
      (scripts directory).foldlM (migrateFile node execute) (s.ledger.getD [],s.database) = .ok (rows,t.database) := by
  simp only [migrate,bindOk] at ok
  obtain ⟨⟨rows,database⟩,ran,last⟩ := ok
  cases last
  exact ⟨rows,rfl,ran⟩

theorem migrateConsistent {directory : Directory} {s t : State δ} {fs : List SourceFile}
    (consistent : Consistent node execute initial fs s) (ok : migrate node execute directory s = .ok t) :
    ∃ hs, hs.Sublist (scripts directory) ∧ Consistent node execute initial (fs ++ hs) t ∧
      ∀ g ∈ scripts directory, ∃ f ∈ fs ++ hs, f.name = g.name ∧ checksum node f.sql = checksum node g.sql := by
  obtain ⟨rows,listed,ran⟩ := migrateOk ok
  obtain ⟨hs,within,after,known⟩ :=
    @filesReplayed _ node execute initial fs _ (s.ledger.getD [],s.database) _ consistent ran
  refine ⟨hs,within,?_,?_⟩
  · rw [Consistent,listed]
    exact after
  · intro g mem
    have there := known g mem
    rw [after.rows,ledgerOf] at there
    obtain ⟨f,hf,same⟩ := List.mem_map.mp there
    simp only [MigrationRow.mk.injEq] at same
    exact ⟨f,hf,same⟩

theorem tamperedRefused {directory : Directory} {s : State δ} {fs : List SourceFile}
    (consistent : Consistent node execute initial fs s) {f g : SourceFile} (applied : f ∈ fs)
    (offered : g ∈ scripts directory) (named : f.name = g.name) (changed : checksum node f.sql ≠ checksum node g.sql) :
    ∃ fault, migrate node execute directory s = .error fault := by
  cases out : migrate node execute directory s with
  | error fault => exact ⟨fault,rfl⟩
  | ok t =>
    obtain ⟨hs,_,after,known⟩ := migrateConsistent consistent out
    obtain ⟨o,ho,same,sum⟩ := known g offered
    have one : o = f := List.inj_on_of_nodup_map after.distinct ho (List.mem_append_left _ applied)
      (same.trans named.symm)
    rw [one] at sum
    exact absurd sum changed

theorem freshConsistent : Consistent node execute initial [] (.fresh initial) := ⟨rfl,List.nodup_nil,rfl⟩

theorem deployConsistent (directory : Directory) {s : State δ} {fs : List SourceFile}
    (consistent : Consistent node execute initial fs s) :
    ∃ hs, hs.Sublist (scripts directory) ∧ Consistent node execute initial (fs ++ hs) (deploy node execute s directory) := by
  rcases deployCases s directory with ⟨same,_⟩ | ok
  · refine ⟨[],List.nil_sublist _,?_⟩
    rw [same,List.append_nil]
    exact consistent
  · obtain ⟨hs,within,after,_⟩ := migrateConsistent consistent ok
    exact ⟨hs,within,after⟩

theorem runConsistent {directories : List Directory} {s : State δ} {fs : List SourceFile}
    (consistent : Consistent node execute initial fs s) :
    ∃ hs, (∀ f ∈ hs, ∃ d ∈ directories, f ∈ scripts d) ∧
      Consistent node execute initial (fs ++ hs) (run (deploy node execute) s directories) := by
  induction directories generalizing s fs with
  | nil => exact ⟨[],by simp,by simpa using consistent⟩
  | cons d ds ih =>
    obtain ⟨hs,within,first⟩ := deployConsistent d consistent
    obtain ⟨more,listed,later⟩ := ih first
    rw [List.append_assoc] at later
    refine ⟨hs ++ more,?_,later⟩
    intro f mem
    rcases List.mem_append.mp mem with here | there
    · exact ⟨d,List.mem_cons_self,within.subset here⟩
    · obtain ⟨o,ho,found⟩ := listed f there
      exact ⟨o,List.mem_cons_of_mem _ ho,found⟩

/- Whatever directories were deployed, the database is what a list of their scripts makes of
the initial one, each run once and recorded with its checksum. A call that succeeds keeps
the list, appends what is new of its directory, and agrees with all of it. -/
theorem migrationsReplay (node : Node) (execute : String → δ → Except Fault δ) (initial : δ) (directories : List Directory) :
    let s := run (deploy node execute) (.fresh initial) directories
    ∃ fs, (∀ f ∈ fs, ∃ d ∈ directories, f ∈ scripts d) ∧ Consistent node execute initial fs s ∧
      ∀ directory,
        ((∃ f ∈ fs, ∃ g ∈ scripts directory, f.name = g.name ∧ checksum node f.sql ≠ checksum node g.sql) →
          deploy node execute s directory = s) ∧
        ∀ t, migrate node execute directory s = .ok t → ∃ hs, hs.Sublist (scripts directory) ∧
          Consistent node execute initial (fs ++ hs) t ∧
          ∀ g ∈ scripts directory, ∃ f ∈ fs ++ hs, f.name = g.name ∧ checksum node f.sql = checksum node g.sql := by
  intro s
  obtain ⟨fs,listed,consistent⟩ := @runConsistent _ node execute initial directories (.fresh initial) [] freshConsistent
  rw [List.nil_append] at consistent
  refine ⟨fs,listed,consistent,fun directory => ⟨?_,fun t ok => migrateConsistent consistent ok⟩⟩
  rintro ⟨f,applied,g,offered,named,changed⟩
  obtain ⟨fault,refused⟩ := tamperedRefused consistent applied offered named changed
  rcases deployCases s directory with ⟨same,_⟩ | ok
  · exact same
  · rw [refused] at ok
    cases ok

end Deployments

section Releases
variable {δ : Type} {node : Node} {execute : String → δ → Except Fault δ} {initial : δ} {line : List SourceFile}

structure Line (line : List SourceFile) : Prop where
  named : ∀ f ∈ line, migrationName f.name = true
  ascending : line.Pairwise fun a b => codeUnits a.name < codeUnits b.name

def Release (line : List SourceFile) (k : Nat) (directory : Directory) : Prop :=
  (directory.files.filter fun f => migrationName f.name).Perm (line.take k)

instance (line k directory) : Decidable (Release line k directory) := by unfold Release; infer_instance

theorem releaseScripts {k : Nat} {directory : Directory} (ordered : Line line) (release : Release line k directory) :
    scripts directory = line.take k := by
  have ascending := ordered.ascending.sublist (List.take_sublist k line)
  refine List.Perm.eq_of_pairwise ?_ (List.pairwise_insertionSort _ _)
    (ascending.imp fun {a b} lower => le_of_lt lower) ((List.perm_insertionSort _ _).trans release)
  intro a b left right ab ba
  have within : a ∈ line.take k := ((List.perm_insertionSort _ _).trans release).mem_iff.mp left
  have apart : Indexed (fun a b => codeUnits a.name == codeUnits b.name) (line.take k) :=
    ascending.imp fun {a b} lower => beq_eq_false_iff_ne.mpr (ne_of_lt lower)
  exact indexedEq apart (fun _ _ => Bool.beq_comm) within right (beq_iff_eq.mpr (le_antisymm ab ba))

theorem releaseLength {k : Nat} {directory : Directory} (ordered : Line line) (release : Release line k directory) :
    scripts directory = line.take (scripts directory).length ∧ (scripts directory).length ≤ line.length := by
  rw [releaseScripts ordered release,List.length_take]
  refine ⟨?_,Nat.min_le_right _ _⟩
  rcases Nat.le_total k line.length with h | h
  · rw [Nat.min_eq_left h]
  · rw [Nat.min_eq_right h,List.take_of_length_le h,List.take_of_length_le le_rfl]

theorem lineDistinct (ordered : Line line) : (line.map (·.name)).Nodup := by
  refine List.pairwise_map.mpr (ordered.ascending.imp ?_)
  intro a b lower same
  rw [same] at lower
  exact lt_irrefl _ lower

structure Installed (node : Node) (execute : String → δ → Except Fault δ) (initial : δ) (line : List SourceFile) (n : Nat)
    (s : State δ) : Prop where
  ledger : s.ledger = some (ledgerOf node (line.take n))
  database : install execute (line.take n) initial = .ok s.database
  within : n ≤ line.length

theorem installedConsistent {n : Nat} {s : State δ} (ordered : Line line) (installed : Installed node execute initial line n s) :
    Consistent node execute initial (line.take n) s := by
  refine ⟨?_,?_,installed.database⟩
  · rw [installed.ledger]
    rfl
  · rw [List.map_take]
    exact (lineDistinct ordered).sublist (List.take_sublist _ _)

inductive Stage (node : Node) (execute : String → δ → Except Fault δ) (initial : δ) (line : List SourceFile) :
    Nat → State δ → Prop where
  | fresh : Stage node execute initial line 0 (.fresh initial)
  | installed {n s} (here : Installed node execute initial line n s) : Stage node execute initial line n s

theorem stageConsistent {n : Nat} {s : State δ} (ordered : Line line) (stage : Stage node execute initial line n s) :
    Consistent node execute initial (line.take n) s ∧ n ≤ line.length := by
  cases stage with
  | fresh => exact ⟨freshConsistent,Nat.zero_le _⟩
  | installed here => exact ⟨installedConsistent ordered here,here.within⟩

theorem releaseMigrates {n k : Nat} {s t : State δ} {directory : Directory} (ordered : Line line)
    (stage : Stage node execute initial line n s) (upTo : scripts directory = line.take k) (within : k ≤ line.length)
    (ok : migrate node execute directory s = .ok t) : Installed node execute initial line (max n k) t := by
  obtain ⟨consistent,below⟩ := stageConsistent ordered stage
  obtain ⟨rows,listed,ran⟩ := migrateOk ok
  rw [upTo] at ran
  rcases Nat.le_total k n with older | newer
  · have skipped := @knownSkipped _ node execute initial (line.take n) (line.take k) (s.ledger.getD [],s.database)
      consistent ?_
    · rw [skipped] at ran
      have same := Prod.mk.inj (Except.ok.inj ran)
      rw [Nat.max_eq_left older]
      refine ⟨?_,?_,below⟩
      · rw [listed,← same.1,consistent.rows]
      · rw [← same.2]
        exact consistent.database
    · intro g mem
      rw [consistent.rows]
      exact List.mem_map.mpr ⟨g,List.take_subset_take_left line older mem,rfl⟩
  · obtain ⟨new,split⟩ : ∃ new, line.take k = line.take n ++ new := by
      have front : line.take n = (line.take k).take n := by rw [List.take_take,Nat.min_eq_left newer]
      rw [front]
      exact ⟨_,(List.take_append_drop n _).symm⟩
    have distinct := (lineDistinct ordered).sublist ((List.take_sublist k line).map (·.name))
    rw [split,List.map_append] at distinct
    obtain ⟨_,once,apart⟩ := List.nodup_append.mp distinct
    rw [split,List.foldlM_append,@knownSkipped _ node execute initial (line.take n) (line.take n)
      (s.ledger.getD [],s.database) consistent (fun g mem => by
        rw [consistent.rows]
        exact List.mem_map.mpr ⟨g,mem,rfl⟩)] at ran
    have runs := @newInstalled _ node execute new (s.ledger.getD [],s.database) ?_ once
    · have ran : new.foldlM (migrateFile node execute) (s.ledger.getD [],s.database) =
          .ok (rows,t.database) := ran
      rw [runs] at ran
      cases done : install execute new s.database with
      | error fault =>
        rw [done] at ran
        cases ran
      | ok database =>
        rw [done] at ran
        simp only [Except.map,Except.ok.injEq,Prod.mk.injEq] at ran
        rw [Nat.max_eq_right newer]
        refine ⟨?_,?_,within⟩
        · rw [listed,← ran.1,consistent.rows,split]
          simp only [ledgerOf,List.map_append]
        · rw [split,← ran.2]
          exact installAppend.mpr ⟨s.database,consistent.database,done⟩
    · intro g mem row there same
      rw [consistent.rows] at there
      obtain ⟨f,hf,rfl⟩ := List.mem_map.mp there
      exact apart f.name (List.mem_map.mpr ⟨f,hf,rfl⟩) g.name (List.mem_map.mpr ⟨g,mem,rfl⟩) same

def taken (node : Node) (execute : String → δ → Except Fault δ) (s : State δ) (directory : Directory) : List Directory :=
  match migrate node execute directory s with
  | .ok _ => [directory]
  | .error _ => []

theorem stagesRun {n : Nat} {s : State δ} {releases : List Directory} (ordered : Line line)
    (stage : Stage node execute initial line n s)
    (each : ∀ d ∈ releases, scripts d = line.take (scripts d).length ∧ (scripts d).length ≤ line.length) :
    let won := collect (deploy node execute) (taken node execute) s releases
    (won = [] ∧ run (deploy node execute) s releases = s) ∨
    ∃ m, Installed node execute initial line m (run (deploy node execute) s releases) ∧ n ≤ m ∧ won ≠ [] ∧
      (m = n ∨ ∃ d ∈ won, (scripts d).length = m) ∧ ∀ d ∈ won, (scripts d).length ≤ m := by
  induction releases generalizing n s with
  | nil => exact .inl ⟨rfl,rfl⟩
  | cons d ds ih =>
    have later := each d List.mem_cons_self
    have rest := fun o mem => each o (List.mem_cons_of_mem d mem)
    simp only [collect,runCons]
    rcases @deployCases _ node execute s d with ⟨same,fault,refused⟩ | ok
    · have none_ : taken node execute s d = [] := by simp only [taken,refused]
      rw [same,none_,List.nil_append]
      exact ih stage rest
    · have here : Installed node execute initial line (max n (scripts d).length) (deploy node execute s d) :=
        releaseMigrates ordered stage later.1 later.2 ok
      have one : taken node execute s d = [d] := by simp only [taken,ok]
      have upTo : ∀ o ∈ [d], (scripts o).length ≤ max n (scripts d).length := by
        intro o mem
        rw [List.mem_singleton.mp mem]
        exact Nat.le_max_right _ _
      have largest : max n (scripts d).length = n ∨ (scripts d).length = max n (scripts d).length := by omega
      rw [one]
      rcases ih (.installed here) rest with ⟨quiet,same⟩ | ⟨m,installed,above,_,largestLater,all⟩
      · rw [quiet,same]
        refine .inr ⟨_,here,Nat.le_max_left _ _,by simp,largest.imp id fun top => ⟨d,List.mem_cons_self,top⟩,upTo⟩
      · refine .inr ⟨m,installed,by omega,by simp,?_,?_⟩
        · rcases largestLater with rfl | ⟨o,mem,top⟩
          · exact largest.imp id fun top => ⟨d,List.mem_cons_self,top⟩
          · exact .inr ⟨o,List.mem_append_right _ mem,top⟩
        · intro o mem
          rcases List.mem_append.mp mem with first | later
          · exact Nat.le_trans (upTo o first) above
          · exact all o later

theorem takenReleased {s : State δ} {releases : List Directory} {d : Directory}
    (mem : d ∈ collect (deploy node execute) (taken node execute) s releases) : d ∈ releases := by
  induction releases generalizing s with
  | nil => simp [collect] at mem
  | cons o ds ih =>
    rcases List.mem_append.mp mem with first | later
    · have one : d = o := by
        unfold taken at first
        split at first
        · exact List.mem_singleton.mp first
        · simp at first
      rw [one]
      exact List.mem_cons_self
    · exact List.mem_cons_of_mem _ (ih later)

theorem freshInstalls {n : Nat} {s : State δ} {directory : Directory} (ordered : Line line)
    (installed : Installed node execute initial line n s) (upTo : scripts directory = line.take n) :
    migrate node execute directory (.fresh initial) = .ok s := by
  have distinct := (lineDistinct ordered).sublist ((List.take_sublist n line).map (·.name))
  have runs := @newInstalled _ node execute (line.take n) ([],initial) (by simp) distinct
  rw [installed.database] at runs
  simp only [migrate,upTo,State.fresh,Option.getD_none,runs]
  obtain ⟨rows,database⟩ := s
  have ledger := installed.ledger
  simp only at ledger
  rw [ledger]
  rfl

/- Whatever releases of one line were deployed, in whatever order and however often they
failed, the database is the one that a fresh install of the newest release that got through
would give. -/
theorem deploymentsInstall (node : Node) (execute : String → δ → Except Fault δ) (initial : δ) (line : List SourceFile)
    (ordered : Line line) (releases : List Directory) (each : ∀ d ∈ releases, ∃ k, Release line k d) :
    let s := run (deploy node execute) (.fresh initial) releases
    let won := collect (deploy node execute) (taken node execute) (.fresh initial) releases
    (won = [] ∧ s = .fresh initial) ∨
    ∃ newest ∈ won, (∀ d ∈ won, (scripts d).length ≤ (scripts newest).length) ∧
      migrate node execute newest (.fresh initial) = .ok s := by
  intro s won
  have shaped : ∀ d ∈ releases, scripts d = line.take (scripts d).length ∧ (scripts d).length ≤ line.length := by
    intro d mem
    obtain ⟨k,release⟩ := each d mem
    exact releaseLength ordered release
  rcases stagesRun ordered (.fresh : Stage node execute initial line 0 (.fresh initial)) shaped with
    quiet | ⟨m,installed,_,some_,largest,all⟩
  · exact .inl quiet
  · obtain ⟨newest,mem,top⟩ : ∃ d ∈ won, (scripts d).length = m := by
      rcases largest with rfl | found
      · obtain ⟨d,mem⟩ := List.exists_mem_of_ne_nil _ some_
        exact ⟨d,mem,Nat.le_zero.mp (all d mem)⟩
      · exact found
    refine .inr ⟨newest,mem,fun d hd => top ▸ all d hd,?_⟩
    have upTo := (shaped newest (takenReleased mem)).1
    rw [top] at upTo
    exact freshInstalls ordered installed upTo

def sampleLine : List SourceFile :=
  [⟨"001_foundation.sql","CREATE SCHEMA platform"⟩,⟨"002_pairing_and_grants.sql","CREATE TABLE platform.sites"⟩]
def olderRelease : Directory := ⟨sampleLine.take 1,by decide⟩
def newerRelease : Directory := ⟨⟨"README.md",""⟩ :: sampleLine.reverse,by decide⟩
def listed (sql : String) (ran : List String) : Except Fault (List String) := .ok (ran ++ [sql])

theorem newerInstalled :
    let s := run (deploy (tabled [] [] []) listed) (.fresh []) [olderRelease,newerRelease,olderRelease]
    s.database = ["CREATE SCHEMA platform","CREATE TABLE platform.sites"] ∧
    ∃ newest, migrate (tabled [] [] []) listed newest (.fresh []) = .ok s := by
  intro s
  have ran : s.database = ["CREATE SCHEMA platform","CREATE TABLE platform.sites"] := by decide
  refine ⟨ran,?_⟩
  rcases deploymentsInstall (tabled [] [] []) listed [] sampleLine ⟨by decide,by decide⟩
    [olderRelease,newerRelease,olderRelease] (by
      intro d mem
      rcases List.mem_cons.mp mem with rfl | mem
      · exact ⟨1,by decide⟩
      · rcases List.mem_cons.mp mem with rfl | mem
        · exact ⟨2,by decide⟩
        · rw [List.mem_singleton.mp mem]
          exact ⟨1,by decide⟩) with ⟨_,nothing⟩ | ⟨newest,_,_,same⟩
  · rw [show s = .fresh [] from nothing] at ran
    cases ran
  · exact ⟨newest,same⟩

end Releases

end Wepuu.Migrations
