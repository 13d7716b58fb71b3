import Wepuu.ConsoleAuth
import Wepuu.UrlPaths

/-! The return_to of a login in apps/control-api: checked as text, returned as the URL parser
reads it, and checked again by the two stores that keep it. -/
namespace Wepuu.ReturnPaths
open ConsoleAuth LoginTransactions NodeApi Relational Schema UrlPaths

section Source

def returnOrigin : String := "https://return.invalid"

def validatedReturnTo (authority : List Char → Option Authority) (value : Option String) : Except Fault String := do
  let returnTo := value.getD "/app"
  ensure (returnTo.toList.take 1 == ['/'] && !(returnTo.toList.take 2 == ['/','/']) && !returnTo.toList.contains '\\')
    (.thrown "invalid_request")
  let parsed ← orFail (.thrown "Invalid URL") (parseSlash authority returnOrigin returnTo.toList)
  ensure (parsed.origin == returnOrigin && parsed.username == "" && parsed.password == "" && parsed.hash == [])
    (.thrown "invalid_request")
  .ok (String.ofList (pathname parsed.path ++ parsed.search))

end Source

section Safety
variable (authority : List Char → Option Authority) (node : Node)

structure ReturnSafe (path : String) : Prop where
  stays : ∀ origin, ∃ parsed, parseSlash authority origin path.toList = some parsed ∧ parsed.origin = origin
  again : validatedReturnTo authority (some path) = .ok path
  login : ∀ csrf token now store, matchesClass opaqueChar 43 43 csrf = true → matchesClass opaqueChar 43 43 token = true →
    (∀ r ∈ store.transactions, r.tokenHash ≠ node.sha256 token) →
    ∃ done, LoginTransactions.create node path csrf token now store = .ok done
  console : ∀ requestId browserSecret now store, requestIdShape requestId = true →
    matchesClass opaqueChar 43 43 browserSecret = true → (∀ r ∈ store.transactions, r.requestId ≠ requestId) →
    ∃ done, createLogin node path requestId browserSecret now store = .ok done

/- As the URL parser reads the text: no empty segment comes first, unless it is the only
one, and the path and the query have at most 2048 characters. -/
structure Settled (parsed : Parsed) : Prop where
  front : ∀ rest, parsed.path = [] :: rest → rest = []
  short : (pathname parsed.path ++ parsed.search).length ≤ 2048

variable {authority node} {value : Option String} {path : String}

structure ReadAs (authority : List Char → Option Authority) (value : Option String) (path : String) (parsed : Parsed) :
    Prop where
  read : parseSlash authority returnOrigin (value.getD "/app").toList = some parsed
  text : path.toList = pathname parsed.path ++ parsed.search
  path : NormalPath parsed.path
  search : NormalSearch parsed.search
  bare : '\\' ∉ parsed.search

theorem referenceSearch {text : List Char} {c : Char} (mem : c ∈ (reference text).search) :
    c = '?' ∨ c ∈ text ∨ escape c = true := by
  unfold reference marked at mem
  simp only at mem
  split at mem
  · cases mem
  · rcases List.mem_cons.mp mem with mark | inside
    · exact .inl mark
    · rcases encodeMember inside with ⟨source,-⟩ | escaped
      · refine .inr (.inl ?_)
        have sub : ∀ l : List Char, c ∈ queryOf l → c ∈ l := by
          intro l inside
          unfold queryOf at inside
          split at inside
          · exact List.mem_cons_of_mem _ ((List.takeWhile_prefix _).subset inside)
          · cases inside
        exact (List.dropWhile_suffix _).subset (sub _ source)
      · exact .inr (.inr escaped)

theorem cleanedMember {text : List Char} {c : Char} (mem : c ∈ cleaned text) : c ∈ text := by
  have kept := (List.mem_filter.mp mem).1
  have first := (List.dropWhile_suffix _).subset (List.mem_reverse.mp kept)
  exact (List.dropWhile_suffix _).subset (List.mem_reverse.mp first)

theorem parseReference {base : String} {text : List Char} {parsed : Parsed}
    (ok : parseSlash authority base text = some parsed) :
    ∃ part, (∀ c ∈ part, c ∈ text) ∧ parsed.toReference = reference part := by
  have sub : ∀ {l : List Char}, (∀ c ∈ l, c ∈ cleaned text) → ∀ c ∈ l, c ∈ text := fun inside c mem =>
    cleanedMember (inside c mem)
  unfold parseSlash at ok
  split at ok
  · rename_i first second rest whole
    have later : ∀ c ∈ rest, c ∈ cleaned text := fun c mem => whole ▸ List.mem_cons_of_mem _ (List.mem_cons_of_mem _ mem)
    split at ok
    · obtain ⟨own,-,rfl⟩ := Option.map_eq_some_iff.mp ok
      refine ⟨_,sub fun c mem => later c ?_,rfl⟩
      have after : c ∈ (rest.dropWhile slash).dropWhile beforePath := by
        split at mem
        · exact List.mem_of_mem_drop mem
        · exact mem
      exact (List.dropWhile_suffix _).subset ((List.dropWhile_suffix _).subset after)
    · cases ok
      exact ⟨_,sub fun c mem => whole ▸ List.mem_cons_of_mem _ mem,rfl⟩
  · cases ok
    exact ⟨_,sub fun c mem => List.mem_of_mem_drop mem,rfl⟩

theorem accepted (ok : validatedReturnTo authority value = .ok path) : ∃ parsed, ReadAs authority value path parsed := by
  simp only [validatedReturnTo,bindOk,ensureOk,orFailOk] at ok
  obtain ⟨_,shape,parsed,read,_,-,last⟩ := ok
  obtain ⟨part,inside,same⟩ := parseReference read
  have bare : '\\' ∉ (value.getD "/app").toList := by
    simp only [Bool.and_eq_true,Bool.not_eq_true',List.contains_eq_mem,decide_eq_false_iff_not] at shape
    exact shape.2
  have paths : parsed.path = (reference part).path := congrArg Reference.path same
  have searches : parsed.search = (reference part).search := congrArg Reference.search same
  refine ⟨parsed,read,?_,paths ▸ pathNormal _,searches ▸ searchNormal part,?_⟩
  · rw [← Except.ok.inj last,String.toList_ofList]
  · rw [searches]
    intro mem
    rcases referenceSearch mem with mark | source | escaped
    · cases mark
    · exact bare (inside _ source)
    · revert escaped
      decide

theorem asciiUnits {c : Char} (plain : controlSet c = false) : utf16Units c = 1 := by
  simp only [controlSet,Bool.or_eq_false_iff,decide_eq_false_iff_not,Nat.not_lt] at plain
  unfold utf16Units
  rw [if_neg (by omega)]

theorem pathControl {path : List (List Char)} (normal : NormalPath path) : ∀ c ∈ pathname path, controlSet c = false := by
  intro c mem
  rcases pathnameMember mem with rfl | ⟨segment,hs,inside⟩
  · decide
  · exact (Bool.or_eq_false_iff.mp (normal.plain segment hs c inside).1).1

theorem searchControl {search : List Char} (normal : NormalSearch search) : ∀ c ∈ search, controlSet c = false := by
  rcases normal with rfl | ⟨query,rfl,-,plain⟩
  · exact nofun
  · intro c mem
    rcases List.mem_cons.mp mem with rfl | inside
    · decide
    · exact (Bool.or_eq_false_iff.mp (plain c inside)).1

theorem readLength {parsed : Parsed} (read : ReadAs authority value path parsed) : utf16Length path = path.toList.length := by
  have all : path.toList.map utf16Units = path.toList.map fun _ => 1 := by
    refine List.map_congr_left fun c mem => asciiUnits ?_
    rw [read.text] at mem
    rcases List.mem_append.mp mem with front | back
    · exact pathControl read.path c front
    · exact searchControl read.search c back
  rw [utf16Length,all,List.map_const',List.sum_replicate_nat,Nat.mul_one]

/- The double slash is at the front exactly if an empty segment comes first and others follow. -/
theorem doubleFront {parsed : Parsed} (read : ReadAs authority value path parsed) :
    path.toList.take 2 = ['/','/'] ↔ ¬∀ rest, parsed.path = [] :: rest → rest = [] := by
  obtain ⟨segment,rest,whole⟩ := List.exists_cons_of_ne_nil read.path.some_
  have text := read.text
  rw [whole] at text ⊢
  cases segment with
  | nil =>
    cases rest with
    | nil =>
      rcases read.search with none_ | ⟨query,mark,-⟩
      · simp [text,none_,pathname]
      · simp [text,mark,pathname]
    | cons next more => simp [text,pathname]
  | cons c more =>
    have plain := (read.path.plain (c :: more) (whole ▸ List.mem_cons_self) c List.mem_cons_self).2
    have other : c ≠ '/' := by
      rintro rfl
      revert plain
      decide
    simp [text,pathname,other]

theorem readShape {parsed : Parsed} (read : ReadAs authority value path parsed)
    (front : ∀ rest, parsed.path = [] :: rest → rest = []) : pathShape path = true := by
  have first : path.toList.take 1 = ['/'] := by
    obtain ⟨segment,rest,whole⟩ := List.exists_cons_of_ne_nil read.path.some_
    rw [read.text,whole]
    rfl
  have notDouble : path.toList.take 2 ≠ ['/','/'] := fun double => (doubleFront read).mp double front
  have noBackslash : '\\' ∉ path.toList := by
    rw [read.text,List.mem_append,not_or]
    refine ⟨fun mem => ?_,read.bare⟩
    rcases pathnameMember mem with wrong | ⟨segment,hs,inside⟩
    · cases wrong
    · have plain := (read.path.plain segment hs _ inside).2
      revert plain
      decide
  have noHash : '#' ∉ path.toList := by
    rw [read.text,List.mem_append,not_or]
    refine ⟨fun mem => ?_,fun mem => (searchPlain read.search '#' mem).1 rfl⟩
    have before := (pathnamePlain read.path '#' mem).1
    revert before
    decide
  simp [pathShape,first,notDouble,noBackslash,noHash]

theorem readAgain {parsed : Parsed} (read : ReadAs authority value path parsed)
    (front : ∀ rest, parsed.path = [] :: rest → rest = []) (base : String) :
    parseSlash authority base path.toList = some ⟨⟨base,"",""⟩,⟨parsed.path,parsed.search,[]⟩⟩ := by
  rw [read.text]
  exact parseAgain authority base read.path read.search front

theorem validatedAgain {parsed : Parsed} (read : ReadAs authority value path parsed)
    (front : ∀ rest, parsed.path = [] :: rest → rest = []) : validatedReturnTo authority (some path) = .ok path := by
  have shape := readShape read front
  simp only [pathShape,Bool.and_eq_true,Bool.not_eq_true'] at shape
  simp only [validatedReturnTo,bindOk,ensureOk,orFailOk]
  refine ⟨(),?_,_,readAgain read front returnOrigin,(),?_,?_⟩
  · simp only [Option.getD_some,Bool.and_eq_true,Bool.not_eq_true']
    exact shape.1
  · simp
  · exact congrArg Except.ok (String.toList_inj.mp (by rw [String.toList_ofList,read.text]))

theorem pathSome (shape : pathShape path = true) : 1 ≤ path.toList.length := by
  rw [Nat.one_le_iff_ne_zero]
  intro none_
  simp [pathShape,List.length_eq_zero_iff.mp none_] at shape

theorem loginAccepts (short : path.toList.length ≤ 2048) (units : utf16Length path ≤ 2048) (shape : pathShape path = true)
    {csrf token : String} {now : Time} {store : LoginTransactions.Store} (csrfShape : matchesClass opaqueChar 43 43 csrf = true)
    (tokenShape : matchesClass opaqueChar 43 43 token = true)
    (fresh : ∀ r ∈ store.transactions, r.tokenHash ≠ node.sha256 token) :
    ∃ done, LoginTransactions.create node path csrf token now store = .ok done := by
  let row : LoginTransaction := ⟨node.sha256 token,path,node.sha256 csrf,none,now,now + minutes 10,none⟩
  have check : row.check = true := by
    have later : now < now + minutes 10 := by
      unfold minutes seconds Time at *
      omega
    simp [row,LoginTransaction.check,node.sha256Length,pathSome shape,short,shape,later]
  have free : insertRow sameToken row (purge now store.transactions) = some (purge now store.transactions ++ [row]) :=
    insertRowExact.mpr ⟨fun r mem => beq_eq_false_iff_ne.mpr (fresh r (memDeleteWhere.mp mem).1).symm,rfl⟩
  refine ⟨({ store with transactions := purge now store.transactions ++ [row] },⟨token,path,now + minutes 10⟩),?_⟩
  simp only [LoginTransactions.create,loginTransactionTokenHash,loginTransactionCsrfHash,insertTransaction,bindOk,ensureOk,
    orFailOk]
  exact ⟨(),by simp [shape,units],_,if_pos tokenShape,_,if_pos csrfShape,_,⟨(),check,free⟩,rfl⟩

theorem consoleAccepts (short : path.toList.length ≤ 2048) (units : utf16Length path ≤ 2048) (shape : pathShape path = true)
    {requestId browserSecret : String} {now : Time} {store : ConsoleAuth.Store} (idShape : requestIdShape requestId = true)
    (secretShape : matchesClass opaqueChar 43 43 browserSecret = true)
    (fresh : ∀ r ∈ store.transactions, r.requestId ≠ requestId) :
    ∃ done, createLogin node path requestId browserSecret now store = .ok done := by
  let row : ConsoleTransaction :=
    ⟨requestId,.login,node.sha256 browserSecret,path,none,none,none,now,now + minutes 5,none⟩
  have check : row.check = true := by
    have later : now < now + minutes 5 := by
      unfold minutes seconds Time at *
      omega
    simp [row,ConsoleTransaction.check,node.sha256Length,idShape,pathSome shape,short,shape,later]
  have free : insertRow sameRequest row (purgeRequests now store.transactions) =
      some (purgeRequests now store.transactions ++ [row]) :=
    insertRowExact.mpr ⟨fun r mem => beq_eq_false_iff_ne.mpr (fresh r (memDeleteWhere.mp mem).1).symm,rfl⟩
  refine ⟨({ store with transactions := purgeRequests now store.transactions ++ [row] },
    ⟨requestId,browserSecret,path,now + minutes 5⟩),?_⟩
  simp only [createLogin,consoleSecretHash,insertRequest,bindOk,ensureOk,orFailOk]
  exact ⟨(),by simp [validConsoleReturnPath,shape,units],_,if_pos secretShape,_,⟨(),check,free⟩,rfl⟩

theorem safeShort (safe : ReturnSafe authority node path) : utf16Length path ≤ 2048 := by
  obtain ⟨done,ok⟩ := safe.login (String.ofList (List.replicate 43 'A')) (String.ofList (List.replicate 43 'A')) 0
    ⟨Db.empty,[],[]⟩ (by decide) (by decide) nofun
  simp only [LoginTransactions.create,bindOk,ensureOk,Bool.and_eq_true,decide_eq_true_eq] at ok
  obtain ⟨_,checked,-⟩ := ok
  exact checked.2

/- An accepted return_to gives a safe path exactly if the parser reads it so. -/
theorem returnsSafe (authority : List Char → Option Authority) (node : Node) (value : Option String) (path : String)
    (ok : validatedReturnTo authority value = .ok path) :
    ReturnSafe authority node path ↔
      ∀ parsed, parseSlash authority returnOrigin (value.getD "/app").toList = some parsed → Settled parsed := by
  obtain ⟨parsed,read⟩ := accepted ok
  have units := readLength read
  constructor
  · intro safe other again
    obtain rfl := Option.some.inj (read.read.symm.trans again)
    refine ⟨?_,?_⟩
    · by_contra double
      have front := (doubleFront read).mpr double
      have refused := safe.again
      simp only [validatedReturnTo,bindOk,ensureOk,Option.getD_some,front] at refused
      obtain ⟨_,shape,-⟩ := refused
      simp at shape
    · rw [← read.text,← units]
      exact safeShort safe
  · intro settled
    obtain ⟨front,short⟩ := settled parsed read.read
    rw [← read.text] at short
    have shape := readShape read front
    have within : utf16Length path ≤ 2048 := units ▸ short
    exact ⟨fun origin => ⟨_,readAgain read front origin,rfl⟩,validatedAgain read front,
      fun _ _ _ _ csrf token fresh => loginAccepts short within shape csrf token fresh,
      fun _ _ _ _ id secret fresh => consoleAccepts short within shape id secret fresh⟩

def plainHosts (text : List Char) : Option Authority :=
  if text.isEmpty then none else some ⟨"https://" ++ String.ofList text,"",""⟩

def dottedReturn : String := "/app/./pages/../account?tab=1#"
def dottedRead : Parsed :=
  ⟨⟨returnOrigin,"",""⟩,⟨["app".toList,"account".toList],"?tab=1".toList,[]⟩⟩

theorem dottedSafe : ReturnSafe plainHosts (tabled [] [] []) "/app/account?tab=1" :=
  (returnsSafe plainHosts (tabled [] [] []) (some dottedReturn) "/app/account?tab=1" (by decide)).mpr fun parsed read => by
    have known : parseSlash plainHosts returnOrigin dottedReturn.toList = some dottedRead := by decide
    obtain rfl := Option.some.inj (known.symm.trans read)
    exact ⟨fun rest same => (by cases same),by decide⟩

/- A dot segment before an empty one: what is returned names another host. -/
theorem dotSlashLeaves : validatedReturnTo plainHosts (some "/.//evil.example/app") = .ok "//evil.example/app" ∧
    (parseSlash plainHosts "https://app.example" "//evil.example/app".toList).map (·.origin) =
      some "https://evil.example" ∧
    ¬ReturnSafe plainHosts (tabled [] [] []) "//evil.example/app" := by
  refine ⟨by decide,by decide,fun safe => ?_⟩
  have refused : validatedReturnTo plainHosts (some "//evil.example/app") = .error (.thrown "invalid_request") := by decide
  have again := safe.again
  rw [refused] at again
  cases again

end Safety
end Wepuu.ReturnPaths
