import SssdOidc.Cache

/-! src/scim.rs: the requests of the SCIM client, with the filter text of a lookup and the
pages of a listing. An answer is what `call()?` and `read_json()?` make of it. -/
namespace SssdOidc.Scim
open Model Program Cache

structure ListResponse (T : Type) where
  totalResults : Nat
  resources : List T
  deriving DecidableEq, Repr

/- The pairs behind the question mark. The numbers of a page are sent in decimal. -/
inductive Query where
  | filter (text : String)
  | page (startIndex count : Nat)
  deriving DecidableEq, Repr

structure Request where
  url : String
  query : Query
  authorization : String
  deriving DecidableEq, Repr

abbrev http (T : Type) : Interface := ⟨Request,fun _ => Except ScimError (ListResponse T),Unit⟩

abbrev Fetch (T α : Type) := ExceptT ScimError (Prog (http T)) α

def call {T : Type} (request : Request) : Fetch T (ListResponse T) := ExceptT.mk (perform (I := http T) request)

structure ScimClient where
  baseUrl : String
  bearerToken : String
  deriving DecidableEq, Repr

def ScimClient.new (baseUrl bearerToken : String) : ScimClient where
  baseUrl := String.ofList (baseUrl.toList.reverse.dropWhile (· == '/')).reverse
  bearerToken := bearerToken

def authHeaderValue (client : ScimClient) : String := "Bearer " ++ client.bearerToken

def escapeChar : Char → List Char
  | '\\' => ['\\','\\']
  | '\x22' => ['\\','\x22']
  | ch => [ch]

def escapeFilterValue (value : String) : String := String.ofList (value.toList.flatMap escapeChar)

def filterText (attr value : String) : String := attr ++ " eq \x22" ++ escapeFilterValue value ++ "\x22"

def getByName {T : Type} (client : ScimClient) (resource attr name : String) : Fetch T (Option T) := do
  let resp ← call ⟨client.baseUrl ++ "/" ++ resource,.filter (filterText attr name),authHeaderValue client⟩
  pure resp.resources.head?

def getUserByName (client : ScimClient) (name : String) : Fetch ScimUser (Option ScimUser) :=
  getByName client "Users" "userName" name

def getGroupByName (client : ScimClient) (name : String) : Fetch ScimGroup (Option ScimGroup) :=
  getByName client "Groups" "displayName" name

def MAX_PAGINATION_PAGES : Nat := 1000

def pageCount : Nat := 100

/- The `for` loop with the pages that it still may ask for. -/
def paginate {T : Type} (client : ScimClient) (resource : String) : Nat → Nat → List T → Fetch T (List T)
  | 0, _, all => pure all
  | left+1, startIndex, all => do
      let resp ← call ⟨client.baseUrl ++ "/" ++ resource,.page startIndex pageCount,authHeaderValue client⟩
      let fetched := resp.resources.length
      if resp.totalResults ≤ (all ++ resp.resources).length ∨ fetched = 0 then pure (all ++ resp.resources)
      else paginate client resource left (startIndex + fetched) (all ++ resp.resources)

def paginateList {T : Type} (client : ScimClient) (resource : String) : Fetch T (List T) :=
  paginate client resource MAX_PAGINATION_PAGES 1 []

def listUsers (client : ScimClient) : Fetch ScimUser (List ScimUser) := paginateList client "Users"

def listGroups (client : ScimClient) : Fetch ScimGroup (List ScimGroup) := paginateList client "Groups"

/- The value of a string, and what follows its closing quote. -/
def scanString : List Char → Option (List Char × List Char)
  | [] => none
  | ['\\'] => none
  | '\\' :: ch :: rest => (scanString rest).map fun scanned => (ch :: scanned.1,scanned.2)
  | '\x22' :: rest => some ([],rest)
  | ch :: rest => (scanString rest).map fun scanned => (ch :: scanned.1,scanned.2)

structure Comparison where
  attr : List Char
  value : List Char
  rest : List Char
  deriving DecidableEq, Repr

def scanComparison (text : List Char) : Option Comparison :=
  match text.dropWhile (· ≠ ' ') with
  | ' ' :: 'e' :: 'q' :: ' ' :: '\x22' :: rest =>
      (scanString rest).map fun scanned => ⟨text.takeWhile (· ≠ ' '),scanned.1,scanned.2⟩
  | _ => none

theorem scanPlain {ch : Char} {rest : List Char} (slash : ch ≠ '\\') (quote : ch ≠ '\x22') :
    scanString (ch :: rest) = (scanString rest).map fun scanned => (ch :: scanned.1,scanned.2) := by
  rw [scanString]
  · intro same
    exact absurd same slash
  · intro _ _ same
    exact absurd same slash
  · intro same
    exact absurd same quote

theorem scanEscaped (ch : Char) (rest : List Char) : scanString (escapeChar ch ++ rest) =
    (scanString rest).map fun scanned => (ch :: scanned.1,scanned.2) := by
  by_cases slash : ch = '\\'
  · subst slash
    rfl
  · by_cases quote : ch = '\x22'
    · subst quote
      rfl
    · have plain : escapeChar ch = [ch] := by
        unfold escapeChar
        split
        · exact absurd rfl slash
        · exact absurd rfl quote
        · rfl
      rw [plain]
      exact scanPlain slash quote

theorem scanEscapedAll (value rest : List Char) :
    scanString (value.flatMap escapeChar ++ '\x22' :: rest) = some (value,rest) := by
  induction value with
  | nil => rfl
  | cons ch value ih => rw [List.flatMap_cons,List.append_assoc,scanEscaped,ih]; rfl

theorem filterChars (attr value : String) : (filterText attr value).toList =
    attr.toList ++ [' ','e','q',' ','\x22'] ++ (value.toList.flatMap escapeChar ++ ['\x22']) := by
  simp [filterText,escapeFilterValue]

theorem escapeInjective : Function.Injective escapeFilterValue := by
  intro v w same
  have chars : v.toList.flatMap escapeChar = w.toList.flatMap escapeChar := by
    have lists := congrArg String.toList same
    rwa [escapeFilterValue,escapeFilterValue,String.toList_ofList,String.toList_ofList] at lists
  have first := scanEscapedAll v.toList []
  rw [chars,scanEscapedAll w.toList []] at first
  obtain ⟨values,-⟩ := Prod.mk.inj (Option.some.inj first)
  exact (String.toList_inj.mp values).symm

theorem scanFilterText {attr : String} (value : String) (word : ∀ ch ∈ attr.toList, (ch != ' ') = true) :
    scanComparison (filterText attr value).toList = some ⟨attr.toList,value.toList,[]⟩ := by
  have stops (back : List Char) : (attr.toList ++ ' ' :: back).dropWhile (· ≠ ' ') = ' ' :: back := by
    rw [List.dropWhile_append_of_pos (by simpa using word)]
    rfl
  have takes (back : List Char) : (attr.toList ++ ' ' :: back).takeWhile (· ≠ ' ') = attr.toList := by
    rw [List.takeWhile_append_of_pos (by simpa using word)]
    simp
  have chars : (filterText attr value).toList = attr.toList ++ ' ' :: ('e' :: 'q' :: ' ' :: '\x22' ::
      (value.toList.flatMap escapeChar ++ ['\x22'])) := by
    rw [filterChars,List.append_assoc]
    rfl
  rw [chars,scanComparison,stops,takes]
  change (scanString (value.toList.flatMap escapeChar ++ ['\x22'])).map _ = _
  rw [scanEscapedAll]
  rfl

theorem getByNameSends {T : Type} {client : ScimClient} {resource attr name : String} {es out}
    (played : Plays (getByName (T := T) client resource attr name) es out) :
    ∃ t r, es = [⟨t,⟨client.baseUrl ++ "/" ++ resource,.filter (filterText attr name),authHeaderValue client⟩,r⟩] := by
  cases played with
  | @call _ _ t r _ _ onward =>
    cases r with
    | ok resp =>
      cases onward
      exact ⟨t,.ok resp,rfl⟩
    | error e =>
      cases onward
      exact ⟨t,.error e,rfl⟩

def Compares {T : Type} (attr name : String) (es : List (Event (http T))) : Prop :=
  ∃ t r url text authorization, es = [⟨t,⟨url,.filter text,authorization⟩,r⟩] ∧
    scanComparison text.toList = some ⟨attr.toList,name.toList,[]⟩

theorem escapeNoInjection :
    (∀ attr v : String, ∃ body, (filterText attr v).toList = attr.toList ++ " eq \x22".toList ++ body ∧
      scanString body = some (v.toList,[])) ∧
    Function.Injective escapeFilterValue ∧
    (∀ client name es out, Plays (getUserByName client name) es out → Compares "userName" name es) ∧
    ∀ client name es out, Plays (getGroupByName client name) es out → Compares "displayName" name es := by
  refine ⟨fun attr v => ⟨_,filterChars attr v,scanEscapedAll v.toList []⟩,escapeInjective,?_,?_⟩
  · intro client name es out played
    obtain ⟨t,r,rfl⟩ := getByNameSends played
    exact ⟨t,r,_,_,_,rfl,scanFilterText name (List.all_eq_true.mp (by decide))⟩
  · intro client name es out played
    obtain ⟨t,r,rfl⟩ := getByNameSends played
    exact ⟨t,r,_,_,_,rfl,scanFilterText name (List.all_eq_true.mp (by decide))⟩

end SssdOidc.Scim
