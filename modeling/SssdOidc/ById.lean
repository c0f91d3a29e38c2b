import SssdOidc.PercentEncoding
import SssdOidc.Scim
import SssdOidc.Uri

/-! `get_user_by_id` and `get_group_by_id` of src/scim.rs: the URL that they ask for, and the
path at which it arrives. -/
namespace SssdOidc.ById
open Model Program Cache PercentEncoding Uri
open Scim (ScimClient authHeaderValue)

def PATH_SEGMENT_ENCODE : AsciiSet :=
  [' ','\x22','#','%','/','?','[',']','<','>','^','\x60','\x7b','|','\x7d'].foldl AsciiSet.add CONTROLS

/- What `call()` comes to: a response, with what `read_json` makes of its body, or an error. -/
inductive Answer (T : Type) where
  | response (json : Except ScimError T)
  | statusCode (code : UInt16)
  | failed

structure Request where
  url : String
  authorization : String
  deriving DecidableEq, Repr

abbrev http (T : Type) : Interface := ⟨Request,fun _ => Answer T,Unit⟩

abbrev Fetch (T α : Type) := ExceptT ScimError (Prog (http T)) α

def call {T : Type} (request : Request) : Fetch T (Answer T) :=
  ExceptT.mk (perform (I := http T) request >>= fun answer => pure (.ok answer))

def resourceUrl (client : ScimClient) (resource id : String) : String :=
  client.baseUrl ++ "/" ++ resource ++ "/" ++ utf8PercentEncode id PATH_SEGMENT_ENCODE

def outcome {T : Type} : Answer T → Except ScimError (Option T)
  | .response (.ok found) => .ok (some found)
  | .response (.error e) => .error e
  | .statusCode code => if code = 404 then .ok none else .error .http
  | .failed => .error .http

def getById {T : Type} (client : ScimClient) (resource id : String) : Fetch T (Option T) := do
  let answer ← call ⟨resourceUrl client resource id,authHeaderValue client⟩
  ExceptT.mk (pure (outcome answer))

def getUserById (client : ScimClient) (id : String) : Fetch ScimUser (Option ScimUser) :=
  getById client "Users" id

def getGroupById (client : ScimClient) (id : String) : Fetch ScimGroup (Option ScimGroup) :=
  getById client "Groups" id

theorem getByIdPlays {T : Type} {client : ScimClient} {resource id : String} {es out} :
    Plays (getById (T := T) client resource id) es out ↔
      ∃ t answer, es = [⟨t,⟨resourceUrl client resource id,authHeaderValue client⟩,answer⟩] ∧
        out = outcome answer := by
  constructor
  · intro played
    cases played with
    | @call _ _ t answer _ _ onward =>
      cases onward
      exact ⟨t,answer,rfl,rfl⟩
  · rintro ⟨t,answer,rfl,rfl⟩
    exact .call (.ret (outcome answer))

/- A reference, once its dot segments are removed, to what has this id in the collection: one
segment behind the directory of the base and the name of the collection. -/
structure InCollection (baseUrl resource id url : String) : Prop where
  scheme : (parse url.toList).scheme = (parse baseUrl.toList).scheme
  authority : (parse url.toList).authority = (parse baseUrl.toList).authority
  path : ∃ segment, '/' ∉ segment ∧ percentDecode segment = bytes id ∧
    removeDotSegments (parse url.toList).path =
      removeDotSegments ((parse baseUrl.toList).path ++ ['/']) ++ resource.toList ++ '/' :: segment
  query : (parse url.toList).query = none
  fragment : (parse url.toList).fragment = none

structure Word (word : List Char) : Prop where
  slash : '/' ∉ word
  question : '?' ∉ word
  number : '#' ∉ word
  named : word ≠ []
  dot : word ≠ ['.']
  dots : word ≠ ['.','.']

theorem usersWord : Word "Users".toList := by constructor <;> decide

theorem groupsWord : Word "Groups".toList := by constructor <;> decide

section Base
variable (baseUrl bearerToken : String)

theorem baseTrimmed : (ScimClient.new baseUrl bearerToken).baseUrl.toList.getLast? ≠ some '/' := by
  rw [ScimClient.new,String.toList_ofList,List.getLast?_reverse]
  intro first
  have slash := List.head?_dropWhile_not (fun ch : Char => ch == '/') baseUrl.toList.reverse
  rw [first] at slash
  simp at slash

theorem baseKeeps {ch : Char} (other : ch ≠ '/') :
    ch ∈ (ScimClient.new baseUrl bearerToken).baseUrl.toList ↔ ch ∈ baseUrl.toList := by
  have slashes : ch ∉ baseUrl.toList.reverse.takeWhile (· == '/') := by
    intro inside
    have slash := List.mem_takeWhile_imp inside
    exact other (beq_iff_eq.mp slash)
  have split : ch ∈ baseUrl.toList.reverse ↔ ch ∈ baseUrl.toList.reverse.takeWhile (· == '/') ∨
      ch ∈ baseUrl.toList.reverse.dropWhile (· == '/') := by
    rw [← List.mem_append,List.takeWhile_append_dropWhile]
  have back : ch ∈ baseUrl.toList ↔ ch ∈ baseUrl.toList.reverse := List.mem_reverse.symm
  rw [ScimClient.new,String.toList_ofList,List.mem_reverse,back,split]
  exact ⟨.inr,fun inside => inside.resolve_left slashes⟩

end Base

def idSegment (id : String) : List Char := (utf8PercentEncode id PATH_SEGMENT_ENCODE).toList

theorem idSegmentLacks {ch : Char} (held : PATH_SEGMENT_ENCODE.contains ch.toUInt8 = true) (sign : ch ≠ '%')
    (digit : hexValue ch = none) (id : String) : ch ∉ idSegment id := by
  rw [idSegment,utf8PercentEncode,String.toList_ofList]
  exact encodedLacks held sign digit (bytes id)

theorem idSegmentIs {id other : String} (plain : utf8PercentEncode other PATH_SEGMENT_ENCODE = other) :
    idSegment id = other.toList ↔ id = other := by
  constructor
  · intro same
    exact utf8PercentEncodeInjective (by decide) ((String.toList_inj.mp same).trans plain.symm)
  · rintro rfl
    rw [idSegment,plain]

theorem dotSegment : idSegment "." = ['.'] := (idSegmentIs (by decide)).mpr rfl

theorem dotsSegment : idSegment ".." = ['.','.'] := (idSegmentIs (by decide)).mpr rfl

theorem urlChars (client : ScimClient) (resource id : String) : (resourceUrl client resource id).toList =
    client.baseUrl.toList ++ '/' :: (resource.toList ++ '/' :: idSegment id) := by
  simp [resourceUrl,idSegment]

section Arrives
variable {resource : String} (word : Word resource.toList) {client : ScimClient} (id : String)

theorem urlClean (inside : InCollection client.baseUrl resource id (resourceUrl client resource id)) :
    '?' ∉ client.baseUrl.toList ∧ '#' ∉ client.baseUrl.toList := by
  have base {ch : Char} (present : ch ∈ client.baseUrl.toList) :
      ch ∈ (resourceUrl client resource id).toList := by
    rw [urlChars]
    exact List.mem_append_left _ present
  have none := parseCuts.mt (not_not.mpr ⟨inside.query,inside.fragment⟩)
  exact ⟨fun question => none (.inl (base question)),fun number => none (.inr (base number))⟩

variable (trimmed : client.baseUrl.toList.getLast? ≠ some '/') (question : '?' ∉ client.baseUrl.toList)
  (number : '#' ∉ client.baseUrl.toList)
include word trimmed question number

theorem urlParts : parse (resourceUrl client resource id).toList =
    (parse client.baseUrl.toList).below ('/' :: (resource.toList ++ '/' :: idSegment id)) := by
  have absent {ch : Char} (other : ch ≠ '/') (inBase : ch ∉ client.baseUrl.toList)
      (inWord : ch ∉ resource.toList) (inId : ch ∉ idSegment id) :
      ch ∉ client.baseUrl.toList ++ '/' :: (resource.toList ++ '/' :: idSegment id) := by
    simp only [List.mem_append,List.mem_cons,not_or]
    exact ⟨inBase,other,inWord,other,inId⟩
  have single : (resource.toList ++ '/' :: idSegment id).head? ≠ some '/' := by
    obtain ⟨ch,rest,same⟩ := List.exists_cons_of_ne_nil word.named
    rw [same]
    intro first
    cases first
    exact word.slash (same ▸ List.mem_cons_self)
  rw [urlChars]
  exact parseAppend trimmed single
    (absent (by decide) question word.question (idSegmentLacks (by decide) (by decide) (by decide) id))
    (absent (by decide) number word.number (idSegmentLacks (by decide) (by decide) (by decide) id))

theorem dotOutside : ¬InCollection client.baseUrl resource "." (resourceUrl client resource ".") := by
  intro inside
  obtain ⟨segment,-,decoded,path⟩ := inside.path
  rw [urlParts word "." trimmed question number,belowPath,dotSegment,
    removeDotSegmentsDot word.slash word.named word.dot word.dots] at path
  cases List.append_cancel_left path
  exact absurd decoded (by decide)

theorem dotsOutside : ¬InCollection client.baseUrl resource ".." (resourceUrl client resource "..") := by
  intro inside
  obtain ⟨segment,-,-,path⟩ := inside.path
  rw [urlParts word ".." trimmed question number,belowPath,dotsSegment,
    removeDotSegmentsDots word.slash word.named word.dot word.dots,dropSegmentWord word.slash] at path
  have length := congrArg List.length path
  have shorter := dropSegmentShorter (removeDotSegments ((parse client.baseUrl.toList).path ++ ['/']))
  have named := List.length_pos_iff.mpr word.named
  simp only [List.length_append,List.length_cons,List.length_nil] at length
  omega

theorem plainInside (dot : id ≠ ".") (dots : id ≠ "..") :
    InCollection client.baseUrl resource id (resourceUrl client resource id) := by
  have parts := urlParts word id trimmed question number
  have whole : (parse client.baseUrl.toList).query = none ∧ (parse client.baseUrl.toList).fragment = none :=
    parseWhole question number
  have single : '/' ∉ idSegment id := idSegmentLacks (by decide) (by decide) (by decide) id
  have noDot : idSegment id ≠ ['.'] := fun same => dot ((idSegmentIs (by decide)).mp same)
  have noDots : idSegment id ≠ ['.','.'] := fun same => dots ((idSegmentIs (by decide)).mp same)
  have decoded : percentDecode (idSegment id) = bytes id := utf8PercentEncodeDecodes (by decide) id
  have path := removeDotSegmentsPlain word.slash word.named word.dot word.dots
    (parse client.baseUrl.toList).path single noDot noDots
  constructor
  · rw [parts,belowScheme]
  · rw [parts,belowAuthority]
  · rw [parts,belowPath]
    exact ⟨idSegment id,single,decoded,path⟩
  · rw [parts,belowQuery]
    exact whole.1
  · rw [parts,belowFragment]
    exact whole.2

end Arrives

theorem urlInCollection {resource : String} (word : Word resource.toList) {client : ScimClient} (id : String)
    (trimmed : client.baseUrl.toList.getLast? ≠ some '/') :
    InCollection client.baseUrl resource id (resourceUrl client resource id) ↔
      (id ≠ "." ∧ id ≠ "..") ∧ '?' ∉ client.baseUrl.toList ∧ '#' ∉ client.baseUrl.toList := by
  constructor
  · intro inside
    obtain ⟨question,number⟩ := urlClean id inside
    refine ⟨⟨?_,?_⟩,question,number⟩
    · rintro rfl
      exact dotOutside word trimmed question number inside
    · rintro rfl
      exact dotsOutside word trimmed question number inside
  · rintro ⟨⟨dot,dots⟩,question,number⟩
    exact plainInside word id trimmed question number dot dots

def AsksIn {T : Type} (client : ScimClient) (resource id : String) (es : List (Event (http T))) : Prop :=
  ∃ e, es = [e] ∧ InCollection client.baseUrl resource id (Request.url e.call)

theorem getByIdAsks {T : Type} {resource : String} (word : Word resource.toList)
    {baseUrl bearerToken id : String} {es out}
    (played : Plays (getById (T := T) (ScimClient.new baseUrl bearerToken) resource id) es out) :
    AsksIn (ScimClient.new baseUrl bearerToken) resource id es ↔
      (id ≠ "." ∧ id ≠ "..") ∧ '?' ∉ baseUrl.toList ∧ '#' ∉ baseUrl.toList := by
  obtain ⟨t,answer,rfl,-⟩ := getByIdPlays.mp played
  have question : '?' ∈ (ScimClient.new baseUrl bearerToken).baseUrl.toList ↔ '?' ∈ baseUrl.toList :=
    baseKeeps baseUrl bearerToken (by decide)
  have number : '#' ∈ (ScimClient.new baseUrl bearerToken).baseUrl.toList ↔ '#' ∈ baseUrl.toList :=
    baseKeeps baseUrl bearerToken (by decide)
  rw [← question,← number,← urlInCollection word id (baseTrimmed baseUrl bearerToken)]
  constructor
  · rintro ⟨e,same,inside⟩
    rw [← (List.cons.inj same).1] at inside
    exact inside
  · intro inside
    exact ⟨_,rfl,inside⟩

theorem byIdInCollection (baseUrl bearerToken id : String) :
    (∀ es out, Plays (getUserById (ScimClient.new baseUrl bearerToken) id) es out →
      (AsksIn (ScimClient.new baseUrl bearerToken) "Users" id es ↔
        (id ≠ "." ∧ id ≠ "..") ∧ '?' ∉ baseUrl.toList ∧ '#' ∉ baseUrl.toList)) ∧
    ∀ es out, Plays (getGroupById (ScimClient.new baseUrl bearerToken) id) es out →
      (AsksIn (ScimClient.new baseUrl bearerToken) "Groups" id es ↔
        (id ≠ "." ∧ id ≠ "..") ∧ '?' ∉ baseUrl.toList ∧ '#' ∉ baseUrl.toList) :=
  ⟨fun _ _ played => getByIdAsks usersWord played,fun _ _ played => getByIdAsks groupsWord played⟩

def exampleClient : ScimClient := ScimClient.new "https://example.com/scim/v2/" "token"

theorem dotsLeave :
    removeDotSegments (parse (resourceUrl exampleClient "Users" "..").toList).path = "/scim/v2/".toList ∧
    removeDotSegments (parse (resourceUrl exampleClient "Users" ".").toList).path = "/scim/v2/Users/".toList ∧
    (∃ es out, Plays (getUserById exampleClient "..") es out ∧ ¬AsksIn exampleClient "Users" ".." es) ∧
    ∃ es out, Plays (getGroupById exampleClient ".") es out ∧ ¬AsksIn exampleClient "Groups" "." es := by
  have missed {T : Type} (resource id : String) : Plays (getById (T := T) exampleClient resource id)
      [⟨(),⟨resourceUrl exampleClient resource id,authHeaderValue exampleClient⟩,.statusCode 404⟩] (.ok none) :=
    getByIdPlays.mpr ⟨(),.statusCode 404,rfl,rfl⟩
  refine ⟨by decide +kernel,by decide +kernel,?_,?_⟩
  · refine ⟨_,_,missed "Users" "..",fun asks => ?_⟩
    exact ((getByIdAsks usersWord (missed "Users" "..")).mp asks).1.2 rfl
  · refine ⟨_,_,missed "Groups" ".",fun asks => ?_⟩
    exact ((getByIdAsks groupsWord (missed "Groups" ".")).mp asks).1.1 rfl

end SssdOidc.ById
