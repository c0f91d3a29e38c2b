import SssdOidc.Interfaces
import SssdOidc.Pagination
import SssdOidc.Provenance

/-! The service over HTTP. A query of the service is carried out by the requests of
src/scim.rs, a statement by SQLite; and a server that holds to its filters answers as a
directory does. -/
namespace SssdOidc.Transport
open Model Database Mapping Program Scim RelyGuarantee Interfaces Provenance
open Cache (calls ScimQuery ScimError)
open Service (Op Output operation)
open Pagination (paginatePlays)
open Stability (fourSlots)
open SssdOidc.System (execute)

abbrev store : Interface := ⟨Stmt,fun st => Except SqlError st.Resp,Int⟩

abbrev web : Interface := both (both (http ScimUser) (http ScimGroup)) store

def ofUsers {α : Type} (p : Fetch ScimUser α) : Prog web (Except ScimError α) := left (left p.run)

def ofGroups {α : Type} (p : Fetch ScimGroup α) : Prog web (Except ScimError α) := left (right p.run)

def query (client : ScimClient) : (q : ScimQuery) → Prog web (Except ScimError q.Resp)
  | .userByName name => ofUsers (getUserByName client name)
  | .groupByName name => ofGroups (getGroupByName client name)
  | .listUsers => ofUsers (listUsers client)
  | .listGroups => ofGroups (listGroups client)

def calling (client : ScimClient) : (c : calls.Call) → Prog web (calls.Resp c)
  | .scim q => query client q
  | .sql st => right (perform (I := store) st)

def overHttp {α : Type} (client : ScimClient) (p : Prog calls α) : Prog web α := carriedOut (calling client) p

structure Collection (T : Type) where
  resource : String
  attr : String
  key : T → String
  own : Set T

def users (d : Source) : Collection ScimUser := ⟨"Users","userName",ScimUser.userName,d.users⟩

def groups (d : Source) : Collection ScimGroup := ⟨"Groups","displayName",ScimGroup.displayName,d.groups⟩

structure Addressed (client : ScimClient) (resource : String) (request : Request) : Prop where
  url : request.url = client.baseUrl ++ "/" ++ resource
  authorization : request.authorization = authHeaderValue client

section Collections
variable {T : Type} {client : ScimClient} {alike : String → String → Prop}

/- What may be in an answer. The server reads the text of a filter. -/
def Obeys (col : Collection T) (alike : String → String → Prop) (query : Query) (x : T) : Prop :=
  x ∈ col.own ∧ ∀ text value, query = .filter text →
    scanComparison text.toList = some ⟨col.attr.toList,value.toList,[]⟩ → alike value (col.key x)

def Honest (col : Collection T) (alike : String → String → Prop) (request : Request)
    (r : Except ScimError (ListResponse T)) : Prop :=
  OnOk (fun page => ∀ x ∈ page.resources, Obeys col alike request.query x) r

def fetching (client : ScimClient) (col : Collection T) (alike : String → String → Prop) : Contract (http T) where
  guarantee request := Addressed client col.resource request
  rely request r := Honest col alike request r

theorem ensuresByName (col : Collection T) (word : ∀ ch ∈ col.attr.toList, (ch != ' ') = true) (name : String) :
    Ensures (fetching client col alike) (OnOk fun found => ∀ x ∈ found, x ∈ col.own ∧ alike name (col.key x))
      (getByName client col.resource col.attr name) := by
  refine ensuresThen (m := fun page => ∀ x ∈ page.resources, Obeys col alike (.filter (filterText col.attr name)) x) ?_ ?_
  · exact ensuresCall ⟨rfl,rfl⟩ fun r told => told
  · intro page told x first
    obtain ⟨mine,meets⟩ := told x (List.mem_of_mem_head? first)
    exact ⟨mine,meets _ name rfl (scanFilterText name word)⟩

theorem ensuresPaginate (col : Collection T) {left startIndex : Nat} {all : List T} (mine : ∀ x ∈ all, x ∈ col.own) :
    Ensures (fetching client col alike) (OnOk fun xs => ∀ x ∈ xs, x ∈ col.own)
      (paginate client col.resource left startIndex all) := by
  induction left generalizing startIndex all with
  | zero => exact mine
  | succ left ih =>
    refine ensuresThen (m := fun page => ∀ x ∈ page.resources, x ∈ col.own) ?_ fun page own => ?_
    · exact ensuresCall ⟨rfl,rfl⟩ fun r told => onOkMono (fun page told x inside => (told x inside).1) told
    · have more : ∀ x ∈ all ++ page.resources, x ∈ col.own := by
        intro x inside
        rcases List.mem_append.mp inside with old | new
        · exact mine x old
        · exact own x new
      dsimp only
      split
      · exact more
      · exact ih more

end Collections

section Service
variable {b : Build} {config : Config} {client : ScimClient} {d : Source}

def asking (client : ScimClient) (d : Source) : Contract (both (http ScimUser) (http ScimGroup)) :=
  onBoth (fetching client (users d) d.alike) (fetching client (groups d) d.alike)

def storing (b : Build) (config : Config) (d : Source) (told : Telling) : Contract store where
  guarantee st := Stored b config d Set.univ st
  rely st r := OnOk (fun r => Found b config d Set.univ st r ∧ told st r) r

def serving (b : Build) (config : Config) (client : ScimClient) (d : Source) (told : Telling) : Contract web :=
  onBoth (asking client d) (storing b config d told)

theorem userWord : ∀ ch ∈ "userName".toList, (ch != ' ') = true := List.all_eq_true.mp (by decide)

theorem groupWord : ∀ ch ∈ "displayName".toList, (ch != ' ') = true := List.all_eq_true.mp (by decide)

theorem ensuresQuery (theirs : Contract store) (q : ScimQuery) :
    Ensures (onBoth (asking client d) theirs) (d.Says q) (query client q) := by
  cases q with
  | userByName name =>
    refine ensuresMono ?_ (ensuresOnLeft (ensuresOnLeft (ensuresByName (users d) userWord name)))
    rintro (e | - | su) found
    · trivial
    · trivial
    · exact found su rfl
  | groupByName name =>
    refine ensuresMono ?_ (ensuresOnLeft (ensuresOnRight (ensuresByName (groups d) groupWord name)))
    rintro (e | - | sg) found
    · trivial
    · trivial
    · exact found sg rfl
  | listUsers =>
    refine ensuresMono ?_ (ensuresOnLeft (ensuresOnLeft (ensuresPaginate (users d) (by simp))))
    rintro (e | sus) found
    · trivial
    · exact found
  | listGroups =>
    refine ensuresMono ?_ (ensuresOnLeft (ensuresOnRight (ensuresPaginate (groups d) (by simp))))
    rintro (e | sgs) found
    · trivial
    · exact found

theorem ensuresCalling {told : Telling} (c : calls.Call) (promised : (contract b config d told Set.univ).guarantee c) :
    Ensures (serving b config client d told) ((contract b config d told Set.univ).rely c) (calling client c) := by
  cases c with
  | scim q => exact ensuresQuery _ q
  | sql st => exact ⟨promised,fun r told => told⟩

def Truthful (d : Source) : (c : web.Call) → web.Resp c → Prop
  | .inl (.inl request), r => Honest (users d) d.alike request r
  | .inl (.inr request), r => Honest (groups d) d.alike request r
  | .inr _, _ => True

def Handled (d : Source) (db : Db) : (c : web.Call) → web.Resp c → Db → Prop
  | .inl request, r, db' => Truthful d (.inl request) r ∧ db' = db
  | .inr st, r, db' => ∃ t fault, execute t fault db st = (r,db')

theorem servesHttp : Serves (serving b config client d untold) (FromSource b config d) (Handled d) := by
  intro db c r db' holds promised handled
  rcases c with (request | request) | st
  · exact ⟨handled.1,handled.2 ▸ holds⟩
  · exact ⟨handled.1,handled.2 ▸ holds⟩
  · obtain ⟨t,fault,ran⟩ := handled
    have answered : Answered d.Says db (.sql st) (execute t fault db st).1 (execute t fault db st).2 := .sql t fault st
    rw [ran] at answered
    exact serves db (.sql st) r db' holds promised answered

def Sent (client : ScimClient) : web.Call → Prop
  | .inl (.inl request) => Addressed client "Users" request
  | .inl (.inr request) => Addressed client "Groups" request
  | .inr _ => True

theorem promisedSent {told : Telling} {c : web.Call} (promised : (serving b config client d told).guarantee c) :
    Sent client c := by
  rcases c with (request | request) | st
  · exact promised
  · exact promised
  · trivial

def ToldThere (es : List (Event web)) : Telling := fun st r => ∃ t, ⟨t,.inr st,.ok r⟩ ∈ es

theorem reliedThere {es : List (Event web)} {e : Event web} (inside : e ∈ es)
    (relied : (serving b config client d untold).rely e.call e.resp) :
    (serving b config client d (ToldThere es)).rely e.call e.resp := by
  rcases e with ⟨t,(request | request) | st,r⟩
  · exact relied
  · exact relied
  · cases r with
    | error e => trivial
    | ok r => exact ⟨relied.1,t,inside⟩

theorem answersOverHttp {op : Op} {es out} (played : Plays (overHttp client (operation b config op).run) es (.ok out))
    (handled : ∀ e ∈ es, ∃ db db', FromSource b config d db ∧ Handled d db e.call e.resp db') :
    Answers b config d (ToldThere es) op out ∧ ∀ e ∈ es, Sent client e.call ∧
      ∀ db db', FromSource b config d db → Handled d db e.call e.resp db' → FromSource b config d db' := by
  have ok (told : Telling) : Ensures (serving b config client d told) (OnOk (Answers b config d told op))
      (overHttp client (operation b config op).run) :=
    ensuresCarriedOut ensuresCalling (operationEnsures op)
  have promised := (ensuresAnswered servesHttp (ok untold) played handled).2
  have relied : ∀ e ∈ es, (serving b config client d (ToldThere es)).rely e.call e.resp := by
    intro e inside
    obtain ⟨db,db',holds,now⟩ := handled e inside
    exact reliedThere inside (servesHttp db e.call e.resp db' holds (promised e inside) now).1
  refine ⟨(ensuresPlays (ok (ToldThere es)) played relied).1,fun e inside => ⟨promisedSent (promised e inside),?_⟩⟩
  exact fun db db' holds now => (servesHttp db e.call e.resp db' holds (promised e inside) now).2

end Service

section Refinement
variable {client : ScimClient} {α : Type} {n : Nat} {es : List (Event web)}

theorem ofUsersFew {p : Fetch ScimUser α} {r} (few : ∀ es out, Plays p.run es out → es.length ≤ n)
    (played : Plays (ofUsers p) es r) : es.length ≤ n := by
  obtain ⟨outer,silent⟩ := leftPlays played
  obtain ⟨inner,others⟩ := leftPlays outer
  rw [← partsLength,silent,← partsLength,others]
  exact few _ _ inner

theorem ofGroupsFew {p : Fetch ScimGroup α} {r} (few : ∀ es out, Plays p.run es out → es.length ≤ n)
    (played : Plays (ofGroups p) es r) : es.length ≤ n := by
  obtain ⟨outer,silent⟩ := leftPlays played
  obtain ⟨inner,others⟩ := rightPlays outer
  rw [← partsLength,silent,← partsLength,others,List.length_nil,Nat.zero_add]
  exact few _ _ inner

theorem byNameFew {T : Type} {resource attr name : String} (es : List (Event (http T))) (out)
    (played : Plays (getByName client resource attr name).run es out) : es.length ≤ MAX_PAGINATION_PAGES := by
  obtain ⟨t,r,rfl⟩ := getByNameSends played
  exact (by decide : 1 ≤ MAX_PAGINATION_PAGES)

theorem queryFew {q : ScimQuery} {r} (played : Plays (query client q) es r) : es.length ≤ MAX_PAGINATION_PAGES := by
  cases q with
  | userByName name => exact ofUsersFew byNameFew played
  | groupByName name => exact ofGroupsFew byNameFew played
  | listUsers => exact ofUsersFew (fun es out listed => (paginatePlays listed).1) played
  | listGroups => exact ofGroupsFew (fun es out listed => (paginatePlays listed).1) played

theorem querySent {q : ScimQuery} {r} (played : Plays (query client q) es r) : ∀ e ∈ es, Sent client e.call := by
  have ok : Ensures (onBoth (asking client anything) (anyContract store)) (anything.Says q) (query client q) :=
    ensuresQuery _ q
  have relied : ∀ e ∈ es, (onBoth (asking client anything) (anyContract store)).rely e.call e.resp := by
    rintro ⟨t,(request | request) | st,r⟩ -
    · cases r with
      | error e => trivial
      | ok page => exact fun x _ => ⟨trivial,fun _ _ _ _ => trivial⟩
    · cases r with
      | error e => trivial
      | ok page => exact fun x _ => ⟨trivial,fun _ _ _ _ => trivial⟩
    · trivial
  intro e inside
  have promised := (ensuresPlays ok played relied).2 e inside
  rcases e with ⟨t,(request | request) | st,r⟩
  · exact promised
  · exact promised
  · trivial

inductive Carried (client : ScimClient) : Event calls → List (Event web) → Prop where
  | scim {t q r es} (few : es.length ≤ MAX_PAGINATION_PAGES) (sent : ∀ e ∈ es, Sent client e.call)
      (said : ∀ d : Source, (∀ e ∈ es, Truthful d e.call e.resp) → d.Says q r) : Carried client ⟨t,.scim q,r⟩ es
  | sql {t u st r} : Carried client ⟨t,.sql st,r⟩ [⟨(u,t),.inr st,r⟩]

theorem callingCarried (c : calls.Call) (es : List (Event web)) (r : calls.Resp c)
    (played : Plays (calling client c) es r) : ∃ t, Carried client ⟨t,c,r⟩ es := by
  cases c with
  | scim q =>
    refine ⟨(0 : Int),.scim (queryFew played) (querySent played) fun d told => ?_⟩
    refine (ensuresPlays (ensuresQuery (anyContract store) q) played fun e inside => ?_).1
    have truth := told e inside
    rcases e with ⟨t,(request | request) | st,r⟩
    · exact truth
    · exact truth
    · trivial
  | sql st =>
    cases played with
    | @call _ _ t r rest _ onward =>
      cases onward
      exact ⟨t.2,.sql⟩

theorem overHttpRefines {p : Prog calls α} {a} (played : Plays (overHttp client p) es a) :
    ∃ cs : List (Event calls × List (Event web)), Plays p (cs.map Prod.fst) a ∧ es = cs.flatMap Prod.snd ∧
      ∀ c ∈ cs, Carried client c.1 c.2 :=
  carriedOutPlays callingCarried played

end Refinement

section Example

def officeServer : (c : web.Call) → Db → web.Resp c × Db
  | .inl (.inl ⟨_,.filter text,_⟩), db =>
      (.ok ⟨1,if scanComparison text.toList = some ⟨"userName".toList,"ann".toList,[]⟩ then [ann] else []⟩,db)
  | .inl (.inl ⟨_,.page _ _,_⟩), db => (.ok ⟨1,[ann]⟩,db)
  | .inl (.inr _), db => (.error .http,db)
  | .inr st, db => ((execute 0 false db st).1,db)

def officeClient : ScimClient := ⟨"https://scim","token"⟩

def findAnn : Prog web (Except (Halt Service.ServiceError) Output) :=
  overHttp officeClient (operation release fourSlots (.lookupUserByName "ann")).run

theorem foundAnn : ∃ out, (run officeServer findAnn empty).1 = .ok out := ⟨_,rfl⟩

theorem officeHandled (c : web.Call) : ∃ db', Handled office empty c (officeServer c empty).1 db' := by
  rcases c with (⟨url,text | ⟨startIndex,count⟩,authorization⟩ | request) | st
  · refine ⟨empty,fun x inside => ?_,rfl⟩
    obtain ⟨shown,rfl⟩ : scanComparison text.toList = some ⟨"userName".toList,"ann".toList,[]⟩ ∧ x = ann := by
      split at inside
      · exact ⟨by assumption,List.mem_singleton.mp inside⟩
      · cases inside
    refine ⟨rfl,?_⟩
    rintro _ value ⟨⟩ read
    rw [shown] at read
    exact String.toList_inj.mp (congrArg Comparison.value (Option.some.inj read)).symm
  · refine ⟨empty,fun x inside => ?_,rfl⟩
    obtain rfl := List.mem_singleton.mp inside
    exact ⟨rfl,fun _ _ never => by cases never⟩
  · exact ⟨empty,trivial,rfl⟩
  · exact ⟨_,0,false,rfl⟩

theorem annOverHttp : ∃ es out, Plays findAnn es (.ok out) ∧
    Answers release fourSlots office (ToldThere es) (.lookupUserByName "ann") out ∧ ∀ e ∈ es, Sent officeClient e.call ∧
      ∀ db db', FromSource release fourSlots office db → Handled office db e.call e.resp db' →
        FromSource release fourSlots office db' := by
  have same (c : web.Call) (db : Db) (holds : db = empty) : (officeServer c db).2 = empty := by
    rcases c with (⟨url,text | ⟨startIndex,count⟩,authorization⟩ | request) | st <;> exact holds
  obtain ⟨es,played,answered⟩ := runPlays (((),()),(0 : Int)) same findAnn rfl
  obtain ⟨out,found⟩ := foundAnn
  rw [found] at played
  refine ⟨es,out,played,answersOverHttp played fun e inside => ?_⟩
  obtain ⟨db,rfl,told⟩ := answered e inside
  obtain ⟨db',handled⟩ := officeHandled e.call
  exact ⟨empty,db',fromNothing _ _ _,told ▸ handled⟩

theorem annRefined : ∃ es out, Plays findAnn es (.ok out) ∧ ∃ cs : List (Event calls × List (Event web)),
    Plays (operation release fourSlots (.lookupUserByName "ann")).run (cs.map Prod.fst) (.ok out) ∧
      es = cs.flatMap Prod.snd ∧ ∀ c ∈ cs, Carried officeClient c.1 c.2 := by
  have all (c : web.Call) (db : Db) (_ : True) : True := trivial
  obtain ⟨es,played,-⟩ := runPlays (((),()),(0 : Int)) all findAnn (s := empty) trivial
  obtain ⟨out,found⟩ := foundAnn
  rw [found] at played
  exact ⟨es,out,played,overHttpRefines played⟩

end Example

end SssdOidc.Transport
