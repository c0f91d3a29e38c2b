import Mathlib.Data.Set.Basic
import SssdOidc.History
import SssdOidc.Membership
import SssdOidc.RelyGuarantee

/-! Where the answers of the service come from. Processes that share a cache are programs
under one contract: each writes only what the SCIM server has told it, and relies on the
cache for the same of the others. Nothing that any of them then returns is of its own
making, whatever the order of their steps. -/
namespace SssdOidc.Provenance
open Model Database Mapping Program Cache Service SssdOidc.System Protocol Conformance History RelyGuarantee
open SssdOidc.Membership (displays)
open Stability (fourSlots)
open Runs (Reach)

abbrev Heard := (q : ScimQuery) → Except ScimError q.Resp → Prop

inductive Answered (heard : Heard) (db : Db) : (c : Call) → c.Resp → Db → Prop where
  | scim {q r} (said : heard q r) : Answered heard db (.scim q) r db
  | sql (t fault st) : Answered heard db (.sql st) (execute t fault db st).1 (execute t fault db st).2

def Hears (heard : Heard) (s : Sys) : Label → Prop
  | .scim p _ reply =>
      match s.procs p with
      | .running _ _ (.call (.scim q) _) => ∀ r, Reply.fit reply q = some r → heard q r
      | _ => True
  | _ => True

section Contracts
variable {b : Build} {config : Config} {may : Sys → Label → Prop} {contract : Contract calls} {heard : Heard}
  {well : Db → Prop}

structure Kept (contract : Contract calls) (well : Db → Prop) (s : Sys) : Prop where
  db : well s.db
  running : ∀ p op tr prog, s.procs p = .running op tr prog → Ensures contract (fun _ => True) prog
  called : ∀ p e, Entry.call p e ∈ s.log → contract.guarantee e.call ∧ contract.rely e.call e.resp

theorem calledStep (serves : Serves contract well (Answered heard)) {s l s' p e} (inv : Kept contract well s)
    (hears : Hears heard s l) (move : Move b config s l s') (inside : Entry.call p e ∈ s'.log) :
    contract.guarantee e.call ∧ contract.rely e.call e.resp := by
  have served {p op tr c k r db'} (at' : s.procs p = .running op tr (.call c k)) (now : Answered heard s.db c r db') :
      contract.guarantee c ∧ contract.rely c r := by
    have promised := (inv.running p op tr _ at').1
    exact ⟨promised,(serves _ c r db' inv.db promised now).1⟩
  cases move with
  | start q op free =>
    rcases List.mem_cons.mp inside with never | old
    · cases never
    · exact inv.called p e old
  | scim q t reply op tr query k r at' later fits =>
    rcases List.mem_cons.mp inside with same | old
    · cases same
      simp only [Hears,at'] at hears
      exact served at' (Answered.scim (hears r fits))
    · exact inv.called p e old
  | sql q t fault op tr st k at' later =>
    rcases List.mem_cons.mp inside with same | old
    · cases same
      exact served at' (Answered.sql t fault st)
    · exact inv.called p e old
  | finish q op tr out at' =>
    rcases List.mem_cons.mp inside with never | old
    · cases never
    · exact inv.called p e old
  | kill q => exact inv.called p e inside

theorem keptStep (serves : Serves contract well (Answered heard))
    (rule : ∀ op, Ensures contract (fun _ => True) (operation b config op)) {s l s'} (inv : Kept contract well s)
    (hears : Hears heard s l) (move : Move b config s l s') : Kept contract well s' := by
  refine ⟨?_,?_,fun p e => calledStep serves inv hears move⟩
  · cases move with
    | start p op free => exact inv.db
    | scim p t reply op tr query k r at' later fits => exact inv.db
    | sql p t fault op tr st k at' later =>
      exact (ensuresServed serves inv.db (inv.running _ _ _ _ at') (Answered.sql t fault st)).2
    | finish p op tr out at' => exact inv.db
    | kill p => exact inv.db
  · intro q op tr prog at'
    cases arrived b config move at' with
    | stayed other there => exact inv.running q op tr prog there
    | started mine db => exact rule op
    | @heard tr query k t r reply chosen fits before db log =>
      have said : heard query r := by
        simp only [chosen,Hears,before] at hears
        exact hears r fits
      exact (ensuresServed serves inv.db (inv.running _ _ _ _ before) (Answered.scim said)).1
    | ran t fault chosen before db log =>
      exact (ensuresServed serves inv.db (inv.running _ _ _ _ before) (Answered.sql t fault _)).1

theorem keptRun (serves : Serves contract well (Answered heard))
    (rule : ∀ op, Ensures contract (fun _ => True) (operation b config op)) {db now s} (begins : well db)
    (run : Reach (step b config) (Hears heard) (fresh db now) s) : Kept contract well s := by
  refine moveInvariant (Kept contract well) ⟨begins,?_,?_⟩ ?_ run
  · intro p op tr prog at'
    cases at'
  · intro p e never
    cases never
  · intro s l s' _ inv hears move
    exact keptStep serves rule inv hears move

end Contracts

/- Every version that the directory's users and groups have had, and which names it takes
for the one in a filter: equality is not case-exact everywhere. -/
structure Source where
  users : Set ScimUser
  groups : Set ScimGroup
  alike : String → String → Prop
  same : ∀ n, alike n n

def Source.Says (d : Source) (q : ScimQuery) (r : Except ScimError q.Resp) : Prop :=
  match q, r with
  | .userByName n, .ok (some su) => su ∈ d.users ∧ d.alike n su.userName
  | .groupByName n, .ok (some sg) => sg ∈ d.groups ∧ d.alike n sg.displayName
  | .listUsers, .ok sus => ∀ su ∈ sus, su ∈ d.users
  | .listGroups, .ok sgs => ∀ sg ∈ sgs, sg ∈ d.groups
  | _, _ => True

abbrev Telling := (st : Stmt) → st.Resp → Prop

/- What a trace tells: the answers that are in it. -/
def Told (es : List (Event calls)) : Telling := fun st r => ∃ t, ⟨t,.sql st,.ok r⟩ ∈ es

def untold : Telling := fun _ _ => True

section Source
variable (b : Build) (config : Config) (d : Source) (told : Telling)

def FromUser (u : User) : Prop :=
  ∃ su ∈ d.users, u = userModel config su u.uid u.gid ∧ u.uid ∈ slots b config .uid su.id ∧
    u.gid ∈ slots b config .gid (gidExternal su)

def Lists (externalId member : String) : Prop := ∃ sg ∈ d.groups, sg.id = externalId ∧ member ∈ displays sg

/- The members may come from several versions of the group. -/
structure FromGroup (g : Group) : Prop where
  group : ∃ sg ∈ d.groups, g.externalId = sg.id ∧ g.name = sg.displayName ∧ g.gid ∈ slots b config .gid sg.id
  members : ∀ m ∈ g.members, Lists d g.externalId m

structure FromSource (db : Db) : Prop where
  users : ∀ r ∈ db.users.rows, FromUser b config d r.user
  groups : ∀ r ∈ db.groups.rows, FromGroup b config d r.group
  members : ∀ m ∈ db.members, Lists d m.group m.name

/- The walk of an external id that has come to `x`: the cache told that it was free, or the
id's own. -/
def Resolved (c : Column) (externalId : String) (x : UInt32) : Prop :=
  x ∈ slots b config c externalId ∧ ∃ answer, told (.selectOwner c x externalId) answer ∧ answer ≠ some false

/- A gid for a name: that to which the walk of a group has come that the user's record lists, or
that of a row which the cache told for a group that lists the name. -/
def Grants (name : String) (gid : UInt32) : Prop :=
  (∃ su ∈ d.users, d.alike name su.userName ∧ ∃ g ∈ su.groups, Resolved b config told .gid g.value gid) ∨
  (∃ ttl rows, told (.selectGroupsByMember name ttl) rows ∧
    ∃ g ∈ rows, g.gid = gid ∧ gid ∈ slots b config .gid g.externalId ∧ Lists d g.externalId name)

def Sourced : Output → Prop
  | .user u => ∀ x ∈ u, FromUser b config d x
  | .group g => ∀ x ∈ g, FromGroup b config d x
  | .users us => ∀ x ∈ us, FromUser b config d x
  | .groups gs => ∀ x ∈ gs, FromGroup b config d x
  | .gids gids => ∀ gid ∈ gids, ∃ name, Grants b config d told name gid
  | _ => True

def Fitting : Op → Output → Prop
  | .lookupUserByName n, .user u => ∀ x ∈ u, d.alike n x.name
  | .lookupUserByUid uid, .user u => ∀ x ∈ u, x.uid = uid
  | .lookupGroupByName n, .group g => ∀ x ∈ g, d.alike n x.name
  | .lookupGroupByGid gid, .group g => ∀ x ∈ g, x.gid = gid
  | .checkUserActive n, .active a => a = true → ∃ su ∈ d.users, d.alike n su.userName ∧ su.active.getD true = true
  | .lookupGroupsForUser n, .gids gids => ∀ gid ∈ gids, Grants b config d told n gid
  | _, _ => True

def Answers (op : Op) (out : Output) : Prop := Sourced b config d told out ∧ Fitting b config d told op out

/- A walk for a UID is that of a user; one for a GID may be that of any reference. -/
def Known : Column → String → Prop
  | .uid, externalId => ∃ su ∈ d.users, su.id = externalId
  | .gid, _ => True

/- `read` holds the groups that an operation has found in the cache: of these alone it asks
for the members. -/
def Stored (read : Set String) : Stmt → Prop
  | .selectOwner c _ externalId => Known d c externalId
  | .selectMembers externalId => externalId ∈ read
  | .insertOrReplaceUser u => FromUser b config d u
  | .insertOrReplaceGroup g => FromGroup b config d g
  | .insertMember externalId member => Lists d externalId member
  | _ => True

def Found (read : Set String) : (st : Stmt) → st.Resp → Prop
  | .selectUserByUid uid _, u => ∀ x ∈ u, FromUser b config d x ∧ x.uid = uid
  | .selectUserByLogin n _, u => ∀ x ∈ u, FromUser b config d x ∧ x.name = n
  | .selectGroupByGid gid _, g => ∀ x ∈ g, (FromGroup b config d x ∧ x.gid = gid) ∧ x.externalId ∈ read
  | .selectGroupByName n _, g => ∀ x ∈ g, (FromGroup b config d x ∧ x.name = n) ∧ x.externalId ∈ read
  | .selectGroupsByMember n _, gs => ∀ x ∈ gs, (FromGroup b config d x ∧ Lists d x.externalId n) ∧ x.externalId ∈ read
  | .selectMembers externalId, names => ∀ n ∈ names, Lists d externalId n
  | _, _ => True

def contract (told : Telling) (read : Set String) : Contract calls where
  guarantee
    | .scim _ => True
    | .sql st => Stored b config d read st
  rely
    | .scim q, r => d.Says q r
    | .sql st, r => OnOk (fun r => Found b config d read st r ∧ told st r) r

end Source

section Cache
variable {b : Build} {config : Config} {d : Source} {db db' : Db} {t : Int} {st : Stmt} {r : st.Resp}

theorem userRows (ok : exec t db st = .ok (r,db')) {row} (inside : row ∈ db'.users.rows) :
    row ∈ db.users.rows ∨ ∃ u, st = .insertOrReplaceUser u ∧ row = userRow u t := by
  cases st with
  | insertOrReplaceUser u =>
    cases ok
    rcases UniqueTable.memInsertOrReplace.mp inside with rfl | ⟨old,-⟩
    · exact .inr ⟨u,rfl,rfl⟩
    · exact .inl old
  | purgeUsers ttl =>
    cases ok
    exact .inl (UniqueTable.memDelete.mp inside).1
  | _ =>
    rw [execUsers rfl ok] at inside
    exact .inl inside

theorem groupRows (ok : exec t db st = .ok (r,db')) {row} (inside : row ∈ db'.groups.rows) :
    row ∈ db.groups.rows ∨ ∃ g, st = .insertOrReplaceGroup g ∧ row = groupRow g t := by
  cases st with
  | insertOrReplaceGroup g =>
    cases ok
    rcases UniqueTable.memInsertOrReplace.mp inside with rfl | ⟨old,-⟩
    · exact .inr ⟨g,rfl,rfl⟩
    · exact .inl old
  | purgeGroups ttl =>
    cases ok
    exact .inl (UniqueTable.memDelete.mp inside).1
  | _ =>
    rw [execGroups rfl ok] at inside
    exact .inl inside

theorem memberRows (ok : exec t db st = .ok (r,db')) {m} (inside : m ∈ db'.members) :
    m ∈ db.members ∨ st = .insertMember m.group m.name := by
  cases st with
  | insertMember externalId member =>
    simp only [exec] at ok
    split at ok <;> cases ok
    rcases List.mem_append.mp inside with old | new
    · exact .inl old
    · cases List.mem_singleton.mp new
      exact .inr rfl
  | insertOrReplaceGroup g =>
    cases ok
    exact .inl (memCascade.mp inside).1
  | purgeGroups ttl =>
    cases ok
    exact .inl (memCascade.mp inside).1
  | deleteMembers externalId =>
    cases ok
    exact .inl (List.mem_of_mem_filter inside)
  | purgeMembers ttl =>
    cases ok
    exact .inl (List.mem_of_mem_filter inside)
  | _ =>
    rw [execMembers rfl ok] at inside
    exact .inl inside

theorem storedKeeps (well : FromSource b config d db) (stored : Stored b config d Set.univ st) (ok : exec t db st = .ok (r,db')) :
    FromSource b config d db' := by
  refine ⟨fun row inside => ?_,fun row inside => ?_,fun m inside => ?_⟩
  · rcases userRows ok inside with old | ⟨u,rfl,rfl⟩
    · exact well.users row old
    · exact stored
  · rcases groupRows ok inside with old | ⟨g,rfl,rfl⟩
    · exact well.groups row old
    · exact ⟨stored.group,fun m never => nomatch never⟩
  · rcases memberRows ok inside with old | rfl
    · exact well.members m old
    · exact stored

theorem firstRow {ρ γ δ : Type} [BEq γ] [LawfulBEq γ] {rows : List ρ} {field : ρ → γ} {x : γ} {alive : ρ → Bool}
    {read : ρ → δ} {a} (answer : (rows.find? (fun row => field row == x && alive row)).map read = some a) :
    ∃ row ∈ rows, field row = x ∧ alive row = true ∧ read row = a := by
  obtain ⟨row,found,same⟩ := Option.map_eq_some_iff.mp answer
  have here := List.find?_some found
  simp only [Bool.and_eq_true,beq_iff_eq] at here
  exact ⟨row,List.mem_of_find?_eq_some found,here.1,here.2,same⟩

theorem foundKeeps (well : FromSource b config d db) (ok : exec t db st = .ok (r,db')) : Found b config d Set.univ st r := by
  cases st <;> first | trivial | (simp only [exec,Except.ok.injEq,Prod.mk.injEq] at ok; obtain ⟨rfl,-⟩ := ok)
  case selectUserByUid uid ttl =>
    intro u answer
    obtain ⟨row,inside,here,-,rfl⟩ := firstRow answer
    exact ⟨well.users row inside,here⟩
  case selectUserByLogin n ttl =>
    intro u answer
    obtain ⟨row,inside,here,-,rfl⟩ := firstRow answer
    exact ⟨well.users row inside,here⟩
  case selectGroupByGid gid ttl =>
    intro g answer
    obtain ⟨row,inside,here,-,rfl⟩ := firstRow answer
    exact ⟨⟨well.groups row inside,here⟩,trivial⟩
  case selectGroupByName n ttl =>
    intro g answer
    obtain ⟨row,inside,here,-,rfl⟩ := firstRow answer
    exact ⟨⟨well.groups row inside,here⟩,trivial⟩
  case selectGroupsByMember n ttl =>
    intro g answer
    obtain ⟨row,inside,rfl⟩ := List.mem_map.mp answer
    obtain ⟨there,member,-⟩ := memGroupsOf.mp inside
    exact ⟨⟨well.groups row there,well.members _ member⟩,trivial⟩
  case selectMembers externalId =>
    exact fun n answer => well.members _ (memMembersOf.mp answer)

theorem serves : Serves (contract b config d untold Set.univ) (FromSource b config d) (Answered d.Says) := by
  intro db c r db' well promised answered
  cases answered with
  | scim said => exact ⟨said,well⟩
  | sql t fault st =>
    rcases executeCases t fault db st with ⟨e,failed⟩ | ⟨rfl,r,db',ok,done⟩
    · rw [failed]
      exact ⟨trivial,well⟩
    · rw [done]
      exact ⟨⟨foundKeeps well ok,trivial⟩,storedKeeps well promised ok⟩

end Cache

section Rules
variable {b : Build} {config : Config} {d : Source} {told : Telling} {read : Set String}

theorem ensuresSqlTold {st : Stmt} (promised : Stored b config d read st) :
    Ensures (contract b config d told read) (OnOk fun r => Found b config d read st r ∧ told st r) (sql st) := by
  refine ensuresCall promised fun r relied => ?_
  cases r with
  | ok r => exact relied
  | error e => trivial

theorem ensuresSql {st : Stmt} (promised : Stored b config d read st) :
    Ensures (contract b config d told read) (OnOk (Found b config d read st)) (sql st) :=
  ensuresMono (fun _ => onOkMono fun _ => And.left) (ensuresSqlTold promised)

theorem ensuresCached {α : Type} {post : α → Prop} {p : Act CacheError α}
    (ok : Ensures (contract b config d told read) (OnOk post) p) : Ensures (contract b config d told read) (OnOk post) (cached p) := by
  refine ensuresBind (ensuresMono ?_ ok)
  intro r holds
  rcases r with (e | -) | a <;> exact holds

theorem ensuresCaught {α : Type} {post : α → Prop} {p : Act ServiceError α}
    (ok : Ensures (contract b config d told read) (OnOk post) p) :
    Ensures (contract b config d told read) (OnOk (OnOk post)) (attempt p) := by
  refine ensuresBind (ensuresMono ?_ ok)
  intro r holds
  rcases r with (e | -) | a <;> exact holds

theorem ensuresAsk {α : Type} {post : α → Prop} {q : ScimQuery} {f : Except ScimError q.Resp → Act ServiceError α}
    (ok : ∀ r, d.Says q r → Ensures (contract b config d told read) (OnOk post) (f r)) :
    Ensures (contract b config d told read) (OnOk post) (ask q >>= f : Act ServiceError α) :=
  ensuresAttempt (ensuresCall trivial ok)

theorem ensuresWalk {externalId : String} {c : Column} (known : Known d c externalId) {stop : Halt CacheError}
    (path : List UInt32) : Ensures (contract b config d told read)
      (OnOk fun x => x ∈ path ∧ ∃ answer, told (.selectOwner c x externalId) answer ∧ answer ≠ some false)
      (walk (fun x => sql (.selectOwner c x externalId)) stop path) := by
  induction path with
  | nil => trivial
  | cons x rest ih =>
    refine ensuresThen (ensuresSqlTold known) fun answer heard => ?_
    match answer with
    | none => exact ⟨List.mem_cons_self,none,heard.2,by simp⟩
    | some true => exact ⟨List.mem_cons_self,some true,heard.2,by simp⟩
    | some false =>
      exact ensuresMono (fun _ => onOkMono fun _ => And.imp_left (List.mem_cons_of_mem x)) ih

theorem ensuresResolve {c : Column} {externalId : String} (known : Known d c externalId) :
    Ensures (contract b config d told read) (OnOk (Resolved b config told c externalId))
      (resolveColumn b config c externalId) := by
  rw [resolveColumnWalk]
  exact ensuresWalk known _

theorem ensuresUserModel {su : ScimUser} (inside : su ∈ d.users) : Ensures (contract b config d told read)
    (OnOk fun u => u = userModel config su u.uid u.gid ∧ FromUser b config d u) (scimUserToModel b config su) := by
  refine ensuresThen (ensuresCached (ensuresResolve (c := .uid) ⟨su,inside,rfl⟩)) fun uid onPath => ?_
  refine ensuresThen (ensuresCached (ensuresResolve (c := .gid) trivial)) fun gid onPath' => ?_
  exact ⟨rfl,su,inside,rfl,onPath.1,onPath'.1⟩

theorem ensuresGroupModel {sg : ScimGroup} (inside : sg ∈ d.groups) : Ensures (contract b config d told read)
    (OnOk fun g => g = groupModel sg g.gid ∧ FromGroup b config d g) (scimGroupToModel b config sg) := by
  refine ensuresThen (ensuresCached (ensuresResolve (c := .gid) trivial)) fun gid onPath => ?_
  exact ⟨rfl,⟨sg,inside,rfl,rfl,onPath.1⟩,fun m listed => ⟨sg,inside,rfl,listed⟩⟩

theorem ensuresStoreUser {u : User} (sourced : FromUser b config d u) :
    Ensures (contract b config d told read) (OnOk fun _ => True) (cached (storeUser u)) :=
  ensuresCached (ensuresMono (fun _ => onOkMono fun _ _ => trivial) (ensuresSql sourced))

theorem ensuresInserts {externalId : String} {names : List String} (listed : ∀ m ∈ names, Lists d externalId m) :
    Ensures (contract b config d told read) (OnOk fun _ => True) (insertMembers externalId names) := by
  induction names with
  | nil => trivial
  | cons m rest ih =>
    refine ensuresThen (ensuresSql (listed m List.mem_cons_self)) fun _ _ => ?_
    exact ih fun m inside => listed m (List.mem_cons_of_mem _ inside)

theorem ensuresStoreGroup {g : Group} (sourced : FromGroup b config d g) :
    Ensures (contract b config d told read) (OnOk fun _ => True) (cached (storeGroup g)) := by
  refine ensuresCached (ensuresThen (ensuresSql sourced) fun _ _ => ?_)
  exact ensuresThen (ensuresSql trivial) fun _ _ => ensuresInserts sourced.members

theorem ensuresRefreshUser {su : ScimUser} (inside : su ∈ d.users) : Ensures (contract b config d told read)
    (OnOk fun u => u = userModel config su u.uid u.gid ∧ FromUser b config d u) (refreshUser b config su) := by
  refine ensuresThen (ensuresUserModel inside) fun u made => ?_
  exact ensuresThen (ensuresStoreUser made.2) fun _ _ => made

theorem ensuresRefreshGroup {sg : ScimGroup} (inside : sg ∈ d.groups) : Ensures (contract b config d told read)
    (OnOk fun g => g = groupModel sg g.gid ∧ FromGroup b config d g) (refreshGroup b config sg) := by
  refine ensuresThen (ensuresGroupModel inside) fun g made => ?_
  exact ensuresThen (ensuresStoreGroup made.2) fun _ _ => made

theorem ensuresWithMembers {g : Group} (sourced : FromGroup b config d g) (found : g.externalId ∈ read) :
    Ensures (contract b config d told read)
    (OnOk fun g' => FromGroup b config d g' ∧ g'.gid = g.gid ∧ g'.name = g.name ∧ g'.externalId = g.externalId)
    (withMembers g) := by
  refine ensuresThen (ensuresSql found) fun names listed => ?_
  exact ⟨⟨sourced.group,listed⟩,rfl,rfl,rfl⟩

theorem ensuresUserByName (n : String) (ttl : Ttl) : Ensures (contract b config d told read)
    (OnOk fun u => ∀ x ∈ u, FromUser b config d x ∧ x.name = n) (cached (getUserByName ttl n)) :=
  ensuresCached (ensuresSql trivial)

theorem ensuresUserByUid (uid : UInt32) (ttl : Ttl) : Ensures (contract b config d told read)
    (OnOk fun u => ∀ x ∈ u, FromUser b config d x ∧ x.uid = uid) (cached (getUserByUid ttl uid)) :=
  ensuresCached (ensuresSql trivial)

theorem ensuresGroupByName (n : String) (ttl : Ttl) : Ensures (contract b config d told read)
    (OnOk fun g => ∀ x ∈ g, FromGroup b config d x ∧ x.name = n) (cached (getGroupByName ttl n)) := by
  refine ensuresCached (ensuresThen (ensuresSql trivial) fun row found => ?_)
  cases row with
  | none => exact fun _ never => nomatch never
  | some g =>
    obtain ⟨⟨sourced,named⟩,read⟩ := found g rfl
    refine ensuresMap (ensuresWithMembers sourced read) fun g' made => ?_
    rintro x ⟨⟩
    exact ⟨made.1,made.2.2.1.trans named⟩

theorem ensuresGroupByGid (gid : UInt32) (ttl : Ttl) : Ensures (contract b config d told read)
    (OnOk fun g => ∀ x ∈ g, FromGroup b config d x ∧ x.gid = gid) (cached (getGroupByGid ttl gid)) := by
  refine ensuresCached (ensuresThen (ensuresSql trivial) fun row found => ?_)
  cases row with
  | none => exact fun _ never => nomatch never
  | some g =>
    obtain ⟨⟨sourced,here⟩,read⟩ := found g rfl
    refine ensuresMap (ensuresWithMembers sourced read) fun g' made => ?_
    rintro x ⟨⟩
    exact ⟨made.1,made.2.1.trans here⟩

theorem ensuresWithAllMembers {n : String} {rows : List Group}
    (found : ∀ g ∈ rows, (FromGroup b config d g ∧ Lists d g.externalId n) ∧ g.externalId ∈ read) :
    Ensures (contract b config d told read) (OnOk fun gs => ∀ g ∈ gs, (FromGroup b config d g ∧ Lists d g.externalId n) ∧
      ∃ row ∈ rows, row.gid = g.gid ∧ row.externalId = g.externalId) (withAllMembers rows) := by
  induction rows with
  | nil => exact fun _ never => nomatch never
  | cons row rest ih =>
    obtain ⟨⟨sourced,listed⟩,read⟩ := found row List.mem_cons_self
    refine ensuresThen (ensuresWithMembers sourced read) fun g made => ?_
    refine ensuresThen (ih fun g inside => found g (List.mem_cons_of_mem _ inside)) fun gs later => ?_
    intro x inside
    rcases List.mem_cons.mp inside with rfl | there
    · exact ⟨⟨made.1,made.2.2.2 ▸ listed⟩,row,List.mem_cons_self,made.2.1.symm,made.2.2.2.symm⟩
    · obtain ⟨good,row',among,same⟩ := later x there
      exact ⟨good,row',List.mem_cons_of_mem _ among,same⟩

theorem ensuresLookupUserByName (n : String) : Ensures (contract b config d told read)
    (OnOk fun u => ∀ x ∈ u, FromUser b config d x ∧ d.alike n x.name) (lookupUserByName b config n) := by
  have cache : Ensures (contract b config d told read) (OnOk fun u => ∀ x ∈ u, FromUser b config d x ∧ d.alike n x.name)
      (cached (getUserByName config.cache.ttlSeconds n)) := by
    refine ensuresMono (fun _ => onOkMono fun u found x here => ?_) (ensuresUserByName n _)
    obtain ⟨sourced,named⟩ := found x here
    exact ⟨sourced,named.symm ▸ d.same n⟩
  unfold lookupUserByName
  split
  · exact fun _ never => nomatch never
  · refine ensuresAsk fun r said => ?_
    rcases r with e | none | su
    · exact cache
    · exact cache
    · refine ensuresMap (ensuresRefreshUser said.1) fun u made => ?_
      rintro x ⟨⟩
      exact ⟨made.2,made.1.symm ▸ said.2⟩

theorem ensuresLookupGroupByName (n : String) : Ensures (contract b config d told read)
    (OnOk fun g => ∀ x ∈ g, FromGroup b config d x ∧ d.alike n x.name) (lookupGroupByName b config n) := by
  have cache : Ensures (contract b config d told read) (OnOk fun g => ∀ x ∈ g, FromGroup b config d x ∧ d.alike n x.name)
      (cached (getGroupByName config.cache.ttlSeconds n)) := by
    refine ensuresMono (fun _ => onOkMono fun u found x here => ?_) (ensuresGroupByName n _)
    obtain ⟨sourced,named⟩ := found x here
    exact ⟨sourced,named.symm ▸ d.same n⟩
  unfold lookupGroupByName
  split
  · exact fun _ never => nomatch never
  · refine ensuresAsk fun r said => ?_
    rcases r with e | none | sg
    · exact cache
    · exact cache
    · refine ensuresMap (ensuresRefreshGroup said.1) fun g made => ?_
      rintro x ⟨⟩
      exact ⟨made.2,made.1.symm ▸ said.2⟩

theorem ensuresCheckUserActive (n : String) : Ensures (contract b config d told read)
    (OnOk fun a => a = true → ∃ su ∈ d.users, d.alike n su.userName ∧ su.active.getD true = true)
    (checkUserActive b config n) := by
  have denied : Ensures (contract b config d told read)
      (OnOk fun a => a = true → ∃ su ∈ d.users, d.alike n su.userName ∧ su.active.getD true = true)
      (pure false : Act ServiceError Bool) := fun never => nomatch never
  unfold checkUserActive
  split
  · exact denied
  · refine ensuresAsk fun r said => ?_
    rcases r with e | none | su
    · dsimp only
      split
      · refine ensuresThen (ensuresUserByName n _) fun u found => ?_
        cases u with
        | none => exact denied
        | some x =>
          intro active
          obtain ⟨⟨su,inside,made,-⟩,named⟩ := found x rfl
          have called : su.userName = n := by rw [← named,made]; rfl
          refine ⟨su,inside,called.symm ▸ d.same n,?_⟩
          rw [made] at active
          exact active
      · exact denied
    · exact denied
    · refine ensuresMap (ensuresRefreshUser said.1) fun u made active => ?_
      rw [made.1] at active
      exact ⟨su,said.1,said.2,active⟩

theorem ensuresResolveGroups (refs : List ScimGroupRef) : Ensures (contract b config d told read)
    (OnOk fun gids => ∀ gid ∈ gids, ∃ g ∈ refs, Resolved b config told .gid g.value gid) (resolveGroups b config refs) := by
  induction refs with
  | nil => exact fun _ never => nomatch never
  | cons g rest ih =>
    refine ensuresThen (ensuresCached (ensuresResolve (c := .gid) trivial)) fun gid resolved => ?_
    refine ensuresThen ih fun gids later => ?_
    intro x inside
    rcases List.mem_cons.mp inside with rfl | there
    · exact ⟨g,List.mem_cons_self,resolved⟩
    · obtain ⟨g',among,resolved'⟩ := later x there
      exact ⟨g',List.mem_cons_of_mem _ among,resolved'⟩

theorem ensuresGroupsForMember (n : String) (ttl : Ttl) : Ensures (contract b config d told read)
    (OnOk fun gs => ∀ g ∈ gs, Grants b config d told n g.gid) (cached (getGroupsForMember ttl n)) := by
  refine ensuresCached (ensuresThen (ensuresSqlTold trivial) fun rows heard => ?_)
  refine ensuresMono (fun _ => onOkMono fun gs found g inside => ?_) (ensuresWithAllMembers heard.1)
  obtain ⟨⟨sourced,listed⟩,row,among,gid,key⟩ := found g inside
  obtain ⟨sg,-,same,-,onPath⟩ := sourced.group
  refine .inr ⟨ttl,rows,heard.2,row,among,gid,?_,key ▸ listed⟩
  rw [key,same]
  exact onPath

theorem ensuresLookupGroupsForUser (n : String) : Ensures (contract b config d told read)
    (OnOk fun gids => ∀ gid ∈ gids, Grants b config d told n gid) (lookupGroupsForUser b config n) := by
  unfold lookupGroupsForUser
  split
  · exact fun _ never => nomatch never
  · refine ensuresAsk fun r said => ?_
    rcases r with e | none | su
    · refine ensuresThen (ensuresGroupsForMember n _) fun gs found gid inside => ?_
      obtain ⟨g,among,rfl⟩ := List.mem_map.mp inside
      exact found g among
    · exact fun _ never => nomatch never
    · refine ensuresThen (ensuresRefreshUser said.1) fun _ _ => ?_
      refine ensuresMono (fun _ => onOkMono fun gids resolved gid inside => ?_) (ensuresResolveGroups su.groups)
      exact .inl ⟨su,said.1,said.2,resolved gid inside⟩

theorem ensuresRefreshUsers {sus : List ScimUser} (inside : ∀ su ∈ sus, su ∈ d.users) : Ensures (contract b config d told read)
    (OnOk fun us => ∀ u ∈ us, FromUser b config d u) (refreshUsers b config sus) := by
  induction sus with
  | nil => exact fun _ never => nomatch never
  | cons su rest ih =>
    refine ensuresThen (ensuresRefreshUser (inside su List.mem_cons_self)) fun u made => ?_
    refine ensuresThen (ih fun x later => inside x (List.mem_cons_of_mem _ later)) fun us all => ?_
    exact List.forall_mem_cons.mpr ⟨made.2,all⟩

theorem ensuresRefreshGroups {sgs : List ScimGroup} (inside : ∀ sg ∈ sgs, sg ∈ d.groups) : Ensures (contract b config d told read)
    (OnOk fun gs => ∀ g ∈ gs, FromGroup b config d g) (refreshGroups b config sgs) := by
  induction sgs with
  | nil => exact fun _ never => nomatch never
  | cons sg rest ih =>
    refine ensuresThen (ensuresRefreshGroup (inside sg List.mem_cons_self)) fun g made => ?_
    refine ensuresThen (ih fun x later => inside x (List.mem_cons_of_mem _ later)) fun gs all => ?_
    exact List.forall_mem_cons.mpr ⟨made.2,all⟩

theorem ensuresEnumerateUsers {sus : List ScimUser} (inside : ∀ su ∈ sus, su ∈ d.users) : Ensures (contract b config d told read)
    (OnOk fun us => ∀ u ∈ us, FromUser b config d u) (enumerateUsers b config sus) := by
  induction sus with
  | nil => exact fun _ never => nomatch never
  | cons su rest ih =>
    have onward := ih fun x later => inside x (List.mem_cons_of_mem _ later)
    refine ensuresThen (ensuresCaught (ensuresUserModel (inside su List.mem_cons_self))) fun r made => ?_
    cases r with
    | error e => exact onward
    | ok u =>
      refine ensuresThen (ensuresCaught (ensuresStoreUser made.2)) fun _ _ => ?_
      exact ensuresThen onward fun us all => List.forall_mem_cons.mpr ⟨made.2,all⟩

theorem ensuresEnumerateGroups {sgs : List ScimGroup} (inside : ∀ sg ∈ sgs, sg ∈ d.groups) : Ensures (contract b config d told read)
    (OnOk fun gs => ∀ g ∈ gs, FromGroup b config d g) (enumerateGroups b config sgs) := by
  induction sgs with
  | nil => exact fun _ never => nomatch never
  | cons sg rest ih =>
    have onward := ih fun x later => inside x (List.mem_cons_of_mem _ later)
    refine ensuresThen (ensuresCaught (ensuresGroupModel (inside sg List.mem_cons_self))) fun r made => ?_
    cases r with
    | error e => exact onward
    | ok g =>
      refine ensuresThen (ensuresCaught (ensuresStoreGroup made.2)) fun _ _ => ?_
      exact ensuresThen onward fun gs all => List.forall_mem_cons.mpr ⟨made.2,all⟩

theorem ensuresPurge (ttl : Ttl) : Ensures (contract b config d told read) (OnOk fun _ => True) (cached (purgeExpired ttl)) := by
  refine ensuresCached (ensuresThen (ensuresSql trivial) fun _ _ => ?_)
  exact ensuresThen (ensuresSql trivial) fun _ _ => ensuresMono (fun _ => onOkMono fun _ _ => trivial) (ensuresSql trivial)

theorem operationEnsures (op : Op) :
    Ensures (contract b config d told read) (OnOk (Answers b config d told op)) (operation b config op) := by
  cases op with
  | new =>
    refine ensuresMap (m := fun _ => True) ?_ fun _ _ => ⟨trivial,trivial⟩
    exact ensuresThen (ensuresCaught (ensuresPurge _)) fun _ _ => trivial
  | purgeExpired ttl => exact ensuresMap (ensuresPurge ttl) fun _ _ => ⟨trivial,trivial⟩
  | lookupUserByName n =>
    refine ensuresMap (ensuresLookupUserByName n) fun u found => ?_
    exact ⟨fun x here => (found x here).1,fun x here => (found x here).2⟩
  | lookupUserByUid uid =>
    refine ensuresMap (ensuresUserByUid uid _) fun u found => ?_
    exact ⟨fun x here => (found x here).1,fun x here => (found x here).2⟩
  | lookupGroupByName n =>
    refine ensuresMap (ensuresLookupGroupByName n) fun g found => ?_
    exact ⟨fun x here => (found x here).1,fun x here => (found x here).2⟩
  | lookupGroupByGid gid =>
    refine ensuresMap (ensuresGroupByGid gid _) fun g found => ?_
    exact ⟨fun x here => (found x here).1,fun x here => (found x here).2⟩
  | listAllUsers =>
    refine ensuresMap (m := fun us => ∀ u ∈ us, FromUser b config d u) (ensuresAsk fun r said => ?_)
      fun us all => ⟨all,trivial⟩
    cases r with
    | error e => trivial
    | ok sus => exact ensuresRefreshUsers said
  | listAllGroups =>
    refine ensuresMap (m := fun gs => ∀ g ∈ gs, FromGroup b config d g) (ensuresAsk fun r said => ?_)
      fun gs all => ⟨all,trivial⟩
    cases r with
    | error e => trivial
    | ok sgs => exact ensuresRefreshGroups said
  | checkUserActive n => exact ensuresMap (ensuresCheckUserActive n) fun a found => ⟨trivial,found⟩
  | lookupGroupsForUser n =>
    refine ensuresMap (ensuresLookupGroupsForUser n) fun gids found => ?_
    exact ⟨fun gid inside => ⟨n,found gid inside⟩,found⟩
  | setpwent =>
    refine ensuresMap (m := fun l => ∀ us ∈ l, ∀ u ∈ us, FromUser b config d u) (ensuresAsk fun r said => ?_) ?_
    · cases r with
      | error e => exact fun _ never => nomatch never
      | ok sus => exact ensuresMap (ensuresEnumerateUsers said) fun us all x same => Option.some.inj same ▸ all
    · intro l all
      cases l with
      | none => exact ⟨trivial,trivial⟩
      | some us => exact ⟨all us rfl,trivial⟩
  | setgrent =>
    refine ensuresMap (m := fun l => ∀ gs ∈ l, ∀ g ∈ gs, FromGroup b config d g) (ensuresAsk fun r said => ?_) ?_
    · cases r with
      | error e => exact fun _ never => nomatch never
      | ok sgs => exact ensuresMap (ensuresEnumerateGroups said) fun gs all x same => Option.some.inj same ▸ all
    · intro l all
      cases l with
      | none => exact ⟨trivial,trivial⟩
      | some gs => exact ⟨all gs rfl,trivial⟩

end Rules

section Runs
variable {b : Build} {config : Config} {d : Source} {db : Db} {now : Int} {s : Sys}

theorem keptFrom (begins : FromSource b config d db) (run : Reach (step b config) (Hears d.Says) (fresh db now) s) :
    Kept (contract b config d untold Set.univ) (FromSource b config d) s :=
  keptRun serves (fun op => keepsAny (keepsEnsured (operationEnsures op))) begins run

theorem reliedTold {read : Set String} {tr : List (Event calls)} {e : Event calls} (inside : e ∈ tr)
    (relied : (contract b config d untold read).rely e.call e.resp) :
    (contract b config d (Told tr) read).rely e.call e.resp := by
  rcases e with ⟨t,q | st,r⟩
  · exact relied
  · cases r with
    | error e => trivial
    | ok r => exact ⟨relied.1,t,inside⟩

theorem finishedAnswers (begins : FromSource b config d db) (run : Reach (step b config) (Hears d.Says) (fresh db now) s) :
    ∀ p op out, Entry.finish p op (.ok out) ∈ s.log →
      ∃ tr, Finished b config s p op (.ok out) tr ∧ Answers b config d (Told tr) op out := by
  intro p op out inside
  obtain ⟨tr,finished⟩ := finishedPlays run p op (.ok out) inside
  have called := (keptFrom begins run).called
  refine ⟨tr,finished,(ensuresPlays (@operationEnsures b config d (Told tr) Set.univ op) finished.plays fun e among => ?_).1⟩
  have there := List.mem_reverse.mp among
  exact reliedTold there (called p e (finished.logged e there)).2

end Runs

theorem cacheFromSource (b : Build) (config : Config) (d : Source) (db : Db) (now : Int) (s : Sys)
    (begins : FromSource b config d db) (run : Reach (step b config) (Hears d.Says) (fresh db now) s) :
    FromSource b config d s.db := (keptFrom begins run).db

theorem answersFromSource (b : Build) (config : Config) (d : Source) (db : Db) (now : Int) (s : Sys)
    (begins : FromSource b config d db) (run : Reach (step b config) (Hears d.Says) (fresh db now) s) :
    ∀ p op out, Entry.finish p op (.ok out) ∈ s.log → ∃ tr, Finished b config s p op (.ok out) tr ∧
      Sourced b config d (Told tr) out ∧ Fitting b config d (Told tr) op out :=
  finishedAnswers begins run

theorem fromNothing (b : Build) (config : Config) (d : Source) : FromSource b config d empty :=
  ⟨fun _ never => (nomatch never),fun _ never => (nomatch never),fun _ never => (nomatch never)⟩

def ann : ScimUser := ⟨"u2","ann",some "Ann",none,[⟨"g1",some "staff"⟩]⟩

def staff : ScimGroup := ⟨"g1","staff",[⟨"u2",some "ann"⟩,⟨"u7",none⟩]⟩

def office : Source := ⟨{ann},{staff},Eq,fun _ => rfl⟩

instance : DecidablePred (· ∈ office.users) := fun su => inferInstanceAs (Decidable (su = ann))
instance : DecidablePred (· ∈ office.groups) := fun sg => inferInstanceAs (Decidable (sg = staff))
instance (m n : String) : Decidable (office.alike m n) := inferInstanceAs (Decidable (m = n))

instance (d : Source) [DecidablePred (· ∈ d.users)] [DecidablePred (· ∈ d.groups)] [∀ m n, Decidable (d.alike m n)] :
    (q : ScimQuery) → (r : Except ScimError q.Resp) → Decidable (d.Says q r)
  | .userByName n, .ok (some su) => inferInstanceAs (Decidable (su ∈ d.users ∧ d.alike n su.userName))
  | .groupByName n, .ok (some sg) => inferInstanceAs (Decidable (sg ∈ d.groups ∧ d.alike n sg.displayName))
  | .listUsers, .ok sus => inferInstanceAs (Decidable (∀ su ∈ sus, su ∈ d.users))
  | .listGroups, .ok sgs => inferInstanceAs (Decidable (∀ sg ∈ sgs, sg ∈ d.groups))
  | .userByName _, .ok none => .isTrue trivial
  | .groupByName _, .ok none => .isTrue trivial
  | .userByName _, .error _ => .isTrue trivial
  | .groupByName _, .error _ => .isTrue trivial
  | .listUsers, .error _ => .isTrue trivial
  | .listGroups, .error _ => .isTrue trivial

instance {heard : Heard} [∀ q r, Decidable (heard q r)] (s : Sys) : (l : Label) → Decidable (Hears heard s l)
  | .scim _ _ reply => by
      dsimp only [Hears]
      split
      · exact inferInstanceAs (Decidable (∀ r ∈ Reply.fit reply _, heard _ r))
      · exact .isTrue trivial
  | .start _ _ => .isTrue trivial
  | .sql _ _ _ => .isTrue trivial
  | .finish _ => .isTrue trivial
  | .kill _ => .isTrue trivial

def crossing : List Label := [
  .start 0 (.lookupUserByName "ann"),.start 1 (.lookupGroupByName "staff"),
  .scim 1 0 (.group (some staff)),.scim 0 0 (.user (some ann)),
  .sql 0 1 false,.sql 1 1 false,.sql 1 2 false,.sql 0 2 false,.sql 1 3 false,.sql 0 3 false,.sql 1 4 false,
  .finish 0,.finish 1,
  .start 2 (.lookupGroupsForUser "ann"),.scim 2 5 (.error .http),.sql 2 5 false,.sql 2 5 false,.finish 2]

theorem crossed : ∃ s, Runs.replay (step release fourSlots) (Hears office.Says) (fresh empty 0) crossing = some s ∧
    s.db.members = [⟨"g1","ann"⟩] := by
  have ends : (Runs.replay (step release fourSlots) (Hears office.Says) (fresh empty 0) crossing).map
      (fun s => s.db.members) = some [⟨"g1","ann"⟩] := by decide +kernel
  exact Option.map_eq_some_iff.mp ends

theorem cacheFromOffice : ∃ s, Runs.replay (step release fourSlots) (Hears office.Says) (fresh empty 0) crossing = some s ∧
    s.db.members = [⟨"g1","ann"⟩] ∧ FromSource release fourSlots office s.db := by
  obtain ⟨s,reached,members⟩ := crossed
  exact ⟨s,reached,members,cacheFromSource release fourSlots office empty 0 s (fromNothing _ _ _) (Runs.replayReach reached)⟩

theorem answersFromOffice : ∃ s, Runs.replay (step release fourSlots) (Hears office.Says) (fresh empty 0) crossing = some s ∧
    ∀ p op out, Entry.finish p op (.ok out) ∈ s.log → ∃ tr, Finished release fourSlots s p op (.ok out) tr ∧
      Sourced release fourSlots office (Told tr) out ∧ Fitting release fourSlots office (Told tr) op out := by
  obtain ⟨s,reached,-⟩ := crossed
  exact ⟨s,reached,answersFromSource release fourSlots office empty 0 s (fromNothing _ _ _) (Runs.replayReach reached)⟩

def anything : Source := ⟨Set.univ,Set.univ,fun _ _ => True,fun _ => trivial⟩

def InRange (config : Config) (c : Column) (x : UInt32) : Prop :=
  (rangeMin config c).toNat ≤ x.toNat ∧ x.toNat < (rangeMin config c).toNat + (rangeSize config c).toNat

def outputUids : Output → List UInt32
  | .user u => u.toList.map User.uid
  | .users us => us.map User.uid
  | _ => []

def outputGids : Output → List UInt32
  | .user u => u.toList.map User.gid
  | .users us => us.map User.gid
  | .group g => g.toList.map Group.gid
  | .groups gs => gs.map Group.gid
  | .gids gids => gids
  | _ => []

section Range
variable {b : Build} {config : Config}

theorem candidateInRange {rangeMin rangeSize base offset x : UInt32} (bounds : InBounds rangeMin rangeSize)
    (ok : candidate b rangeMin rangeSize base offset = some x) :
    rangeMin.toNat ≤ x.toNat ∧ x.toNat < rangeMin.toNat + rangeSize.toNat := by
  obtain ⟨distance,-,later⟩ := Option.bind_eq_some_iff.mp ok
  obtain ⟨sum,-,last⟩ := Option.bind_eq_some_iff.mp later
  obtain ⟨residue,divided,added⟩ := Option.bind_eq_some_iff.mp last
  obtain ⟨-,rfl⟩ := remU32Some divided
  have ends := bounds.ends
  have below := Nat.mod_lt sum.toNat bounds.some
  have fits : rangeMin.toNat + (sum % rangeSize).toNat < 2^32 := by
    rw [UInt32.toNat_mod]
    omega
  rw [addU32Exact fits] at added
  cases added
  rw [UInt32.toNat_add,Nat.mod_eq_of_lt fits,UInt32.toNat_mod]
  omega

theorem slotsFromInRange {rangeMin rangeSize base : UInt32} (bounds : InBounds rangeMin rangeSize) {left offset x}
    (inside : x ∈ slotsFrom b rangeMin rangeSize base left offset) :
    rangeMin.toNat ≤ x.toNat ∧ x.toNat < rangeMin.toNat + rangeSize.toNat := by
  induction left generalizing offset with
  | zero => cases inside
  | succ left ih =>
    rw [slotsFrom] at inside
    split at inside
    · cases inside
    · rename_i c here
      rcases List.mem_cons.mp inside with rfl | later
      · exact candidateInRange bounds here
      · exact ih later

/- A large range may make the offset wrap, but not the slot. -/
theorem slotsInRange {c k x} (bounds : InBounds (rangeMin config c) (rangeSize config c))
    (inside : x ∈ slots b config c k) : InRange config c x := by
  rw [slots,path] at inside
  split at inside
  · cases inside
  · exact slotsFromInRange bounds inside

variable {d : Source} (bounds : ∀ c, InBounds (rangeMin config c) (rangeSize config c))
include bounds

theorem userInRange {u : User} (sourced : FromUser b config d u) : InRange config .uid u.uid ∧ InRange config .gid u.gid := by
  obtain ⟨su,-,-,uid,gid⟩ := sourced
  exact ⟨slotsInRange (bounds .uid) uid,slotsInRange (bounds .gid) gid⟩

theorem groupInRange {g : Group} (sourced : FromGroup b config d g) : InRange config .gid g.gid := by
  obtain ⟨sg,-,-,-,gid⟩ := sourced.group
  exact slotsInRange (bounds .gid) gid

theorem grantInRange {told : Telling} {n : String} {gid : UInt32} (granted : Grants b config d told n gid) :
    InRange config .gid gid := by
  rcases granted with ⟨su,-,-,g,-,onPath,-⟩ | ⟨ttl,rows,-,g,-,-,onPath,-⟩
  · exact slotsInRange (bounds .gid) onPath
  · exact slotsInRange (bounds .gid) onPath

theorem outputInRange {told : Telling} {out : Output} (sourced : Sourced b config d told out) :
    (∀ x ∈ outputUids out, InRange config .uid x) ∧ ∀ x ∈ outputGids out, InRange config .gid x := by
  cases out with
  | user u =>
    refine ⟨fun x inside => ?_,fun x inside => ?_⟩
    · obtain ⟨u',here,rfl⟩ := List.mem_map.mp inside
      exact (userInRange bounds (sourced u' (Option.mem_toList.mp here))).1
    · obtain ⟨u',here,rfl⟩ := List.mem_map.mp inside
      exact (userInRange bounds (sourced u' (Option.mem_toList.mp here))).2
  | users us =>
    refine ⟨fun x inside => ?_,fun x inside => ?_⟩
    · obtain ⟨u',here,rfl⟩ := List.mem_map.mp inside
      exact (userInRange bounds (sourced u' here)).1
    · obtain ⟨u',here,rfl⟩ := List.mem_map.mp inside
      exact (userInRange bounds (sourced u' here)).2
  | group g =>
    refine ⟨fun x never => (nomatch never),fun x inside => ?_⟩
    obtain ⟨g',here,rfl⟩ := List.mem_map.mp inside
    exact groupInRange bounds (sourced g' (Option.mem_toList.mp here))
  | groups gs =>
    refine ⟨fun x never => (nomatch never),fun x inside => ?_⟩
    obtain ⟨g',here,rfl⟩ := List.mem_map.mp inside
    exact groupInRange bounds (sourced g' here)
  | gids gids =>
    refine ⟨fun x never => (nomatch never),fun x inside => ?_⟩
    obtain ⟨n,granted⟩ := sourced x inside
    exact grantInRange bounds granted
  | done => exact ⟨fun x never => (nomatch never),fun x never => (nomatch never)⟩
  | unavail => exact ⟨fun x never => (nomatch never),fun x never => (nomatch never)⟩
  | active a => exact ⟨fun x never => (nomatch never),fun x never => (nomatch never)⟩

end Range

theorem hearsAnything (s : Sys) (l : Label) : Hears anything.Says s l := by
  have may (q) (r : Except ScimError q.Resp) : anything.Says q r := by
    cases q <;> rcases r with e | (- | -) <;> simp [Source.Says,anything]
  unfold Hears
  split
  · split
    · exact fun r _ => may _ r
    · trivial
  · trivial

theorem idsInRange (b : Build) (config : Config) (bounds : ∀ c, InBounds (rangeMin config c) (rangeSize config c))
    (now : Int) (s : Sys) (run : Reach (step b config) (fun _ _ => True) (fresh empty now) s) :
    (∀ r ∈ s.db.users.rows, InRange config .uid r.uid ∧ InRange config .gid r.gid) ∧
    (∀ r ∈ s.db.groups.rows, InRange config .gid r.gid) ∧
    ∀ p op out, Entry.finish p op (.ok out) ∈ s.log →
      (∀ x ∈ outputUids out, InRange config .uid x) ∧ ∀ x ∈ outputGids out, InRange config .gid x := by
  have free := Runs.reachMono (fun s l _ => hearsAnything s l) run
  have kept := keptFrom (fromNothing b config anything) free
  refine ⟨fun r inside => ?_,fun r inside => ?_,fun p op out inside => ?_⟩
  · exact userInRange bounds (kept.db.users r inside)
  · exact groupInRange bounds (kept.db.groups r inside)
  · obtain ⟨tr,-,sourced,-⟩ := finishedAnswers (fromNothing b config anything) free p op out inside
    exact outputInRange bounds sourced

theorem idsInFourSlots : ∃ s, Runs.replay (step release fourSlots) (fun _ _ => True) (fresh empty 0) crossing = some s ∧
    ∀ r ∈ s.db.users.rows, InRange fourSlots .uid r.uid ∧ InRange fourSlots .gid r.gid := by
  have ends : ((Runs.replay (step release fourSlots) (fun _ _ => True) (fresh empty 0) crossing).map
      (fun s => s.db.members)).isSome = true := by decide +kernel
  rw [Option.isSome_map] at ends
  obtain ⟨s,reached⟩ := Option.isSome_iff_exists.mp ends
  have bounds (c : Column) : InBounds (rangeMin fourSlots c) (rangeSize fourSlots c) := by
    cases c <;> exact ⟨by decide,by decide⟩
  exact ⟨s,reached,(idsInRange release fourSlots bounds 0 s (Runs.replayReach reached)).1⟩

end SssdOidc.Provenance
