import SssdOidc.Provenance
import SssdOidc.Snapshots

/-! How long the cache remembers. From some instant on the directory speaks otherwise than
before: an account is revoked, a member removed, a group renamed. What was heard earlier is
stored for a while yet, by operations that were under way, and served for the time to live of
a row. After that no process answers with it, although nobody has told the cache. -/
namespace SssdOidc.Forgetting
open Model Database Mapping Program Cache Service SssdOidc.System Protocol Conformance History RelyGuarantee Provenance
open SssdOidc.Membership (displays)
open Snapshots (isScim)
open Stability (fourSlots)
open Runs (Reach replay)

variable {b : Build} {config : Config} {d : Source} {since : Int} {delay : Nat} {may : Sys → Label → Prop}
  {db0 : Db} {now0 : Int}

def Changed (d : Source) (since : Int) (s : Sys) : Label → Prop
  | .scim p t reply => since ≤ t → Hears d.Says s (.scim p t reply)
  | _ => True

/- An operation is through with the database `delay` after it heard from the server. -/
def Prompt (delay : Nat) (s : Sys) : Label → Prop
  | .sql p t _ => ∀ e ∈ calledBy s p, isScim e.call = true → t ≤ e.stamp + delay
  | _ => True

instance [∀ s l, Decidable (Hears d.Says s l)] (s : Sys) : (l : Label) → Decidable (Changed d since s l)
  | .scim p t reply => inferInstanceAs (Decidable (since ≤ t → Hears d.Says s (.scim p t reply)))
  | .sql _ _ _ => .isTrue trivial
  | .start _ _ => .isTrue trivial
  | .finish _ => .isTrue trivial
  | .kill _ => .isTrue trivial

instance (s : Sys) : (l : Label) → Decidable (Prompt delay s l)
  | .sql p t _ => inferInstanceAs (Decidable (∀ e ∈ calledBy s p, isScim e.call = true → t ≤ e.stamp + delay))
  | .scim _ _ _ => .isTrue trivial
  | .start _ _ => .isTrue trivial
  | .finish _ => .isTrue trivial
  | .kill _ => .isTrue trivial

theorem receivedSaid {tr : Trace calls} (said : ∀ t q r, (⟨t,.scim q,r⟩ : Event calls) ∈ tr → d.Says q r) :
    (∀ su ∈ receivedUsers tr, su ∈ d.users) ∧ ∀ sg ∈ receivedGroups tr, sg ∈ d.groups := by
  induction tr with
  | nil => exact ⟨fun _ never => (nomatch never),fun _ never => (nomatch never)⟩
  | cons e tr ih =>
    obtain ⟨users,groups⟩ := ih fun t q r inside => said t q r (List.mem_cons_of_mem _ inside)
    rcases e with ⟨t,q | st,r⟩
    · have here := said t q r List.mem_cons_self
      cases q with
      | userByName n =>
        rcases r with e | none | su
        · exact ⟨users,groups⟩
        · exact ⟨users,groups⟩
        · exact ⟨List.forall_mem_cons.mpr ⟨here.1,users⟩,groups⟩
      | groupByName n =>
        rcases r with e | none | sg
        · exact ⟨users,groups⟩
        · exact ⟨users,groups⟩
        · exact ⟨users,List.forall_mem_cons.mpr ⟨here.1,groups⟩⟩
      | listUsers =>
        rcases r with e | sus
        · exact ⟨users,groups⟩
        · exact ⟨fun su inside => (List.mem_append.mp inside).elim (here su) (users su),groups⟩
      | listGroups =>
        rcases r with e | sgs
        · exact ⟨users,groups⟩
        · exact ⟨users,fun sg inside => (List.mem_append.mp inside).elim (here sg) (groups sg)⟩
    · rw [receivedUsersSql,receivedGroupsSql]
      exact ⟨users,groups⟩

theorem todoBegun {e : Event calls} {tr externalId m} (inside : .insertMember externalId m ∈ todo (e :: tr)) :
    .insertMember externalId m ∈ todo tr ∨
      ∃ t g, e = ⟨t,.sql (.insertOrReplaceGroup g),.ok ()⟩ ∧ g.externalId = externalId ∧ m ∈ g.members := by
  unfold todo at inside
  split at inside
  · rename_i t g r rest same
    cases same
    rcases List.mem_cons.mp inside with never | insert
    · cases never
    · obtain ⟨m',listed,same⟩ := List.mem_map.mp insert
      cases same
      exact .inr ⟨t,g,rfl,rfl,listed⟩
  · rename_i same
    cases same
    exact .inl (List.mem_of_mem_tail inside)
  · rename_i same
    cases same
    exact .inl (List.mem_of_mem_tail inside)
  · cases inside

theorem dueReceived {s} (run : Reach (step b config) may (fresh db0 now0) s) :
    ∀ p op tr prog, s.procs p = .running op tr prog → ∀ externalId m, .insertMember externalId m ∈ todo tr →
      ∃ sg ∈ receivedGroups tr, sg.id = externalId ∧ m ∈ displays sg := by
  refine runningInvariant (fun _ _ _ tr _ => ∀ externalId m, .insertMember externalId m ∈ todo tr →
    ∃ sg ∈ receivedGroups tr, sg.id = externalId ∧ m ∈ displays sg) ?_ run
  intro s l s' before inv _ move q op tr prog at' externalId m due
  cases arrived b config move at' with
  | stayed other there => exact inv q op tr prog there externalId m due
  | started mine db => cases due
  | heard t r reply chosen fits there db log => simp [todo] at due
  | @ran tr st k t fault chosen there db log =>
    rw [receivedGroupsSql]
    rcases todoBegun due with old | ⟨t',g,event,rfl,listed⟩
    · exact inv q op tr _ there externalId m old
    · cases congrArg Event.call event
      obtain ⟨-,sg,received,made,-⟩ := (conforms before _ _ _ _ there).1
      rw [made] at listed ⊢
      exact ⟨sg,received,rfl,listed⟩

theorem toldSince {s} (changed : ∀ s l, may s l → Changed d since s l)
    (run : Reach (step b config) may (fresh db0 now0) s) :
    ∀ p op tr prog, s.procs p = .running op tr prog → ∀ t q r, (⟨t,.scim q,r⟩ : Event calls) ∈ tr → since ≤ t →
      d.Says q r := by
  refine runningInvariant (fun _ _ _ tr _ => ∀ t q r, (⟨t,.scim q,r⟩ : Event calls) ∈ tr → since ≤ t → d.Says q r) ?_ run
  intro s l s' _ inv chosen move p op tr prog at' t q r inside late
  cases arrived b config move at' with
  | stayed other there => exact inv p op tr prog there t q r inside late
  | started mine db => cases inside
  | heard t' r' reply label fits there db log =>
    rcases List.mem_cons.mp inside with same | old
    · cases same
      have hears := changed s l chosen
      simp only [label,Changed,Hears,there] at hears
      exact hears late r fits
    · exact inv p op _ _ there t q r old late
  | ran t' fault label there db log =>
    rcases List.mem_cons.mp inside with same | old
    · cases same
    · exact inv p op _ _ there t q r old late

def Past (s : Sys) : Prop := ∀ g ∈ s.db.groups.rows, g.cachedAt ≤ s.now

theorem past {s} (run : Reach (step b config) may (fresh empty now0) s) : Past s := by
  refine moveInvariant Past (fun g never => by cases never) ?_ run
  intro s l s' _ inv _ move g inside
  cases move with
  | start p op free => exact inv g inside
  | scim p t reply op tr query k r at' later fits => exact Int.le_trans (inv g inside) later
  | sql p t fault op tr st k at' later =>
    rcases executeCases t fault s.db st with ⟨e,failed⟩ | ⟨rfl,r,db',ok,done⟩
    · rw [failed] at inside
      exact Int.le_trans (inv g inside) later
    · rw [done] at inside
      rcases groupRows ok inside with old | ⟨g',rfl,rfl⟩
      · exact Int.le_trans (inv g old) later
      · exact Int.le_refl t
  | finish p op tr out at' => exact inv g inside
  | kill p => exact inv g inside

/- The rows written after `limit` are of the directory, and so are the members of such a group. -/
structure Recent (b : Build) (config : Config) (d : Source) (limit : Int) (db : Db) : Prop where
  users : ∀ r ∈ db.users.rows, limit < r.cachedAt → FromUser b config d r.user
  groups : ∀ r ∈ db.groups.rows, limit < r.cachedAt → FromGroup b config d r.group
  members : ∀ m ∈ db.members, ∀ g ∈ db.groups.rows, g.externalId = m.group → limit < g.cachedAt →
    Lists d m.group m.name

theorem storedUser {tr op u} (said : ∀ t q r, (⟨t,.scim q,r⟩ : Event calls) ∈ tr → d.Says q r)
    (allowed : Allowed b config op tr (.sql (.insertOrReplaceUser u))) : FromUser b config d u := by
  obtain ⟨-,su,received,made,uid,gid⟩ := allowed
  exact ⟨su,(receivedSaid said).1 su received,made,Probing.reachesMember uid.walk,Probing.reachesMember gid.walk⟩

theorem storedGroup {tr op} {g : Group} (said : ∀ t q r, (⟨t,.scim q,r⟩ : Event calls) ∈ tr → d.Says q r)
    (allowed : Allowed b config op tr (.sql (.insertOrReplaceGroup g))) : FromGroup b config d (groupRow g 0).group := by
  obtain ⟨-,sg,received,made,gid⟩ := allowed
  refine ⟨⟨sg,(receivedSaid said).2 sg received,?_,?_,Probing.reachesMember gid.walk⟩,fun _ never => nomatch never⟩
  · rw [made]
    rfl
  · rw [made]
    rfl

theorem recentSql {s : Sys} {op tr t st db'} {r : st.Resp} {limit : Int}
    (said : limit < t → ∀ t q r, (⟨t,.scim q,r⟩ : Event calls) ∈ tr → d.Says q r)
    (due : ∀ externalId m, .insertMember externalId m ∈ todo tr →
      ∃ sg ∈ receivedGroups tr, sg.id = externalId ∧ m ∈ displays sg)
    (past : Past s) (later : s.now ≤ t) (allowed : Allowed b config op tr (.sql st))
    (inv : Recent b config d limit s.db) (ok : exec t s.db st = .ok (r,db')) : Recent b config d limit db' := by
  refine ⟨fun row inside young => ?_,fun row inside young => ?_,fun m inside g parent own young => ?_⟩
  · rcases userRows ok inside with old | ⟨u,rfl,rfl⟩
    · exact inv.users row old young
    · exact storedUser (said young) allowed
  · rcases groupRows ok inside with old | ⟨g,rfl,rfl⟩
    · exact inv.groups row old young
    · exact storedGroup (said young) allowed
  · rcases memberRows ok inside with old | rfl
    · rcases groupRows ok parent with known | ⟨g',rfl,rfl⟩
      · exact inv.members m old g known own young
      · -- the cascade has taken the members of the row that was replaced
        cases ok
        obtain ⟨-,kept,cleared,same⟩ := memCascade.mp inside
        exact absurd (same.trans own.symm) (UniqueTable.memClear.mp cleared).2.1
    · rcases groupRows ok parent with known | ⟨g',never,-⟩
      · have recent : limit < t := Int.lt_of_lt_of_le young (Int.le_trans (past g known) later)
        obtain ⟨sg,received,same,listed⟩ := due _ _ (List.mem_of_mem_head? allowed)
        exact ⟨sg,(receivedSaid (said recent)).2 sg received,same,listed⟩
      · cases never

theorem promptSaid {s : Sys} {p op tr t fault st} {k : calls.Resp (.sql st) → Prog calls Outcome}
    (prompt : Prompt delay s (.sql p t fault))
    (at' : s.procs p = .running op tr (.call (.sql st) k))
    (told : ∀ t q r, (⟨t,.scim q,r⟩ : Event calls) ∈ tr → since ≤ t → d.Says q r) (recent : since + delay < t) :
    ∀ t q r, (⟨t,.scim q,r⟩ : Event calls) ∈ tr → d.Says q r := by
  intro t' q r inside
  have soon : t ≤ t' + delay := prompt ⟨t',.scim q,r⟩ (by simpa [calledBy,at'] using inside) rfl
  exact told t' q r inside (by omega)

theorem recent {s} (changed : ∀ s l, may s l → Changed d since s l) (prompt : ∀ s l, may s l → Prompt delay s l)
    (run : Reach (step b config) may (fresh empty now0) s) : Recent b config d (since + delay) s.db := by
  refine moveInvariant (fun s => Recent b config d (since + delay) s.db) ?_ ?_ run
  · exact ⟨fun _ never => (nomatch never),fun _ never => (nomatch never),fun _ never => (nomatch never)⟩
  · intro s l s' before inv chosen move
    cases move with
    | start p op free => exact inv
    | scim p t reply op tr query k r at' later fits => exact inv
    | sql p t fault op tr st k at' later =>
      rcases executeCases t fault s.db st with ⟨e,failed⟩ | ⟨rfl,r,db',ok,done⟩
      · rw [failed]
        exact inv
      · rw [done]
        exact recentSql (promptSaid (prompt _ _ chosen) at' (toldSince changed before _ _ _ _ at'))
          (dueReceived before _ _ _ _ at') (past before) later (conforms before _ _ _ _ at').1 inv ok
    | finish p op tr out at' => exact inv
    | kill p => exact inv

def groupsRead : Event calls → List String
  | ⟨_,.sql (.selectGroupByGid _ _),.ok g⟩ => g.toList.map Group.externalId
  | ⟨_,.sql (.selectGroupByName _ _),.ok g⟩ => g.toList.map Group.externalId
  | ⟨_,.sql (.selectGroupsByMember _ _),.ok gs⟩ => gs.map Group.externalId
  | _ => []

def chosen (tr : Trace calls) : Set String := {externalId | ∃ e ∈ tr, externalId ∈ groupsRead e}

def Relied (b : Build) (config : Config) (d : Source) (e : Event calls) : Prop :=
  (contract b config d untold Set.univ).rely e.call e.resp

theorem reliedChosen {tr : Trace calls} {e : Event calls} (inside : e ∈ tr) (relied : Relied b config d e) :
    (contract b config d untold (chosen tr)).rely e.call e.resp := by
  rcases e with ⟨t,q | st,r⟩
  · exact relied
  · rcases r with error | r
    · trivial
    · cases st with
      | selectGroupByGid gid ttl =>
        exact ⟨fun x here => ⟨(relied.1 x here).1,_,inside,List.mem_map_of_mem (Option.mem_toList.mpr here)⟩,trivial⟩
      | selectGroupByName n ttl =>
        exact ⟨fun x here => ⟨(relied.1 x here).1,_,inside,List.mem_map_of_mem (Option.mem_toList.mpr here)⟩,trivial⟩
      | selectGroupsByMember n ttl =>
        exact ⟨fun x here => ⟨(relied.1 x here).1,_,inside,List.mem_map_of_mem here⟩,trivial⟩
      | _ => exact relied

/- From here on a row of this group is a recent one. -/
structure Settled (limit : Int) (now : Int) (db : Db) (externalId : String) : Prop where
  later : limit < now
  rows : ∀ row ∈ db.groups.rows, row.externalId = externalId → limit < row.cachedAt

theorem settledSql {limit now t : Int} {db db' : Db} {st : Stmt} {r : st.Resp} {externalId} (later : now ≤ t)
    (settled : Settled limit now db externalId) (ok : exec t db st = .ok (r,db')) : Settled limit t db' externalId := by
  have passed := Int.lt_of_lt_of_le settled.later later
  refine ⟨passed,fun row inside same => ?_⟩
  rcases groupRows ok inside with old | ⟨g,rfl,rfl⟩
  · exact settled.rows row old same
  · exact passed

theorem settledMove {s l s'} {limit : Int} {externalId} (settled : Settled limit s.now s.db externalId)
    (move : Move b config s l s') : Settled limit s'.now s'.db externalId := by
  cases move with
  | start p op free => exact settled
  | scim p t reply op tr query k r at' later fits => exact ⟨Int.lt_of_lt_of_le settled.later later,settled.rows⟩
  | sql p t fault op tr st k at' later =>
    rcases executeCases t fault s.db st with ⟨e,failed⟩ | ⟨rfl,r,db',ok,done⟩
    · rw [failed]
      exact ⟨Int.lt_of_lt_of_le settled.later later,settled.rows⟩
    · rw [done]
      exact settledSql later settled ok
  | finish p op tr out at' => exact settled
  | kill p => exact settled

theorem liveRecent {limit t cachedAt : Int} {ttl : Ttl} (late : limit + ttl.seconds ≤ t)
    (alive : live t ttl cachedAt = true) : limit < cachedAt := by
  simp only [live,decide_eq_true_eq] at alive
  omega

theorem rowSettled {s : Sys} {limit t : Int} {row : GroupRow} (past : Past s) (later : s.now ≤ t)
    (inside : row ∈ s.db.groups.rows) (young : limit < row.cachedAt) : Settled limit t s.db row.externalId := by
  refine ⟨Int.lt_of_lt_of_le young (Int.le_trans (past row inside) later),fun other there same => ?_⟩
  rw [UniqueTable.sameKey s.db.groups there inside same]
  exact young

theorem recentUser {γ : Type} [BEq γ] [LawfulBEq γ] {field : UserRow → γ} {x : γ} {db : Db} {limit t : Int} {u : User}
    (late : limit + config.cache.ttlSeconds.seconds ≤ t) (inv : Recent b config d limit db)
    (answer : (db.users.rows.find? fun row => field row == x && live t config.cache.ttlSeconds row.cachedAt).map
      UserRow.user = some u) : ∃ row : UserRow, FromUser b config d u ∧ field row = x ∧ row.user = u := by
  obtain ⟨row,inside,here,alive,rfl⟩ := firstRow answer
  exact ⟨row,inv.users row inside (liveRecent late alive),here,rfl⟩

theorem recentGroup {γ : Type} [BEq γ] [LawfulBEq γ] {field : GroupRow → γ} {x : γ} {s : Sys} {limit t : Int} {g : Group}
    (past : Past s) (later : s.now ≤ t) (late : limit + config.cache.ttlSeconds.seconds ≤ t)
    (inv : Recent b config d limit s.db)
    (answer : (s.db.groups.rows.find? fun row => field row == x && live t config.cache.ttlSeconds row.cachedAt).map
      GroupRow.group = some g) : ∃ row : GroupRow, FromGroup b config d g ∧ field row = x ∧ row.group = g ∧
        Settled limit t s.db g.externalId := by
  obtain ⟨row,inside,here,alive,rfl⟩ := firstRow answer
  have young := liveRecent late alive
  exact ⟨row,inv.groups row inside young,here,rfl,rowSettled past later inside young⟩

theorem recentFound {s : Sys} {op tr} {limit t : Int} {st : Stmt} {r : st.Resp} {db'} (past : Past s) (later : s.now ≤ t)
    (late : limit + config.cache.ttlSeconds.seconds ≤ t) (inv : Recent b config d limit s.db)
    (allowed : Allowed b config op tr (.sql st))
    (known : ∀ externalId, st = .selectMembers externalId → Settled limit s.now s.db externalId)
    (ok : exec t s.db st = .ok (r,db')) : Found b config d Set.univ st r ∧
      ∀ externalId ∈ groupsRead ⟨t,.sql st,.ok r⟩, Settled limit t db' externalId := by
  have nothing {r : Except SqlError st.Resp} (none : groupsRead ⟨t,.sql st,r⟩ = []) :
      ∀ externalId ∈ groupsRead ⟨t,.sql st,r⟩, Settled limit t db' externalId :=
    fun externalId inside => by rw [none] at inside; cases inside
  cases st with
  | selectUserByUid uid ttl =>
    refine ⟨?_,nothing rfl⟩
    obtain ⟨-,rfl⟩ := allowed
    cases ok
    intro u answer
    obtain ⟨row,sourced,here,rfl⟩ := recentUser late inv answer
    exact ⟨sourced,here⟩
  | selectUserByLogin n ttl =>
    refine ⟨?_,nothing rfl⟩
    obtain ⟨-,rfl⟩ := allowed
    cases ok
    intro u answer
    obtain ⟨row,sourced,here,rfl⟩ := recentUser late inv answer
    exact ⟨sourced,here⟩
  | selectGroupByGid gid ttl =>
    obtain ⟨-,rfl⟩ := allowed
    cases ok
    refine ⟨fun g answer => ?_,fun externalId answer => ?_⟩
    · obtain ⟨row,sourced,here,rfl,-⟩ := recentGroup past later late inv answer
      exact ⟨⟨sourced,here⟩,trivial⟩
    · obtain ⟨g,found,rfl⟩ := List.mem_map.mp answer
      obtain ⟨row,-,-,rfl,settled⟩ := recentGroup past later late inv (Option.mem_toList.mp found)
      exact settled
  | selectGroupByName n ttl =>
    obtain ⟨-,rfl⟩ := allowed
    cases ok
    refine ⟨fun g answer => ?_,fun externalId answer => ?_⟩
    · obtain ⟨row,sourced,here,rfl,-⟩ := recentGroup past later late inv answer
      exact ⟨⟨sourced,here⟩,trivial⟩
    · obtain ⟨g,found,rfl⟩ := List.mem_map.mp answer
      obtain ⟨row,-,-,rfl,settled⟩ := recentGroup past later late inv (Option.mem_toList.mp found)
      exact settled
  | selectGroupsByMember n ttl =>
    obtain ⟨-,rfl⟩ := allowed
    cases ok
    refine ⟨fun g answer => ?_,fun externalId answer => ?_⟩
    · obtain ⟨row,inside,rfl⟩ := List.mem_map.mp answer
      obtain ⟨there,member,alive⟩ := memGroupsOf.mp inside
      have young := liveRecent late alive
      exact ⟨⟨inv.groups row there young,inv.members _ member row there rfl young⟩,trivial⟩
    · obtain ⟨g,found,rfl⟩ := List.mem_map.mp answer
      obtain ⟨row,inside,rfl⟩ := List.mem_map.mp found
      obtain ⟨there,-,alive⟩ := memGroupsOf.mp inside
      exact rowSettled past later there (liveRecent late alive)
  | selectMembers externalId =>
    refine ⟨?_,nothing rfl⟩
    cases ok
    intro n answer
    have there := memMembersOf.mp answer
    obtain ⟨g,parent,own⟩ := s.db.parents _ there
    exact inv.members _ there g parent own ((known _ rfl).rows g parent own)
  | _ => exact ⟨trivial,nothing rfl⟩

theorem reading {s} (changed : ∀ s l, may s l → Changed d since s l) (prompt : ∀ s l, may s l → Prompt delay s l)
    (run : Reach (step b config) may (fresh empty now0) s) : ∀ p op tr prog, s.procs p = .running op tr prog →
      (∀ e ∈ tr, since + delay + config.cache.ttlSeconds.seconds ≤ e.stamp) →
      (∀ e ∈ tr, Relied b config d e) ∧ ∀ externalId ∈ chosen tr, Settled (since + delay) s.now s.db externalId := by
  refine runningInvariant (fun s _ _ tr _ => (∀ e ∈ tr, since + delay + config.cache.ttlSeconds.seconds ≤ e.stamp) →
    (∀ e ∈ tr, Relied b config d e) ∧ ∀ externalId ∈ chosen tr, Settled (since + delay) s.now s.db externalId) ?_ run
  intro s l s' before inv label move p op tr prog at' late
  cases arrived b config move at' with
  | stayed other there =>
    obtain ⟨relied,settled⟩ := inv p op tr prog there late
    exact ⟨relied,fun externalId inside => settledMove (settled externalId inside) move⟩
  | started mine db =>
    refine ⟨fun _ never => (nomatch never),?_⟩
    rintro externalId ⟨e,never,-⟩
    cases never
  | @heard tr query k t r reply named fits there db log =>
    obtain ⟨relied,settled⟩ := inv p op tr _ there fun e inside => late e (List.mem_cons_of_mem _ inside)
    refine ⟨List.forall_mem_cons.mpr ⟨?_,relied⟩,?_⟩
    · have hears := changed s l label
      have now : since ≤ t := by
        have after : since + delay + config.cache.ttlSeconds.seconds ≤ t := late _ List.mem_cons_self
        omega
      simp only [named,Changed,Hears,there] at hears
      exact hears now r fits
    · rintro externalId ⟨e,inside,among⟩
      rcases List.mem_cons.mp inside with rfl | old
      · cases among
      · exact settledMove (settled externalId ⟨e,old,among⟩) move
  | @ran tr st k t fault named there db log =>
    obtain ⟨relied,settled⟩ := inv p op tr _ there fun e inside => late e (List.mem_cons_of_mem _ inside)
    have old : ∀ externalId ∈ chosen tr, Settled (since + delay) s'.now s'.db externalId :=
      fun externalId inside => settledMove (settled externalId inside) move
    have now : s.now ≤ t ∧ s'.now = t := by
      subst named
      cases move with
      | sql _ _ _ _ _ _ _ at' later => exact ⟨later,rfl⟩
    have rule := followsRun (fun op => ensuresFollows fun _ => @operationEnsures b config d untold (chosen tr) op) before
    have known : ∀ externalId, st = .selectMembers externalId → Settled (since + delay) s.now s.db externalId := by
      rintro externalId rfl
      exact settled externalId ((rule _ _ _ _ there).1 fun e inside => reliedChosen inside (relied e inside))
    rcases executeCases t fault s.db st with ⟨e,failed⟩ | ⟨rfl,r,db',ok,done⟩
    · rw [failed]
      refine ⟨List.forall_mem_cons.mpr ⟨trivial,relied⟩,?_⟩
      rintro externalId ⟨e',inside,among⟩
      rcases List.mem_cons.mp inside with rfl | there'
      · simp [groupsRead] at among
      · exact old externalId ⟨e',there',among⟩
    · rw [done] at db ⊢
      obtain ⟨found,news⟩ := recentFound (past before) now.1 (late _ List.mem_cons_self) (recent changed prompt before)
        (conforms before _ _ _ _ there).1 known ok
      refine ⟨List.forall_mem_cons.mpr ⟨⟨found,trivial⟩,relied⟩,?_⟩
      rintro externalId ⟨e',inside,among⟩
      rcases List.mem_cons.mp inside with rfl | there'
      · rw [db,now.2]
        exact news externalId among
      · exact old externalId ⟨e',there',among⟩

theorem staleForgotten (b : Build) (config : Config) (d : Source) (since : Int) (delay : Nat) (now : Int) (s : Sys)
    (run : Reach (step b config) (fun s l => Changed d since s l ∧ Prompt delay s l) (fresh empty now) s)
    (p : Nat) (op : Op) (tr : Trace calls) (out : Output) (at' : s.procs p = .running op tr (.ret (.ok out)))
    (late : ∀ e ∈ tr, since + delay + config.cache.ttlSeconds.seconds ≤ e.stamp) :
    Sourced b config d (Told tr) out ∧ Fitting b config d (Told tr) op out := by
  have relied := (reading (fun _ _ => And.left) (fun _ _ => And.right) run p op tr _ at' late).1
  exact followsRun (fun op => ensuresFollows fun _ => @operationEnsures b config d (Told tr) Set.univ op) run p op tr _ at'
    fun e inside => reliedTold inside (relied e inside)

def revoked : ScimUser := { ann with active := some false }

def afterwards : Source := ⟨{revoked},∅,Eq,fun _ => rfl⟩

instance : DecidablePred (· ∈ afterwards.users) := fun su => inferInstanceAs (Decidable (su = revoked))
instance : DecidablePred (· ∈ afterwards.groups) := fun _ => .isFalse id
instance (m n : String) : Decidable (afterwards.alike m n) := inferInstanceAs (Decidable (m = n))

def revoking : List Label := [
  .start 0 (.lookupUserByName "ann"),.scim 0 0 (.user (some ann)),.sql 0 1 false,.sql 0 2 false,.sql 0 3 false,.finish 0,
  .start 1 (.checkUserActive "ann"),.scim 1 100 (.user (some revoked)),
  .sql 1 101 false,.sql 1 101 false,.sql 1 101 false,.finish 1,
  .start 2 (.lookupUserByName "ann"),.scim 2 3650 (.error .http),.sql 2 3650 false]

def returned : Proc → Option (Op × List Int × Output)
  | .running op tr (.ret (.ok out)) => some (op,tr.map Event.stamp,out)
  | _ => none

theorem returnedSound {x op stamps out} (same : returned x = some (op,stamps,out)) :
    ∃ tr, x = .running op tr (.ret (.ok out)) ∧ tr.map Event.stamp = stamps := by
  unfold returned at same
  split at same <;> cases same
  exact ⟨_,rfl,rfl⟩

theorem annForgotten : ∃ s u, replay (step release fourSlots)
      (fun s l => Changed afterwards 5 s l ∧ Prompt 10 s l) (fresh empty 0) revoking = some s ∧
    (∃ tr, s.procs 2 = .running (.lookupUserByName "ann") tr (.ret (.ok (.user (some u))))) ∧
    u.active = false ∧ FromUser release fourSlots afterwards u := by
  have ends : (replay (step release fourSlots) (fun s l => Changed afterwards 5 s l ∧ Prompt 10 s l) (fresh empty 0)
      revoking).map (fun s => returned (s.procs 2)) = some (some (.lookupUserByName "ann",[3650,3650],
        .user (some ⟨"u2","ann",1001,1002,"Ann","/home/ann","/bin/bash",false⟩))) := by decide +kernel
  obtain ⟨s,reached,back⟩ := Option.map_eq_some_iff.mp ends
  obtain ⟨tr,at',stamps⟩ := returnedSound back
  have late : ∀ e ∈ tr, 5 + (10 : Nat) + fourSlots.cache.ttlSeconds.seconds ≤ e.stamp := by
    intro e inside
    have among : e.stamp ∈ [3650,3650] := stamps ▸ List.mem_map_of_mem inside
    have same : e.stamp = 3650 := by simpa using among
    rw [same]
    decide
  have answered := staleForgotten release fourSlots afterwards 5 10 0 s (Runs.replayReach reached) 2 _ tr _ at' late
  exact ⟨s,_,reached,⟨tr,at'⟩,rfl,answered.1 _ rfl⟩

end SssdOidc.Forgetting
