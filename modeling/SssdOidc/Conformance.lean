import SssdOidc.Protocol

/-! Every operation keeps to the order of `Protocol`, and what it has done when it
returns. One rule for each function of the source, in the order of the source. -/
namespace SssdOidc.Conformance
open Model Database Mapping Program Cache Service Protocol
open Probing (Reaches)

def Probes (more : Trace calls) : Prop := ∀ e ∈ more, ∃ c x externalId, e.call = .sql (.selectOwner c x externalId)

theorem probesNil : Probes [] := by simp [Probes]

theorem probesCons {t c x externalId r more} (rest : Probes more) :
    Probes ((⟨t,.sql (.selectOwner c x externalId),r⟩ : Event calls) :: more) := by
  intro e inside
  rcases List.mem_cons.mp inside with rfl | later
  · exact ⟨c,x,externalId,rfl⟩
  · exact rest e later

theorem probesAppend {more more'} (left : Probes more) (right : Probes more') : Probes (more ++ more') := by
  intro e inside
  exact (List.mem_append.mp inside).elim (left e) (right e)

theorem probesRecent {more tr} (probes : Probes more) : recent (more ++ tr) = more ++ recent tr := by
  induction more with
  | nil => rfl
  | cons e more ih =>
    obtain ⟨c,x,externalId,same⟩ := probes e List.mem_cons_self
    have quiet : writes e.call = false := by rw [same]; rfl
    rw [List.cons_append,recentRead quiet,ih fun e inside => probes e (List.mem_cons_of_mem _ inside)]
    rfl

theorem probesTodo {more tr} (probes : Probes more) (idle : todo tr = []) : todo (more ++ tr) = [] := by
  cases more with
  | nil => exact idle
  | cons e more =>
    obtain ⟨t,call,r⟩ := e
    obtain ⟨c,x,externalId,same⟩ := probes _ List.mem_cons_self
    cases same
    simp [todo]

theorem probesReceivedUsers {more tr} (probes : Probes more) : receivedUsers (more ++ tr) = receivedUsers tr := by
  induction more with
  | nil => rfl
  | cons e more ih =>
    obtain ⟨t,call,r⟩ := e
    obtain ⟨c,x,externalId,same⟩ := probes _ List.mem_cons_self
    cases same
    exact receivedUsersSql.trans (ih fun e inside => probes e (List.mem_cons_of_mem _ inside))

theorem probesReceivedGroups {more tr} (probes : Probes more) : receivedGroups (more ++ tr) = receivedGroups tr := by
  induction more with
  | nil => rfl
  | cons e more ih =>
    obtain ⟨t,call,r⟩ := e
    obtain ⟨c,x,externalId,same⟩ := probes _ List.mem_cons_self
    cases same
    exact receivedGroupsSql.trans (ih fun e inside => probes e (List.mem_cons_of_mem _ inside))

theorem probesPassed {c externalId more tr x} (probes : Probes more) (passed : Passed c externalId tr x) :
    Passed c externalId (more ++ tr) x := by
  obtain ⟨t,inside⟩ := passed
  exact ⟨t,by rw [probesRecent probes]; exact List.mem_append_right _ inside⟩

variable {b : Build} {config : Config} {op : Op}

theorem probesReserved {c externalId more tr x} (probes : Probes more)
    (reserved : Reserved b config c externalId tr x) : Reserved b config c externalId (more ++ tr) x := by
  obtain ⟨t,r,other,inside⟩ := reserved.claimed
  exact ⟨Probing.reachesMono (fun _ => probesPassed probes) reserved.walk,t,r,other,
    by rw [probesRecent probes]; exact List.mem_append_right _ inside⟩

theorem followsSql {α : Type} {allowed done} {tr : Trace calls} {st : Stmt} {f : st.Resp → Act CacheError α}
    (may : allowed tr (.sql st))
    (fails : ∀ t e, done (⟨t,.sql st,.error e⟩ :: tr) (.error (.error (.sqlite e))))
    (ok : ∀ t r, Follows allowed done (f r) (⟨t,.sql st,.ok r⟩ :: tr)) :
    Follows allowed done (sql st >>= f : Act CacheError α) tr := by
  refine followsAttempt ⟨may,fun t r => ?_⟩
  cases r with
  | error e => exact fails t e
  | ok r => exact ok t r

theorem followsSqlLast {allowed} {st : Stmt} {done : Trace calls → Except (Halt CacheError) st.Resp → Prop}
    {tr : Trace calls} (may : allowed tr (.sql st))
    (fails : ∀ t e, done (⟨t,.sql st,.error e⟩ :: tr) (.error (.error (.sqlite e))))
    (ok : ∀ t r, done (⟨t,.sql st,.ok r⟩ :: tr) (.ok r)) : Follows allowed done (sql st) tr := by
  refine ⟨may,fun t r => ?_⟩
  cases r with
  | error e => exact fails t e
  | ok r => exact ok t r

theorem followsCached {α : Type} {allowed done} {p : Act CacheError α} {tr : Trace calls}
    (ok : Follows allowed (fun tr r => done tr (cacheResult r)) p tr) : Follows allowed done (cached p) tr :=
  followsBind ok

theorem followsCaught {α : Type} {allowed done} {p : Act ServiceError α} {tr : Trace calls}
    (ok : Follows allowed (fun tr r => done tr (caught r)) p tr) : Follows allowed done (attempt p) tr :=
  followsBind ok

theorem followsAsk {α : Type} {allowed done} {tr : Trace calls} {q : ScimQuery}
    {f : Except ScimError q.Resp → Act ServiceError α} (may : allowed tr (.scim q))
    (ok : ∀ t r, Follows allowed done (f r) (⟨t,.scim q,r⟩ :: tr)) :
    Follows allowed done (ask q >>= f : Act ServiceError α) tr :=
  followsAttempt ⟨may,ok⟩

def Resolved (b : Build) (config : Config) (c : Column) (externalId : String) (tr tr' : Trace calls)
    (r : Except (Halt CacheError) UInt32) : Prop :=
  ∃ more, Probes more ∧ tr' = more ++ tr ∧
    match r with
    | .ok x => Reserved b config c externalId tr' x
    | .error (.error .rangeExhausted) => Exhausted b config c externalId tr'
    | .error (.error (.sqlite _)) => Failed tr'
    | .error .panic => True

theorem followsWalk {c : Column} {externalId : String} {tr : Trace calls} {stop : Halt CacheError}
    (idle : todo tr = []) (stops : stop = .panic ∨ (stop = .error .rangeExhausted ∧ slots b config c externalId ≠ []))
    (rest : List UInt32) {more front} (probes : Probes more) (split : slots b config c externalId = front ++ rest)
    (passed : ∀ x ∈ front, Passed c externalId (more ++ tr) x) :
    Follows (Allowed b config op) (Resolved b config c externalId tr)
      (walk (fun x => sql (.selectOwner c x externalId)) stop rest) (more ++ tr) := by
  induction rest generalizing more front with
  | nil =>
    refine ⟨more,probes,rfl,?_⟩
    rcases stops with rfl | ⟨rfl,full⟩
    · trivial
    · refine ⟨full,fun x inside => passed x ?_⟩
      simpa [split] using inside
  | cons x rest ih =>
    refine followsSql ⟨probesTodo probes idle,?_⟩ ?_ ?_
    · rw [split]
      exact Probing.reachesPast passed .here
    · intro t e
      exact ⟨_,probesCons probes,rfl,t,_,e,List.mem_cons_self⟩
    · intro t r
      have probes' : Probes (⟨t,.sql (.selectOwner c x externalId),.ok r⟩ :: more) := probesCons probes
      have old : ∀ y ∈ front, Passed c externalId (⟨t,.sql (.selectOwner c x externalId),.ok r⟩ :: (more ++ tr)) y :=
        fun y inside => probesPassed (probesCons probesNil) (passed y inside)
      have here : (⟨t,.sql (.selectOwner c x externalId),.ok r⟩ : Event calls) ∈
          recent (⟨t,.sql (.selectOwner c x externalId),.ok r⟩ :: (more ++ tr)) := by
        rw [recentRead rfl]
        exact List.mem_cons_self
      have stopHere (other : r ≠ some false) :
          Resolved b config c externalId tr (⟨t,.sql (.selectOwner c x externalId),.ok r⟩ :: (more ++ tr)) (.ok x) := by
        refine ⟨_,probes',rfl,?_,t,r,other,here⟩
        rw [split]
        exact Probing.reachesPast old .here
      match r with
      | none => exact stopHere (by simp)
      | some true => exact stopHere (by simp)
      | some false =>
        refine ih probes' (show _ = (front ++ [x]) ++ rest by simp [split]) ?_
        intro y inside
        rcases List.mem_append.mp inside with before | last
        · exact old y before
        · rw [List.mem_singleton.mp last]
          exact ⟨t,here⟩

theorem resolveColumnWalk (c : Column) (externalId : String) :
    resolveColumn b config c externalId = walk (fun x => sql (.selectOwner c x externalId))
      (pathEnd b (rangeMin config c) (rangeSize config c) .rangeExhausted externalId)
      (slots b config c externalId) := by
  cases c <;> exact resolveIdWalk externalId

theorem followsResolve (c : Column) (externalId : String) {tr : Trace calls} (idle : todo tr = []) :
    Follows (Allowed b config op) (Resolved b config c externalId tr) (resolveColumn b config c externalId) tr := by
  rw [resolveColumnWalk]
  refine followsWalk idle ?_ _ probesNil (List.nil_append _).symm (by simp)
  cases ends : pathEnd b (rangeMin config c) (rangeSize config c) CacheError.rangeExhausted externalId with
  | panic => exact .inl rfl
  | error e =>
    obtain ⟨same,full⟩ := pathEndExhausted ends
    exact .inr ⟨same ▸ rfl,full⟩

def Unresolved (b : Build) (config : Config) (su : ScimUser) (tr : Trace calls) : Halt ServiceError → Prop
  | .error _ => Failed tr ∨ Exhausted b config .uid su.id tr ∨ Exhausted b config .gid (gidExternal su) tr
  | .panic => True

def Converted (b : Build) (config : Config) (su : ScimUser) (tr tr' : Trace calls)
    (r : Except (Halt ServiceError) User) : Prop :=
  ∃ more, Probes more ∧ tr' = more ++ tr ∧
    match r with
    | .ok u => u = userModel config su u.uid u.gid ∧ Reserved b config .uid su.id tr' u.uid ∧
        Reserved b config .gid (gidExternal su) tr' u.gid
    | .error h => Unresolved b config su tr' h

theorem resolveFails {c externalId tr tr'} {su : ScimUser} {h}
    (failed : Resolved b config c externalId tr tr' (.error h))
    (which : (c = .uid ∧ externalId = su.id) ∨ (c = .gid ∧ externalId = gidExternal su)) :
    Converted b config su tr tr' (.error (cacheHalt h)) := by
  obtain ⟨more,probes,same,why⟩ := failed
  refine ⟨more,probes,same,?_⟩
  match h with
  | .error (.sqlite _) => exact .inl why
  | .error .rangeExhausted =>
    rcases which with ⟨rfl,rfl⟩ | ⟨rfl,rfl⟩
    · exact .inr (.inl why)
    · exact .inr (.inr why)
  | .panic => trivial

theorem followsToModel (su : ScimUser) {tr : Trace calls} (idle : todo tr = []) :
    Follows (Allowed b config op) (Converted b config su tr) (scimUserToModel b config su) tr := by
  refine followsAttempt (followsCached (followsMono (followsResolve .uid su.id idle) ?_))
  intro tr1 r resolved
  match r with
  | .error h => exact resolveFails resolved (.inl ⟨rfl,rfl⟩)
  | .ok uid =>
    obtain ⟨more,probes,rfl,uidReserved⟩ := resolved
    refine followsAttempt (followsCached (followsMono (followsResolve .gid (gidExternal su) (probesTodo probes idle)) ?_))
    intro tr2 r resolved
    match r with
    | .error h =>
      obtain ⟨more',probes',rfl,why⟩ := resolveFails resolved (.inr ⟨rfl,rfl⟩)
      exact ⟨more' ++ more,probesAppend probes' probes,by simp,why⟩
    | .ok gid =>
      obtain ⟨more',probes',rfl,gidReserved⟩ := resolved
      exact ⟨more' ++ more,probesAppend probes' probes,by simp,rfl,probesReserved probes' uidReserved,gidReserved⟩

structure Grown (tr tr' : Trace calls) : Prop where
  users : receivedUsers tr' = receivedUsers tr
  groups : receivedGroups tr' = receivedGroups tr
  grows : ∃ more, tr' = more ++ tr

structure Kept (tr tr' : Trace calls) : Prop extends Grown tr tr' where
  idle : todo tr' = []

theorem grownRefl (tr : Trace calls) : Grown tr tr := ⟨rfl,rfl,[],rfl⟩

theorem grownTrans {tr tr1 tr2} (left : Grown tr tr1) (right : Grown tr1 tr2) : Grown tr tr2 := by
  obtain ⟨more,rfl⟩ := left.grows
  obtain ⟨more',rfl⟩ := right.grows
  exact ⟨right.users.trans left.users,right.groups.trans left.groups,more' ++ more,by simp⟩

theorem keptTrans {tr tr1 tr2} (left : Kept tr tr1) (right : Kept tr1 tr2) : Kept tr tr2 :=
  ⟨grownTrans left.toGrown right.toGrown,right.idle⟩

theorem grownSql {t st r tr tr'} (grown : Grown tr tr') : Grown tr (⟨t,.sql st,r⟩ :: tr') :=
  grownTrans grown ⟨receivedUsersSql,receivedGroupsSql,[_],rfl⟩

theorem keptProbes {more tr} (probes : Probes more) (idle : todo tr = []) : Kept tr (more ++ tr) :=
  ⟨⟨probesReceivedUsers probes,probesReceivedGroups probes,more,rfl⟩,probesTodo probes idle⟩

def Refreshed (b : Build) (config : Config) (su : ScimUser) (tr tr' : Trace calls)
    (r : Except (Halt ServiceError) User) : Prop :=
  Kept tr tr' ∧
    match r with
    | .ok u => u = userModel config su u.uid u.gid ∧
        ∃ t rest, tr' = (⟨t,.sql (.insertOrReplaceUser u),.ok ()⟩ : Event calls) :: rest
    | .error h => Unresolved b config su tr' h

theorem followsRefreshUser {su : ScimUser} {tr : Trace calls} (idle : todo tr = [])
    (received : su ∈ receivedUsers tr) :
    Follows (Allowed b config op) (Refreshed b config su tr) (refreshUser b config su) tr := by
  refine followsAttempt (followsMono (followsToModel su idle) ?_)
  intro tr1 r converted
  obtain ⟨more,probes,rfl,result⟩ := converted
  have kept := keptProbes probes idle
  match r with
  | .error h => exact ⟨kept,result⟩
  | .ok u =>
    obtain ⟨same,uidReserved,gidReserved⟩ := result
    refine followsAttempt (followsCached (followsSqlLast ?_ ?_ ?_))
    · exact ⟨kept.idle,su,by rwa [kept.users],same,uidReserved,gidReserved⟩
    · intro t e
      exact ⟨⟨grownSql kept.toGrown,by simp [todo]⟩,.inl ⟨t,_,e,List.mem_cons_self⟩⟩
    · intro t r
      exact ⟨⟨grownSql kept.toGrown,by simp [todo]⟩,same,t,_,rfl⟩

theorem followsInsertMembers {externalId : String} (names : List String) {start tr : Trace calls}
    (grown : Grown start tr) (next : todo tr = names.map (.insertMember externalId)) :
    Follows (Allowed b config op) (fun tr' _ => Kept start tr') (insertMembers externalId names) tr := by
  induction names generalizing tr with
  | nil => exact ⟨grown,next⟩
  | cons name names ih =>
    refine followsSql ?_ ?_ ?_
    · simp [Allowed,next]
    · intro t e
      exact ⟨grownSql grown,by simp [todo]⟩
    · intro t r
      exact ih (grownSql grown) (by simp [todo,next])

theorem followsStoreGroup {g : Group} {start tr : Trace calls} (grown : Grown start tr)
    (may : Allowed b config op tr (.sql (.insertOrReplaceGroup g))) :
    Follows (Allowed b config op) (fun tr' _ => Kept start tr') (storeGroup g) tr := by
  refine followsSql may ?_ ?_
  · intro t e
    exact ⟨grownSql grown,by simp [todo]⟩
  · intro t r
    refine followsSql (by simp [Allowed,todo]) ?_ ?_
    · intro t e
      exact ⟨grownSql (grownSql grown),by simp [todo]⟩
    · intro t r
      exact followsInsertMembers g.members (grownSql (grownSql grown)) (by simp [todo])

def ConvertedGroup (b : Build) (config : Config) (sg : ScimGroup) (tr tr' : Trace calls)
    (r : Except (Halt ServiceError) Group) : Prop :=
  ∃ more, Probes more ∧ tr' = more ++ tr ∧
    ∀ g, r = .ok g → g = groupModel sg g.gid ∧ Reserved b config .gid sg.id tr' g.gid

theorem followsGroupToModel (sg : ScimGroup) {tr : Trace calls} (idle : todo tr = []) :
    Follows (Allowed b config op) (ConvertedGroup b config sg tr) (scimGroupToModel b config sg) tr := by
  refine followsAttempt (followsCached (followsMono (followsResolve .gid sg.id idle) ?_))
  intro tr1 r resolved
  obtain ⟨more,probes,same,result⟩ := resolved
  match r with
  | .error h => exact ⟨more,probes,same,fun _ never => nomatch never⟩
  | .ok gid =>
    refine ⟨more,probes,same,?_⟩
    intro g ok
    cases ok
    exact ⟨rfl,result⟩

theorem followsRefreshGroup {sg : ScimGroup} {tr : Trace calls} (idle : todo tr = [])
    (received : sg ∈ receivedGroups tr) :
    Follows (Allowed b config op) (fun tr' _ => Kept tr tr') (refreshGroup b config sg) tr := by
  refine followsAttempt (followsMono (followsGroupToModel sg idle) ?_)
  intro tr1 r converted
  obtain ⟨more,probes,rfl,result⟩ := converted
  have kept := keptProbes probes idle
  match r with
  | .error h => exact kept
  | .ok g =>
    obtain ⟨same,reserved⟩ := result g rfl
    refine followsAttempt (followsCached (followsMono (followsStoreGroup kept.toGrown ?_) ?_))
    · exact ⟨kept.idle,sg,by rwa [kept.groups],same,reserved⟩
    · intro tr2 r kept'
      match r with
      | .error h => exact kept'
      | .ok _ => exact kept'

/- Where a returned user comes from. An enumeration returns one also where the store has failed. -/
def Sourced (op : Op) (tr : Trace calls) (u : User) : Prop :=
  (∃ t r, (r = .ok () ∨ op = .setpwent) ∧ (⟨t,.sql (.insertOrReplaceUser u),r⟩ : Event calls) ∈ tr) ∨
  (∃ t uid ttl, (⟨t,.sql (.selectUserByUid uid ttl),.ok (some u)⟩ : Event calls) ∈ tr) ∨
  (∃ t n ttl, (⟨t,.sql (.selectUserByLogin n ttl),.ok (some u)⟩ : Event calls) ∈ tr)

theorem sourcedGrown {tr tr' u} (grown : Grown tr tr') (sourced : Sourced op tr u) : Sourced op tr' u := by
  obtain ⟨more,rfl⟩ := grown.grows
  rcases sourced with ⟨t,r,told,h⟩ | ⟨t,uid,ttl,h⟩ | ⟨t,n,ttl,h⟩
  · exact .inl ⟨t,r,told,List.mem_append_right _ h⟩
  · exact .inr (.inl ⟨t,uid,ttl,List.mem_append_right _ h⟩)
  · exact .inr (.inr ⟨t,n,ttl,List.mem_append_right _ h⟩)

def Listed {ε : Type} (op : Op) (tr tr' : Trace calls) (r : Except ε (List User)) : Prop :=
  Kept tr tr' ∧ ∀ us, r = .ok us → ∀ u ∈ us, Sourced op tr' u

theorem listedCons {ε : Type} {tr tr1 tr2 u} {r : Except ε (List User)} (kept : Kept tr tr1) (sourced : Sourced op tr1 u)
    (rest : Listed op tr1 tr2 r) : Listed op tr tr2 (r.map (fun us => u :: us)) := by
  refine ⟨keptTrans kept rest.1,?_⟩
  intro us same x inside
  match r with
  | .error h => cases same
  | .ok us' =>
    cases same
    rcases List.mem_cons.mp inside with rfl | later
    · exact sourcedGrown rest.1.toGrown sourced
    · exact rest.2 us' rfl x later

theorem followsRefreshUsers (sus : List ScimUser) {tr : Trace calls} (idle : todo tr = [])
    (received : ∀ su ∈ sus, su ∈ receivedUsers tr) :
    Follows (Allowed b config op) (Listed op tr) (refreshUsers b config sus) tr := by
  induction sus generalizing tr with
  | nil => exact ⟨⟨grownRefl tr,idle⟩,by rintro us ⟨⟩; simp⟩
  | cons su sus ih =>
    refine followsAttempt (followsMono (followsRefreshUser idle (received su List.mem_cons_self)) ?_)
    intro tr1 r refreshed
    obtain ⟨kept,result⟩ := refreshed
    match r with
    | .error h => exact ⟨kept,fun us never => nomatch never⟩
    | .ok u =>
      obtain ⟨-,t,rest,rfl⟩ := result
      have onward : ∀ su ∈ sus, su ∈ receivedUsers (⟨t,.sql (.insertOrReplaceUser u),.ok ()⟩ :: rest) :=
        fun su inside => kept.users ▸ received su (List.mem_cons_of_mem _ inside)
      refine followsMap (f := fun us => u :: us) (followsMono (ih kept.idle onward) ?_)
      intro tr2 r listed
      exact listedCons kept (.inl ⟨t,_,.inl rfl,List.mem_cons_self⟩) listed

theorem followsRefreshGroups (sgs : List ScimGroup) {tr : Trace calls} (idle : todo tr = [])
    (received : ∀ sg ∈ sgs, sg ∈ receivedGroups tr) :
    Follows (Allowed b config op) (fun tr' _ => Kept tr tr') (refreshGroups b config sgs) tr := by
  induction sgs generalizing tr with
  | nil => exact ⟨grownRefl tr,idle⟩
  | cons sg sgs ih =>
    refine followsAttempt (followsMono (followsRefreshGroup idle (received sg List.mem_cons_self)) ?_)
    intro tr1 r kept
    match r with
    | .error h => exact kept
    | .ok g =>
      have onward : ∀ sg ∈ sgs, sg ∈ receivedGroups tr1 :=
        fun sg inside => kept.groups ▸ received sg (List.mem_cons_of_mem _ inside)
      refine followsMap (f := fun gs => g :: gs) (followsMono (ih kept.idle onward) ?_)
      intro tr2 r kept'
      exact keptTrans kept kept'

theorem followsEnumerateUsers (sus : List ScimUser) {tr : Trace calls} (idle : todo tr = [])
    (received : ∀ su ∈ sus, su ∈ receivedUsers tr) :
    Follows (Allowed b config .setpwent) (Listed .setpwent tr) (enumerateUsers b config sus) tr := by
  induction sus generalizing tr with
  | nil => exact ⟨⟨grownRefl tr,idle⟩,by rintro us ⟨⟩; simp⟩
  | cons su sus ih =>
    refine followsAttempt (followsCaught (followsMono (followsToModel su idle) ?_))
    intro tr1 r converted
    obtain ⟨more,probes,rfl,result⟩ := converted
    have kept := keptProbes probes idle
    have later {tr'} (grown : Grown tr tr') : ∀ su ∈ sus, su ∈ receivedUsers tr' :=
      fun su inside => grown.users ▸ received su (List.mem_cons_of_mem _ inside)
    match r with
    | .error .panic => exact ⟨kept,fun us never => nomatch never⟩
    | .error (.error e) =>
      refine followsMono (ih kept.idle (later kept.toGrown)) ?_
      intro tr2 r listed
      exact ⟨keptTrans kept listed.1,listed.2⟩
    | .ok u =>
      obtain ⟨same,uidReserved,gidReserved⟩ := result
      have may : Allowed b config .setpwent (more ++ tr) (.sql (.insertOrReplaceUser u)) :=
        ⟨kept.idle,su,by rw [kept.users]; exact received su List.mem_cons_self,same,uidReserved,gidReserved⟩
      -- whether the store succeeds or not, the loop goes on with the user
      have goesOn (t : Int) (r : Except SqlError Unit) :
          Follows (Allowed b config .setpwent) (Listed .setpwent tr)
            ((fun us => u :: us) <$> enumerateUsers b config sus : Act ServiceError (List User))
            (⟨t,.sql (.insertOrReplaceUser u),r⟩ :: (more ++ tr)) := by
        have grown : Grown tr (⟨t,.sql (.insertOrReplaceUser u),r⟩ :: (more ++ tr)) := grownSql kept.toGrown
        have stored : Kept tr (⟨t,.sql (.insertOrReplaceUser u),r⟩ :: (more ++ tr)) :=
          ⟨grown,by cases r <;> simp [todo]⟩
        refine followsMap (followsMono (ih stored.idle (later grown)) ?_)
        intro tr2 r' listed
        exact listedCons stored (.inl ⟨t,r,.inr rfl,List.mem_cons_self⟩) listed
      refine followsAttempt (followsCaught (followsCached (followsSqlLast may ?_ ?_)))
      · intro t e
        exact goesOn t (.error e)
      · intro t r
        exact goesOn t (.ok r)

theorem followsEnumerateGroups (sgs : List ScimGroup) {tr : Trace calls} (idle : todo tr = [])
    (received : ∀ sg ∈ sgs, sg ∈ receivedGroups tr) :
    Follows (Allowed b config op) (fun tr' _ => Kept tr tr') (enumerateGroups b config sgs) tr := by
  induction sgs generalizing tr with
  | nil => exact ⟨grownRefl tr,idle⟩
  | cons sg sgs ih =>
    refine followsAttempt (followsCaught (followsMono (followsGroupToModel sg idle) ?_))
    intro tr1 r converted
    obtain ⟨more,probes,rfl,result⟩ := converted
    have kept := keptProbes probes idle
    have goesOn {tr'} (kept' : Kept tr tr') :
        Follows (Allowed b config op) (fun tr'' _ => Kept tr tr'') (enumerateGroups b config sgs) tr' := by
      have later : ∀ sg ∈ sgs, sg ∈ receivedGroups tr' :=
        fun sg inside => kept'.groups ▸ received sg (List.mem_cons_of_mem _ inside)
      refine followsMono (ih kept'.idle later) ?_
      intro tr2 r kept''
      exact keptTrans kept' kept''
    match r with
    | .error .panic => exact kept
    | .error (.error e) => exact goesOn kept
    | .ok g =>
      obtain ⟨same,reserved⟩ := result g rfl
      have may : Allowed b config op (more ++ tr) (.sql (.insertOrReplaceGroup g)) :=
        ⟨kept.idle,sg,by rw [kept.groups]; exact received sg List.mem_cons_self,same,reserved⟩
      refine followsAttempt (followsCaught (followsCached (followsMono (followsStoreGroup kept.toGrown may) ?_)))
      intro tr2 r kept'
      match r with
      | .error .panic => exact kept'
      | .error (.error e) => exact followsMap (f := fun gs => g :: gs) (goesOn kept')
      | .ok _ => exact followsMap (f := fun gs => g :: gs) (goesOn kept')

def ResolvedGroups (b : Build) (config : Config) (refs : List ScimGroupRef) (tr tr' : Trace calls)
    (r : Except (Halt ServiceError) (List UInt32)) : Prop :=
  ∃ more, Probes more ∧ tr' = more ++ tr ∧
    ∀ gids, r = .ok gids → List.Forall₂ (fun g gid => Reserved b config .gid g.value tr' gid) refs gids

theorem followsResolveGroups (refs : List ScimGroupRef) {tr : Trace calls} (idle : todo tr = []) :
    Follows (Allowed b config op) (ResolvedGroups b config refs tr) (resolveGroups b config refs) tr := by
  induction refs generalizing tr with
  | nil => exact ⟨[],probesNil,rfl,by rintro gids ⟨⟩; exact .nil⟩
  | cons g refs ih =>
    refine followsAttempt (followsCached (followsMono (followsResolve .gid g.value idle) ?_))
    intro tr1 r resolved
    obtain ⟨more,probes,rfl,result⟩ := resolved
    match r with
    | .error h => exact ⟨more,probes,rfl,fun gids never => nomatch never⟩
    | .ok gid =>
      refine followsMap (f := fun gids => gid :: gids) (followsMono (ih (probesTodo probes idle)) ?_)
      rintro tr2 r ⟨more',probes',rfl,rest⟩
      refine ⟨more' ++ more,probesAppend probes' probes,by simp,?_⟩
      intro gids same
      match r with
      | .error h => cases same
      | .ok gids' =>
        cases same
        exact .cons (probesReserved probes' result) (rest gids' rfl)

theorem followsWithMembers (g : Group) {start tr : Trace calls} (kept : Kept start tr) :
    Follows (Allowed b config op) (fun tr' _ => Kept start tr') (withMembers g) tr := by
  refine followsSql kept.idle ?_ ?_
  · intro t e
    exact ⟨grownSql kept.toGrown,by simp [todo]⟩
  · intro t r
    exact ⟨grownSql kept.toGrown,by simp [todo]⟩

theorem followsWithAllMembers (gs : List Group) {start tr : Trace calls} (kept : Kept start tr) :
    Follows (Allowed b config op) (fun tr' _ => Kept start tr') (withAllMembers gs) tr := by
  induction gs generalizing tr with
  | nil => exact kept
  | cons g gs ih =>
    refine followsAttempt (followsMono (followsWithMembers g kept) ?_)
    intro tr1 r kept'
    match r with
    | .error h => exact kept'
    | .ok g' => exact followsMap (f := fun gs => g' :: gs) (ih kept')

theorem followsFound {st : Stmt} {start tr : Trace calls} {f : st.Resp → Act CacheError (Option Group)}
    (kept : Kept start tr) (may : Allowed b config op tr (.sql st)) (read : ∀ t r, todo (⟨t,.sql st,r⟩ :: tr) = [])
    (rest : ∀ tr' r, Kept start tr' → Follows (Allowed b config op) (fun tr' _ => Kept start tr') (f r) tr') :
    Follows (Allowed b config op) (fun tr' _ => Kept start tr') (sql st >>= f : Act CacheError (Option Group)) tr := by
  refine followsSql may ?_ ?_
  · intro t e
    exact ⟨grownSql kept.toGrown,read t _⟩
  · intro t r
    exact rest _ r ⟨grownSql kept.toGrown,read t _⟩

theorem followsGetGroupByGid (gid : UInt32) {tr : Trace calls} (idle : todo tr = []) :
    Follows (Allowed b config op) (fun tr' _ => Kept tr tr') (getGroupByGid config.cache.ttlSeconds gid) tr := by
  refine followsFound ⟨grownRefl tr,idle⟩ ⟨idle,rfl⟩ (by simp [todo]) ?_
  intro tr' r kept
  match r with
  | none => exact kept
  | some g => exact followsMap (followsWithMembers g kept)

theorem followsGetGroupByName (name : String) {tr : Trace calls} (idle : todo tr = []) :
    Follows (Allowed b config op) (fun tr' _ => Kept tr tr') (getGroupByName config.cache.ttlSeconds name) tr := by
  refine followsFound ⟨grownRefl tr,idle⟩ ⟨idle,rfl⟩ (by simp [todo]) ?_
  intro tr' r kept
  match r with
  | none => exact kept
  | some g => exact followsMap (followsWithMembers g kept)

theorem followsGetGroupsForMember (name : String) {tr : Trace calls} (idle : todo tr = []) :
    Follows (Allowed b config op) (fun tr' _ => Kept tr tr')
      (getGroupsForMember config.cache.ttlSeconds name) tr := by
  refine followsSql ⟨idle,rfl⟩ ?_ ?_
  · intro t e
    exact ⟨grownSql (grownRefl tr),by simp [todo]⟩
  · intro t r
    exact followsWithAllMembers r ⟨grownSql (grownRefl tr),by simp [todo]⟩

theorem followsGetUserByName (name : String) {tr : Trace calls}
    {done : Trace calls → Except (Halt ServiceError) (Option User) → Prop} (idle : todo tr = [])
    (ok : ∀ t r, done (⟨t,.sql (.selectUserByLogin name config.cache.ttlSeconds),r⟩ :: tr)
      (cacheResult (sqlResult r))) :
    Follows (Allowed b config op) done (cached (getUserByName config.cache.ttlSeconds name)) tr :=
  ⟨⟨idle,rfl⟩,ok⟩

def usersOf : Outcome → List User
  | .ok (.user (some u)) => [u]
  | .ok (.users us) => us
  | _ => []

def Online (b : Build) (config : Config) (su : ScimUser) (tr : Trace calls) (out : Outcome) : Prop :=
  (∃ t u, u = userModel config su u.uid u.gid ∧
    (⟨t,.sql (.insertOrReplaceUser u),.ok ()⟩ : Event calls) ∈ tr) ∨
  out = .error .panic ∨ Failed tr ∨ Exhausted b config .uid su.id tr ∨ Exhausted b config .gid (gidExternal su) tr

structure Done (b : Build) (config : Config) (op : Op) (tr : Trace calls) (out : Outcome) : Prop where
  idle : todo tr = []
  sourced : ∀ u ∈ usersOf out, Sourced op tr u
  online : ∀ n, query op = some (.userByName n) → ∀ su ∈ receivedUsers tr, Online b config su tr out
  newest : ∀ n u, op = .lookupUserByName n → out = .ok (.user (some u)) → receivedUsers tr ≠ [] →
    ∃ t rest su, tr = (⟨t,.sql (.insertOrReplaceUser u),.ok ()⟩ : Event calls) :: rest ∧
      receivedUsers tr = [su] ∧ u = userModel config su u.uid u.gid
  offline : ∀ n, op = .checkUserActive n → out = .ok (.active true) → receivedUsers tr = [] →
    ∃ t t' e u ttl, u.active = true ∧ tr =
      [(⟨t,.sql (.selectUserByLogin n ttl),.ok (some u)⟩ : Event calls),⟨t',.scim (.userByName n),.error e⟩]
  gids : ∀ n gs su, op = .lookupGroupsForUser n → out = .ok (.gids gs) → receivedUsers tr = [su] →
    List.Forall₂ (fun g gid => Reserved b config .gid g.value tr gid) su.groups gs

theorem doneOther {tr out} (other : ∀ n, query op ≠ some (.userByName n)) (idle : todo tr = [])
    (sourced : ∀ u ∈ usersOf out, Sourced op tr u) : Done b config op tr out where
  idle := idle
  sourced := sourced
  online := fun n same => absurd same (other n)
  newest := fun n _ same => absurd (same ▸ rfl) (other n)
  offline := fun n same => absurd (same ▸ rfl) (other n)
  gids := fun n _ _ same => absurd (same ▸ rfl) (other n)

theorem followsOther {α : Type} {output : α → Output} {p : Act ServiceError α}
    (other : ∀ n, query op ≠ some (.userByName n)) (silent : ∀ a, usersOf (.ok (output a)) = [])
    (ok : Follows (Allowed b config op) (fun tr' _ => todo tr' = []) p []) :
    Follows (Allowed b config op) (Done b config op) (output <$> p : Act ServiceError Output) [] := by
  refine followsMap (followsMono ok ?_)
  intro tr r idle
  refine doneOther other idle ?_
  match r with
  | .error h => simp [usersOf,Except.map]
  | .ok a => simp [Except.map,silent]

theorem followsPurge {ttl : Ttl} (mine : purged config op = some ttl) :
    Follows (Allowed b config op) (fun tr' _ => todo tr' = []) (purgeExpired ttl) [] := by
  refine followsSql ⟨rfl,mine⟩ (by simp [todo]) fun t r => ?_
  refine followsSql ⟨by simp [todo],mine⟩ (by simp [todo]) fun t r => ?_
  exact followsSqlLast ⟨by simp [todo],mine⟩ (by simp [todo]) (by simp [todo])

theorem followsFallback {name : String} {t : Int} {r : Except ScimError (Option ScimUser)}
    (nobody : receivedUsers [(⟨t,.scim (.userByName name),r⟩ : Event calls)] = []) :
    Follows (Allowed b config (.lookupUserByName name))
      (fun tr r => Done b config (.lookupUserByName name) tr (r.map .user))
      (cached (getUserByName config.cache.ttlSeconds name)) [⟨t,.scim (.userByName name),r⟩] := by
  refine followsGetUserByName name (by simp [todo]) ?_
  intro t' answer
  refine ⟨by cases answer <;> simp [todo],?_,by simp [nobody],by simp [nobody],by simp,by simp⟩
  intro x inside
  match answer with
  | .error e => simp [sqlResult,cacheResult,Except.map,usersOf] at inside
  | .ok none => simp [sqlResult,cacheResult,Except.map,usersOf] at inside
  | .ok (some u) =>
    simp only [sqlResult,cacheResult,Except.map,usersOf,List.mem_singleton] at inside
    exact .inr (.inr ⟨t',name,_,by rw [inside]; exact List.mem_cons_self⟩)

theorem doneUnresolved {tr su h} (idle : todo tr = []) (received : receivedUsers tr = [su])
    (result : Unresolved b config su tr h) : Done b config op tr (.error h) := by
  refine ⟨idle,by simp [usersOf],?_,by simp,by simp,by simp⟩
  intro n same su' inside
  rw [received] at inside
  cases List.mem_singleton.mp inside
  cases h with
  | panic => exact .inr (.inl rfl)
  | error e => exact .inr (.inr result)

theorem doneNobody {tr out} (idle : todo tr = []) (nobody : receivedUsers tr = []) (silent : usersOf out = [])
    (refused : out ≠ .ok (.active true)) : Done b config op tr out where
  idle := idle
  sourced := by simp [silent]
  online := by simp [nobody]
  newest := fun _ _ _ _ someone => absurd nobody someone
  offline := fun _ _ returned => absurd returned refused
  gids := by simp [nobody]

theorem followsLookupUserByName (name : String) :
    Follows (Allowed b config (.lookupUserByName name)) (Done b config (.lookupUserByName name))
      (operation b config (.lookupUserByName name)) [] := by
  refine followsMap ?_
  unfold lookupUserByName
  split
  · exact doneNobody rfl rfl rfl (by simp [Except.map])
  · refine followsAsk ⟨rfl,rfl⟩ ?_
    intro t r
    rcases r with e | none | su
    · exact followsFallback (by simp [receivedUsers])
    · exact followsFallback (by simp [receivedUsers])
    · refine followsMap (followsMono (followsRefreshUser (by simp [todo]) (by simp [receivedUsers])) ?_)
      intro tr r refreshed
      obtain ⟨kept,result⟩ := refreshed
      cases r with
      | error h => exact doneUnresolved kept.idle kept.users result
      | ok u =>
        obtain ⟨same,t',rest,rfl⟩ := result
        refine ⟨kept.idle,?_,?_,?_,by simp,by simp⟩
        · intro x inside
          simp only [Except.map,usersOf,List.mem_singleton] at inside
          exact inside ▸ .inl ⟨t',_,.inl rfl,List.mem_cons_self⟩
        · intro n asked su' received
          rw [kept.users] at received
          cases List.mem_singleton.mp received
          exact .inl ⟨t',u,same,List.mem_cons_self⟩
        · intro n x asked returned received
          simp only [Except.map,Except.ok.injEq,Output.user.injEq,Option.some.injEq] at returned
          subst returned
          exact ⟨t',rest,su,rfl,kept.users,same⟩

theorem followsCheckUserActive (name : String) :
    Follows (Allowed b config (.checkUserActive name)) (Done b config (.checkUserActive name))
      (operation b config (.checkUserActive name)) [] := by
  refine followsMap ?_
  unfold checkUserActive
  split
  · exact doneNobody rfl rfl rfl (by simp [Except.map])
  · refine followsAsk ⟨rfl,rfl⟩ ?_
    intro t r
    rcases r with e | none | su
    · simp only
      split
      · refine followsAttempt (followsGetUserByName name (by simp [todo]) ?_)
        intro t' answer
        rcases answer with e' | none | u
        · exact doneNobody (by simp [todo]) (by simp [receivedUsers]) rfl (by simp [Except.map])
        · exact doneNobody (by simp [todo]) (by simp [receivedUsers]) rfl (by simp [Except.map])
        · refine ⟨by simp [todo],by simp [usersOf,Except.map],by simp [receivedUsers],by simp,?_,by simp⟩
          intro n same returned nobody
          cases same
          simp only [Except.map,Except.ok.injEq,Output.active.injEq] at returned
          exact ⟨t',t,e,u,_,returned,rfl⟩
      · exact doneNobody (by simp [todo]) (by simp [receivedUsers]) rfl (by simp [Except.map])
    · exact doneNobody (by simp [todo]) (by simp [receivedUsers]) rfl (by simp [Except.map])
    · refine followsMap (followsMono (followsRefreshUser (by simp [todo]) (by simp [receivedUsers])) ?_)
      intro tr r refreshed
      obtain ⟨kept,result⟩ := refreshed
      have someone : receivedUsers tr ≠ [] := by simp [kept.users,receivedUsers]
      cases r with
      | error h => exact doneUnresolved kept.idle kept.users result
      | ok u =>
        obtain ⟨same,t',rest,rfl⟩ := result
        refine ⟨kept.idle,by simp [usersOf,Except.map],?_,by simp,fun _ _ _ nobody => absurd nobody someone,by simp⟩
        intro n asked su' received
        rw [kept.users] at received
        cases List.mem_singleton.mp received
        exact .inl ⟨t',u,same,List.mem_cons_self⟩

theorem followsLookupGroupsForUser (name : String) :
    Follows (Allowed b config (.lookupGroupsForUser name)) (Done b config (.lookupGroupsForUser name))
      (operation b config (.lookupGroupsForUser name)) [] := by
  refine followsMap ?_
  unfold lookupGroupsForUser
  split
  · exact doneNobody rfl rfl rfl (by simp [Except.map])
  · refine followsAsk ⟨rfl,rfl⟩ ?_
    intro t r
    rcases r with e | none | su
    · refine followsAttempt (followsCached (followsMono (followsGetGroupsForMember name (by simp [todo])) ?_))
      intro tr r kept
      have nobody : receivedUsers tr = [] := by simp [kept.users,receivedUsers]
      cases r with
      | error h => exact doneNobody kept.idle nobody rfl (by simp [Except.map])
      | ok gs => exact doneNobody kept.idle nobody rfl (by simp [Except.map])
    · exact doneNobody (by simp [todo]) (by simp [receivedUsers]) rfl (by simp [Except.map])
    · refine followsAttempt (followsMono (followsRefreshUser (by simp [todo]) (by simp [receivedUsers])) ?_)
      intro tr r refreshed
      obtain ⟨kept,result⟩ := refreshed
      cases r with
      | error h => exact doneUnresolved kept.idle kept.users result
      | ok u =>
        obtain ⟨same,t',rest,rfl⟩ := result
        refine followsMono (followsResolveGroups su.groups kept.idle) ?_
        rintro tr r ⟨more,probes,rfl,reserved⟩
        refine ⟨probesTodo probes kept.idle,by cases r <;> simp [usersOf,Except.map],?_,by simp,by simp,?_⟩
        · intro n asked su' received
          rw [probesReceivedUsers probes,kept.users] at received
          cases List.mem_singleton.mp received
          exact .inl ⟨t',u,same,List.mem_append_right _ List.mem_cons_self⟩
        · intro n gs su' asked returned received
          rw [probesReceivedUsers probes,kept.users] at received
          cases received
          cases r with
          | error h => cases returned
          | ok gids =>
            cases returned
            exact reserved _ rfl

theorem doneListed {tr tr' out} {r : Except (Halt ServiceError) (List User)}
    (other : ∀ n, query op ≠ some (.userByName n)) (listed : Listed op tr tr' r)
    (among : ∀ u ∈ usersOf out, ∃ us, r = .ok us ∧ u ∈ us) : Done b config op tr' out := by
  refine doneOther other listed.1.idle ?_
  intro u inside
  obtain ⟨us,same,here⟩ := among u inside
  exact listed.2 us same u here

theorem followsIdle {α : Type} {start tr : Trace calls} {p : Act ServiceError α}
    (ok : Follows (Allowed b config op) (fun tr' _ => Kept start tr') p tr) :
    Follows (Allowed b config op) (fun tr' _ => todo tr' = []) p tr :=
  followsMono ok fun _ _ kept => kept.idle

theorem followsNew : Follows (Allowed b config .new) (Done b config .new) (operation b config .new) [] := by
  refine followsOther (by simp [query]) (by simp [usersOf]) ?_
  refine followsAttempt (followsCaught (followsCached (followsMono (followsPurge rfl) ?_)))
  intro tr r idle
  rcases r with (e | -) | -
  · exact idle
  · exact idle
  · exact idle

theorem followsLookupUserByUid (uid : UInt32) :
    Follows (Allowed b config (.lookupUserByUid uid)) (Done b config (.lookupUserByUid uid))
      (operation b config (.lookupUserByUid uid)) [] := by
  refine followsMap (f := Output.user) ⟨⟨rfl,rfl⟩,fun t r => ?_⟩
  refine doneOther (by simp [query]) (by simp [todo]) ?_
  intro u inside
  rcases r with e | none | x
  · simp [usersOf,Except.map,cacheResult,sqlResult] at inside
  · simp [usersOf,Except.map,cacheResult,sqlResult] at inside
  · simp only [usersOf,Except.map,cacheResult,sqlResult,List.mem_singleton] at inside
    exact .inr (.inl ⟨t,uid,_,by rw [inside]; exact List.mem_cons_self⟩)

theorem followsLookupGroupByName (name : String) :
    Follows (Allowed b config (.lookupGroupByName name)) (Done b config (.lookupGroupByName name))
      (operation b config (.lookupGroupByName name)) [] := by
  refine followsOther (by simp [query]) (by simp [usersOf]) ?_
  unfold lookupGroupByName
  split
  · rfl
  · refine followsAsk ⟨rfl,rfl⟩ ?_
    intro t r
    rcases r with e | none | sg
    · exact followsIdle (followsCached (followsGetGroupByName name (by simp [todo])))
    · exact followsIdle (followsCached (followsGetGroupByName name (by simp [todo])))
    · exact followsIdle (followsMap (followsRefreshGroup (by simp [todo]) (by simp [receivedGroups])))

theorem followsLookupGroupByGid (gid : UInt32) :
    Follows (Allowed b config (.lookupGroupByGid gid)) (Done b config (.lookupGroupByGid gid))
      (operation b config (.lookupGroupByGid gid)) [] :=
  followsOther (by simp [query]) (by simp [usersOf]) (followsIdle (followsCached (followsGetGroupByGid gid rfl)))

theorem followsListAllUsers : Follows (Allowed b config .listAllUsers) (Done b config .listAllUsers) (operation b config .listAllUsers) [] := by
  refine followsMap (f := Output.users) (followsAsk ⟨rfl,rfl⟩ ?_)
  intro t r
  cases r with
  | error e => exact doneOther (by simp [query]) (by simp [todo]) (by simp [usersOf,Except.map])
  | ok sus =>
    refine followsMono (followsRefreshUsers sus (by simp [todo]) (by simp [receivedUsers])) ?_
    intro tr' r listed
    refine doneListed (by simp [query]) listed ?_
    cases r with
    | error h => simp [usersOf,Except.map]
    | ok us => simp [usersOf,Except.map]

theorem followsListAllGroups : Follows (Allowed b config .listAllGroups) (Done b config .listAllGroups) (operation b config .listAllGroups) [] := by
  refine followsOther (by simp [query]) (by simp [usersOf]) (followsAsk ⟨rfl,rfl⟩ ?_)
  intro t r
  cases r with
  | error e => exact show todo _ = [] by simp [todo]
  | ok sgs => exact followsIdle (followsRefreshGroups sgs (by simp [todo]) (by simp [receivedGroups]))

theorem followsSetpwent : Follows (Allowed b config .setpwent) (Done b config .setpwent) (operation b config .setpwent) [] := by
  refine followsMap (f := listing Output.users) (followsAsk ⟨rfl,rfl⟩ ?_)
  intro t r
  cases r with
  | error e => exact doneOther (by simp [query]) (by simp [todo]) (by simp [usersOf,listing,Except.map])
  | ok sus =>
    refine followsMap (followsMono (followsEnumerateUsers sus (by simp [todo]) (by simp [receivedUsers])) ?_)
    intro tr' r listed
    refine doneListed (by simp [query]) listed ?_
    cases r with
    | error h => simp [usersOf,Except.map]
    | ok us => simp [usersOf,listing,Except.map]

theorem followsSetgrent : Follows (Allowed b config .setgrent) (Done b config .setgrent) (operation b config .setgrent) [] := by
  refine followsOther (by simp [query]) (by intro gs; cases gs <;> simp [usersOf,listing]) (followsAsk ⟨rfl,rfl⟩ ?_)
  intro t r
  cases r with
  | error e => exact show todo _ = [] by simp [todo]
  | ok sgs => exact followsMap (followsIdle (followsEnumerateGroups sgs (by simp [todo]) (by simp [receivedGroups])))

theorem operationFollows (op : Op) :
    Follows (Allowed b config op) (Done b config op) (operation b config op) [] := by
  cases op with
  | new => exact followsNew
  | purgeExpired ttl => exact followsOther (by simp [query]) (by simp [usersOf]) (followsCached (followsPurge rfl))
  | lookupUserByName name => exact followsLookupUserByName name
  | lookupUserByUid uid => exact followsLookupUserByUid uid
  | lookupGroupByName name => exact followsLookupGroupByName name
  | lookupGroupByGid gid => exact followsLookupGroupByGid gid
  | listAllUsers => exact followsListAllUsers
  | listAllGroups => exact followsListAllGroups
  | checkUserActive name => exact followsCheckUserActive name
  | lookupGroupsForUser name => exact followsLookupGroupsForUser name
  | setpwent => exact followsSetpwent
  | setgrent => exact followsSetgrent

end SssdOidc.Conformance
