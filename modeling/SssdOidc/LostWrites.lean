import SssdOidc.Handouts
import SssdOidc.Stability

/-! The enumerations of crates/nss_oidc/src/ffi.rs when SQLite reads but may refuse to write.
Their loops ignore the result of every store. -/
namespace SssdOidc.LostWrites
open Model Database Mapping Program Cache Service SssdOidc.System Protocol Conformance Solo Handouts
open History (executeCases)
open Probing (Owners assign firstFit)
open Stability (fourSlots scimUser)

/- SQLite during one call: the second of each write, and whether it fails. -/
structure Writes where
  clock : Nat → Int
  fails : Nat → Bool

/- Beside the database, the number of writes so far. -/
def Writes.answer (w : Writes) (reply : Replies) : (c : calls.Call) → Db × Nat → calls.Resp c × (Db × Nat)
  | .scim q, s => (reply q,s)
  | .sql st, s =>
      let ran := execute (w.clock s.2) (st.writes && w.fails s.2) s.1 st
      (ran.1,(ran.2,if st.writes then s.2 + 1 else s.2))

def ticking (clock : Nat → Int) : Writes := ⟨clock,fun _ => false⟩

section Stores
variable {w : Writes} {reply : Replies} {s : Db × Nat}

theorem quietSql {c : Column} {st : Stmt} (quiet : st.stores c = none) (kept : st.purges c = false) :
    (run (w.answer reply) (sql st) s).2.1.owners c = s.1.owners c := by
  change (execute (w.clock s.2) (st.writes && w.fails s.2) s.1 st).2.owners c = _
  rcases executeCases (w.clock s.2) (st.writes && w.fails s.2) s.1 st with ⟨e,ran⟩ | ⟨-,r,db',ok,ran⟩
  · rw [ran]
  · rw [ran]
    exact execOwners quiet kept ok

theorem storingSql {c : Column} {st : Stmt} {k x} (stores : st.stores c = some (k,x)) :
    (run (w.answer reply) (sql st) s).2.1.owners c = s.1.owners c ∨
      (run (w.answer reply) (sql st) s).2.1.owners c = assign (s.1.owners c) k x := by
  change (execute (w.clock s.2) (st.writes && w.fails s.2) s.1 st).2.owners c = _ ∨
    (execute (w.clock s.2) (st.writes && w.fails s.2) s.1 st).2.owners c = _
  rcases executeCases (w.clock s.2) (st.writes && w.fails s.2) s.1 st with ⟨e,ran⟩ | ⟨-,r,db',ok,ran⟩
  · rw [ran]
    exact .inl rfl
  · rw [ran]
    exact .inr (execStores stores ok)

theorem soundSql {c : Column} {st : Stmt} {k x r db'} (sound : ∀ n, w.fails n = false) (stores : st.stores c = some (k,x))
    (ok : exec (w.clock s.2) s.1 st = .ok (r,db')) : (run (w.answer reply) (sql st) s).2.1.owners c x = some k := by
  change (execute (w.clock s.2) (st.writes && w.fails s.2) s.1 st).2.owners c x = _
  simp only [execute,sound,Bool.and_false,Bool.false_eq_true,if_false,ok]
  rw [execStores stores ok]
  exact Probing.assignSelf

theorem quietAfter {c : Column} {α : Type} {st : Stmt} {f : st.Resp → Act CacheError α}
    (quiet : ∀ r s, (run (w.answer reply) (f r) s).2.1.owners c = s.1.owners c) :
    (run (w.answer reply) (sql st >>= f : Act CacheError α) s).2.1.owners c =
      (run (w.answer reply) (sql st) s).2.1.owners c := by
  rcases first : run (w.answer reply) (sql st) s with ⟨e | r,s'⟩
  · have stopped : run (w.answer reply) (sql st >>= f : Act CacheError α) s = _ := runError first
    rw [stopped]
  · have onward : run (w.answer reply) (sql st >>= f : Act CacheError α) s = _ := runOk first
    rw [onward,quiet]

theorem insertsQuiet {externalId : String} (members : List String) (s : Db × Nat) :
    (run (w.answer reply) (insertMembers externalId members) s).2.1.owners .gid = s.1.owners .gid := by
  induction members generalizing s with
  | nil => rfl
  | cons member rest ih => exact (quietAfter fun _ => ih).trans (quietSql rfl rfl)

theorem cachedState {p : Act CacheError Unit} :
    (run (w.answer reply) (cached p) s).2 = (run (w.answer reply) p s).2 := by
  have whole : run (w.answer reply) (cached p) s = (cacheResult (run (w.answer reply) p s).1,_) := runCached rfl
  rw [whole]

theorem storeUserOwners (u : User) : (run (w.answer reply) (cached (storeUser u)) s).2.1.owners .uid = s.1.owners .uid ∨
    (run (w.answer reply) (cached (storeUser u)) s).2.1.owners .uid = assign (s.1.owners .uid) u.externalId u.uid := by
  rw [cachedState]
  exact storingSql rfl

theorem storeGroupFirst (g : Group) : (run (w.answer reply) (cached (storeGroup g)) s).2.1.owners .gid =
    (run (w.answer reply) (sql (.insertOrReplaceGroup g)) s).2.1.owners .gid := by
  rw [cachedState]
  exact quietAfter fun _ _ => (quietAfter fun _ => insertsQuiet g.members).trans (quietSql rfl rfl)

theorem storeGroupOwners (g : Group) : (run (w.answer reply) (cached (storeGroup g)) s).2.1.owners .gid = s.1.owners .gid ∨
    (run (w.answer reply) (cached (storeGroup g)) s).2.1.owners .gid = assign (s.1.owners .gid) g.externalId g.gid := by
  rw [storeGroupFirst]
  exact storingSql rfl

end Stores

def enumerate {ι α : Type} (convert : ι → Act ServiceError α) (store : α → Act CacheError Unit) :
    List ι → Act ServiceError (List α)
  | [] => pure []
  | item :: rest => do
      match ← attempt (convert item) with
      | .ok a =>
          let _ ← attempt (cached (store a))
          let others ← enumerate convert store rest
          pure (a :: others)
      | .error _ => enumerate convert store rest

theorem enumerateUsersLoop (b : Build) (config : Config) (sus : List ScimUser) :
    enumerateUsers b config sus = enumerate (scimUserToModel b config) storeUser sus := by
  induction sus with
  | nil => rfl
  | cons su rest ih =>
    rw [enumerateUsers,enumerate,ih]
    refine congrArg (attempt (scimUserToModel b config su) >>= ·) (funext fun r => ?_)
    cases r <;> rfl

theorem enumerateGroupsLoop (b : Build) (config : Config) (sgs : List ScimGroup) :
    enumerateGroups b config sgs = enumerate (scimGroupToModel b config) storeGroup sgs := by
  induction sgs with
  | nil => rfl
  | cons sg rest ih =>
    rw [enumerateGroups,enumerate,ih]
    refine congrArg (attempt (scimGroupToModel b config sg) >>= ·) (funext fun r => ?_)
    cases r <;> rfl

section Loop
variable {σ ι α : Type} {answers : (c : calls.Call) → σ → calls.Resp c × σ} {convert : ι → Act ServiceError α}
  {store : α → Act CacheError Unit} {A : Allocator String UInt32 σ ι} {id' : α → UInt32}

/- A conversion reads only. It gives an item the slot where its walk ends, or fails. -/
inductive Converts (answers : (c : calls.Call) → σ → calls.Resp c × σ) (convert : ι → Act ServiceError α)
    (store : α → Act CacheError Unit) (A : Allocator String UInt32 σ ι) (id' : α → UInt32) (s : σ) (item : ι) : Prop where
  | given (a : α) (fit : A.fit s item = some (id' a)) (ran : run answers (convert item) s = (.ok a,s))
      (stored : (run answers (cached (store a)) s).2 = A.store s item (id' a))
  | failed (h : Halt ServiceError) (fit : A.fit s item = none) (ran : run answers (convert item) s = (.error h,s))

theorem enumerateHanded (converts : ∀ s item, Converts answers convert store A id' s item) {items : List ι} {s s' : σ}
    {listed : List α} (ok : run answers (enumerate convert store items) s = (.ok listed,s')) :
    listed.map id' = handed A s items := by
  induction items generalizing s listed with
  | nil =>
    cases ok
    rfl
  | cons item rest ih =>
    rw [enumerate] at ok
    cases converts s item with
    | given a fit ran stored =>
      have tried : run answers (attempt (convert item)) s = (.ok (.ok a),s) := runTried ran
      rw [runOk tried] at ok
      have kept : run answers (attempt (cached (store a))) s = (caught (run answers (cached (store a)) s).1,_) :=
        runTried rfl
      rw [stored] at kept
      rcases out : caught (run answers (cached (store a)) s).1 with h | outcome
      · rw [out] at kept
        rw [runError kept] at ok
        cases ok
      · rw [out] at kept
        rw [runOk kept] at ok
        rcases later : run answers (enumerate convert store rest) (A.store s item (id' a)) with ⟨h | others,s2⟩
        · rw [runError later] at ok
          cases ok
        · rw [runOk later] at ok
          cases ok
          rw [handed,fit,List.map_cons,ih later]
    | failed h fit ran =>
      rw [handed,fit]
      cases h with
      | error e =>
        have tried : run answers (attempt (convert item)) s = (.ok (.error e),s) := runTried ran
        rw [runOk tried] at ok
        exact ih ok
      | panic =>
        have tried : run answers (attempt (convert item)) s = (.error .panic,s) := runTried ran
        rw [runError tried] at ok
        cases ok

end Loop

section Ids
variable (b : Build) (config : Config) (w : Writes) (reply : Replies)

def primary (s : Db × Nat) (su : ScimUser) : Option UInt32 :=
  firstFit (s.1.owners .gid) (gidExternal su) (slots b config .gid (gidExternal su))

/- A user whose group id cannot be resolved is passed by like one without a slot. -/
def userIds : Allocator String UInt32 (Db × Nat) ScimUser where
  owners s := s.1.owners .uid
  key := ScimUser.id
  path s su := if (primary b config s su).isSome then slots b config .uid su.id else []
  store s su x :=
    (run (w.answer reply) (cached (storeUser (userModel config su x ((primary b config s su).getD 0)))) s).2
  stores := fun _ _ _ => storeUserOwners _

def groupIds : Allocator String UInt32 (Db × Nat) ScimGroup where
  owners s := s.1.owners .gid
  key := ScimGroup.id
  path _ sg := slots b config .gid sg.id
  store s sg x := (run (w.answer reply) (cached (storeGroup (groupModel sg x))) s).2
  stores := fun _ _ _ => storeGroupOwners _

variable {b config w reply} {s : Db × Nat}

theorem resolved (c : Column) (externalId : String) : run (w.answer reply) (cached (resolveColumn b config c externalId)) s =
    (cacheResult (found (pathEnd b (rangeMin config c) (rangeSize config c) .rangeExhausted externalId)
      (firstFit (s.1.owners c) externalId (slots b config c externalId))),s) := runCached (runResolve fun _ => rfl)

theorem userFit (su : ScimUser) : (userIds b config w reply).fit s su =
    if (primary b config s su).isSome then firstFit (s.1.owners .uid) su.id (slots b config .uid su.id) else none := by
  change firstFit (s.1.owners .uid) su.id (if _ then _ else _) = _
  split
  · rfl
  · rfl

theorem userConverts (su : ScimUser) : Converts (w.answer reply) (scimUserToModel b config) storeUser
    (userIds b config w reply) User.uid s su := by
  have first : run (w.answer reply) (cached (resolveColumn b config .uid su.id)) s = _ := resolved .uid su.id
  have second : run (w.answer reply) (cached (resolveColumn b config .gid (gidExternal su))) s = _ :=
    resolved .gid (gidExternal su)
  have fit : (userIds b config w reply).fit s su = _ := userFit su
  cases uid : firstFit (s.1.owners .uid) su.id (slots b config .uid su.id) with
  | none =>
    rw [uid] at first fit
    exact .failed _ (fit.trans (ite_self none)) (runError first)
  | some x =>
    rw [uid] at first fit
    cases gid : primary b config s su with
    | none =>
      rw [gid] at fit
      rw [primary] at gid
      rw [gid] at second
      exact .failed _ fit ((runOk first).trans (runError second))
    | some g =>
      rw [gid] at fit
      have own : (primary b config s su).getD 0 = g := by rw [gid]; rfl
      rw [primary] at gid
      rw [gid] at second
      refine .given (userModel config su x g) fit ((runOk first).trans (runOk second)) ?_
      change _ = (run (w.answer reply) (cached (storeUser (userModel config su x ((primary b config s su).getD 0)))) s).2
      rw [own]

theorem groupConverts (sg : ScimGroup) : Converts (w.answer reply) (scimGroupToModel b config) storeGroup
    (groupIds b config w reply) Group.gid s sg := by
  have first : run (w.answer reply) (cached (resolveColumn b config .gid sg.id)) s = _ := resolved .gid sg.id
  cases gid : firstFit (s.1.owners .gid) sg.id (slots b config .gid sg.id) with
  | none =>
    rw [gid] at first
    exact .failed _ gid (runError first)
  | some x =>
    rw [gid] at first
    exact .given (groupModel sg x) gid (runOk first) rfl

theorem apartSound (sound : ∀ n, w.fails n = false) (scimUsers : List ScimUser) (scimGroups : List ScimGroup) :
    Apart (userIds b config w reply) [] s scimUsers ∧ Apart (groupIds b config w reply) [] s scimGroups := by
  constructor
  · refine apartStored fun s su x => ?_
    change (run (w.answer reply) (cached (storeUser _)) s).2.1.owners .uid x = some su.id
    rw [cachedState]
    exact soundSql sound rfl rfl
  · refine apartStored fun s sg x => ?_
    change (run (w.answer reply) (cached (storeGroup _)) s).2.1.owners .gid x = some sg.id
    rw [storeGroupFirst]
    exact soundSql sound rfl rfl

end Ids

theorem runSome {σ α : Type} {answers : (c : calls.Call) → σ → calls.Resp c × σ} {p : Act ServiceError α} {s s' : σ} {a : α}
    (ok : run answers (some <$> p : Act ServiceError (Option α)) s = (.ok (some a),s')) : run answers p s = (.ok a,s') := by
  rcases ran : run answers p s with ⟨h | other,s2⟩
  · have failed : run answers (some <$> p : Act ServiceError (Option α)) s = (.error h,s2) := runError ran
    rw [failed] at ok
    cases ok
  · have done : run answers (some <$> p : Act ServiceError (Option α)) s = (.ok (some other),s2) := runOk ran
    rw [done] at ok
    cases ok
    rfl

theorem enumeratedUnique (b : Build) (config : Config) (w : Writes) (reply : Replies) (db : Db) :
    (∀ scimUsers users s', reply .listUsers = .ok scimUsers → (scimUsers.map ScimUser.id).Nodup →
      run (w.answer reply) (setpwent b config) (db,0) = (.ok (some users),s') →
      ((users.map User.uid).Nodup ↔ Apart (userIds b config w reply) [] (db,0) scimUsers)) ∧
    ∀ scimGroups groups s', reply .listGroups = .ok scimGroups → (scimGroups.map ScimGroup.id).Nodup →
      run (w.answer reply) (setgrent b config) (db,0) = (.ok (some groups),s') →
      ((groups.map Group.gid).Nodup ↔ Apart (groupIds b config w reply) [] (db,0) scimGroups) := by
  constructor
  · intro scimUsers users s' answered keys ok
    have asked : run (w.answer reply) (ask .listUsers) (db,0) = (.ok (reply .listUsers),(db,0)) := rfl
    rw [setpwent,runOk asked,answered] at ok
    have ran := runSome ok
    rw [enumerateUsersLoop] at ran
    rw [enumerateHanded (A := userIds b config w reply) (fun _ su => userConverts su) ran]
    exact handedNodup keys
  · intro scimGroups groups s' answered keys ok
    have asked : run (w.answer reply) (ask .listGroups) (db,0) = (.ok (reply .listGroups),(db,0)) := rfl
    rw [setgrent,runOk asked,answered] at ok
    have ran := runSome ok
    rw [enumerateGroupsLoop] at ran
    rw [enumerateHanded (A := groupIds b config w reply) (fun _ sg => groupConverts sg) ran]
    exact handedNodup keys

def lists (users groups : List String) : Replies
  | .listUsers => .ok (users.map fun id => scimUser id id)
  | .listGroups => .ok (groups.map fun id => ⟨id,id,[]⟩)
  | _ => .error .http

def refuses (n : Nat) : Writes := ⟨fun _ => 0,fun i => i == n⟩

theorem endsIn {α β : Type} {x : α × β} {a : α} (first : x.1 = a) : x = (a,x.2) := Prod.ext first rfl

def userNamed (name : String) (x : UInt32) : User := ⟨name,name,x,x,"","/home/" ++ name,"/bin/bash",true⟩

theorem enumeratedApart : ([userNamed "u1" 1000,userNamed "u2" 1001].map User.uid).Nodup ↔
    Apart (userIds release fourSlots (refuses 0) (lists ["u1","u2"] [])) [] (empty,0)
      [scimUser "u1" "u1",scimUser "u2" "u2"] := by
  have ran : (run ((refuses 0).answer (lists ["u1","u2"] [])) (setpwent release fourSlots) (empty,0)).1 =
      .ok (some [userNamed "u1" 1000,userNamed "u2" 1001]) := by decide +kernel
  exact (enumeratedUnique release fourSlots (refuses 0) (lists ["u1","u2"] []) empty).1 _ _ _ rfl (by decide)
    (endsIn ran)

theorem enumeratedTwice :
    (∃ users s', run ((refuses 0).answer (lists ["u2","u3"] [])) (setpwent release fourSlots) (empty,0) =
      (.ok (some users),s') ∧ users.map User.name = ["u2","u3"] ∧ ¬(users.map User.uid).Nodup) ∧
    ∃ groups s', run ((refuses 0).answer (lists [] ["g2","g3"])) (setgrent release fourSlots) (empty,0) =
      (.ok (some groups),s') ∧ groups.map Group.name = ["g2","g3"] ∧ ¬(groups.map Group.gid).Nodup := by
  constructor
  · have ran : (run ((refuses 0).answer (lists ["u2","u3"] [])) (setpwent release fourSlots) (empty,0)).1 =
        .ok (some [userNamed "u2" 1001,userNamed "u3" 1001]) := by decide +kernel
    exact ⟨_,_,endsIn ran,rfl,by decide⟩
  · have ran : (run ((refuses 0).answer (lists [] ["g2","g3"])) (setgrent release fourSlots) (empty,0)).1 =
        .ok (some [⟨"g2","g2",1000,[]⟩,⟨"g3","g3",1000,[]⟩]) := by decide +kernel
    exact ⟨_,_,endsIn ran,rfl,by decide⟩

end SssdOidc.LostWrites
