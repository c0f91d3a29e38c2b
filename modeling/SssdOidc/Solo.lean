import SssdOidc.History

/-! One function of the source run from start to end with nobody in between: SCIM gives
the answers of `reply`, the clock stands at `t`, and SQLite does not fail. -/
namespace SssdOidc.Solo
open Model Database Mapping Program Cache Service SssdOidc.System Protocol Conformance
open Probing (Held Open Fits firstFit)

section Answers
variable {σ : Type} {answers : (c : calls.Call) → σ → calls.Resp c × σ} {s : σ}

theorem runCached {α : Type} {p : Act CacheError α} {r} {s' : σ} (done : run answers p s = (r,s')) :
    run answers (cached p) s = (cacheResult r,s') := by
  refine (runBind p (fun r => pure (cacheResult r)) s).trans ?_
  rw [done]
  rfl

theorem runSplit {ε α β : Type} {p : Act ε α} {f : α → Act ε β} {a} {s' : σ}
    (ok : run answers (p >>= f : Act ε β) s = (.ok a,s')) :
    ∃ a1 s1, run answers p s = (.ok a1,s1) ∧ run answers (f a1) s1 = (.ok a,s') := by
  have split : run answers (p >>= f : Act ε β) s = _ := runAttempt p f s
  rw [split] at ok
  cases first : run answers p s with
  | mk r s1 =>
    rw [first] at ok
    cases r with
    | error e => cases ok
    | ok a1 => exact ⟨a1,s1,rfl,ok⟩

theorem runCachedOk {α : Type} {p : Act CacheError α} {a} {s' : σ} (ok : run answers (cached p) s = (.ok a,s')) :
    run answers p s = (.ok a,s') := by
  cases first : run answers p s with
  | mk r s1 =>
    rw [runCached first] at ok
    cases r with
    | error e => cases ok
    | ok a1 =>
      cases ok
      rfl

theorem runTried {α : Type} {p : Act ServiceError α} {r} {s' : σ} (done : run answers p s = (r,s')) :
    run answers (attempt p) s = (caught r,s') := by
  refine (runBind p (fun r => pure (caught r)) s).trans ?_
  rw [done]
  rfl

def found {ε : Type} (stop : Halt ε) : Option UInt32 → Except (Halt ε) UInt32
  | some x => .ok x
  | none => .error stop

theorem runWalk {c : Column} {externalId : String} {owners : Probing.Owners String UInt32} (reads : ∀ x, answers
      (.sql (.selectOwner c x externalId)) s = (.ok ((owners x).map (fun owner => owner == externalId)),s))
    (stop : Halt CacheError) (path : List UInt32) :
    run answers (walk (fun x => sql (.selectOwner c x externalId)) stop path) s =
      (found stop (firstFit owners externalId path),s) := by
  induction path with
  | nil => rfl
  | cons x rest ih =>
    have asked : run answers (sql (.selectOwner c x externalId)) s =
        (.ok ((owners x).map (fun owner => owner == externalId)),s) := by
      change (sqlResult (answers (.sql (.selectOwner c x externalId)) s).1,
        (answers (.sql (.selectOwner c x externalId)) s).2) = _
      rw [reads x]
      rfl
    refine (runOk asked).trans ?_
    cases own : owners x with
    | none =>
      simp only [Option.map_none,firstFit,own,found]
      rfl
    | some other =>
      by_cases same : other = externalId
      · simp only [Option.map_some,firstFit,own,same,beq_self_eq_true,if_true,found]
        rfl
      · have foreign : (other == externalId) = false := by simpa using same
        simp only [Option.map_some,firstFit,own,same,foreign,if_false]
        exact ih

theorem runResolve {b : Build} {config : Config} {c : Column} {externalId : String} {owners : Probing.Owners String UInt32}
    (reads : ∀ x, answers (.sql (.selectOwner c x externalId)) s =
      (.ok ((owners x).map (fun owner => owner == externalId)),s)) :
    run answers (resolveColumn b config c externalId) s =
      (found (pathEnd b (rangeMin config c) (rangeSize config c) .rangeExhausted externalId)
        (firstFit owners externalId (slots b config c externalId)),s) := by
  rw [resolveColumnWalk]
  exact runWalk reads _ _

end Answers

abbrev Replies := (q : ScimQuery) → Except ScimError q.Resp

def offline : Replies := fun _ => .error .http

def answer (t : Int) (reply : Replies) : (c : calls.Call) → Db → calls.Resp c × Db
  | .scim q, db => (reply q,db)
  | .sql st, db => execute t false db st

def alone {ε α : Type} (t : Int) (reply : Replies) (p : Act ε α) (db : Db) : Except (Halt ε) α × Db :=
  run (answer t reply) p db

variable {t : Int} {reply : Replies} {db : Db}

theorem aloneSql {st : Stmt} {r db'} (ok : exec t db st = .ok (r,db')) :
    alone t reply (sql st) db = (.ok r,db') := by
  have answered : answer t reply (.sql st) db = (.ok r,db') := by simp [answer,execute,ok]
  have unfolded : alone t reply (sql st) db = (sqlResult (answer t reply (.sql st) db).1,(answer t reply (.sql st) db).2) := rfl
  rw [unfolded,answered]
  rfl

theorem aloneOk {ε α β : Type} {p : Act ε α} {f : α → Act ε β} {a db'}
    (ok : alone t reply p db = (.ok a,db')) : alone t reply (p >>= f) db = alone t reply (f a) db' := runOk ok

theorem aloneMap {ε α β : Type} {p : Act ε α} {f : α → β} {a db'}
    (ok : alone t reply p db = (.ok a,db')) : alone t reply (f <$> p) db = (.ok (f a),db') := aloneOk ok

theorem aloneCached {α : Type} {p : Act CacheError α} {r db'} (done : alone t reply p db = (r,db')) :
    alone t reply (cached p) db = (cacheResult r,db') := runCached done

theorem aloneAsk (q : ScimQuery) : alone t reply (ask q) db = (.ok (reply q),db) := rfl

theorem aloneResolve {b : Build} {config : Config} (c : Column) (externalId : String) :
    alone t reply (resolveColumn b config c externalId) db =
      (found (pathEnd b (rangeMin config c) (rangeSize config c) .rangeExhausted externalId)
        (firstFit (db.owners c) externalId (slots b config c externalId)),db) := runResolve fun _ => rfl

theorem aloneRefreshUser {b : Build} {config : Config} {su : ScimUser} {x g}
    (uid : firstFit (db.owners .uid) su.id (slots b config .uid su.id) = some x)
    (gid : firstFit (db.owners .gid) (gidExternal su) (slots b config .gid (gidExternal su)) = some g) :
    alone t reply (refreshUser b config su) db =
      (.ok (userModel config su x g),db.insertOrReplaceUser (userModel config su x g) t) := by
  have first : alone t reply (resolveColumn b config .uid su.id) db = (.ok x,db) := by rw [aloneResolve,uid]; rfl
  have second : alone t reply (resolveColumn b config .gid (gidExternal su)) db = (.ok g,db) := by
    rw [aloneResolve,gid]; rfl
  have converted : alone t reply (scimUserToModel b config su) db = (.ok (userModel config su x g),db) :=
    (aloneOk (aloneCached first)).trans (aloneOk (aloneCached second))
  have stored : alone t reply (cached (storeUser (userModel config su x g))) db =
      (.ok (),db.insertOrReplaceUser (userModel config su x g) t) := aloneCached (aloneSql rfl)
  exact (aloneOk converted).trans (aloneOk stored)

def listed (db : Db) (row : GroupRow) : Group :=
  ⟨row.externalId,row.name,row.gid,db.membersOf row.externalId⟩

theorem aloneMembers (row : GroupRow) : alone t reply (withMembers row.group) db = (.ok (listed db row),db) := by
  have read : alone t reply (getGroupMembers row.externalId) db = (.ok (listed db row).members,db) := aloneSql rfl
  exact aloneOk read

theorem aloneGroupByGid {ttl : Ttl} (gid : UInt32) : alone t reply (getGroupByGid ttl gid) db =
    (.ok ((db.groups.rows.find? (fun r => r.gid == gid && live t ttl r.cachedAt)).map (listed db)),db) := by
  have read : alone t reply (sql (.selectGroupByGid gid ttl)) db = (.ok _,db) := aloneSql rfl
  refine (aloneOk read).trans ?_
  cases db.groups.rows.find? (fun r => r.gid == gid && live t ttl r.cachedAt) with
  | none => rfl
  | some row => exact aloneMap (aloneMembers row)

theorem aloneByGid {config : Config} (gid : UInt32) :
    alone t reply (lookupGroupByGid config gid) db =
      (.ok ((db.groups.rows.find? (fun r => r.gid == gid && live t config.cache.ttlSeconds r.cachedAt)).map (listed db)),
        db) := aloneCached (aloneGroupByGid gid)

theorem aloneReach {b : Build} {config : Config} {may : Sys → Label → Prop} {p : Nat} {op : Op}
    (hears : ∀ s tr q k, s.procs p = .running op tr (.call (.scim q) k) →
      ∃ r, Reply.fit r q = some (reply q) ∧ may s (.scim p t r))
    (executes : ∀ s, may s (.sql p t false)) {prog : Prog calls Outcome} {s : Sys} {tr : Trace calls}
    (at' : s.procs p = .running op tr prog) (later : s.now ≤ t) :
    ∃ s' tr', Runs.Reach (step b config) may s s' ∧
      s'.procs p = .running op tr' (.ret (run (answer t reply) prog s.db).1) ∧
      s'.db = (run (answer t reply) prog s.db).2 ∧ s'.now ≤ t := by
  induction prog generalizing s tr with
  | ret out => exact ⟨s,tr,.start,at',rfl,later⟩
  | call c k ih =>
    cases c with
    | scim q =>
      obtain ⟨r,fits,chosen⟩ := hears s tr q k at'
      have move : step b config s (.scim p t r) = some (after s p op tr ⟨t,.scim q,reply q⟩ (k (reply q)) s.db) := by
        simp [step,at',later,fits]
      obtain ⟨s',tr',onward,rest⟩ := ih (reply q) (s := after s p op tr ⟨t,.scim q,reply q⟩ (k (reply q)) s.db)
        (putSame s.procs p _) (Int.le_refl t)
      exact ⟨s',tr',Runs.reachTrans (.next .start _ chosen move) onward,rest⟩
    | sql st =>
      have move : step b config s (.sql p t false) = some (after s p op tr ⟨t,.sql st,(execute t false s.db st).1⟩
          (k (execute t false s.db st).1) (execute t false s.db st).2) := by
        simp [step,at',later]
      obtain ⟨s',tr',onward,rest⟩ := ih (execute t false s.db st).1
        (s := after s p op tr ⟨t,.sql st,_⟩ _ (execute t false s.db st).2) (putSame s.procs p _) (Int.le_refl t)
      exact ⟨s',tr',Runs.reachTrans (.next .start _ (executes s) move) onward,rest⟩

end SssdOidc.Solo
