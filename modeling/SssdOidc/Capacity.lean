import SssdOidc.LinearProbing
import SssdOidc.Provenance

/-! `RangeExhausted` is said only of a range that is full at that moment, so a directory
with no more ids than the range has slots never comes to hear of it. -/
namespace SssdOidc.Capacity
open Model Database Mapping Program Cache Service SssdOidc.System Protocol Conformance History Provenance
open Probing (Held)
open Stability (fourSlots scimUser)
open Runs (Reach)

section Blame
variable {b : Build} {config : Config} {ε α β : Type} {full : ε}

def Blames (b : Build) (config : Config) (full : ε) (tr : Trace calls) (r : Except (Halt ε) α) : Prop :=
  r = .error (.error full) → ∃ c k, Exhausted b config c k tr

/- Wherever `p` starts, it ends with `full` only where all slots of a walk have just been passed. -/
def Blaming (b : Build) (config : Config) (full : ε) (p : Act ε α) : Prop :=
  ∀ tr, Follows (fun _ _ => True) (fun tr r => Blames b config full tr r) p tr

theorem followsAny (p : Prog calls α) (tr : Trace calls) : Follows (fun _ _ => True) (fun _ _ => True) p tr := by
  induction p generalizing tr with
  | ret a => trivial
  | call c k ih => exact ⟨trivial,fun t r => ih r _⟩

theorem blamingPure (a : α) : Blaming b config full (pure a : Act ε α) := fun _ never => nomatch never

theorem blamingThen {p : Act ε α} {f : α → Act ε β} (first : Blaming b config full p)
    (later : ∀ a, Blaming b config full (f a)) : Blaming b config full (p >>= f) := by
  intro tr
  refine followsAttempt (followsMono (first tr) fun tr' r blames => ?_)
  cases r with
  | ok a => exact later a tr'
  | error e =>
    intro same
    cases same
    exact blames rfl

theorem blamingMap {p : Act ε α} {f : α → β} (ok : Blaming b config full p) : Blaming b config full (f <$> p) :=
  blamingThen ok fun _ => blamingPure _

theorem blamingSql (st : Stmt) : Blaming b config .rangeExhausted (sql st) := by
  intro tr
  refine ⟨trivial,fun t r => ?_⟩
  cases r with
  | ok r => exact fun never => nomatch never
  | error e => exact fun never => nomatch never

theorem blamingCached {p : Act CacheError α} (ok : Blaming b config .rangeExhausted p) :
    Blaming b config (.cache .rangeExhausted) (cached p) := by
  intro tr
  refine followsCached (followsMono (ok tr) fun tr' r blames same => blames ?_)
  rcases r with (e | -) | a
  · cases same
    rfl
  · cases same
  · cases same

theorem blamingCaught (p : Act ServiceError α) : Blaming b config (.cache .rangeExhausted) (attempt p) := by
  intro tr
  refine followsCaught (followsMono (followsAny p tr) fun tr' r _ same => ?_)
  rcases r with (e | -) | a <;> cases same

theorem blamingAsk {q : ScimQuery} {f : Except ScimError q.Resp → Act ServiceError α}
    (ok : ∀ r, Blaming b config (.cache .rangeExhausted) (f r)) :
    Blaming b config (.cache .rangeExhausted) (ask q >>= f) := by
  intro tr
  exact followsAsk trivial fun t r => ok r _

theorem blamesWalk {c : Column} {externalId : String} {tr : Trace calls} {stop : Halt CacheError}
    (stops : stop = .panic ∨ (stop = .error .rangeExhausted ∧ slots b config c externalId ≠ []))
    (rest : List UInt32) {more front} (probes : Probes more) (split : slots b config c externalId = front ++ rest)
    (passed : ∀ x ∈ front, Passed c externalId (more ++ tr) x) :
    Follows (fun _ _ => True) (fun tr r => Blames b config .rangeExhausted tr r)
      (walk (fun x => sql (.selectOwner c x externalId)) stop rest) (more ++ tr) := by
  induction rest generalizing more front with
  | nil =>
    intro same
    rcases stops with rfl | ⟨rfl,some'⟩
    · cases same
    · refine ⟨c,externalId,some',fun x inside => passed x ?_⟩
      simpa [split] using inside
  | cons x rest ih =>
    refine followsSql trivial (fun t e never => nomatch never) fun t r => ?_
    match r with
    | none => exact fun never => nomatch never
    | some true => exact fun never => nomatch never
    | some false =>
      have here : (⟨t,.sql (.selectOwner c x externalId),.ok (some false)⟩ : Event calls) ∈
          recent (⟨t,.sql (.selectOwner c x externalId),.ok (some false)⟩ :: (more ++ tr)) := by
        rw [recentRead rfl]
        exact List.mem_cons_self
      have old : ∀ y ∈ front, Passed c externalId
          (⟨t,.sql (.selectOwner c x externalId),.ok (some false)⟩ :: (more ++ tr)) y :=
        fun y inside => probesPassed (probesCons probesNil) (passed y inside)
      refine ih (probesCons probes) (show _ = (front ++ [x]) ++ rest by simp [split]) fun y inside => ?_
      rcases List.mem_append.mp inside with before | last
      · exact old y before
      · rw [List.mem_singleton.mp last]
        exact ⟨t,here⟩

theorem blamingResolve (c : Column) (externalId : String) :
    Blaming b config .rangeExhausted (resolveColumn b config c externalId) := by
  intro tr
  rw [resolveColumnWalk]
  refine blamesWalk ?_ _ probesNil (List.nil_append _).symm (by simp)
  cases ends : pathEnd b (rangeMin config c) (rangeSize config c) CacheError.rangeExhausted externalId with
  | panic => exact .inl rfl
  | error e =>
    obtain ⟨same,some'⟩ := pathEndExhausted ends
    exact .inr ⟨same ▸ rfl,some'⟩

end Blame

section Operations
variable {b : Build} {config : Config}

theorem blamingUserModel (su : ScimUser) : Blaming b config (.cache .rangeExhausted) (scimUserToModel b config su) :=
  blamingThen (blamingCached (blamingResolve .uid _)) fun _ =>
    blamingThen (blamingCached (blamingResolve .gid _)) fun _ => blamingPure _

theorem blamingGroupModel (sg : ScimGroup) : Blaming b config (.cache .rangeExhausted) (scimGroupToModel b config sg) :=
  blamingThen (blamingCached (blamingResolve .gid _)) fun _ => blamingPure _

theorem blamingInserts (externalId : String) (names : List String) :
    Blaming b config .rangeExhausted (insertMembers externalId names) := by
  induction names with
  | nil => exact blamingPure ()
  | cons name rest ih => exact blamingThen (blamingSql _) fun _ => ih

theorem blamingStoreGroup (g : Group) : Blaming b config .rangeExhausted (storeGroup g) :=
  blamingThen (blamingSql _) fun _ => blamingThen (blamingSql _) fun _ => blamingInserts _ _

theorem blamingRefreshUser (su : ScimUser) : Blaming b config (.cache .rangeExhausted) (refreshUser b config su) :=
  blamingThen (blamingUserModel su) fun _ => blamingThen (blamingCached (blamingSql _)) fun _ => blamingPure _

theorem blamingRefreshGroup (sg : ScimGroup) : Blaming b config (.cache .rangeExhausted) (refreshGroup b config sg) :=
  blamingThen (blamingGroupModel sg) fun _ => blamingThen (blamingCached (blamingStoreGroup _)) fun _ => blamingPure _

theorem blamingWithMembers (g : Group) : Blaming b config .rangeExhausted (withMembers g) :=
  blamingThen (blamingSql _) fun _ => blamingPure _

theorem blamingGroupByGid (ttl : Ttl) (gid : UInt32) : Blaming b config .rangeExhausted (getGroupByGid ttl gid) := by
  refine blamingThen (blamingSql _) fun row => ?_
  cases row with
  | none => exact blamingPure none
  | some g => exact blamingMap (blamingWithMembers g)

theorem blamingGroupByName (ttl : Ttl) (name : String) : Blaming b config .rangeExhausted (getGroupByName ttl name) := by
  refine blamingThen (blamingSql _) fun row => ?_
  cases row with
  | none => exact blamingPure none
  | some g => exact blamingMap (blamingWithMembers g)

theorem blamingAllMembers (rows : List Group) : Blaming b config .rangeExhausted (withAllMembers rows) := by
  induction rows with
  | nil => exact blamingPure []
  | cons row rest ih =>
    exact blamingThen (blamingWithMembers row) fun _ => blamingThen ih fun _ => blamingPure _

theorem blamingRefreshUsers (sus : List ScimUser) :
    Blaming b config (.cache .rangeExhausted) (refreshUsers b config sus) := by
  induction sus with
  | nil => exact blamingPure []
  | cons su rest ih => exact blamingThen (blamingRefreshUser su) fun _ => blamingThen ih fun _ => blamingPure _

theorem blamingRefreshGroups (sgs : List ScimGroup) :
    Blaming b config (.cache .rangeExhausted) (refreshGroups b config sgs) := by
  induction sgs with
  | nil => exact blamingPure []
  | cons sg rest ih => exact blamingThen (blamingRefreshGroup sg) fun _ => blamingThen ih fun _ => blamingPure _

theorem blamingEnumerateUsers (sus : List ScimUser) :
    Blaming b config (.cache .rangeExhausted) (enumerateUsers b config sus) := by
  induction sus with
  | nil => exact blamingPure []
  | cons su rest ih =>
    refine blamingThen (blamingCaught _) fun r => ?_
    cases r with
    | error e => exact ih
    | ok u => exact blamingThen (blamingCaught _) fun _ => blamingThen ih fun _ => blamingPure _

theorem blamingEnumerateGroups (sgs : List ScimGroup) :
    Blaming b config (.cache .rangeExhausted) (enumerateGroups b config sgs) := by
  induction sgs with
  | nil => exact blamingPure []
  | cons sg rest ih =>
    refine blamingThen (blamingCaught _) fun r => ?_
    cases r with
    | error e => exact ih
    | ok g => exact blamingThen (blamingCaught _) fun _ => blamingThen ih fun _ => blamingPure _

theorem blamingResolveGroups (refs : List ScimGroupRef) :
    Blaming b config (.cache .rangeExhausted) (resolveGroups b config refs) := by
  induction refs with
  | nil => exact blamingPure []
  | cons g rest ih =>
    exact blamingThen (blamingCached (blamingResolve .gid _)) fun _ => blamingThen ih fun _ => blamingPure _

theorem blamingPurge (ttl : Ttl) : Blaming b config (.cache .rangeExhausted) (cached (purgeExpired ttl)) :=
  blamingCached (blamingThen (blamingSql _) fun _ => blamingThen (blamingSql _) fun _ => blamingSql _)

theorem blamingLookupUser (name : String) :
    Blaming b config (.cache .rangeExhausted) (lookupUserByName b config name) := by
  unfold lookupUserByName
  split
  · exact blamingPure none
  · refine blamingAsk fun r => ?_
    rcases r with e | none | su
    · exact blamingCached (blamingSql _)
    · exact blamingCached (blamingSql _)
    · exact blamingMap (blamingRefreshUser su)

theorem blamingLookupGroup (name : String) :
    Blaming b config (.cache .rangeExhausted) (lookupGroupByName b config name) := by
  unfold lookupGroupByName
  split
  · exact blamingPure none
  · refine blamingAsk fun r => ?_
    rcases r with e | none | sg
    · exact blamingCached (blamingGroupByName _ name)
    · exact blamingCached (blamingGroupByName _ name)
    · exact blamingMap (blamingRefreshGroup sg)

theorem blamingCheckUserActive (name : String) :
    Blaming b config (.cache .rangeExhausted) (checkUserActive b config name) := by
  unfold checkUserActive
  split
  · exact blamingPure false
  · refine blamingAsk fun r => ?_
    rcases r with e | none | su
    · dsimp only
      split
      · refine blamingThen (blamingCached (blamingSql _)) fun u => ?_
        cases u with
        | none => exact blamingPure false
        | some u => exact blamingPure u.active
      · exact blamingPure false
    · exact blamingPure false
    · exact blamingMap (blamingRefreshUser su)

theorem blamingLookupGroupsForUser (name : String) :
    Blaming b config (.cache .rangeExhausted) (lookupGroupsForUser b config name) := by
  unfold lookupGroupsForUser
  split
  · exact blamingPure []
  · refine blamingAsk fun r => ?_
    rcases r with e | none | su
    · exact blamingThen (blamingCached (blamingThen (blamingSql _) fun rows => blamingAllMembers rows)) fun _ => blamingPure _
    · exact blamingPure []
    · exact blamingThen (blamingRefreshUser su) fun _ => blamingResolveGroups su.groups

theorem blamingOperation (op : Op) : Blaming b config (.cache .rangeExhausted) (operation b config op) := by
  cases op with
  | new => exact blamingMap (blamingThen (blamingCaught _) fun _ => blamingPure _)
  | purgeExpired ttl => exact blamingMap (blamingPurge ttl)
  | lookupUserByName name => exact blamingMap (blamingLookupUser name)
  | lookupUserByUid uid => exact blamingMap (blamingCached (blamingSql _))
  | lookupGroupByName name => exact blamingMap (blamingLookupGroup name)
  | lookupGroupByGid gid => exact blamingMap (blamingCached (blamingGroupByGid _ gid))
  | listAllUsers =>
    refine blamingMap (blamingAsk fun r => ?_)
    cases r with
    | error e => exact fun tr never => nomatch never
    | ok sus => exact blamingRefreshUsers sus
  | listAllGroups =>
    refine blamingMap (blamingAsk fun r => ?_)
    cases r with
    | error e => exact fun tr never => nomatch never
    | ok sgs => exact blamingRefreshGroups sgs
  | checkUserActive name => exact blamingMap (blamingCheckUserActive name)
  | lookupGroupsForUser name => exact blamingMap (blamingLookupGroupsForUser name)
  | setpwent =>
    refine blamingMap (blamingAsk fun r => ?_)
    cases r with
    | error e => exact blamingPure none
    | ok sus => exact blamingMap (blamingEnumerateUsers sus)
  | setgrent =>
    refine blamingMap (blamingAsk fun r => ?_)
    cases r with
    | error e => exact blamingPure none
    | ok sgs => exact blamingMap (blamingEnumerateGroups sgs)

end Operations

/- The ids of a directory over all its versions. A GID may be asked for an id that is no
group's, so there one slot has to be left. -/
structure Room (config : Config) (d : Source) (ids : Column → Finset String) : Prop where
  users : ∀ su ∈ d.users, su.id ∈ ids .uid
  groups : ∀ sg ∈ d.groups, sg.id ∈ ids .gid
  uids : (ids .uid).card ≤ (rangeSize config .uid).toNat
  gids : (ids .gid).card < (rangeSize config .gid).toNat

section Fits
variable {b : Build} {config : Config} {d : Source} {ids : Column → Finset String} {db : Db}

theorem ownersKnown (room : Room config d ids) (sourced : FromSource b config d db) {c : Column} {x : UInt32} {k : String}
    (own : db.owners c x = some k) : k ∈ ids c := by
  have inside := ownersEntries.mp own
  cases c with
  | uid =>
    obtain ⟨row,there,same⟩ := List.mem_map.mp inside
    obtain ⟨su,among,made,-⟩ := sourced.users row there
    have key : row.externalId = su.id := congrArg User.externalId made
    cases same
    exact key ▸ room.users su among
  | gid =>
    obtain ⟨row,there,same⟩ := List.mem_map.mp inside
    obtain ⟨sg,among,key,-⟩ := (sourced.groups row there).group
    have key' : row.externalId = sg.id := key
    cases same
    exact key' ▸ room.groups sg among

theorem ownersOnce {c : Column} (x y : UInt32) (k : String) (left : db.owners c x = some k) (right : db.owners c y = some k) :
    x = y := by
  have same := List.inj_on_of_nodup_map (entriesKeys db c) (ownersEntries.mp left) (ownersEntries.mp right) rfl
  exact congrArg Prod.snd same

theorem notFull (room : Room config d ids) (sourced : FromSource b config d db) {c : Column} {k : String}
    (bounds : InBounds (rangeMin config c) (rangeSize config c)) (small : (rangeSize config c).toNat ≤ 2^31)
    (known : Known d c k) (held : ∀ x ∈ slots b config c k, Held (db.owners c) k x) : False := by
  have ring : slots b config c k = _ := pathRing bounds small
  have distinct : (slots b config c k).Nodup := by
    rw [ring]
    refine List.Nodup.map_on (fun i left j right same => ?_) List.nodup_range
    exact LinearProbing.ringSlotInjective bounds (List.mem_range.mp left) (List.mem_range.mp right) same
  have length : (slots b config c k).length = (rangeSize config c).toNat := by
    rw [ring,List.length_map,List.length_range]
  have count := Probing.heldCount distinct held (fun x j own => ownersKnown room sourced own) ownersOnce
  rw [length] at count
  cases c with
  | uid =>
    obtain ⟨su,among,rfl⟩ := known
    have fewer := Finset.card_erase_lt_of_mem (room.users su among)
    have fits := room.uids
    omega
  | gid =>
    have fewer := Finset.card_erase_le (a := k) (s := ids .gid)
    have fits := room.gids
    omega

end Fits

theorem neverExhausted (b : Build) (config : Config) (d : Source) (ids : Column → Finset String) (room : Room config d ids)
    (bounds : ∀ c, InBounds (rangeMin config c) (rangeSize config c)) (small : ∀ c, (rangeSize config c).toNat ≤ 2^31)
    (now : Int) (s : Sys) (run : Reach (step b config) (fun s l => Single l ∧ Hears d.Says s l) (fresh empty now) s) :
    ∀ p op out, Entry.finish p op out ∈ s.log → out ≠ .error (.error (.cache .rangeExhausted)) := by
  refine moveInvariant (fun s => ∀ p op out, Entry.finish p op out ∈ s.log →
    out ≠ .error (.error (.cache .rangeExhausted))) (fun _ _ _ never => by cases never) ?_ run
  intro s l s' before inv chosen move p op out inside
  cases entered b config move inside with
  | old there => exact inv p op out there
  | finished op out at' =>
    rintro rfl
    have kept := keptFrom (fromNothing b config d) (Runs.reachMono (fun _ _ may => may.2) before)
    have follows := followsRun (fun op => blamingOperation op []) before
    obtain ⟨c,k,some',passed⟩ := follows _ _ _ _ at' rfl
    have told := reflected (fun _ _ may => may.1) before
    rw [show l.pid = 0 from chosen.1] at at'
    obtain ⟨x,first⟩ := List.exists_mem_of_ne_nil _ some'
    -- the walk that found the range full was one that the contract admits
    obtain ⟨t,probe⟩ := passed x first
    have known : Known d c k := (kept.called _ _ (logged before _ _ _ _ at' _ (recentMember probe))).1
    exact notFull room kept.db (bounds c) (small c) known fun y onPath => passedHeld (told _ _ _ at') (passed y onPath)

def crowd : List ScimUser := [scimUser "u2" "two",scimUser "u3" "three",scimUser "u4" "four",scimUser "u0" "zero"]

def full : Source := ⟨{su | su ∈ crowd},∅,Eq,fun _ => rfl⟩

instance : DecidablePred (· ∈ full.users) := fun su => inferInstanceAs (Decidable (su ∈ crowd))
instance : DecidablePred (· ∈ full.groups) := fun _ => .isFalse id
instance (m n : String) : Decidable (full.alike m n) := inferInstanceAs (Decidable (m = n))

def crowding : List Label := whole 0 .listAllUsers 0 (some (.users crowd)) 16

def crowdIds : Column → Finset String
  | .uid => {"u2","u3","u4","u0"}
  | .gid => ∅

theorem crowdFits : ∃ s, Runs.replay (step release fourSlots) (fun s l => Single l ∧ Hears full.Says s l) (fresh empty 0)
      crowding = some s ∧ s.db.entries .uid = [("u2",1001),("u3",1002),("u4",1003),("u0",1000)] ∧
    ∀ p op out, Entry.finish p op out ∈ s.log → out ≠ .error (.error (.cache .rangeExhausted)) := by
  have ends : (Runs.replay (step release fourSlots) (fun s l => Single l ∧ Hears full.Says s l) (fresh empty 0)
      crowding).map (fun s => s.db.entries .uid) = some [("u2",1001),("u3",1002),("u4",1003),("u0",1000)] := by
    decide +kernel
  obtain ⟨s,reached,uids⟩ := Option.map_eq_some_iff.mp ends
  have among : ∀ su ∈ crowd, su.id ∈ crowdIds .uid := by decide
  have room : Room fourSlots full crowdIds := ⟨among,fun sg never => never.elim,by decide,by decide⟩
  have bounds (c : Column) : InBounds (rangeMin fourSlots c) (rangeSize fourSlots c) := by
    cases c <;> exact ⟨by decide,by decide⟩
  have small (c : Column) : (rangeSize fourSlots c).toNat ≤ 2^31 := by cases c <;> decide
  exact ⟨s,reached,uids,neverExhausted release fourSlots full crowdIds room bounds small 0 s (Runs.replayReach reached)⟩

end SssdOidc.Capacity
