import SssdOidc.Agreement
import SssdOidc.Membership

/-! Offline group membership goes by display name, online by user id. A display that is
another user's login grants that user the group as long as SCIM is away. -/
namespace SssdOidc.ForeignGroups
open Model Database Mapping Program Cache Service SssdOidc.System Protocol Conformance History Solo Stability
open SssdOidc.Membership
open Probing (firstFit)

section Statements
variable (b : Build) (config : Config) (d : Directory)

def GrantsOwn : Prop := ∀ t gs db, alone t d.serves (listAllGroups b config) empty = (.ok gs,db) →
  ∀ su ∈ d.users, ∀ t1 t2, t ≤ t1 → t ≤ t2 →
  ∀ gids db1, alone t1 offline (lookupGroupsForUser b config su.userName) db = (.ok gids,db1) → ∀ x ∈ gids,
    ∃ gids' db2, alone t2 d.serves (lookupGroupsForUser b config su.userName) db = (.ok gids',db2) ∧ x ∈ gids'

/- Nothing is ever served from the cache, or a display that is the login of a user stands
in no group without that user. -/
def Unforged : Prop := config.cache.ttlSeconds.seconds = 0 ∨
  ∀ su ∈ d.users, ¬MAX_NAME_LEN < su.userName.utf8ByteSize → ∀ sg ∈ d.groups, su.userName ∈ displays sg →
    Contains sg su.id

end Statements

variable {b : Build} {config : Config} {d : Directory} {t : Int} {db : Db}

theorem aloneTooLong {name : String} {reply : Replies} (long : MAX_NAME_LEN < name.utf8ByteSize) :
    alone t reply (lookupGroupsForUser b config name) db = (.ok [],db) := by
  unfold lookupGroupsForUser
  rw [if_pos long]
  rfl

theorem listedSlots {su : ScimUser} {stamps : Int → Prop} {shown} (mirrors : Mirrors b config stamps shown d.groups db)
    (user : su ∈ d.users) :
    ∀ r ∈ su.groups, ∃ y, firstFit (db.owners .gid) r.value (slots b config .gid r.value) = some y := by
  intro r inside
  obtain ⟨sg,listed,same,-⟩ := (d.exact su user r.value).mp ⟨r,inside,rfl⟩
  exact same ▸ mirroredSlot mirrors listed

theorem unforgedGrants (range : InBounds (rangeMin config .uid) (rangeSize config .uid)) (unforged : Unforged config d) :
    GrantsOwn b config d := by
  intro t gs db listing su user t1 t2 later later' gids db1 cached x inside
  have loaded := loadedListing listing
  by_cases long : MAX_NAME_LEN < su.userName.utf8ByteSize
  · rw [aloneTooLong long] at cached
    cases cached
    cases inside
  · rw [aloneDown rfl long] at cached
    cases cached
    obtain ⟨sg,listed,shown,t',rfl,young,holds⟩ := (memCachedFor loaded.toMirrors).mp inside
    rcases unforged with never | own
    · simp only [live,never,decide_eq_true_eq] at young
      omega
    · obtain ⟨r,ref,same⟩ := (d.exact su user sg.id).mpr ⟨sg,listed,rfl,own su user long sg listed shown⟩
      have slots := listedSlots loaded.toMirrors user
      -- nobody has a uid yet, and the first group of the user is a cached one
      have free (y : UInt32) : db.owners .uid y = none := by
        simp [Db.owners,UniqueTable.owner,UniqueTable.atSlot,loaded.nobody]
      obtain ⟨g,rest,split⟩ := List.exists_cons_of_ne_nil (List.ne_nil_of_mem ref)
      obtain ⟨gid,primary⟩ := slots g (by simp [split])
      have first : gidExternal su = g.value := by simp [gidExternal,split]
      obtain ⟨gids',db2,online,members⟩ := aloneOnline (t := t2) long (servesUser user)
        ((Probing.firstFitFree free).trans (pathHead range)) (first ▸ primary) slots
      exact ⟨gids',db2,online,(members x).mpr ⟨r,ref,same ▸ heldSlot loaded.settled holds⟩⟩

theorem grantsUnforged (lists : ∃ t gs db, alone t d.serves (listAllGroups b config) empty = (.ok gs,db))
    (grants : GrantsOwn b config d) : Unforged config d := by
  refine or_iff_not_imp_left.mpr fun served su user short sg listed shown => ?_
  obtain ⟨t,gs,db,listing⟩ := lists
  have loaded := loadedListing listing
  obtain ⟨gid,t',rfl,holds⟩ := loaded.holds sg listed
  have young : live t' config.cache.ttlSeconds t' = true := ReverseLookup.liveWithin (by omega)
  obtain ⟨gids',db2,online,inside⟩ := grants t' gs db listing su user t' t' (Int.le_refl t') (Int.le_refl t') _ _
    (aloneDown rfl short) gid ((memCachedFor loaded.toMirrors).mpr ⟨sg,listed,shown,t',rfl,young,holds⟩)
  obtain ⟨r,ref,stops⟩ := onlineResolved short (servesUser user) online gid inside
  obtain ⟨other,listed',same,member⟩ := (d.exact su user r.value).mp ⟨r,ref,rfl⟩
  obtain rfl : other = sg :=
    oneGroup loaded.toMirrors d.ids listed' listed (same ▸ stops) (heldSlot loaded.settled holds)
  exact member

theorem offlineGrantsOwn (range : InBounds (rangeMin config .uid) (rangeSize config .uid))
    (lists : ∃ t gs db, alone t d.serves (listAllGroups b config) empty = (.ok gs,db)) :
    GrantsOwn b config d ↔ Unforged config d :=
  ⟨grantsUnforged lists,unforgedGrants range⟩

/- Alice is in the group, and is shown there under the login of Bob. -/
def impostor : Directory where
  users := [⟨"u1","alice",none,none,[⟨"g1",none⟩]⟩,⟨"u2","bob",none,none,[]⟩]
  groups := [⟨"g1","staff",[⟨"u1",some "bob"⟩]⟩]
  names := by decide
  ids := by decide
  exact := by simp [Contains]

theorem impostorLists : ∃ t gs db, alone t impostor.serves (listAllGroups release fourSlots) empty = (.ok gs,db) := by
  have lists : (alone 0 impostor.serves (listAllGroups release fourSlots) empty).1.isOk = true := by decide +kernel
  cases listing : alone 0 impostor.serves (listAllGroups release fourSlots) empty with
  | mk r db =>
    rw [listing] at lists
    cases r with
    | error e => cases lists
    | ok gs => exact ⟨0,gs,db,listing⟩

theorem offlineGrantsOwnExample : GrantsOwn release fourSlots impostor ↔ Unforged fourSlots impostor :=
  offlineGrantsOwn ⟨by decide,by decide⟩ impostorLists

theorem foreignGroup : ¬GrantsOwn release fourSlots impostor := by
  intro grants
  rcases grantsUnforged impostorLists grants with never | own
  · cases never
  · obtain ⟨m,inside,same⟩ := own ⟨"u2","bob",none,none,[]⟩ (by simp [impostor]) (by decide)
      ⟨"g1","staff",[⟨"u1",some "bob"⟩]⟩ (by simp [impostor]) (by decide)
    rw [List.mem_singleton.mp inside] at same
    exact absurd same (by decide)

end SssdOidc.ForeignGroups
