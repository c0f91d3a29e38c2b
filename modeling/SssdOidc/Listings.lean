import SssdOidc.Applications
import SssdOidc.Enumeration
import SssdOidc.InitGroups
import SssdOidc.LostWrites

/-! What a program gets that asks for everything: the enumerations, from the listing of the
server to the last entry, and the supplementary groups of a login. -/
namespace SssdOidc.Listings
open Model Database Mapping Program Cache Service Packing RelyGuarantee Provenance Applications
open Enumeration (gets setent getent endent succeeded Sized deliversFrom passwdSized groupSized getpwentR getgrentR)
open InitGroups (Shared initgroupsDyn addGids addGidsFills fresh)
open LostWrites (enumerate enumerateUsersLoop enumerateGroupsLoop)
open Pam (pureOk)

/- A list as a loop leaves it: what it made of each item in its turn, less the items that
were refused. -/
inductive Kept {ι α : Type} (made : ι → α → Prop) (refused : ι → Prop) : List ι → List α → Prop where
  | done : Kept made refused [] []
  | took {x a rest as} (here : made x a) (later : Kept made refused rest as) : Kept made refused (x :: rest) (a :: as)
  | left {x rest as} (here : refused x) (later : Kept made refused rest as) : Kept made refused (x :: rest) as

section Loop
variable {ι α : Type} {convert : ι → Act ServiceError α} {store : α → Act CacheError Unit}

def Refused (convert : ι → Act ServiceError α) (es : List (Event calls)) (x : ι) : Prop :=
  ∃ es' e, es' ⊆ es ∧ Plays (convert x) es' (.error (.error e))

theorem keptMono {made made' : ι → α → Prop} {refused refused' : ι → Prop} {items as}
    (more : ∀ x ∈ items, ∀ a, made x a → made' x a) (also : ∀ x, refused x → refused' x)
    (kept : Kept made refused items as) : Kept made' refused' items as := by
  induction kept with
  | done => exact .done
  | took here later ih =>
    exact .took (more _ List.mem_cons_self _ here) (ih fun x inside => more x (List.mem_cons_of_mem _ inside))
  | left here later ih => exact .left (also _ here) (ih fun x inside => more x (List.mem_cons_of_mem _ inside))

theorem refusedMono {es es' : List (Event calls)} (more : es ⊆ es') {x : ι} (refused : Refused convert es x) :
    Refused convert es' x := by
  obtain ⟨inner,e,within,failed⟩ := refused
  exact ⟨inner,e,fun _ here => more (within here),failed⟩

theorem enumeratePlays {items : List ι} {es as} (played : Plays (enumerate convert store items) es (.ok as)) :
    Kept (fun x a => ∃ es' ⊆ es, Plays (convert x) es' (.ok a)) (Refused convert es) items as := by
  induction items generalizing es as with
  | nil =>
    obtain ⟨-,rfl⟩ := pureOk played
    exact .done
  | cons x rest ih =>
    obtain ⟨front,r,back,rfl,tried,later⟩ := bindPlaysOk played
    obtain ⟨result,converted,same⟩ := playsAfter tried
    have ahead : front ⊆ front ++ back := List.subset_append_left _ _
    have behind : back ⊆ front ++ back := List.subset_append_right _ _
    -- what is known of the events of the rest holds in those of the whole
    have widen {es' : List (Event calls)} (within : es' ⊆ back) {as : List α}
        (kept : Kept (fun x a => ∃ inner ⊆ es', Plays (convert x) inner (.ok a)) (Refused convert es') rest as) :
        Kept (fun x a => ∃ inner ⊆ front ++ back, Plays (convert x) inner (.ok a)) (Refused convert (front ++ back))
          rest as := by
      have grown : es' ⊆ front ++ back := fun _ here => behind (within here)
      refine keptMono (fun x _ a made => ?_) (fun _ => refusedMono grown) kept
      obtain ⟨inner,inside,ran⟩ := made
      exact ⟨inner,fun _ here => grown (inside here),ran⟩
    rcases result with (e | -) | a
    · cases same
      exact .left ⟨front,e,ahead,converted⟩ (widen (List.Subset.refl _) (ih later))
    · cases same
    · cases same
      obtain ⟨stored,_,onward,rfl,-,last⟩ := bindPlaysOk later
      obtain ⟨others,as',end',rfl,listed,made⟩ := bindPlaysOk last
      obtain ⟨rfl,rfl⟩ := pureOk made
      have within : others ⊆ stored ++ (others ++ []) := fun _ inside => by simp [inside]
      exact .took ⟨front,ahead,converted⟩ (widen within (ih listed))

theorem enumerateKept {b : Build} {config : Config} {d : Source} {made : ι → α → Prop} {items : List ι} {es as}
    (ok : ∀ x ∈ items, ∀ told, Ensures (contract b config d told Set.univ) (OnOk (made x)) (convert x))
    (played : Plays (enumerate convert store items) es (.ok as)) (among : Among b config d es) :
    Kept made (Refused convert es) items as := by
  refine keptMono (fun x inside a converted => ?_) (fun _ refused => refused) (enumeratePlays played)
  obtain ⟨inner,within,ran⟩ := converted
  exact amongPlays (ok x inside) ran fun e here => among e (within here)

theorem keptMade {made : ι → α → Prop} {refused : ι → Prop} {items as} (kept : Kept made refused items as) :
    ∀ a ∈ as, ∃ x, made x a := by
  induction kept with
  | done => exact fun _ never => nomatch never
  | took here later ih => exact List.forall_mem_cons.mpr ⟨⟨_,here⟩,ih⟩
  | left here later ih => exact ih

end Loop

section Entries
variable {α ρ : Type} {fill : α → Caller ρ → NssStatus × Caller ρ} {size : α → Nat} {wanted : α → Prop}
  {laid : Caller ρ → α → Caller ρ → Prop}

def ample (size : α → Nat) (entries : List α) (caller : Caller ρ) : Bool :=
  entries.all fun entry => size entry ≤ caller.buf.length

theorem ampleSucceeds (sized : Sized fill size) {entries : List α} {entry : α} {caller : Caller ρ}
    (inside : entry ∈ entries) (room : ample size entries caller = true) : succeeded (fill entry caller) = true := by
  have fits : size entry ≤ caller.buf.length := of_decide_eq_true (List.all_eq_true.mp room entry inside)
  exact beq_iff_eq.mpr ((sized.success entry caller).mpr fits)

theorem ampleServed (sized : Sized fill size) (entries : List α) (callers : List (Caller ρ)) (idx : Nat) :
    min (entries.length - idx) (callers.countP (ample size entries)) ≤
      (gets (getent fill) (some (entries,idx)) callers).countP succeeded := by
  induction callers generalizing idx with
  | nil => exact Nat.min_le_right _ _
  | cons caller rest ih =>
    cases under : entries[idx]? with
    | none =>
      have past : entries.length ≤ idx := List.getElem?_eq_none_iff.mp under
      rw [Nat.sub_eq_zero_of_le past,Nat.zero_min]
      exact Nat.zero_le _
    | some entry =>
      cases done : succeeded (fill entry caller) with
      | true =>
        have success : (fill entry caller).1 = .success := beq_iff_eq.mp done
        have next : getent fill (some (entries,idx)) caller = (fill entry caller,some (entries,idx + 1)) := by
          simp only [getent,under,success,if_true]
        have onward := ih (idx + 1)
        have most : (caller :: rest).countP (ample size entries) ≤ rest.countP (ample size entries) + 1 := by
          rw [List.countP_cons]
          split <;> omega
        rw [gets,next,List.countP_cons_of_pos done]
        dsimp only
        omega
      | false =>
        have short : ample size entries caller = false := by
          refine Bool.eq_false_iff.mpr fun room => ?_
          rw [ampleSucceeds sized (List.mem_of_getElem? under) room] at done
          cases done
        have failed : (fill entry caller).1 ≠ .success := fun success => by simp [succeeded,success] at done
        have next : getent fill (some (entries,idx)) caller = (fill entry caller,some (entries,idx)) := by
          simp only [getent,under,if_neg failed]
        have few : (caller :: rest).countP (ample size entries) = rest.countP (ample size entries) :=
          List.countP_cons_of_neg (by simp [short])
        rw [gets,next,few,List.countP_cons_of_neg (by simp [done])]
        exact ih idx

theorem everyEntry (sized : Sized fill size) (fills : ∀ caller, Fills fill (laid caller) caller) {entries : List α}
    {callers : List (Caller ρ)} (enough : entries.length ≤ callers.countP (ample size entries)) :
    List.Forall₂ (fun entry answer => ∃ caller ∈ callers, answer = fill entry caller ∧ laid caller entry answer.2) entries
      ((gets (getent fill) (some (entries,0)) callers).filter succeeded) := by
  obtain ⟨served,sub,few,same⟩ := (deliversFrom sized entries callers 0).ordered
  rw [List.drop_zero] at few same
  have many := ampleServed sized entries callers 0
  rw [Nat.sub_zero,Nat.min_eq_left enough,List.countP_eq_length_filter,same,List.length_zipWith] at many
  rw [same]
  refine List.forall₂_iff_get.mpr ⟨by rw [List.length_zipWith]; omega,fun i left right => ?_⟩
  have there : i < served.length := by omega
  have at' : (List.zipWith fill entries served).get ⟨i,right⟩ = fill entries[i] served[i] := List.getElem_zipWith
  have success : succeeded (fill entries[i] served[i]) = true := by
    have inside : fill entries[i] served[i] ∈ (gets (getent fill) (some (entries,0)) callers).filter succeeded := by
      rw [same,← at']
      exact List.get_mem _ _
    exact (List.mem_filter.mp inside).2
  exact ⟨served[i],sub.subset (List.getElem_mem there),at',
    at' ▸ (fills served[i]).success entries[i] (beq_iff_eq.mp success)⟩

def Holds (wanted : α → Prop) (state : Enumeration.State α) : Prop := ∀ cursor ∈ state, ∀ entry ∈ cursor.1, wanted entry

theorem getHanded (fills : ∀ caller, Fills fill (laid caller) caller) {state : Enumeration.State α}
    (holds : Holds wanted state) (caller : Caller ρ) :
    Handed wanted (laid caller) caller (getent fill state caller).1 ∧ Holds wanted (getent fill state caller).2 := by
  rcases state with - | ⟨entries,idx⟩
  · exact ⟨handedFailure (.inr rfl),holds⟩
  · cases under : entries[idx]? with
    | none =>
      simp only [getent,under]
      exact ⟨handedFailure (.inl rfl),holds⟩
    | some entry =>
      simp only [getent,under]
      have mine : wanted entry := holds _ rfl entry (List.mem_of_getElem? under)
      refine ⟨handedAnswered (fills caller) (r := .ok (some entry)) ?_,?_⟩
      · rintro _ ⟨⟩ x ⟨⟩
        exact mine
      · rintro _ ⟨⟩
        exact holds (entries,idx) rfl

theorem callsHanded (fills : ∀ caller, Fills fill (laid caller) caller) {cs : List (Enumeration.Call α ρ)}
    (listed : ∀ entries, .set (some entries) ∈ cs → ∀ entry ∈ entries, wanted entry) {state : Enumeration.State α}
    (holds : Holds wanted state) : ∀ answered ∈ Enumeration.calls setent (getent fill) endent state cs,
      Handed wanted (laid answered.1) answered.1 answered.2 := by
  induction cs generalizing state with
  | nil => simp [Enumeration.calls]
  | cons c rest ih =>
    have later := fun entries inside => listed entries (List.mem_cons_of_mem c inside)
    cases c with
    | set entries =>
      cases entries with
      | none => exact ih later holds
      | some entries =>
        refine ih later ?_
        rintro _ ⟨⟩
        exact listed entries List.mem_cons_self
    | get caller =>
      obtain ⟨here,next⟩ := getHanded fills holds caller
      exact List.forall_mem_cons.mpr ⟨here,ih later next⟩
    | close => exact ih later (by simp [Holds,endent])

end Entries

section Directory
variable {b : Build} {config : Config} {d : Source} {es : List (Event calls)}

theorem listingPlays {α : Type} {q : ScimQuery} {k : Except ScimError q.Resp → Act ServiceError (Option (List α))}
    {loop : q.Resp → Act ServiceError (List α)} (heard : ∀ items, k (.ok items) = some <$> loop items)
    (unheard : ∀ e, k (.error e) = pure none) {as} (played : Plays (ask q >>= k : Act ServiceError _) es (.ok (some as))) :
    ∃ t items rest, es = ⟨t,.scim q,.ok items⟩ :: rest ∧ Plays (loop items) rest (.ok as) := by
  cases played with
  | @call _ _ t r rest _ onward =>
    change Plays (k r) rest _ at onward
    cases r with
    | ok items =>
      rw [heard] at onward
      obtain ⟨result,listed,same⟩ := playsMap onward
      cases result <;> cases same
      exact ⟨t,items,rest,rfl,listed⟩
    | error e =>
      rw [unheard] at onward
      cases (pureOk onward).2

theorem setpwentPlays {us} (played : Plays (Service.setpwent b config) es (.ok (some us))) :
    ∃ t sus rest, es = ⟨t,.scim .listUsers,.ok sus⟩ :: rest ∧
      Plays (enumerate (scimUserToModel b config) storeUser sus) rest (.ok us) := by
  obtain ⟨t,sus,rest,same,listed⟩ := listingPlays (fun _ => rfl) (fun _ => rfl) played
  rw [enumerateUsersLoop] at listed
  exact ⟨t,sus,rest,same,listed⟩

theorem setgrentPlays {gs} (played : Plays (Service.setgrent b config) es (.ok (some gs))) :
    ∃ t sgs rest, es = ⟨t,.scim .listGroups,.ok sgs⟩ :: rest ∧
      Plays (enumerate (scimGroupToModel b config) storeGroup sgs) rest (.ok gs) := by
  obtain ⟨t,sgs,rest,same,listed⟩ := listingPlays (fun _ => rfl) (fun _ => rfl) played
  rw [enumerateGroupsLoop] at listed
  exact ⟨t,sgs,rest,same,listed⟩

def UserOf (b : Build) (config : Config) (d : Source) (su : ScimUser) (u : User) : Prop :=
  u = userModel config su u.uid u.gid ∧ FromUser b config d u

def GroupOf (b : Build) (config : Config) (d : Source) (sg : ScimGroup) (g : Group) : Prop :=
  g = groupModel sg g.gid ∧ FromGroup b config d g

theorem usersKept {us} (played : Plays (Service.setpwent b config) es (.ok (some us))) (among : Among b config d es) :
    ∃ t sus, ⟨t,.scim .listUsers,.ok sus⟩ ∈ es ∧
      Kept (UserOf b config d) (Refused (scimUserToModel b config) es) sus us := by
  obtain ⟨t,sus,rest,rfl,listed⟩ := setpwentPlays played
  obtain ⟨⟨db,db',-,answered⟩,later⟩ := List.forall_mem_cons.mp among
  cases answered with
  | scim said =>
    have kept := enumerateKept (fun su inside _ => ensuresUserModel (said su inside)) listed later
    have behind := List.subset_cons_self (⟨t,.scim .listUsers,.ok sus⟩ : Event calls) rest
    exact ⟨t,sus,List.mem_cons_self,keptMono (fun _ _ _ made => made) (fun _ => refusedMono behind) kept⟩

theorem groupsKept {gs} (played : Plays (Service.setgrent b config) es (.ok (some gs))) (among : Among b config d es) :
    ∃ t sgs, ⟨t,.scim .listGroups,.ok sgs⟩ ∈ es ∧
      Kept (GroupOf b config d) (Refused (scimGroupToModel b config) es) sgs gs := by
  obtain ⟨t,sgs,rest,rfl,listed⟩ := setgrentPlays played
  obtain ⟨⟨db,db',-,answered⟩,later⟩ := List.forall_mem_cons.mp among
  cases answered with
  | scim said =>
    have kept := enumerateKept (fun sg inside _ => ensuresGroupModel (said sg inside)) listed later
    have behind := List.subset_cons_self (⟨t,.scim .listGroups,.ok sgs⟩ : Event calls) rest
    exact ⟨t,sgs,List.mem_cons_self,keptMono (fun _ _ _ made => made) (fun _ => refusedMono behind) kept⟩

/- Lists that the service has made, and calls that set none but these. -/
structure Listed {α ρ : Type} (list : Act ServiceError (Option (List α))) (b : Build) (config : Config) (d : Source)
    (lists : List (List (Event calls) × List α)) (cs : List (Enumeration.Call α ρ)) : Prop where
  played : ∀ l ∈ lists, Plays list l.1 (.ok (some l.2))
  among : ∀ l ∈ lists, Among b config d l.1
  sets : ∀ entries, .set (some entries) ∈ cs → ∃ l ∈ lists, l.2 = entries

structure Enumerates (b : Build) (config : Config) (d : Source)
    (us : List (List (Event calls) × List User)) (onUsers : List (Enumeration.Call User Passwd))
    (gs : List (List (Event calls) × List Group)) (onGroups : List (Enumeration.Call Group GroupEntry)) : Prop where
  users : ∀ answered ∈ Enumeration.calls Enumeration.setpwent getpwentR Enumeration.endpwent none onUsers,
    Handed (FromUser b config d) (PasswdLaid answered.1.buf) answered.1 answered.2
  usersHeard : ∀ l ∈ us, ∃ t sus, ⟨t,.scim .listUsers,.ok sus⟩ ∈ l.1 ∧
    Kept (UserOf b config d) (Refused (scimUserToModel b config) l.1) sus l.2
  everyUser : ∀ l ∈ us, ∀ state callers, l.2.length ≤ callers.countP (ample passwdSize l.2) →
    List.Forall₂ (fun u answer => ∃ caller ∈ callers, answer = fillPasswdBuf u caller ∧ PasswdLaid caller.buf u answer.2)
      l.2 ((gets getpwentR (Enumeration.setpwent (some l.2) state).2 callers).filter succeeded)
  groups : ∀ answered ∈ Enumeration.calls Enumeration.setgrent getgrentR Enumeration.endgrent none onGroups,
    Handed (FromGroup b config d) (GroupLaid answered.1.buf) answered.1 answered.2
  groupsHeard : ∀ l ∈ gs, ∃ t sgs, ⟨t,.scim .listGroups,.ok sgs⟩ ∈ l.1 ∧
    Kept (GroupOf b config d) (Refused (scimGroupToModel b config) l.1) sgs l.2
  everyGroup : ∀ l ∈ gs, ∀ state callers, l.2.length ≤ callers.countP (ample groupSize l.2) →
    List.Forall₂ (fun g answer => ∃ caller ∈ callers, answer = fillGroupBuf g caller ∧ GroupLaid caller.buf g answer.2)
      l.2 ((gets getgrentR (Enumeration.setgrent (some l.2) state).2 callers).filter succeeded)

theorem enumerates {us onUsers gs onGroups} (usersListed : Listed (Service.setpwent b config) b config d us onUsers)
    (groupsListed : Listed (Service.setgrent b config) b config d gs onGroups) :
    Enumerates b config d us onUsers gs onGroups where
  users := by
    refine callsHanded passwdFills (fun entries set u inside => ?_) (by simp [Holds])
    obtain ⟨l,there,rfl⟩ := usersListed.sets entries set
    obtain ⟨t,sus,-,kept⟩ := usersKept (usersListed.played l there) (usersListed.among l there)
    obtain ⟨su,made⟩ := keptMade kept u inside
    exact made.2
  usersHeard := fun l there => usersKept (usersListed.played l there) (usersListed.among l there)
  everyUser := fun l there state callers enough => everyEntry passwdSized passwdFills enough
  groups := by
    refine callsHanded groupFills (fun entries set g inside => ?_) (by simp [Holds])
    obtain ⟨l,there,rfl⟩ := groupsListed.sets entries set
    obtain ⟨t,sgs,-,kept⟩ := groupsKept (groupsListed.played l there) (groupsListed.among l there)
    obtain ⟨sg,made⟩ := keptMade kept g inside
    exact made.2
  groupsHeard := fun l there => groupsKept (groupsListed.played l there) (groupsListed.among l there)
  everyGroup := fun l there state callers enough => everyEntry groupSized groupFills enough

end Directory

section Example

def listing : (c : calls.Call) → calls.Resp c
  | .scim .listUsers => .ok [ann]
  | .scim .listGroups => .ok [staff]
  | c => answer c

theorem listingAnswered (c : calls.Call) : ∃ db', Answered office.Says empty c (listing c) db' := by
  rcases c with (_ | _ | _ | _) | st
  · exact stillAnswered _
  · exact stillAnswered _
  · exact ⟨empty,.scim fun su inside => List.mem_singleton.mp inside⟩
  · exact ⟨empty,.scim fun sg inside => List.mem_singleton.mp inside⟩
  · exact stillAnswered _

def annListed : User := ⟨"u2","ann",1001,1002,"Ann","/home/ann","/bin/bash",true⟩

def staffListed : Group := ⟨"g1","staff",1002,["ann"]⟩

theorem usersOfOffice : outcome listing (Service.setpwent release Stability.fourSlots) = .ok (some [annListed]) := by
  decide +kernel

theorem groupsOfOffice : outcome listing (Service.setgrent release Stability.fourSlots) = .ok (some [staffListed]) := by
  decide +kernel

theorem officeEnumerated : ∃ es es', Enumerates release Stability.fourSlots office
    [(es,[annListed])] [.set (some [annListed]),.get CStrings.roomy,.close]
    [(es',[staffListed])] [.set (some [staffListed]),.get (Layout.zeros 4096 64),.close] := by
  obtain ⟨es,users,among⟩ := answeredAmong listingAnswered (Service.setpwent release Stability.fourSlots)
  obtain ⟨es',groups,among'⟩ := answeredAmong listingAnswered (Service.setgrent release Stability.fourSlots)
  rw [usersOfOffice] at users
  rw [groupsOfOffice] at groups
  exact ⟨es,es',enumerates ⟨by simpa using users,by simpa using among,by simp⟩
    ⟨by simpa using groups,by simpa using among',by simp⟩⟩

end Example

theorem eraseDupsNodup (gids : List UInt32) : gids.eraseDups.Nodup := by
  induction size : gids.length using Nat.strong_induction_on generalizing gids with
  | _ n ih =>
    cases gids with
    | nil => exact List.nodup_nil
    | cons gid rest =>
      rw [List.eraseDups_cons]
      refine List.nodup_cons.mpr ⟨?_,ih _ ?_ _ rfl⟩
      · rw [List.mem_eraseDups]
        simp
      · rw [← size,List.length_cons]
        exact Nat.lt_succ_of_le (List.length_filter_le _ _)

theorem freshOnly {group gid : UInt32} {listed gids : List UInt32} :
    gid ∈ fresh group listed gids ↔ gid ∈ gids ∧ gid ≠ group ∧ gid ∉ listed := by
  rw [fresh,List.mem_eraseDups,List.mem_filter,decide_eq_true_iff]

/- What the kernel is handed for a login: the gids of before, and behind them gids of groups
that the directory gives it, each once. After a success none is missing, and the array is
full where the caller is to come again. -/
structure Granted (b : Build) (config : Config) (d : Source) (user : List UInt8) (group : UInt32) (es : List (Event calls))
    (c : InitGroups.Caller) (status : NssStatus) (c' : InitGroups.Caller) (new : List UInt32) : Prop where
  listed : c'.listed = c.listed ++ new
  once : new.Nodup
  within : c'.start ≤ c.size
  elsewhere : ∀ i, i < c.start ∨ c.size ≤ i → c'.groups i = c.groups i
  granted : ∀ gid ∈ new, gid ≠ group ∧ gid ∉ c.listed ∧
    ∃ name, String.fromUTF8? ⟨user.toArray⟩ = some name ∧ Grants b config d (Told es) name gid
  whole : status = .success → ∃ name gids, String.fromUTF8? ⟨user.toArray⟩ = some name ∧
    Plays (lookupGroupsForUser b config name) es (.ok gids) ∧ ∀ gid ∈ gids, gid = group ∨ gid ∈ c'.listed
  full : status = .tryAgain → c'.start = c.size ∧ c'.errno = ERANGE
  failed : status = .notFound ∨ status = .unavail → c' = { c with errno := 0 }

theorem grantedNothing {b : Build} {config : Config} {d : Source} {user group es c status} (fits : c.start ≤ c.size)
    (failed : status = .notFound ∨ status = .unavail) :
    Granted b config d user group es c status { c with errno := 0 } [] where
  listed := (List.append_nil _).symm
  once := List.nodup_nil
  within := fits
  elsewhere := fun _ _ => rfl
  granted := fun _ never => nomatch never
  whole := fun done => by rcases failed with rfl | rfl <;> cases done
  full := fun again => by rcases failed with rfl | rfl <;> cases again
  failed := fun _ => rfl

theorem grantedAdded {b : Build} {config : Config} {d : Source} {user : List UInt8} {name : String} (group : UInt32)
    {gids : List UInt32} {es : List (Event calls)} {c : InitGroups.Caller} (fits : c.start ≤ c.size)
    (decodes : String.fromUTF8? ⟨user.toArray⟩ = some name)
    (looked : Plays (lookupGroupsForUser b config name) es (.ok gids)) (among : Among b config d es) :
    Granted b config d user group es c (addGids group gids c).1 (addGids group gids c).2
      ((fresh group c.listed gids).take (c.size - c.start)) := by
  have filled := addGidsFills group gids fits
  have given := amongPlays (fun _ => ensuresLookupGroupsForUser name) looked among
  generalize (addGids group gids c).1 = status at filled
  generalize (addGids group gids c).2 = c' at filled
  have appended := filled.appended
  have room : status ≠ .tryAgain → c.start + (fresh group c.listed gids).length ≤ c.size := fun done =>
    Nat.le_of_not_lt fun full => done (filled.full full).1
  have tight : status ≠ .success → c.size < c.start + (fresh group c.listed gids).length := fun again =>
    Nat.lt_of_not_le fun room => again (filled.room room).1
  refine ⟨appended.listed,(eraseDupsNodup _).sublist (List.take_sublist _ _),?_,appended.elsewhere,?_,?_,?_,?_⟩
  · exact appended.size ▸ appended.fits
  · intro gid inside
    obtain ⟨there,other,absent⟩ := freshOnly.mp (List.mem_of_mem_take inside)
    exact ⟨other,absent,name,decodes,given gid there⟩
  · rintro rfl
    refine ⟨name,gids,decodes,looked,fun gid inside => ?_⟩
    have everything := room (by decide)
    rw [appended.listed,List.take_of_length_le (by omega),List.mem_append,freshOnly]
    by_cases primary : gid = group <;> by_cases known : gid ∈ c.listed <;> simp [primary,known,inside]
  · rintro rfl
    have more := tight (by decide)
    refine ⟨?_,(filled.full more).2⟩
    rw [appended.start,List.length_take]
    omega
  · intro never
    have either := (filled.full (tight (by rcases never with rfl | rfl <;> decide))).1
    rcases never with rfl | rfl <;> cases either

theorem initgroupsPlays {b : Build} {config : Config} {user : List UInt8} {group : UInt32} {es : List (Event calls)}
    {c c' : InitGroups.Caller} {status : NssStatus}
    (played : Plays (initgroupsDyn b (.service config) user group c) es (.ok (status,c'))) :
    ((status = .notFound ∨ status = .unavail) ∧ c' = { c with errno := 0 }) ∨
    ∃ name gids, String.fromUTF8? ⟨user.toArray⟩ = some name ∧
      Plays (lookupGroupsForUser b config name) es (.ok gids) ∧ addGids group gids c = (status,c') := by
  unfold initgroupsDyn at played
  split at played
  · obtain ⟨-,same⟩ := pureOk played
    cases same
    exact .inl ⟨.inl rfl,rfl⟩
  · rename_i name decodes
    obtain ⟨front,r,back,rfl,tried,later⟩ := bindPlaysOk played
    obtain ⟨result,looked,same⟩ := playsAfter tried
    rcases result with (e | -) | gids
    · cases same
      obtain ⟨-,same⟩ := pureOk later
      cases same
      exact .inl ⟨.inr rfl,rfl⟩
    · cases same
    · cases same
      obtain ⟨rfl,same⟩ := pureOk later
      rw [List.append_nil]
      exact .inr ⟨name,gids,decodes,looked,same⟩

theorem grantedEither {b : Build} {config : Config} {d : Source} {user : List UInt8} {group : UInt32}
    {es : List (Event calls)} {c c' : InitGroups.Caller} {status : NssStatus} (fits : c.start ≤ c.size)
    (either : ((status = .notFound ∨ status = .unavail) ∧ c' = { c with errno := 0 }) ∨
      ∃ name gids, String.fromUTF8? ⟨user.toArray⟩ = some name ∧
        Plays (lookupGroupsForUser b config name) es (.ok gids) ∧ addGids group gids c = (status,c'))
    (among : Among b config d es) : ∃ new, Granted b config d user group es c status c' new := by
  rcases either with ⟨failed,rfl⟩ | ⟨name,gids,decodes,looked,same⟩
  · exact ⟨[],grantedNothing fits failed⟩
  · have granted := grantedAdded group fits decodes looked among
    rw [same] at granted
    exact ⟨_,granted⟩

theorem initgroupsGranted {b : Build} {config : Config} {d : Source} {user : List UInt8} {group : UInt32}
    {es : List (Event calls)} {c c' : InitGroups.Caller} {status : NssStatus} (fits : c.start ≤ c.size)
    (played : Plays (initgroupsDyn b (.service config) user group c) es (.ok (status,c'))) (among : Among b config d es) :
    ∃ new, Granted b config d user group es c status c' new :=
  grantedEither fits (initgroupsPlays played) among

section Example

def annsArray : InitGroups.Caller := ⟨fun _ => 100,1,4,0,[]⟩

def annsGroups : Prog calls (Except (Halt ServiceError) (List UInt32)) := lookupGroupsForUser release Stability.fourSlots "ann"

theorem annsFound : outcome answer annsGroups = .ok [1002] := by
  decide +kernel

theorem annGranted : ∃ es status c' new, status = .success ∧ c'.listed = [100,1002] ∧
    Plays (initgroupsDyn release (.service Stability.fourSlots) [97,110,110] 100 annsArray) es (.ok (status,c')) ∧
    Granted release Stability.fourSlots office [97,110,110] 100 es annsArray status c' new := by
  have utf8 : String.fromUTF8? ⟨[97,110,110].toArray⟩ = some "ann" := by decide
  obtain ⟨es,played,among⟩ := answeredAmong stillAnswered
    (initgroupsDyn release (.service Stability.fourSlots) [97,110,110] 100 annsArray)
  have looked : run (fun c db => (answer c,db)) annsGroups empty =
      (.ok [1002],(run (fun c db => (answer c,db)) annsGroups empty).2) := Prod.ext annsFound rfl
  rw [outcome,InitGroups.initgroupsLookup utf8 looked] at played
  obtain ⟨new,granted⟩ := initgroupsGranted (by decide) played among
  exact ⟨es,_,_,new,by decide,by decide,played,granted⟩

end Example

end SssdOidc.Listings
