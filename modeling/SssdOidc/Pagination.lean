import SssdOidc.Scim

/-! `paginate_list` of src/scim.rs against a server that lists `D`, and against any server. -/
namespace SssdOidc.Pagination
open Program Cache Scim

/- How many resources a server puts into a page, which may depend on the number of the
request and on its `startIndex`. -/
structure Server where
  size : Nat → Nat → Nat
  nonempty : ∀ i startIndex, 1 ≤ size i startIndex
  atMost : ∀ i startIndex, size i startIndex ≤ pageCount

section Listing
variable {T : Type} (D : List T) (server : Server)

/- The resources from `startIndex` on, which is 1-based; none behind the last. -/
def page (i startIndex : Nat) : List T := (D.drop (startIndex - 1)).take (server.size i startIndex)

/- The state is the number of requests so far. -/
def serves : (c : (http T).Call) → Nat → (http T).Resp c × Nat
  | ⟨_,.page startIndex _,_⟩, i => (.ok ⟨D.length,page D server i startIndex⟩,i + 1)
  | ⟨_,.filter _,_⟩, i => (.error .http,i + 1)

def reached : Nat → Nat
  | 0 => 0
  | n+1 => min D.length (reached n + server.size n (reached n + 1))

def pages (n : Nat) : List (List T) := (List.range n).map fun i => page D server i (reached D server i + 1)

def Needs (n : Nat) : Prop := reached D server n = D.length ∧ ∀ m < n, reached D server m < D.length

variable {D server}

theorem reachedWithin (n : Nat) : reached D server n ≤ D.length := by
  cases n with
  | zero => exact Nat.zero_le _
  | succ n => exact Nat.min_le_left _ _

theorem reachedStays {n : Nat} (whole : reached D server n = D.length) (k : Nat) : reached D server (n + k) = D.length := by
  induction k with
  | zero => exact whole
  | succ k ih =>
    change min D.length (reached D server (n + k) + _) = D.length
    rw [ih]
    exact Nat.min_eq_left (Nat.le_add_right _ _)

theorem pageLength (n : Nat) :
    (page D server n (reached D server n + 1)).length = reached D server (n + 1) - reached D server n := by
  have within : reached D server n ≤ D.length := reachedWithin n
  rw [page,List.length_take,List.length_drop,Nat.add_sub_cancel,reached]
  omega

theorem pageNext (n : Nat) :
    D.take (reached D server n) ++ page D server n (reached D server n + 1) = D.take (reached D server (n + 1)) := by
  have within : reached D server n ≤ D.length := reachedWithin n
  rw [page,Nat.add_sub_cancel,← List.take_add,reached]
  rcases Nat.le_total D.length (reached D server n + server.size n (reached D server n + 1)) with long | short
  · rw [List.take_of_length_le long,Nat.min_eq_left long,List.take_length]
  · rw [Nat.min_eq_right short]

theorem pagesJoined (n : Nat) : (pages D server n).flatten = D.take (reached D server n) := by
  induction n with
  | zero => rfl
  | succ n ih =>
    rw [pages,List.range_succ,List.map_append,List.flatten_append,← pages,ih,← pageNext n]
    simp

theorem pageSome {n : Nat} (more : reached D server n < D.length) :
    0 < (page D server n (reached D server n + 1)).length := by
  have some' := server.nonempty n (reached D server n + 1)
  rw [pageLength,reached]
  omega

end Listing

section Loop
variable {T : Type} {D : List T} {server : Server} {client : ScimClient} {resource : String}

theorem runCall {σ : Type} {answer : (c : (http T).Call) → σ → (http T).Resp c × σ} {request : Request} {s : σ}
    {α : Type} {f : ListResponse T → Fetch T α} {resp : ListResponse T} {s'} (answered : answer request s = (.ok resp,s')) :
    run answer (call request >>= f : Fetch T α) s = run answer (f resp) s' := by
  have asked : run answer (call request) s = (.ok resp,s') := answered
  exact runOk asked

theorem paginateRun (left n : Nat) :
    (run (serves D server) (paginate client resource left (reached D server n + 1) (D.take (reached D server n))) n).1 =
      .ok (D.take (reached D server (n + left))) := by
  induction left generalizing n with
  | zero => rfl
  | succ left ih =>
    have grows : D.take (reached D server n) ++ page D server n (reached D server n + 1) = _ := pageNext n
    have fetched : (page D server n (reached D server n + 1)).length = reached D server (n + 1) - reached D server n :=
      pageLength n
    rw [paginate]
    refine (congrArg Prod.fst (runCall rfl)).trans ?_
    dsimp only
    rw [grows]
    have within : reached D server (n + 1) ≤ D.length := reachedWithin (n + 1)
    have size : (D.take (reached D server (n + 1))).length = reached D server (n + 1) := by
      rw [List.length_take]
      omega
    rw [size]
    by_cases stop : D.length ≤ reached D server (n + 1) ∨ (page D server n (reached D server n + 1)).length = 0
    · have whole : reached D server (n + 1) = D.length := by
        rcases stop with all | none'
        · omega
        · -- an empty page comes only behind the end
          have end' : ¬reached D server n < D.length := fun more => by
            have some' : 0 < (page D server n (reached D server n + 1)).length := pageSome more
            omega
          have before : reached D server n ≤ D.length := reachedWithin n
          exact reachedStays (by omega) 1
      have later : reached D server (n + (left + 1)) = D.length := by
        rw [Nat.add_comm left,← Nat.add_assoc]
        exact reachedStays whole left
      rw [if_pos stop,whole,later]
      rfl
    · have onward := ih (n + 1)
      have grown : reached D server n ≤ reached D server (n + 1) := by
        rw [reached]
        have before : reached D server n ≤ D.length := reachedWithin n
        omega
      rw [if_neg stop,fetched,show reached D server n + 1 + (reached D server (n + 1) - reached D server n) =
        reached D server (n + 1) + 1 by omega,onward,Nat.add_right_comm]
      rfl

theorem paginatePlays {left startIndex : Nat} {all : List T} {es : List (Event (http T))} {out}
    (played : Plays (paginate client resource left startIndex all) es out) :
    es.length ≤ left ∧ ∀ e ∈ es, ∀ x, e.resp = .error x → out = .error x := by
  induction left generalizing startIndex all es with
  | zero =>
    cases played
    exact ⟨Nat.le_refl 0,fun _ never => nomatch never⟩
  | succ left ih =>
    rw [paginate] at played
    cases played with
    | @call _ _ t r rest _ onward =>
      cases r with
      | error x =>
        cases onward
        refine ⟨Nat.succ_le_succ (Nat.zero_le _),fun e inside y failed => ?_⟩
        cases List.mem_singleton.mp inside
        cases failed
        rfl
      | ok resp =>
        -- the rest of the play is the rest of the loop
        have later : rest.length ≤ left ∧ ∀ e ∈ rest, ∀ x, e.resp = .error x → out = .error x := by
          change Plays (if _ then pure _ else _ : Fetch T (List T)) rest out at onward
          split at onward
          · cases onward
            exact ⟨Nat.zero_le _,fun _ never => nomatch never⟩
          · exact ih onward
        refine ⟨Nat.succ_le_succ later.1,fun e inside x failed => ?_⟩
        rcases List.mem_cons.mp inside with rfl | after
        · cases failed
        · exact later.2 e after x failed

end Loop

def listed {T : Type} (D : List T) (server : Server) (client : ScimClient) (resource : String) :
    Except ScimError (List T) := (run (serves D server) (paginateList client resource) 0).1

theorem paginateListExact {T : Type} (client : ScimClient) (resource : String) :
    (∀ (D : List T) (server : Server),
      (∀ n ≤ MAX_PAGINATION_PAGES, Needs D server n → listed D server client resource = .ok D) ∧
      ((∀ n ≤ MAX_PAGINATION_PAGES, ¬Needs D server n) → (pages D server MAX_PAGINATION_PAGES).flatten <+: D ∧
        listed D server client resource = .ok (pages D server MAX_PAGINATION_PAGES).flatten)) ∧
    ∀ es (out : Except ScimError (List T)), Plays (paginateList client resource) es out →
      es.length ≤ MAX_PAGINATION_PAGES ∧ ∀ e ∈ es, ∀ x, e.resp = .error x → out = .error x := by
  refine ⟨fun D server => ?_,fun es out played => paginatePlays played⟩
  have ran : listed D server client resource = .ok (D.take (reached D server (0 + MAX_PAGINATION_PAGES))) :=
    paginateRun MAX_PAGINATION_PAGES 0
  rw [Nat.zero_add] at ran
  constructor
  · intro n few needs
    have whole := reachedStays needs.1 (MAX_PAGINATION_PAGES - n)
    rw [Nat.add_sub_cancel' few] at whole
    rw [ran,whole,List.take_length]
  · intro _
    rw [pagesJoined]
    exact ⟨List.take_prefix _ _,ran⟩

end SssdOidc.Pagination
