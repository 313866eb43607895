import SelfDbMini.Frontend.PlainObject

namespace SelfDbMini.Frontend.InfiniteList

open PlainObject

variable {α σ : Type}

def PAGE_SIZE : ℕ := 50

inductive SortOrder
  | asc
  | desc
  deriving DecidableEq, Repr

def SortOrder.toggle : SortOrder → SortOrder
  | .desc => .asc
  | .asc => .desc

inductive TablesSortBy
  | created_at
  | updated_at
  | name
  deriving DecidableEq, Repr

inductive UsersSortBy
  | created_at
  | email
  | first_name
  | last_name
  deriving DecidableEq, Repr

structure ListQuery (σ : Type) where
  search : String
  sortBy : σ
  sortOrder : SortOrder
  deriving DecidableEq, Repr

structure ListState (α σ : Type) where
  rows : List α
  loading : Bool
  hasMore : Bool
  page : ℕ
  isLoadingMore : Bool
  query : ListQuery σ
  deriving DecidableEq, Repr

def initialListState (sortBy : σ) : ListState α σ :=
  ⟨[], true, true, 1, false, ⟨"", sortBy, .desc⟩⟩

structure ListRequest (σ : Type) where
  query : ListQuery σ
  pageNum : ℕ
  append : Bool
  deriving DecidableEq, Repr

def ListRequest.skip (r : ListRequest σ) : ℕ := (r.pageNum - 1) * PAGE_SIZE

/-- The server's rows for each query, in the order it returns them. -/
abbrev Server (α σ : Type) := ListQuery σ → List α

def slice (server : Server α σ) (r : ListRequest σ) : List α :=
  ((server r.query).drop r.skip).take PAGE_SIZE

/-- The fetch after its `await`; `none` is an error response. -/
def receiveList (s : ListState α σ) (r : ListRequest σ) : Option (List α) → ListState α σ
  | some data =>
    { s with rows := if r.append then s.rows ++ data else data,
             hasMore := data.length == PAGE_SIZE, loading := false, isLoadingMore := false }
  | none => { s with loading := false, isLoadingMore := false }

@[simp] theorem receiveList_query (s : ListState α σ) (r : ListRequest σ) (x : Option (List α)) :
    (receiveList s r x).query = s.query := by
  cases x <;> rfl

@[simp] theorem receiveList_page (s : ListState α σ) (r : ListRequest σ) (x : Option (List α)) :
    (receiveList s r x).page = s.page := by
  cases x <;> rfl

@[simp] theorem receiveList_loading (s : ListState α σ) (r : ListRequest σ)
    (x : Option (List α)) : (receiveList s r x).loading = false := by
  cases x <;> rfl

@[simp] theorem receiveList_isLoadingMore (s : ListState α σ) (r : ListRequest σ)
    (x : Option (List α)) : (receiveList s r x).isLoadingMore = false := by
  cases x <;> rfl

theorem mem_eraseIdx_of_getElem?_ne {β : Type} {l : List β} {x : β} {i : ℕ} (hx : x ∈ l)
    (hi : l[i]? ≠ some x) : x ∈ l.eraseIdx i := by
  obtain ⟨j, hj⟩ := List.mem_iff_getElem?.1 hx
  exact List.mem_eraseIdx_iff_getElem?.2 ⟨j, fun h ↦ hi (h ▸ hj), hj⟩

/-- A request waiting for its response: a list fetch, or a create, edit or delete request
whose handler's closure read `query`. -/
inductive Pending (α σ : Type)
  | fetch (r : ListRequest σ)
  | mutation (server' : Server α σ) (query : ListQuery σ)

/-- A list page between events: the server, the latest state, the state of the latest render
(which the handlers' closures read), the requests in flight in issue order, and the history of
settled list responses. -/
structure ListMachine (α σ : Type) where
  server : Server α σ
  state : ListState α σ
  rendered : ListState α σ
  pending : List (Pending α σ)
  settled : List (ListRequest σ × Option (List α))

/-- The fetch up to its `await`, with its closure's `token` and query. -/
def fetchList (noToken : ListState α σ → ListState α σ) (token : Option String)
    (m : ListMachine α σ) (query : ListQuery σ) (pageNum : ℕ) (append : Bool) :
    ListMachine α σ :=
  if truthy token then
    { m with
      state := if pageNum = 1 then { m.state with loading := true }
        else { m.state with isLoadingMore := true },
      pending := m.pending ++ [.fetch ⟨query, pageNum, append⟩] }
  else { m with state := noToken m.state }

def fetchTables (token : Option String) (m : ListMachine α σ) (query : ListQuery σ)
    (pageNum : ℕ) (append : Bool) : ListMachine α σ :=
  fetchList (fun s ↦ { s with loading := false }) token m query pageNum append

def fetchUsers (token : Option String) (m : ListMachine α σ) (query : ListQuery σ)
    (pageNum : ℕ) (append : Bool) : ListMachine α σ :=
  fetchList id token m query pageNum append

/-- `handleCreateTable`, `handleEditTable` and `handleDeleteTable` once their request
succeeded: `fetchTables()`. -/
def tablesMutationDone (token : Option String) (m : ListMachine α σ) (query : ListQuery σ) :
    ListMachine α σ :=
  fetchTables token m query 1 false

/-- `handleCreateUser`, `handleEditUser` and `handleDeleteUser` once their request succeeded:
`setPage(1); fetchUsers()`. -/
def usersMutationDone (token : Option String) (m : ListMachine α σ) (query : ListQuery σ) :
    ListMachine α σ :=
  fetchUsers token { m with state := { m.state with page := 1 } } query 1 false

/-- What distinguishes the Tables page from the Users page: the default sort, the fetch's
branch without a token, and what a create, edit or delete handler does once its request
succeeded. -/
structure ListPage (α σ : Type) where
  defaultSortBy : σ
  noToken : ListState α σ → ListState α σ
  mutationDone : Option String → ListMachine α σ → ListQuery σ → ListMachine α σ

def ListPage.fetch (p : ListPage α σ) : Option String → ListMachine α σ → ListQuery σ → ℕ →
    Bool → ListMachine α σ :=
  fetchList p.noToken

def tablesPage (α : Type) : ListPage α TablesSortBy :=
  ⟨.created_at, fun s ↦ { s with loading := false }, tablesMutationDone⟩

def usersPage (α : Type) : ListPage α UsersSortBy :=
  ⟨.created_at, id, usersMutationDone⟩

/-- An event of a list page: a handler runs, the page renders, or a response arrives. -/
inductive ListEvent (α σ : Type)
  | scroll
  | search (value : String)
  | clearSearch
  | sortBy (value : σ)
  | toggleSortOrder
  | refresh
  | mutate (server' : Server α σ)
  | render
  | settle (i : ℕ) (ok : Bool)

def setQuery (m : ListMachine α σ) (f : ListQuery σ → ListQuery σ) : ListMachine α σ :=
  { m with state := { m.state with query := f m.state.query, page := 1 } }

variable (p : ListPage α σ) (token : Option String)

/-- The page at its first render: the `useState` values, nothing in flight. -/
def firstList (server : Server α σ) : ListMachine α σ :=
  ⟨server, initialListState p.defaultSortBy, initialListState p.defaultSortBy, [], []⟩

def mountList (server : Server α σ) : ListMachine α σ :=
  p.fetch token (firstList p server) (initialListState p.defaultSortBy : ListState α σ).query 1 false

def settleList (m : ListMachine α σ) (i : ℕ) (ok : Bool) : Option (ListMachine α σ) :=
  match m.pending[i]? with
  | none => none
  | some (.fetch r) =>
    some { m with
      state := receiveList m.state r (if ok then some (slice m.server r) else none),
      pending := m.pending.eraseIdx i,
      settled := m.settled ++ [(r, if ok then some (slice m.server r) else none)] }
  | some (.mutation server' q) =>
    some (if ok then
      p.mutationDone token { m with server := server', pending := m.pending.eraseIdx i } q
    else { m with pending := m.pending.eraseIdx i })

def settleAll : List Bool → ListMachine α σ → ListMachine α σ
  | [], m => m
  | ok :: oks, m =>
    match settleList p token m 0 ok with
    | some m' => settleAll oks m'
    | none => m

/-- Between two operations: nothing in flight, the latest render shows the latest state, and
nothing is loading. -/
structure Quiet (m : ListMachine α σ) : Prop where
  pending_eq : m.pending = []
  rendered_eq : m.rendered = m.state
  not_loading : m.state.loading = false
  not_loadingMore : m.state.isLoadingMore = false

def reply (server : Server α σ) (r : ListRequest σ) (ok : Bool) : Option (List α) :=
  if ok then some (slice server r) else none

def answered (m : ListMachine α σ) (r : ListRequest σ) (ok : Bool) : ListMachine α σ :=
  ⟨m.server, receiveList m.state r (reply m.server r ok),
    receiveList m.state r (reply m.server r ok), [], m.settled ++ [(r, reply m.server r ok)]⟩

theorem quiet_answered (m : ListMachine α σ) (r : ListRequest σ) (ok : Bool) :
    Quiet (answered m r ok) :=
  ⟨rfl, rfl, receiveList_loading _ _ _, receiveList_isLoadingMore _ _ _⟩

theorem answered_true_state (m : ListMachine α σ) (r : ListRequest σ) :
    (answered m r true).state =
      { m.state with rows := if r.append then m.state.rows ++ slice m.server r else slice m.server r,
                     hasMore := (slice m.server r).length == PAGE_SIZE, loading := false,
                     isLoadingMore := false } := rfl

@[simp] theorem answered_server (m : ListMachine α σ) (r : ListRequest σ) (ok : Bool) :
    (answered m r ok).server = m.server := rfl

@[simp] theorem answered_page (m : ListMachine α σ) (r : ListRequest σ) (ok : Bool) :
    (answered m r ok).state.page = m.state.page :=
  receiveList_page _ _ _

@[simp] theorem answered_query (m : ListMachine α σ) (r : ListRequest σ) (ok : Bool) :
    (answered m r ok).state.query = m.state.query :=
  receiveList_query _ _ _

theorem fetch_of_truthy (ht : truthy token = true) (m : ListMachine α σ) (q : ListQuery σ)
    (n : ℕ) (a : Bool) :
    p.fetch token m q n a =
      { m with
        state := if n = 1 then { m.state with loading := true }
          else { m.state with isLoadingMore := true },
        pending := m.pending ++ [.fetch ⟨q, n, a⟩] } := by
  simp only [ListPage.fetch, fetchList, ht, if_true]

theorem settleAll_of_pending_nil (m : ListMachine α σ) (h : m.pending = []) (oks : List Bool) :
    settleAll p token oks m = m := by
  cases oks <;> simp [settleAll, settleList, h]

theorem settleAll_mutation (m : ListMachine α σ) (server' : Server α σ) (q : ListQuery σ)
    (h : m.pending = [.mutation server' q]) (oks : List Bool) :
    settleAll p token (true :: oks) m =
      settleAll p token oks (p.mutationDone token { m with server := server', pending := [] } q) := by
  simp [settleAll, settleList, h]

variable [DecidableEq σ]

/-- A render: the closures read the latest state, and `useEffect(() => fetch(), [fetch])` runs
when the fetch's dependencies changed. -/
def renderList (m : ListMachine α σ) : ListMachine α σ :=
  if m.state.query = m.rendered.query then { m with rendered := m.state }
  else p.fetch token { m with rendered := m.state } m.state.query 1 false

/-- One event, or `none` when it cannot happen: the grid (and its scroll events) and an enabled
Refresh button are not rendered while `loading`, the clear button only with a search, and a
select fires only on a change. -/
def listEvent (m : ListMachine α σ) : ListEvent α σ → Option (ListMachine α σ)
  | .scroll =>
    if m.rendered.loading then none
    else if m.rendered.hasMore && !m.rendered.isLoadingMore then
      some (p.fetch token { m with state := { m.state with page := m.state.page + 1 } }
        m.rendered.query (m.rendered.page + 1) true)
    else some m
  | .search v => some (setQuery m fun q ↦ { q with search := v })
  | .clearSearch =>
    if m.rendered.query.search = "" then none else some (setQuery m fun q ↦ { q with search := "" })
  | .sortBy v =>
    if v = m.rendered.query.sortBy then none else some (setQuery m fun q ↦ { q with sortBy := v })
  | .toggleSortOrder => some (setQuery m fun q ↦ { q with sortOrder := q.sortOrder.toggle })
  | .refresh =>
    if m.rendered.loading then none
    else some (p.fetch token { m with state := { m.state with page := 1 } } m.rendered.query 1 false)
  | .mutate server' => some { m with pending := m.pending ++ [.mutation server' m.rendered.query] }
  | .render => some (renderList p token m)
  | .settle i ok => settleList p token m i ok

/-- One operation whose requests are answered before the next starts: the event, a render
with its effects, the responses in issue order, and a render. -/
def seqOp (m : ListMachine α σ) (e : ListEvent α σ) (oks : List Bool) : ListMachine α σ :=
  renderList p token (settleAll p token oks (renderList p token ((listEvent p token m e).getD m)))

def seqMount (server : Server α σ) (oks : List Bool) : ListMachine α σ :=
  renderList p token (settleAll p token oks (mountList p token server))

def listRun (m : ListMachine α σ) : List (ListEvent α σ) → Option (ListMachine α σ)
  | [] => some m
  | e :: es => (listEvent p token m e).bind fun m' ↦ listRun m' es

theorem renderList_of_query_eq (m : ListMachine α σ) (h : m.state.query = m.rendered.query) :
    renderList p token m = { m with rendered := m.state } := if_pos h

theorem renderList_of_query_ne (m : ListMachine α σ) (h : m.state.query ≠ m.rendered.query) :
    renderList p token m = p.fetch token { m with rendered := m.state } m.state.query 1 false :=
  if_neg h

theorem settle_render_of_one_fetch (m : ListMachine α σ) (r : ListRequest σ)
    (h : m.pending = [.fetch r]) (hq : m.state.query = m.rendered.query) (ok : Bool)
    (oks : List Bool) :
    renderList p token (settleAll p token (ok :: oks) m) = answered m r ok := by
  have h₁ : settleList p token m 0 ok = some { m with
      state := receiveList m.state r (reply m.server r ok), pending := [],
      settled := m.settled ++ [(r, reply m.server r ok)] } := by
    simp [settleList, h, reply]
  rw [settleAll, h₁]
  dsimp only
  rw [settleAll_of_pending_nil p token _ rfl, renderList_of_query_eq p token]
  · rfl
  · simpa [receiveList_query] using hq

theorem seqOp_of_fetch {m m₁ : ListMachine α σ} {e : ListEvent α σ} {r : ListRequest σ}
    (he : listEvent p token m e = some m₁) (hq : m₁.state.query = m₁.rendered.query)
    (h1 : m₁.pending = [.fetch r]) (ok : Bool) (oks : List Bool) :
    seqOp p token m e (ok :: oks) = answered { m₁ with rendered := m₁.state } r ok := by
  rw [seqOp, he, Option.getD_some, renderList_of_query_eq p token m₁ hq]
  exact settle_render_of_one_fetch p token { m₁ with rendered := m₁.state } r h1 rfl ok oks

theorem seqOp_of_requery (ht : truthy token = true) {m m₁ : ListMachine α σ}
    {e : ListEvent α σ} (he : listEvent p token m e = some m₁)
    (hq : m₁.state.query ≠ m₁.rendered.query) (h0 : m₁.pending = []) (ok : Bool)
    (oks : List Bool) :
    seqOp p token m e (ok :: oks) =
      answered { m₁ with
        state := { m₁.state with loading := true }, rendered := m₁.state,
        pending := [.fetch ⟨m₁.state.query, 1, false⟩] } ⟨m₁.state.query, 1, false⟩ ok := by
  rw [seqOp, he, Option.getD_some, renderList_of_query_ne p token m₁ hq,
    fetch_of_truthy p token ht]
  simp only [h0, List.nil_append, if_true]
  exact settle_render_of_one_fetch p token _ _ rfl rfl ok oks

theorem seqOp_of_silent {m m₁ : ListMachine α σ} {e : ListEvent α σ}
    (he : listEvent p token m e = some m₁) (hq : m₁.state.query = m₁.rendered.query)
    (h0 : m₁.pending = []) (oks : List Bool) :
    seqOp p token m e oks = { m₁ with rendered := m₁.state } := by
  rw [seqOp, he, Option.getD_some, renderList_of_query_eq p token m₁ hq,
    settleAll_of_pending_nil p token { m₁ with rendered := m₁.state } h0,
    renderList_of_query_eq p token _ rfl]

end SelfDbMini.Frontend.InfiniteList
