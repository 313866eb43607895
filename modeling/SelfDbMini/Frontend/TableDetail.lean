import SelfDbMini.Frontend.InfiniteList

namespace SelfDbMini.Frontend.TableDetail

open PlainObject InfiniteList

variable {ρ : Type}

def pageSize : ℕ := 50

structure DataQuery where
  search : Option String
  sortBy : Option String
  sortOrder : SortOrder
  deriving DecidableEq, Repr

structure DataRequest where
  page : ℕ
  query : DataQuery
  deriving DecidableEq, Repr

/-- The backend: the table's column names and, for each query, its rows in order. -/
structure DetailServer (ρ : Type) where
  columns : List String
  rows : DataQuery → List ρ

def dataPage (server : DetailServer ρ) (r : DataRequest) : List ρ × ℕ :=
  (((server.rows r.query).drop ((r.page - 1) * pageSize)).take pageSize,
    (server.rows r.query).length)

/-- The state of `TableDetail` that its fetches and controls read and write. `table` stands for
the `TableRead` object by the number of the `fetchTable` response that set it, since each sets a
new object. -/
structure DetailState (ρ : Type) where
  table : Option ℕ
  loading : Bool
  columns : List String
  tableData : List ρ
  totalRows : ℕ
  page : ℕ
  searchQuery : String
  sortBy : Option String
  sortOrder : SortOrder
  deriving DecidableEq, Repr

def initialDetailState : DetailState ρ := ⟨none, true, [], [], 0, 1, "", none, .desc⟩

def DetailState.dataRequest (s : DetailState ρ) : DataRequest :=
  ⟨s.page, ⟨orNull s.searchQuery, s.sortBy.bind orNull, s.sortOrder⟩⟩

def DetailState.dataDeps (s : DetailState ρ) : ℕ × String × Option String × SortOrder :=
  (s.page, s.searchQuery, s.sortBy, s.sortOrder)

/-- Not the spinner of `loading` nor "Table not found": the header and the search and sort
controls are rendered. -/
def DetailState.controlsShown (s : DetailState ρ) : Bool := !s.loading && s.table.isSome

/-- The grid, its scroll events and the Previous/Next footer are rendered for a table with
columns. -/
def DetailState.gridShown (s : DetailState ρ) : Bool := s.controlsShown && !s.columns.isEmpty

inductive DetailMutation
  | addColumn
  | updateColumn
  | deleteColumn
  | addRow
  | updateRow
  | deleteRow
  deriving DecidableEq, Repr

inductive Refetch
  | fetchTable
  | fetchData
  deriving DecidableEq, Repr

def DetailMutation.refetches : DetailMutation → List Refetch
  | .addColumn | .updateColumn | .deleteColumn => [.fetchTable, .fetchData]
  | .addRow | .deleteRow => [.fetchData, .fetchTable]
  | .updateRow => [.fetchData]

def DetailMutation.needsColumns : DetailMutation → Bool
  | .addColumn => false
  | _ => true

/-- A request waiting for its response: `fetchTable`'s, `fetchData`'s with its closure's request,
or a handler's with the server it leaves and the request its closure's `fetchData` sends. -/
inductive DetailPending (ρ : Type)
  | table
  | data (r : DataRequest)
  | mutation (kind : DetailMutation) (server' : DetailServer ρ) (r : DataRequest)

/-- The page between events: the server, the latest state, the state of the latest render, the
requests in flight in issue order, and the history of settled data responses. -/
structure DetailMachine (ρ : Type) where
  server : DetailServer ρ
  state : DetailState ρ
  rendered : DetailState ρ
  pending : List (DetailPending ρ)
  settled : List (DataRequest × Option (List ρ × ℕ))

/-- An event of the page: a control is used, the search debounce fires, a handler sends its
request, the page renders, or a response arrives. -/
inductive DetailEvent (ρ : Type)
  | previous
  | next
  | scroll
  | search (value : String)
  | clearSearch
  | sortBy (value : String)
  | toggleSortOrder
  | refresh
  | mutate (kind : DetailMutation) (server' : DetailServer ρ)
  | render
  | settle (i : ℕ) (ok : Bool)

def nextTable : Option ℕ → Option ℕ
  | none => some 0
  | some n => some (n + 1)

def receiveTable (s : DetailState ρ) (server : DetailServer ρ) (ok : Bool) : DetailState ρ :=
  if ok then { s with table := nextTable s.table, columns := server.columns, loading := false }
  else { s with loading := false }

def receiveData (s : DetailState ρ) : Option (List ρ × ℕ) → DetailState ρ
  | some (data, total) => { s with tableData := data, totalRows := total }
  | none => s

def resetPage (m : DetailMachine ρ) (f : DetailState ρ → DetailState ρ) : DetailMachine ρ :=
  { m with state := { f m.state with page := 1 } }

def setPage (m : DetailMachine ρ) (f : ℕ → ℕ) : DetailMachine ρ :=
  { m with state := { m.state with page := f m.state.page } }

/-- The page at its first render: the `useState` values, nothing in flight. -/
def firstDetail (server : DetailServer ρ) : DetailMachine ρ :=
  ⟨server, initialDetailState, initialDetailState, [], []⟩

variable (token : Option String)

def fetchTable (m : DetailMachine ρ) : DetailMachine ρ :=
  if truthy token then
    { m with state := { m.state with loading := true }, pending := m.pending ++ [.table] }
  else m

def fetchData (m : DetailMachine ρ) (r : DataRequest) : DetailMachine ρ :=
  if truthy token then { m with pending := m.pending ++ [.data r] } else m

def refetch (r : DataRequest) (m : DetailMachine ρ) : Refetch → DetailMachine ρ
  | .fetchTable => fetchTable token m
  | .fetchData => fetchData token m r

/-- The first render after its effects: `fetchTable` is called; `table` is still null, so the
data effect does not fetch. -/
def mountDetail (server : DetailServer ρ) : DetailMachine ρ :=
  fetchTable token (firstDetail server)

def settleDetail (m : DetailMachine ρ) (i : ℕ) (ok : Bool) : Option (DetailMachine ρ) :=
  match m.pending[i]? with
  | none => none
  | some .table =>
    some { m with state := receiveTable m.state m.server ok, pending := m.pending.eraseIdx i }
  | some (.data r) =>
    let x := if ok then some (dataPage m.server r) else none
    some { m with state := receiveData m.state x, pending := m.pending.eraseIdx i,
                  settled := m.settled ++ [(r, x)] }
  | some (.mutation kind server' r) =>
    some (if ok then
      kind.refetches.foldl (refetch token r) { m with server := server', pending := m.pending.eraseIdx i }
    else { m with pending := m.pending.eraseIdx i })

/-- A render: the closures read the latest state, and the effect `if (table) fetchData()` runs
when `table` or a dependency of `fetchData` changed. -/
def renderDetail (m : DetailMachine ρ) : DetailMachine ρ :=
  if m.state.table.isSome ∧
      (m.state.table ≠ m.rendered.table ∨ m.state.dataDeps ≠ m.rendered.dataDeps) then
    fetchData token { m with rendered := m.state } m.state.dataRequest
  else { m with rendered := m.state }

/-- One event, or `none` when it cannot happen: a control must be rendered (and enabled) to be
used, the clear button only with a search, and a select fires only on a change to one of its
options. -/
def detailEvent (m : DetailMachine ρ) : DetailEvent ρ → Option (DetailMachine ρ)
  | .previous =>
    if m.rendered.gridShown ∧ m.rendered.page ≠ 1 then some (setPage m fun p ↦ max 1 (p - 1))
    else none
  | .next =>
    if m.rendered.gridShown ∧ m.rendered.page * pageSize < m.rendered.totalRows then
      some (setPage m fun p ↦ p + 1)
    else none
  | .scroll =>
    if m.rendered.gridShown then
      some (if m.rendered.page * pageSize < m.rendered.totalRows then setPage m fun p ↦ p + 1
        else m)
    else none
  | .search v => some (resetPage m fun s ↦ { s with searchQuery := v })
  | .clearSearch =>
    if m.rendered.controlsShown ∧ m.rendered.searchQuery ≠ "" then
      some (resetPage m fun s ↦ { s with searchQuery := "" })
    else none
  | .sortBy v =>
    if m.rendered.controlsShown ∧ v ∈ "" :: m.rendered.columns ∧ v ≠ m.rendered.sortBy.getD "" then
      some (resetPage m fun s ↦ { s with sortBy := orNull v })
    else none
  | .toggleSortOrder =>
    if m.rendered.controlsShown then
      some (resetPage m fun s ↦ { s with sortOrder := s.sortOrder.toggle })
    else none
  | .refresh =>
    if m.rendered.controlsShown then some (fetchData token (fetchTable token m) m.rendered.dataRequest)
    else none
  | .mutate kind server' =>
    if m.rendered.controlsShown ∧ (kind.needsColumns → m.rendered.gridShown) then
      some { m with pending := m.pending ++ [.mutation kind server' m.rendered.dataRequest] }
    else none
  | .render => some (renderDetail token m)
  | .settle i ok => settleDetail token m i ok

def DetailEvent.isOperation : DetailEvent ρ → Bool
  | .render | .settle _ _ => false
  | _ => true

def DetailMachine.quiet [DecidableEq ρ] (m : DetailMachine ρ) : Bool :=
  m.pending.isEmpty && decide (m.rendered = m.state)

/-- The events applied in order, each operation only once the previous one's requests are all
answered and the page has rendered. -/
def seqDetailRun [DecidableEq ρ] (m : DetailMachine ρ) :
    List (DetailEvent ρ) → Option (DetailMachine ρ)
  | [] => some m
  | e :: es =>
    if e.isOperation && !m.quiet then none
    else (detailEvent token m e).bind fun m' ↦ seqDetailRun m' es

theorem fetchTable_of_truthy (ht : truthy token = true) (m : DetailMachine ρ) :
    fetchTable token m =
      { m with state := { m.state with loading := true }, pending := m.pending ++ [.table] } :=
  if_pos ht

theorem fetchData_of_truthy (ht : truthy token = true) (m : DetailMachine ρ) (r : DataRequest) :
    fetchData token m r = { m with pending := m.pending ++ [.data r] } :=
  if_pos ht

@[simp] theorem fetchData_state (m : DetailMachine ρ) (r : DataRequest) :
    (fetchData token m r).state = m.state := by
  unfold fetchData
  split <;> rfl

@[simp] theorem fetchTable_dataRequest (m : DetailMachine ρ) :
    (fetchTable token m).state.dataRequest = m.state.dataRequest := by
  unfold fetchTable
  split <;> rfl

theorem refetches_rec (P : DetailMachine ρ → Prop) (r : DataRequest)
    (htab : ∀ m, P m → P (fetchTable token m)) (hdat : ∀ m, P m → P (fetchData token m r)) :
    ∀ (fs : List Refetch) (m : DetailMachine ρ), P m → P (fs.foldl (refetch token r) m)
  | [], _, h => h
  | .fetchTable :: fs, m, h => refetches_rec P r htab hdat fs _ (htab m h)
  | .fetchData :: fs, m, h => refetches_rec P r htab hdat fs _ (hdat m h)

/-- The machines reachable once the mount effects ran, under any interleaving of events, renders
and responses. -/
inductive DetailMounted : DetailMachine ρ → Prop
  | mount (server : DetailServer ρ) : DetailMounted (mountDetail token server)
  | step {m m' : DetailMachine ρ} (e : DetailEvent ρ) : DetailMounted m →
      detailEvent token m e = some m' → DetailMounted m'

/-- The machines reachable from the first render: the first render itself, and every machine once
its mount effects ran. -/
def DetailReachable (m : DetailMachine ρ) : Prop :=
  (∃ server, m = firstDetail server) ∨ DetailMounted token m

theorem DetailMounted.seqDetailRun [DecidableEq ρ] {m m' : DetailMachine ρ}
    {es : List (DetailEvent ρ)} (h : DetailMounted token m)
    (hr : TableDetail.seqDetailRun token m es = some m') : DetailMounted token m' := by
  induction es generalizing m with
  | nil => cases hr; exact h
  | cons e es ih =>
    unfold TableDetail.seqDetailRun at hr
    split_ifs at hr
    obtain ⟨m₁, h₁, h₂⟩ := Option.bind_eq_some.1 hr
    exact ih (h.step e h₁) h₂

def applyData (d : List ρ × ℕ) (x : DataRequest × Option (List ρ × ℕ)) : List ρ × ℕ :=
  x.2.getD d

/-- The page shows the rows and total of the last data response to arrive. -/
def ShowsLastData (m : DetailMachine ρ) : Prop :=
  (m.state.tableData, m.state.totalRows) = m.settled.foldl applyData ([], 0)

def KeepsData (m m' : DetailMachine ρ) : Prop :=
  m'.state.tableData = m.state.tableData ∧ m'.state.totalRows = m.state.totalRows ∧
    m'.settled = m.settled

theorem KeepsData.trans {m₁ m₂ m₃ : DetailMachine ρ} (h₁ : KeepsData m₁ m₂)
    (h₂ : KeepsData m₂ m₃) : KeepsData m₁ m₃ :=
  ⟨h₂.1.trans h₁.1, h₂.2.1.trans h₁.2.1, h₂.2.2.trans h₁.2.2⟩

theorem keepsData_fetchTable (m : DetailMachine ρ) : KeepsData m (fetchTable token m) := by
  unfold fetchTable
  split <;> exact ⟨rfl, rfl, rfl⟩

theorem keepsData_fetchData (m : DetailMachine ρ) (r : DataRequest) :
    KeepsData m (fetchData token m r) := by
  unfold fetchData
  split <;> exact ⟨rfl, rfl, rfl⟩

theorem keepsData_renderDetail (m : DetailMachine ρ) : KeepsData m (renderDetail token m) := by
  unfold renderDetail
  split
  · exact keepsData_fetchData token _ _
  · exact ⟨rfl, rfl, rfl⟩

theorem keepsData_refetches (r : DataRequest) (fs : List Refetch) (m : DetailMachine ρ) :
    KeepsData m (fs.foldl (refetch token r) m) :=
  refetches_rec token (KeepsData m) r (fun _ h ↦ h.trans (keepsData_fetchTable token _))
    (fun _ h ↦ h.trans (keepsData_fetchData token _ _)) fs m ⟨rfl, rfl, rfl⟩

theorem detailEvent_data {m m' : DetailMachine ρ} {e : DetailEvent ρ}
    (he : detailEvent token m e = some m') :
    KeepsData m m' ∨ ∃ x, (m'.state.tableData, m'.state.totalRows) =
      applyData (m.state.tableData, m.state.totalRows) x ∧ m'.settled = m.settled ++ [x] := by
  cases e with
  | search => cases he; exact .inl ⟨rfl, rfl, rfl⟩
  | render => cases he; exact .inl (keepsData_renderDetail token m)
  | previous | next | scroll | clearSearch | sortBy | toggleSortOrder | mutate =>
    simp only [detailEvent] at he
    split_ifs at he <;> cases he <;> exact .inl ⟨rfl, rfl, rfl⟩
  | refresh =>
    simp only [detailEvent] at he
    split_ifs at he
    cases he
    exact .inl ((keepsData_fetchTable token m).trans (keepsData_fetchData token _ _))
  | settle i ok =>
    simp only [detailEvent, settleDetail] at he
    split at he
    · cases he
    · cases he
      exact .inl (by unfold receiveTable; split <;> exact ⟨rfl, rfl, rfl⟩)
    · cases he
      refine .inr ⟨_, ?_, rfl⟩
      split <;> rfl
    · cases he
      split
      · exact .inl (keepsData_refetches token _ _ _)
      · exact .inl ⟨rfl, rfl, rfl⟩

theorem ShowsLastData.of_keepsData {m m' : DetailMachine ρ} (h : ShowsLastData m)
    (hk : KeepsData m m') : ShowsLastData m' := by
  rw [ShowsLastData, hk.1, hk.2.1, hk.2.2]
  exact h

theorem showsLastData_of_reachable {m : DetailMachine ρ} (h : DetailReachable token m) :
    ShowsLastData m := by
  have h₀ : ∀ server, ShowsLastData (firstDetail server : DetailMachine ρ) := fun _ ↦ rfl
  rcases h with ⟨server, rfl⟩ | h
  · exact h₀ server
  · induction h with
    | mount server => exact (h₀ server).of_keepsData (keepsData_fetchTable token _)
    | step e _ he ih =>
      rcases detailEvent_data token he with hk | ⟨x, hs, hh⟩
      · exact ih.of_keepsData hk
      · rw [ShowsLastData, hs, hh, List.foldl_append, ← ih]
        rfl

def PageInData (s : DetailState ρ) : Prop :=
  1 ≤ s.page ∧ (0 < s.totalRows → (s.page - 1) * pageSize < s.totalRows)

instance (s : DetailState ρ) : Decidable (PageInData s) := inferInstanceAs (Decidable (_ ∧ _))

def fiftyOneRows : DetailServer ℕ := ⟨["id", "title"], fun _ ↦ List.range 51⟩

def fiftyRows : DetailServer ℕ := ⟨["id", "title"], fun _ ↦ List.range 50⟩

def deleteLastRow : List (DetailEvent ℕ) :=
  [.settle 0 true, .render, .settle 0 true, .render,
   .next, .render, .settle 0 true, .render,
   .mutate .deleteRow fiftyRows, .settle 0 true, .settle 0 true, .settle 0 true, .render,
   .settle 0 true, .render]

/-- Deleting the only row of the last page refetches page 2 of what is now 50 rows: the page
stays 2 and shows no row while `totalRows` is 50. -/
theorem delete_last_row_leaves_page_past_data :
    ∃ m, seqDetailRun (some "t") (mountDetail (some "t") fiftyOneRows) deleteLastRow = some m ∧
      m.pending = [] ∧ m.state.page = 2 ∧ m.state.totalRows = 50 ∧ m.state.tableData = [] ∧
      ¬PageInData m.state :=
  ⟨_, rfl, rfl, rfl, rfl, rfl, by decide⟩

end SelfDbMini.Frontend.TableDetail
