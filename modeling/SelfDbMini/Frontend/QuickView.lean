import Mathlib.Data.List.Basic

namespace SelfDbMini.Frontend.QuickView

variable {ρ : Type}

def viewPageSize : ℕ := 100

abbrev TableRows (ρ : Type) := ℕ → List ρ

def viewRows (server : TableRows ρ) (table : ℕ) : List ρ := (server table).take viewPageSize

/-- The quick-view state of the Tables page. A table stands for its id, and `tableSchema` for
the id of the table whose `schema` it holds (`none` for the initial `{}`). -/
structure ViewState (ρ : Type) where
  isViewDataModalOpen : Bool
  selectedTable : Option ℕ
  tableSchema : Option ℕ
  tableData : List ρ
  deriving DecidableEq, Repr

def initialViewState : ViewState ρ := ⟨false, none, none, []⟩

/-- A request in flight: the data request of `openViewDataModal`; the insert or delete request
of `handleAddRow` or `handleDeleteRow` with the `selectedTable` its closure read and the rows the
server holds once it succeeds; the update request of `handleEditTable`; or the create or delete
request of `handleCreateTable` or `handleDeleteTable` with the rows the server holds once it
succeeds. -/
inductive ViewPending (ρ : Type)
  | data (table : ℕ)
  | rowChange (table : ℕ) (server' : TableRows ρ)
  | tableEdit
  | tableChange (server' : TableRows ρ)

/-- The quick view between events: the server, the state, the requests in flight in issue
order, and the history of the data responses applied, with the table each was for. -/
structure ViewMachine (ρ : Type) where
  server : TableRows ρ
  state : ViewState ρ
  pending : List (ViewPending ρ)
  settled : List (ℕ × List ρ)

def openViewDataModal (m : ViewMachine ρ) (table : ℕ) : ViewMachine ρ :=
  { m with
    state := { m.state with
      selectedTable := some table, tableSchema := some table, isViewDataModalOpen := true },
    pending := m.pending ++ [.data table] }

/-- An event of the quick view: a button, or the arrival of the `i`-th response in flight.
`rowChange` is Add Row or a confirmed Delete Row, which continue alike; `editTable` is the Edit
Table form's submit, and `tableChange` a created or a confirmed deleted table. -/
inductive ViewEvent (ρ : Type)
  | openViewDataModal (table : ℕ)
  | openEditModal (table : ℕ)
  | close
  | rowChange (server' : TableRows ρ)
  | editTable
  | tableChange (server' : TableRows ρ)
  | settle (i : ℕ) (ok : Bool)

/-- A data response sets `tableData` when it carries data; a row change that succeeded calls
`openViewDataModal(selectedTable)`; a table update that succeeded calls `setSelectedTable(null)`.
A failure only raises an alert. -/
def settleView (m : ViewMachine ρ) (i : ℕ) (ok : Bool) : Option (ViewMachine ρ) :=
  match m.pending[i]? with
  | none => none
  | some (.data table) =>
    some (if ok then
      { m with
        state := { m.state with tableData := viewRows m.server table },
        pending := m.pending.eraseIdx i,
        settled := m.settled ++ [(table, viewRows m.server table)] }
    else { m with pending := m.pending.eraseIdx i })
  | some (.rowChange table server') =>
    some (if ok then
      openViewDataModal { m with server := server', pending := m.pending.eraseIdx i } table
    else { m with pending := m.pending.eraseIdx i })
  | some .tableEdit =>
    some (if ok then
      { m with state := { m.state with selectedTable := none }, pending := m.pending.eraseIdx i }
    else { m with pending := m.pending.eraseIdx i })
  | some (.tableChange server') =>
    some (if ok then { m with server := server', pending := m.pending.eraseIdx i }
    else { m with pending := m.pending.eraseIdx i })

/-- One event, or `none` when it cannot happen: Close, Add Row and Delete Row are in the
modal, and the page's table forms and buttons are behind it. `openEditModal` sets
`selectedTable` too, and `handleEditTable` returns at once without one. -/
def viewEvent (m : ViewMachine ρ) : ViewEvent ρ → Option (ViewMachine ρ)
  | .openViewDataModal table => some (openViewDataModal m table)
  | .openEditModal table => some { m with state := { m.state with selectedTable := some table } }
  | .close =>
    if m.state.isViewDataModalOpen then
      some { m with state := { m.state with isViewDataModalOpen := false } }
    else none
  | .rowChange server' =>
    if m.state.isViewDataModalOpen then
      match m.state.selectedTable with
      | some table => some { m with pending := m.pending ++ [.rowChange table server'] }
      | none => some m
    else none
  | .editTable =>
    if m.state.isViewDataModalOpen then none
    else if m.state.selectedTable.isSome then some { m with pending := m.pending ++ [.tableEdit] }
    else some m
  | .tableChange server' =>
    if m.state.isViewDataModalOpen then none
    else some { m with pending := m.pending ++ [.tableChange server'] }
  | .settle i ok => settleView m i ok

def mountView (server : TableRows ρ) : ViewMachine ρ := ⟨server, initialViewState, [], []⟩

def answerAll : List Bool → ViewMachine ρ → ViewMachine ρ
  | [], m => m
  | ok :: oks, m =>
    match settleView m 0 ok with
    | some m' => answerAll oks m'
    | none => m

/-- One operation whose requests are answered before the next starts. -/
def seqView (m : ViewMachine ρ) (e : ViewEvent ρ) (oks : List Bool) : ViewMachine ρ :=
  answerAll oks ((viewEvent m e).getD m)

/-- The machines reachable from a mount under any interleaving of events and responses. -/
inductive ViewReachable : ViewMachine ρ → Prop
  | mount (server : TableRows ρ) : ViewReachable (mountView server)
  | step {m m' : ViewMachine ρ} (e : ViewEvent ρ) : ViewReachable m → viewEvent m e = some m' →
      ViewReachable m'

def viewRun (m : ViewMachine ρ) : List (ViewEvent ρ) → Option (ViewMachine ρ)
  | [] => some m
  | e :: es => (viewEvent m e).bind fun m' ↦ viewRun m' es

theorem ViewReachable.run {m m' : ViewMachine ρ} {es : List (ViewEvent ρ)} (h : ViewReachable m)
    (hr : viewRun m es = some m') : ViewReachable m' := by
  induction es generalizing m with
  | nil => cases hr; exact h
  | cons e es ih =>
    obtain ⟨m₁, h₁, h₂⟩ := Option.bind_eq_some.1 hr
    exact ih (h.step e h₁) h₂

theorem viewEvent_rows {m m' : ViewMachine ρ} {e : ViewEvent ρ} (he : viewEvent m e = some m') :
    (m'.state.tableData = m.state.tableData ∧ m'.settled = m.settled) ∨
      ∃ table, m'.state.tableData = viewRows m.server table ∧
        m'.settled = m.settled ++ [(table, viewRows m.server table)] := by
  cases e with
  | openViewDataModal | openEditModal => cases he; exact .inl ⟨rfl, rfl⟩
  | close | tableChange =>
    simp only [viewEvent] at he
    split_ifs at he
    cases he
    exact .inl ⟨rfl, rfl⟩
  | rowChange =>
    simp only [viewEvent] at he
    split_ifs at he
    split at he <;> cases he <;> exact .inl ⟨rfl, rfl⟩
  | editTable =>
    simp only [viewEvent] at he
    split_ifs at he <;> cases he <;> exact .inl ⟨rfl, rfl⟩
  | settle i ok =>
    simp only [viewEvent, settleView] at he
    split at he
    · cases he
    · cases he
      split
      · exact .inr ⟨_, rfl, rfl⟩
      · exact .inl ⟨rfl, rfl⟩
    all_goals cases he; split <;> exact .inl ⟨rfl, rfl⟩

/-- Under any interleaving, the quick view shows the rows of the last data response to arrive,
whichever table it was requested for: a late response for a table viewed before replaces the
rows of the table now selected. -/
theorem quick_view_shows_last_arrival {m : ViewMachine ρ} (h : ViewReachable m) :
    m.state.tableData = (m.settled.getLast?.map Prod.snd).getD [] := by
  induction h with
  | mount server => rfl
  | step e _ he ih =>
    rcases viewEvent_rows he with ⟨hd, hs⟩ | ⟨table, hd, hs⟩
    · rw [hd, hs]
      exact ih
    · rw [hd, hs, List.getLast?_concat]
      rfl

def lateArrival : List (ViewEvent ℕ) :=
  [.openViewDataModal 1, .openViewDataModal 2, .settle 1 true, .settle 0 true]

theorem quick_view_shows_last_arrival_after_late_reply :
    ∃ m, viewRun (mountView fun t ↦ List.range t) lateArrival = some m ∧ ViewReachable m ∧
      m.state.selectedTable = some 2 ∧ m.state.tableData = [0] ∧
      m.state.tableData = (m.settled.getLast?.map Prod.snd).getD [] :=
  have hr : viewRun (mountView fun t ↦ List.range t) lateArrival = some _ := rfl
  have h := (ViewReachable.mount _).run hr
  ⟨_, hr, h, rfl, rfl, quick_view_shows_last_arrival h⟩

theorem answerAll_of_pending_nil (m : ViewMachine ρ) (h : m.pending = []) (oks : List Bool) :
    answerAll oks m = m := by
  cases oks <;> simp [answerAll, settleView, h]

theorem answerAll_data (m : ViewMachine ρ) (table : ℕ) (h : m.pending = [.data table])
    (oks : List Bool) :
    answerAll (true :: oks) m =
      { m with
        state := { m.state with tableData := viewRows m.server table }, pending := [],
        settled := m.settled ++ [(table, viewRows m.server table)] } := by
  simp only [answerAll, settleView, h]
  exact answerAll_of_pending_nil _ rfl oks

theorem answerAll_rowChange (m : ViewMachine ρ) (h : m.pending = []) (table : ℕ)
    (server' : TableRows ρ) (oks : List Bool) :
    answerAll (true :: oks) { m with pending := m.pending ++ [.rowChange table server'] } =
      answerAll oks (openViewDataModal { m with server := server', pending := [] } table) := by
  simp only [answerAll, settleView, h]
  rfl

/-- Between operations: nothing in flight, and while the quick view is open the rows shown are
the first page of the table whose schema is shown. -/
structure InStepView (m : ViewMachine ρ) : Prop where
  pending_eq : m.pending = []
  rows_eq : m.state.isViewDataModalOpen = true → ∀ table, m.state.tableSchema = some table →
    m.state.tableData = viewRows m.server table

theorem inStepView_open (m : ViewMachine ρ) (h : m.pending = []) (table : ℕ) (oks : List Bool) :
    InStepView (answerAll (true :: oks) (openViewDataModal m table)) := by
  rw [answerAll_data _ table (by simp [openViewDataModal, h])]
  exact ⟨rfl, fun _ _ ht ↦ by cases ht; rfl⟩

theorem inStepView_seqView {m : ViewMachine ρ} (h : InStepView m) (e : ViewEvent ρ) :
    InStepView (seqView m e [true, true]) := by
  have quiet : ∀ {m' : ViewMachine ρ}, InStepView m' → InStepView (answerAll [true, true] m') :=
    fun h' ↦ (answerAll_of_pending_nil _ h'.pending_eq _).symm ▸ h'
  have closed : ∀ {m' : ViewMachine ρ}, m'.pending = [] → m'.state.isViewDataModalOpen = false →
      InStepView m' := fun h' hc ↦ ⟨h', fun ho ↦ absurd (hc ▸ ho) Bool.false_ne_true⟩
  unfold seqView
  cases e with
  | openViewDataModal table => exact inStepView_open m h.pending_eq table [true]
  | openEditModal => exact quiet ⟨h.pending_eq, h.rows_eq⟩
  | close =>
    simp only [viewEvent]
    split_ifs
    · exact quiet (closed h.pending_eq rfl)
    · exact quiet h
  | rowChange =>
    simp only [viewEvent]
    split_ifs
    · split
      · rw [Option.getD_some, answerAll_rowChange m h.pending_eq]
        exact inStepView_open _ rfl _ []
      · exact quiet h
    · exact quiet h
  | editTable | tableChange =>
    simp only [viewEvent]
    split_ifs with hc <;> first
      | exact quiet h
      | exact closed (by simp [answerAll, settleView, h.pending_eq])
          (by simp [answerAll, settleView, h.pending_eq, hc])
  | settle i ok =>
    have hn : viewEvent m (.settle i ok) = none := by simp [viewEvent, settleView, h.pending_eq]
    rw [hn]
    exact quiet h

/-- The states of sequential runs whose requests all succeed: each operation's requests are
answered before the next starts. -/
inductive OkViewReachable : ViewMachine ρ → Prop
  | mount (server : TableRows ρ) : OkViewReachable (mountView server)
  | op {m : ViewMachine ρ} (e : ViewEvent ρ) : OkViewReachable m →
      OkViewReachable (seqView m e [true, true])

/-- In sequential use where every request succeeds, nothing is in flight between operations and,
while the quick view is open, it shows the first 100 rows the server holds for the table whose
schema it shows. -/
theorem quick_view_in_step_of_ok_runs {m : ViewMachine ρ} (h : OkViewReachable m) :
    m.pending = [] ∧ (m.state.isViewDataModalOpen = true → ∀ table,
      m.state.tableSchema = some table → m.state.tableData = viewRows m.server table) := by
  have hs : InStepView m := by
    induction h with
    | mount server => exact ⟨rfl, fun _ _ ht ↦ by cases ht⟩
    | op e _ ih => exact inStepView_seqView ih e
  exact ⟨hs.pending_eq, hs.rows_eq⟩

def openedThree : ViewMachine ℕ :=
  seqView (mountView fun _ ↦ [0]) (.openViewDataModal 3) [true, true]

theorem quick_view_in_step_of_ok_runs_after_open :
    OkViewReachable openedThree ∧ openedThree.pending = [] ∧
      (openedThree.state.isViewDataModalOpen = true → ∀ table,
        openedThree.state.tableSchema = some table →
          openedThree.state.tableData = viewRows openedThree.server table) :=
  have h : OkViewReachable openedThree := .op _ (.mount _)
  ⟨h, quick_view_in_step_of_ok_runs h⟩

end SelfDbMini.Frontend.QuickView
