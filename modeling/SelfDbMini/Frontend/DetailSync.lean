import SelfDbMini.Frontend.TableDetail

namespace SelfDbMini.Frontend.DetailSync

open PlainObject InfiniteList TableDetail

variable {ρ : Type} {token : Option String}

/-- The request an entry in flight sends, or will send through its closure's `fetchData`. -/
def requestOf : DetailPending ρ → Option DataRequest
  | .table => none
  | .data r => some r
  | .mutation _ _ r => some r

def tableOrd : Option ℕ → ℕ
  | none => 0
  | some n => n + 1

theorem tableOrd_nextTable (t : Option ℕ) : tableOrd (nextTable t) = tableOrd t + 1 := by
  cases t <;> rfl

theorem dataRequest_eq_of_dataDeps {s s' : DetailState ρ} (h : s.dataDeps = s'.dataDeps) :
    s.dataRequest = s'.dataRequest := by
  simp only [DetailState.dataDeps, Prod.mk.injEq] at h
  simp only [DetailState.dataRequest, h]

theorem quiet_iff [DecidableEq ρ] {m : DetailMachine ρ} :
    m.quiet = true ↔ m.pending = [] ∧ m.rendered = m.state := by
  simp [DetailMachine.quiet, List.isEmpty_iff]

/-- What one event does to the page: a control changes fields of the state other than `table`,
`loading`, the rows and the total; Refresh fetches; a handler sends its request; a render; or a
response arrives. -/
theorem detailEvent_cases {m m' : DetailMachine ρ} {e : DetailEvent ρ}
    (he : detailEvent token m e = some m') :
    (e.isOperation = true ∧ ∃ s : DetailState ρ, m' = { m with state := s } ∧
      s.table = m.state.table ∧ s.loading = m.state.loading ∧ s.tableData = m.state.tableData ∧
      s.totalRows = m.state.totalRows) ∨
    (e = .refresh ∧ m' = fetchData token (fetchTable token m) m.rendered.dataRequest) ∨
    (e.isOperation = true ∧ m.rendered.controlsShown = true ∧ ∃ kind server',
      m' = { m with pending := m.pending ++ [.mutation kind server' m.rendered.dataRequest] }) ∨
    (e = .render ∧ m' = renderDetail token m) ∨
    (∃ i ok, e = .settle i ok ∧ settleDetail token m i ok = some m') := by
  cases e with
  | render => cases he; exact .inr (.inr (.inr (.inl ⟨rfl, rfl⟩)))
  | settle i ok => exact .inr (.inr (.inr (.inr ⟨i, ok, rfl, he⟩)))
  | search => cases he; exact .inl ⟨rfl, _, rfl, rfl, rfl, rfl, rfl⟩
  | refresh =>
    simp only [detailEvent] at he
    split_ifs at he
    cases he
    exact .inr (.inl ⟨rfl, rfl⟩)
  | mutate kind server' =>
    simp only [detailEvent] at he
    split_ifs at he with hg
    cases he
    exact .inr (.inr (.inl ⟨rfl, hg.1, kind, server', rfl⟩))
  | previous | next | scroll | clearSearch | sortBy | toggleSortOrder =>
    simp only [detailEvent] at he
    split_ifs at he <;> cases he <;> exact .inl ⟨rfl, _, rfl, rfl, rfl, rfl, rfl⟩

@[simp] theorem receiveTable_loading (s : DetailState ρ) (server : DetailServer ρ) (ok : Bool) :
    (receiveTable s server ok).loading = false := by
  cases ok <;> rfl

@[simp] theorem receiveData_loading (s : DetailState ρ) (x : Option (List ρ × ℕ)) :
    (receiveData s x).loading = s.loading := by
  cases x <;> rfl

/-! ### The spinner -/

/-- While `loading`, a `fetchTable` is in flight. -/
def TableBacked (m : DetailMachine ρ) : Prop :=
  m.state.loading = true → DetailPending.table ∈ m.pending

theorem TableBacked.append {m : DetailMachine ρ} (h : TableBacked m) (l : List (DetailPending ρ)) :
    TableBacked { m with pending := m.pending ++ l } :=
  fun hl ↦ List.mem_append_left _ (h hl)

theorem TableBacked.eraseIdx {m : DetailMachine ρ} (h : TableBacked m) {i : ℕ}
    (hi : m.pending[i]? ≠ some .table) : TableBacked { m with pending := m.pending.eraseIdx i } :=
  fun hl ↦ mem_eraseIdx_of_getElem?_ne (h hl) hi

theorem tableBacked_fetchTable (ht : truthy token = true) (m : DetailMachine ρ) :
    TableBacked (fetchTable token m) := by
  rw [fetchTable_of_truthy token ht]
  exact fun _ ↦ List.mem_append_right _ (List.mem_singleton_self _)

theorem TableBacked.fetchData {m : DetailMachine ρ} (h : TableBacked m) (r : DataRequest) :
    TableBacked (fetchData token m r) := by
  unfold TableDetail.fetchData
  split
  · exact h.append _
  · exact h

theorem TableBacked.settleDetail (ht : truthy token = true) {m m' : DetailMachine ρ}
    (h : TableBacked m) {i : ℕ} {ok : Bool} (he : settleDetail token m i ok = some m') :
    TableBacked m' := by
  unfold TableDetail.settleDetail at he
  split at he
  · cases he
  · cases he
    exact fun hl ↦ absurd hl (by simp)
  · rename_i hi
    cases he
    exact fun hl ↦ (h.eraseIdx (by simp [hi])) (by simpa using hl)
  · rename_i hi
    cases he
    have he' := h.eraseIdx (i := i) (by simp [hi])
    split
    · exact refetches_rec token TableBacked _ (fun _ _ ↦ tableBacked_fetchTable ht _)
        (fun _ hm ↦ hm.fetchData _) _ _ he'
    · exact he'

theorem TableBacked.detailEvent (ht : truthy token = true) {m m' : DetailMachine ρ}
    (h : TableBacked m) {e : DetailEvent ρ} (he : detailEvent token m e = some m') :
    TableBacked m' := by
  rcases detailEvent_cases he with ⟨-, s, rfl, -, hl, -, -⟩ | ⟨-, rfl⟩ | ⟨-, -, -, -, rfl⟩ |
    ⟨-, rfl⟩ | ⟨i, ok, -, hs⟩
  · exact fun h' ↦ h (hl ▸ h')
  · exact (tableBacked_fetchTable ht m).fetchData _
  · exact h.append _
  · have hr : TableBacked { m with rendered := m.state } := h
    unfold renderDetail
    split
    · exact hr.fetchData _
    · exact hr
  · exact h.settleDetail ht hs

/-- Without a token: the spinner, rendered, and nothing in flight. -/
structure Idle (m : DetailMachine ρ) : Prop where
  loading : m.state.loading = true
  rendered_loading : m.rendered.loading = true
  pending_eq : m.pending = []

theorem Idle.detailEvent (hf : truthy token = false) {m m' : DetailMachine ρ} (h : Idle m)
    {e : DetailEvent ρ} (he : detailEvent token m e = some m') : Idle m' := by
  have hft : ∀ m : DetailMachine ρ, fetchTable token m = m := fun _ ↦ if_neg (by simp [hf])
  have hfd : ∀ (m : DetailMachine ρ) r, fetchData token m r = m := fun _ _ ↦ if_neg (by simp [hf])
  rcases detailEvent_cases he with ⟨-, s, rfl, -, hl, -, -⟩ | ⟨-, rfl⟩ | ⟨-, hc, -⟩ | ⟨-, rfl⟩ |
    ⟨i, ok, -, hs⟩
  · exact ⟨hl ▸ h.loading, h.rendered_loading, h.pending_eq⟩
  · rw [hfd, hft]
    exact h
  · simp [DetailState.controlsShown, h.rendered_loading] at hc
  · unfold renderDetail
    split
    · rw [hfd]
      exact ⟨h.loading, h.loading, h.pending_eq⟩
    · exact ⟨h.loading, h.loading, h.pending_eq⟩
  · simp [TableDetail.settleDetail, h.pending_eq] at hs

theorem tableBacked_of_mounted (ht : truthy token = true) {m : DetailMachine ρ}
    (h : DetailMounted token m) : TableBacked m := by
  induction h with
  | mount server => exact tableBacked_fetchTable ht _
  | step e _ he ih => exact ih.detailEvent ht he

theorem idle_of_reachable (hf : truthy token = false) {m : DetailMachine ρ}
    (h : DetailReachable token m) : Idle m := by
  have h₀ : ∀ server, Idle (firstDetail server : DetailMachine ρ) := fun _ ↦ ⟨rfl, rfl, rfl⟩
  rcases h with ⟨server, rfl⟩ | h
  · exact h₀ server
  · induction h with
    | mount server =>
      rw [mountDetail, show fetchTable token (firstDetail server) = firstDetail server from
        if_neg (by simp [hf])]
      exact h₀ server
    | step e _ he ih => exact ih.detailEvent hf he

/-- Under any interleaving, from the first render on, TableDetail's spinner is backed by a
`fetchTable` in flight once the mount effect ran, so it is gone once every request is answered.
Without a token nothing is ever sent and the spinner stays: `fetchTable` returns before
`setLoading(true)`, and `loading` starts true. -/
theorem detail_spinner_backed_by_table_request {m : DetailMachine ρ}
    (h : DetailReachable token m) :
    (truthy token = true → m.state.loading = true →
        DetailPending.table ∈ m.pending ∨ m = firstDetail m.server) ∧
      (truthy token = false → m.state.loading = true ∧ m.pending = []) := by
  refine ⟨fun ht hl ↦ ?_, fun hf ↦ ⟨(idle_of_reachable hf h).loading,
    (idle_of_reachable hf h).pending_eq⟩⟩
  rcases h with ⟨server, rfl⟩ | h
  · exact .inr rfl
  · exact .inl (tableBacked_of_mounted ht h hl)

theorem detail_spinner_backed_after_refresh :
    ∃ m, seqDetailRun (some "t") (mountDetail (some "t") fiftyOneRows)
        [.settle 0 true, .render, .settle 0 true, .render, .refresh] = some m ∧
      DetailReachable (some "t") m ∧ m.state.loading = true ∧
      (truthy (some "t") = true → m.state.loading = true →
          DetailPending.table ∈ m.pending ∨ m = firstDetail m.server) ∧
        (truthy (some "t") = false → m.state.loading = true ∧ m.pending = []) :=
  have hr : seqDetailRun (some "t") (mountDetail (some "t") fiftyOneRows)
      [.settle 0 true, .render, .settle 0 true, .render, .refresh] = some _ := rfl
  have h : DetailReachable (some "t") _ := .inr ((DetailMounted.mount _).seqDetailRun _ hr)
  ⟨_, hr, h, rfl, detail_spinner_backed_by_table_request h⟩

/-! ### The rows shown between operations -/

/-- Every request in flight carries the current page and query, and `table` only moves
forward. -/
structure Carried (m : DetailMachine ρ) : Prop where
  carries : ∀ x ∈ m.pending, ∀ r, requestOf x = some r → r = m.state.dataRequest
  tableOrd_le : tableOrd m.rendered.table ≤ tableOrd m.state.table

/-- `Carried`, and the page shows the server's rows and total for its current request once the
latest render shows the current table and query and no data request is in flight. -/
structure Synced (m : DetailMachine ρ) extends Carried m : Prop where
  current : m.state.table.isSome = true → m.rendered.table = m.state.table →
    m.rendered.dataDeps = m.state.dataDeps → (∀ r, DetailPending.data r ∉ m.pending) →
    (m.state.tableData, m.state.totalRows) = dataPage m.server m.state.dataRequest

theorem Carried.synced {m : DetailMachine ρ} (h : Carried m) {r : DataRequest}
    (hr : DetailPending.data r ∈ m.pending) : Synced m :=
  ⟨h, fun _ _ _ hn ↦ absurd hr (hn r)⟩

theorem Carried.fetchTable (ht : truthy token = true) {m : DetailMachine ρ} (h : Carried m) :
    Carried (fetchTable token m) := by
  rw [fetchTable_of_truthy token ht]
  refine ⟨fun x hx r hr ↦ ?_, h.tableOrd_le⟩
  rcases List.mem_append.1 hx with hx | hx
  · exact h.carries x hx r hr
  · simp [List.mem_singleton.1 hx, requestOf] at hr

theorem Carried.fetchData (ht : truthy token = true) {m : DetailMachine ρ} (h : Carried m)
    {r : DataRequest} (hr : r = m.state.dataRequest) :
    Carried (fetchData token m r) ∧ DetailPending.data r ∈ (fetchData token m r).pending := by
  rw [fetchData_of_truthy token ht]
  refine ⟨⟨fun x hx r' hr' ↦ ?_, h.tableOrd_le⟩, List.mem_append_right _ (List.mem_singleton_self _)⟩
  rcases List.mem_append.1 hx with hx | hx
  · exact h.carries x hx r' hr'
  · simp only [List.mem_singleton.1 hx, requestOf, Option.some.injEq] at hr'
    rw [← hr', hr]

theorem Synced.fetchTable (ht : truthy token = true) {m : DetailMachine ρ} (h : Synced m) :
    Synced (fetchTable token m) := by
  refine ⟨h.toCarried.fetchTable ht, fun hs hr hd hn ↦ ?_⟩
  rw [fetchTable_of_truthy token ht] at hs hr hd hn ⊢
  exact h.current hs hr hd fun r hr' ↦ hn r (List.mem_append_left _ hr')

theorem Synced.eraseIdx {m : DetailMachine ρ} (h : Synced m) {i : ℕ}
    (hi : ∀ r, m.pending[i]? ≠ some (.data r)) :
    Synced { m with pending := m.pending.eraseIdx i } :=
  ⟨⟨fun x hx ↦ h.carries x (List.mem_of_mem_eraseIdx hx), h.tableOrd_le⟩,
    fun hs hr hd hn ↦ h.current hs hr hd fun r hr' ↦ hn r (mem_eraseIdx_of_getElem?_ne hr' (hi r))⟩

theorem Synced.receiveTable {m : DetailMachine ρ} (h : Synced m) (ok : Bool) :
    Synced { m with state := receiveTable m.state m.server ok } := by
  cases ok with
  | false => exact ⟨⟨h.carries, h.tableOrd_le⟩, h.current⟩
  | true =>
    have hle := h.tableOrd_le
    have hn : tableOrd (TableDetail.receiveTable m.state m.server true).table =
        tableOrd m.state.table + 1 := tableOrd_nextTable _
    refine ⟨⟨h.carries, show tableOrd m.rendered.table ≤
      tableOrd (TableDetail.receiveTable m.state m.server true).table by omega⟩, fun _ hr ↦ ?_⟩
    have : tableOrd m.rendered.table =
        tableOrd (TableDetail.receiveTable m.state m.server true).table := congrArg tableOrd hr
    omega

theorem Synced.renderDetail (ht : truthy token = true) {m : DetailMachine ρ} (h : Synced m) :
    Synced (renderDetail token m) := by
  have hc : Carried { m with rendered := m.state } := ⟨h.carries, le_rfl⟩
  unfold TableDetail.renderDetail
  split
  · obtain ⟨hc', hd⟩ := hc.fetchData ht rfl
    exact hc'.synced hd
  · rename_i hne
    refine ⟨hc, fun hs _ _ hn ↦ ?_⟩
    have hsame := not_and.1 hne hs
    push_neg at hsame
    exact h.current hs hsame.1.symm hsame.2.symm hn

theorem Synced.operate {m : DetailMachine ρ} (h : Synced m)
    (hq : m.pending = [] ∧ m.rendered = m.state) {s : DetailState ρ}
    (htab : s.table = m.state.table) (hd : s.tableData = m.state.tableData)
    (hT : s.totalRows = m.state.totalRows) : Synced { m with state := s } := by
  refine ⟨⟨by simp [hq.1], by rw [hq.2, htab]⟩, fun hs _ hdeps _ ↦ ?_⟩
  rw [hq.2] at hdeps
  have hc := h.current (htab ▸ hs) (by rw [hq.2]) (by rw [hq.2]) (by simp [hq.1])
  show (s.tableData, s.totalRows) = dataPage m.server s.dataRequest
  rw [hd, hT, ← dataRequest_eq_of_dataDeps hdeps]
  exact hc

theorem fetchData_mem_refetches (kind : DetailMutation) : Refetch.fetchData ∈ kind.refetches := by
  cases kind <;> decide

theorem mem_pending_refetches (ht : truthy token = true) (r : DataRequest) :
    ∀ (fs : List Refetch) (m : DetailMachine ρ),
      DetailPending.data r ∈ m.pending ∨ Refetch.fetchData ∈ fs →
        DetailPending.data r ∈ (fs.foldl (refetch token r) m).pending
  | [], _, h => h.resolve_right (List.not_mem_nil _)
  | f :: fs, m, h => by
    refine mem_pending_refetches ht r fs (refetch token r m f) ?_
    rcases h with h | h
    · left
      cases f <;> simp [refetch, fetchTable_of_truthy token ht, fetchData_of_truthy token ht, h]
    · rcases List.mem_cons.1 h with rfl | h
      · left
        simp [refetch, fetchData_of_truthy token ht]
      · exact .inr h

theorem Synced.settleDetail (ht : truthy token = true) {m m' : DetailMachine ρ} (h : Synced m)
    {i : ℕ} {ok : Bool} (hfail : ok = false → ∀ r, m.pending[i]? ≠ some (.data r))
    (he : TableDetail.settleDetail token m i ok = some m') : Synced m' := by
  unfold TableDetail.settleDetail at he
  split at he
  · cases he
  · rename_i hi
    cases he
    exact (h.eraseIdx (by simp [hi])).receiveTable ok
  · rename_i r hi
    cases he
    cases ok with
    | false => exact absurd hi (hfail rfl r)
    | true =>
      have hr : r = m.state.dataRequest := h.carries _ (List.getElem?_mem hi) r rfl
      subst hr
      exact ⟨⟨fun x hx ↦ h.carries x (List.mem_of_mem_eraseIdx hx), h.tableOrd_le⟩,
        fun _ _ _ _ ↦ rfl⟩
  · rename_i k s' r hi
    cases he
    split
    · have hr : r = m.state.dataRequest := h.carries _ (List.getElem?_mem hi) r rfl
      have hc : Carried { m with server := s', pending := m.pending.eraseIdx i } :=
        ⟨fun x hx ↦ h.carries x (List.mem_of_mem_eraseIdx hx), h.tableOrd_le⟩
      obtain ⟨hc', -⟩ := refetches_rec token (fun m ↦ Carried m ∧ r = m.state.dataRequest) r
        (fun _ hm ↦ ⟨hm.1.fetchTable ht, by rw [fetchTable_dataRequest]; exact hm.2⟩)
        (fun _ hm ↦ ⟨(hm.1.fetchData ht hm.2).1, by rw [fetchData_state]; exact hm.2⟩)
        k.refetches _ ⟨hc, hr⟩
      exact hc'.synced (mem_pending_refetches ht r _ _ (.inr (fetchData_mem_refetches k)))
    · exact h.eraseIdx (by simp [hi])

theorem Synced.detailEvent [DecidableEq ρ] (ht : truthy token = true) {m m' : DetailMachine ρ}
    (h : Synced m) {e : DetailEvent ρ} (hop : e.isOperation = true → m.quiet = true)
    (hfail : ∀ i, e = .settle i false → ∀ r, m.pending[i]? ≠ some (.data r))
    (he : TableDetail.detailEvent token m e = some m') : Synced m' := by
  rcases detailEvent_cases he with ⟨hoe, s, rfl, htab, -, hd, hT⟩ | ⟨rfl, rfl⟩ |
    ⟨hoe, -, k, s', rfl⟩ | ⟨-, rfl⟩ | ⟨i, ok, rfl, hs⟩
  · exact h.operate (quiet_iff.1 (hop hoe)) htab hd hT
  · have hq := quiet_iff.1 (hop rfl)
    have hr : m.rendered.dataRequest = (TableDetail.fetchTable token m).state.dataRequest := by
      rw [fetchTable_dataRequest, hq.2]
    obtain ⟨hc, hd⟩ := (h.toCarried.fetchTable ht).fetchData ht hr
    exact hc.synced hd
  · have hq := quiet_iff.1 (hop hoe)
    refine ⟨⟨fun x hx r hr ↦ ?_, h.tableOrd_le⟩,
      fun hs hr hd hn ↦ h.current hs hr hd fun r' hr' ↦ hn r' (List.mem_append_left _ hr')⟩
    simp only [hq.1, List.nil_append, List.mem_singleton] at hx
    subst hx
    simp only [requestOf, Option.some.injEq] at hr
    rw [← hr, hq.2]
  · exact h.renderDetail ht
  · exact h.settleDetail ht (fun hf ↦ hfail i (by rw [hf])) hs

theorem synced_firstDetail (server : DetailServer ρ) : Synced (firstDetail server) :=
  ⟨⟨fun _ h ↦ absurd h (List.not_mem_nil _), le_rfl⟩, fun h ↦ absurd h Bool.false_ne_true⟩

variable (token) in
/-- The machines of sequential runs once the mount effects ran, in which no data request fails:
an operation only on a quiet page, renders and responses in any order in between, and failed
`fetchTable` and handler requests allowed. -/
inductive SyncMounted [DecidableEq ρ] : DetailMachine ρ → Prop
  | mount (server : DetailServer ρ) : SyncMounted (mountDetail token server)
  | step {m m' : DetailMachine ρ} (e : DetailEvent ρ) : SyncMounted m →
      (e.isOperation = true → m.quiet = true) →
      (∀ i, e = .settle i false → ∀ r, m.pending[i]? ≠ some (.data r)) →
      detailEvent token m e = some m' → SyncMounted m'

variable (token) in
/-- The first render, and the machines of such runs after it. -/
def SyncReachable [DecidableEq ρ] (m : DetailMachine ρ) : Prop :=
  (∃ server, m = firstDetail server) ∨ SyncMounted token m

theorem SyncMounted.run [DecidableEq ρ] {m m' : DetailMachine ρ} {es : List (DetailEvent ρ)}
    (h : SyncMounted token m) (hr : seqDetailRun token m es = some m')
    (hok : ∀ i, DetailEvent.settle i false ∉ es) : SyncMounted token m' := by
  induction es generalizing m with
  | nil => cases hr; exact h
  | cons e es ih =>
    unfold seqDetailRun at hr
    split_ifs at hr with hq
    obtain ⟨m₁, h₁, h₂⟩ := Option.bind_eq_some.1 hr
    refine ih (h.step e (fun ho ↦ by simpa [ho] using hq) (fun i he ↦ ?_) h₁) h₂
      fun i hi ↦ hok i (List.mem_cons_of_mem e hi)
    subst he
    exact absurd (List.mem_cons_self _ _) (hok i)

theorem synced_of_reachable [DecidableEq ρ] (ht : truthy token = true) {m : DetailMachine ρ}
    (h : SyncReachable token m) : Synced m := by
  rcases h with ⟨server, rfl⟩ | h
  · exact synced_firstDetail server
  · induction h with
    | mount server => exact (synced_firstDetail server).fetchTable ht
    | step e _ hop hfail he ih => exact ih.detailEvent ht hop hfail he

/-- In every sequential run where no data request fails, between operations the grid shows
exactly the server's rows for the current page, search and sort, and `totalRows` is the server's
count for that search. -/
theorem detail_shows_current_data_between_operations [DecidableEq ρ] (ht : truthy token = true)
    {m : DetailMachine ρ} (h : SyncReachable token m) (hq : m.quiet = true)
    (hs : m.state.table.isSome = true) :
    (m.state.tableData, m.state.totalRows) = dataPage m.server m.state.dataRequest := by
  have hq' := quiet_iff.1 hq
  exact (synced_of_reachable ht h).current hs (by rw [hq'.2]) (by rw [hq'.2]) (by simp [hq'.1])

theorem detail_shows_current_data_after_mount :
    ∃ m, seqDetailRun (some "t") (mountDetail (some "t") fiftyOneRows)
        [.settle 0 true, .render, .settle 0 true, .render] = some m ∧
      truthy (some "t") = true ∧ SyncReachable (some "t") m ∧ m.quiet = true ∧
      m.state.table.isSome = true ∧
      (m.state.tableData, m.state.totalRows) = dataPage m.server m.state.dataRequest := by
  have hr : seqDetailRun (some "t") (mountDetail (some "t") fiftyOneRows)
      [.settle 0 true, .render, .settle 0 true, .render] = some _ := rfl
  have hs : SyncReachable (some "t") _ := .inr ((SyncMounted.mount fiftyOneRows).run hr (by simp))
  exact ⟨_, hr, rfl, hs, rfl, rfl, detail_shows_current_data_between_operations
    (show truthy (some "t") = true from rfl) hs rfl rfl⟩

end SelfDbMini.Frontend.DetailSync
