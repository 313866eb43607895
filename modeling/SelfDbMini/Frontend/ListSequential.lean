import SelfDbMini.Frontend.InfiniteList

namespace SelfDbMini.Frontend.ListSequential

open PlainObject InfiniteList

variable {α σ : Type} (p : ListPage α σ) (token : Option String)

/-- The displayed rows are the first rows of the current query's sequence and, while there is
more, exactly `page` pages of them: the next scroll asks for the rows that follow. -/
def InStep (m : ListMachine α σ) : Prop :=
  m.state.rows = (m.server m.state.query).take m.state.rows.length ∧
    (m.state.hasMore = true → m.state.rows.length = m.state.page * PAGE_SIZE)

theorem take_length_take (l : List α) (n : ℕ) : l.take (l.take n).length = l.take n := by
  rw [List.length_take]
  rcases le_total n l.length with h | h
  · rw [min_eq_left h]
  · rw [min_eq_right h, List.take_length, List.take_of_length_le h]

theorem rows_eq_take {m : ListMachine α σ} (h : InStep m) (hm : m.state.hasMore = true) :
    m.state.rows = (m.server m.state.query).take (m.state.page * PAGE_SIZE) := by
  rw [← h.2 hm]
  exact h.1

theorem answered_first_rows (m : ListMachine α σ) (q : ListQuery σ) :
    (answered m ⟨q, 1, false⟩ true).state.rows = (m.server q).take PAGE_SIZE := by
  simp [answered_true_state, InfiniteList.slice, ListRequest.skip]

theorem answered_next_rows (m : ListMachine α σ) (q : ListQuery σ) (n : ℕ) :
    (answered m ⟨q, n + 1, true⟩ true).state.rows =
      m.state.rows ++ ((m.server q).drop (n * PAGE_SIZE)).take PAGE_SIZE := by
  simp [answered_true_state, InfiniteList.slice, ListRequest.skip]

theorem inStep_answered_first (m : ListMachine α σ) {q : ListQuery σ} (hq : q = m.state.query)
    (hp : m.state.page = 1) : InStep (answered m ⟨q, 1, false⟩ true) := by
  subst hq
  have hs : slice m.server ⟨m.state.query, 1, false⟩ = (m.server m.state.query).take PAGE_SIZE := by
    simp [InfiniteList.slice, ListRequest.skip]
  rw [InStep, answered_true_state, answered_server]
  refine ⟨by rw [if_neg Bool.false_ne_true, hs, take_length_take], fun hm ↦ ?_⟩
  rw [if_neg Bool.false_ne_true, hs, hp, Nat.one_mul]
  exact beq_iff_eq.1 (hs ▸ hm)

theorem inStep_answered_next {m m' : ListMachine α σ} (h : InStep m)
    (hm : m.state.hasMore = true) (hsrv : m'.server = m.server) (hrows : m'.state.rows = m.state.rows)
    (hq : m'.state.query = m.state.query) (hp : m'.state.page = m.state.page + 1) :
    InStep (answered m' ⟨m.state.query, m.state.page + 1, true⟩ true) := by
  have hrows' : m.state.rows = (m.server m.state.query).take (m.state.page * PAGE_SIZE) := by
    rw [← h.2 hm]
    exact h.1
  have hs : m'.state.rows ++ slice m'.server ⟨m.state.query, m.state.page + 1, true⟩ =
      (m.server m.state.query).take (m.state.page * PAGE_SIZE + PAGE_SIZE) := by
    rw [hrows, hrows', hsrv, List.take_add]
    simp [InfiniteList.slice, ListRequest.skip]
  refine ⟨?_, fun hm' ↦ ?_⟩
  · show m'.state.rows ++ slice m'.server ⟨m.state.query, m.state.page + 1, true⟩ =
      (m'.server m'.state.query).take
        (m'.state.rows ++ slice m'.server ⟨m.state.query, m.state.page + 1, true⟩).length
    rw [hs, hsrv, hq, take_length_take]
  · have hlen : (slice m'.server ⟨m.state.query, m.state.page + 1, true⟩).length = PAGE_SIZE :=
      beq_iff_eq.1 hm'
    show (m'.state.rows ++ slice m'.server ⟨m.state.query, m.state.page + 1, true⟩).length =
      m'.state.page * PAGE_SIZE
    rw [List.length_append, hlen, hrows, h.2 hm, hp, Nat.succ_mul]

/-- Between two operations, with the list and page in step. -/
structure Steady (m : ListMachine α σ) : Prop where
  quiet : Quiet m
  inStep : InStep m
  page_pos : 0 < m.state.page

theorem steady_answered_first (m : ListMachine α σ) (hp : m.state.page = 1) :
    Steady (answered m ⟨m.state.query, 1, false⟩ true) :=
  ⟨quiet_answered _ _ _, inStep_answered_first _ rfl hp, by simp [hp]⟩

theorem mountList_of_truthy (ht : truthy token = true) (server : Server α σ) :
    mountList p token server = ⟨server,
      { initialListState p.defaultSortBy with loading := true }, initialListState p.defaultSortBy,
      [.fetch ⟨(initialListState p.defaultSortBy : ListState α σ).query, 1, false⟩], []⟩ := by
  simp [mountList, firstList, fetch_of_truthy p token ht]

/-- Every displayed row is one of the first `page` pages of the current query's sequence, in the
sequence's order and at most once. -/
structure Covered (m : ListMachine α σ) : Prop where
  quiet : Quiet m
  page_pos : 0 < m.state.page
  sublist : m.state.rows.Sublist ((m.server m.state.query).take (m.state.page * PAGE_SIZE))

theorem covered_answered_first (m : ListMachine α σ) {q : ListQuery σ} (hq : q = m.state.query)
    (hp : 0 < m.state.page) : Covered (answered m ⟨q, 1, false⟩ true) := by
  refine ⟨quiet_answered _ _ _, by simpa using hp, ?_⟩
  rw [answered_first_rows, answered_server, answered_query, answered_page, hq]
  exact List.take_sublist_take_left _ (Nat.le_mul_of_pos_left _ hp)

theorem covered_answered_next {m m' : ListMachine α σ} (h : Covered m)
    (hsrv : m'.server = m.server) (hrows : m'.state.rows = m.state.rows)
    (hq : m'.state.query = m.state.query) (hp : m'.state.page = m.state.page + 1) :
    Covered (answered m' ⟨m.state.query, m.state.page + 1, true⟩ true) := by
  refine ⟨quiet_answered _ _ _, by simp [hp], ?_⟩
  rw [answered_next_rows, answered_server, answered_query, answered_page, hsrv, hrows, hq, hp,
    Nat.succ_mul, List.take_add]
  exact h.sublist.append (List.Sublist.refl _)

/-- Once `hasMore` is false the list shows the whole sequence of its query. -/
def Complete (m : ListMachine α σ) : Prop :=
  m.state.hasMore = false → m.state.rows = m.server m.state.query

theorem complete_answered {m : ListMachine α σ} {r : ListRequest σ} (hq : r.query = m.state.query)
    (hrows : (answered m r true).state.rows = (m.server r.query).take (r.skip + PAGE_SIZE)) :
    Complete (answered m r true) := by
  intro hm
  have hshort : (slice m.server r).length ≠ PAGE_SIZE := by simpa [answered_true_state] using hm
  rw [hrows, answered_server, answered_query, ← hq]
  apply List.take_of_length_le
  simp only [InfiniteList.slice, List.length_take, List.length_drop] at hshort
  omega

theorem complete_answered_first (m : ListMachine α σ) {q : ListQuery σ} (hq : q = m.state.query) :
    Complete (answered m ⟨q, 1, false⟩ true) :=
  complete_answered hq (by rw [answered_first_rows]; rfl)

variable [DecidableEq σ]

theorem seqOp_scroll (ht : truthy token = true) {m : ListMachine α σ} (hq : Quiet m)
    (hp : 0 < m.state.page) (hm : m.state.hasMore = true) (ok : Bool) (oks : List Bool) :
    seqOp p token m .scroll (ok :: oks) =
      answered { m with
        state := { m.state with page := m.state.page + 1, isLoadingMore := true },
        rendered := { m.state with page := m.state.page + 1, isLoadingMore := true },
        pending := [.fetch ⟨m.state.query, m.state.page + 1, true⟩] }
        ⟨m.state.query, m.state.page + 1, true⟩ ok := by
  have he : listEvent p token m .scroll = some { m with
      state := { m.state with page := m.state.page + 1, isLoadingMore := true },
      pending := [.fetch ⟨m.state.query, m.state.page + 1, true⟩] } := by
    simp [listEvent, hq.rendered_eq, hq.not_loading, hq.not_loadingMore, hm,
      fetch_of_truthy p token ht, hq.pending_eq, Nat.pos_iff_ne_zero.1 hp]
  exact seqOp_of_fetch p token he (by simp [hq.rendered_eq]) rfl ok oks

theorem seqOp_scroll_of_not_hasMore {m : ListMachine α σ} (hq : Quiet m)
    (hm : m.state.hasMore = false) (oks : List Bool) : seqOp p token m .scroll oks = m := by
  have he : listEvent p token m .scroll = some m := by
    simp [listEvent, hq.rendered_eq, hq.not_loading, hm]
  rw [seqOp_of_silent p token he (by rw [hq.rendered_eq]) hq.pending_eq]
  cases m
  cases hq.rendered_eq
  rfl

theorem seqOp_search_same {m : ListMachine α σ} (hq : Quiet m) (oks : List Bool) :
    seqOp p token m (.search m.state.query.search) oks =
      { m with state := { m.state with page := 1 }, rendered := { m.state with page := 1 } } :=
  seqOp_of_silent p token
    (show listEvent p token m (.search m.state.query.search) =
      some (setQuery m fun q ↦ { q with search := m.state.query.search }) from rfl)
    (by simp [setQuery, hq.rendered_eq]) hq.pending_eq oks

def mutated (m : ListMachine α σ) (server' : Server α σ) (s : ListState α σ) :
    ListMachine α σ :=
  ⟨server', { s with loading := true }, m.state, [.fetch ⟨m.state.query, 1, false⟩], m.settled⟩

theorem seqOp_mutate {m : ListMachine α σ} (hq : Quiet m) (server' : Server α σ)
    (oks : List Bool) :
    seqOp p token m (.mutate server') (true :: oks) =
      renderList p token (settleAll p token oks
        (p.mutationDone token ⟨server', m.state, m.state, [], m.settled⟩ m.state.query)) := by
  have he : listEvent p token m (.mutate server') =
      some { m with pending := [.mutation server' m.state.query] } := by
    simp [listEvent, hq.pending_eq, hq.rendered_eq]
  rw [seqOp, he, Option.getD_some, renderList_of_query_eq p token
      { m with pending := [.mutation server' m.state.query] } (by simp [hq.rendered_eq]),
    settleAll_mutation p token _ server' m.state.query rfl]

theorem tables_seqOp_mutate (ht : truthy token = true) {m : ListMachine α TablesSortBy}
    (hq : Quiet m) (server' : Server α TablesSortBy) (ok : Bool) (oks : List Bool) :
    seqOp (tablesPage α) token m (.mutate server') (true :: ok :: oks) =
      answered (mutated m server' m.state) ⟨m.state.query, 1, false⟩ ok := by
  rw [seqOp_mutate _ token hq]
  simp only [tablesPage, tablesMutationDone, fetchTables, fetchList, ht, if_true, List.nil_append]
  exact settle_render_of_one_fetch _ token _ _ rfl rfl ok oks

theorem users_seqOp_mutate (ht : truthy token = true) {m : ListMachine α UsersSortBy}
    (hq : Quiet m) (server' : Server α UsersSortBy) (ok : Bool) (oks : List Bool) :
    seqOp (usersPage α) token m (.mutate server') (true :: ok :: oks) =
      answered (mutated m server' { m.state with page := 1 }) ⟨m.state.query, 1, false⟩ ok := by
  rw [seqOp_mutate _ token hq]
  simp only [usersPage, usersMutationDone, fetchUsers, fetchList, ht, if_true, List.nil_append]
  exact settle_render_of_one_fetch _ token _ _ rfl rfl ok oks

theorem renderList_of_quiet {m : ListMachine α σ} (hq : Quiet m) : renderList p token m = m := by
  rw [renderList_of_query_eq p token m (by rw [hq.rendered_eq])]
  obtain ⟨server, state, rendered, pending, settled⟩ := m
  obtain rfl : rendered = state := hq.rendered_eq
  rfl

theorem seqOp_of_quiet {m : ListMachine α σ} (hq : Quiet m) {e : ListEvent α σ}
    (he : listEvent p token m e = none ∨ listEvent p token m e = some m) (oks : List Bool) :
    seqOp p token m e oks = m := by
  have hg : (listEvent p token m e).getD m = m := by rcases he with he | he <;> rw [he] <;> rfl
  rw [seqOp, hg, renderList_of_quiet p token hq,
    settleAll_of_pending_nil p token m hq.pending_eq, renderList_of_quiet p token hq]

theorem seqOp_requery (ht : truthy token = true) {m : ListMachine α σ} (hq : Quiet m)
    {e : ListEvent α σ} {f : ListQuery σ → ListQuery σ}
    (he : listEvent p token m e = some (setQuery m f)) (hne : f m.state.query ≠ m.state.query) :
    ∃ m₁ : ListMachine α σ, m₁.server = m.server ∧ m₁.state.page = 1 ∧
      seqOp p token m e [true, true] = answered m₁ ⟨m₁.state.query, 1, false⟩ true := by
  refine ⟨_, ?_, ?_, seqOp_of_requery p token ht he (by simpa [setQuery, hq.rendered_eq] using hne)
    (by simp [setQuery, hq.pending_eq]) true [true]⟩ <;> rfl

/-- What an operation on a quiet page does when its requests succeed and it is not a search for
the query already shown: nothing, a fetch of page 1 that replaces the rows, a scroll that appends
the next page, or a create, edit or delete. -/
theorem seqOp_ok_cases (ht : truthy token = true) {m : ListMachine α σ} (hq : Quiet m)
    (hp : 0 < m.state.page) (e : ListEvent α σ)
    (hsearch : ∀ v, e = .search v → v ≠ m.state.query.search) :
    seqOp p token m e [true, true] = m ∨
    (∃ m₁ : ListMachine α σ, m₁.server = m.server ∧ m₁.state.page = 1 ∧
      seqOp p token m e [true, true] = answered m₁ ⟨m₁.state.query, 1, false⟩ true) ∨
    (m.state.hasMore = true ∧ ∃ m₁ : ListMachine α σ, m₁.server = m.server ∧
      m₁.state.rows = m.state.rows ∧ m₁.state.query = m.state.query ∧
      m₁.state.page = m.state.page + 1 ∧
      seqOp p token m e [true, true] = answered m₁ ⟨m.state.query, m.state.page + 1, true⟩ true) ∨
    ∃ server', e = .mutate server' := by
  cases e with
  | scroll =>
    cases hm : m.state.hasMore with
    | true =>
      refine .inr (.inr (.inl ⟨rfl, _, ?_, ?_, ?_, ?_, seqOp_scroll p token ht hq hp hm true _⟩)) <;>
        rfl
    | false => exact .inl (seqOp_scroll_of_not_hasMore p token hq hm _)
  | search v =>
    have he : listEvent p token m (.search v) = some (setQuery m fun q ↦ { q with search := v }) :=
      rfl
    exact .inr (.inl (seqOp_requery p token ht hq he fun hq' ↦
      hsearch v rfl (congrArg ListQuery.search hq')))
  | clearSearch =>
    by_cases hs : m.rendered.query.search = ""
    · have he : listEvent p token m .clearSearch = none := if_pos hs
      exact .inl (seqOp_of_quiet p token hq (.inl he) _)
    · refine .inr (.inl (seqOp_requery p token ht hq (if_neg hs) fun hq' ↦ hs ?_))
      rw [hq.rendered_eq, ← hq']
  | sortBy v =>
    by_cases hs : v = m.rendered.query.sortBy
    · have he : listEvent p token m (.sortBy v) = none := if_pos hs
      exact .inl (seqOp_of_quiet p token hq (.inl he) _)
    · refine .inr (.inl (seqOp_requery p token ht hq (if_neg hs) fun hq' ↦ hs ?_))
      rw [hq.rendered_eq, ← hq']
  | toggleSortOrder =>
    have he : listEvent p token m .toggleSortOrder =
        some (setQuery m fun q ↦ { q with sortOrder := q.sortOrder.toggle }) := rfl
    refine .inr (.inl (seqOp_requery p token ht hq he fun hq' ↦ ?_))
    have := congrArg ListQuery.sortOrder hq'
    cases ho : m.state.query.sortOrder <;> simp [ho, SortOrder.toggle] at this
  | refresh =>
    have he : listEvent p token m .refresh = some { m with
        state := { m.state with page := 1, loading := true },
        pending := [.fetch ⟨m.state.query, 1, false⟩] } := by
      simp [listEvent, hq.rendered_eq, hq.not_loading, fetch_of_truthy p token ht, hq.pending_eq]
    refine .inr (.inl ⟨_, ?_, ?_, seqOp_of_fetch p token he (by rw [hq.rendered_eq]) rfl true _⟩) <;>
      rfl
  | mutate server' => exact .inr (.inr (.inr ⟨server', rfl⟩))
  | render =>
    have he : listEvent p token m .render = some m := congrArg some (renderList_of_quiet p token hq)
    exact .inl (seqOp_of_quiet p token hq (.inr he) _)
  | settle i ok =>
    exact .inl (seqOp_of_quiet p token hq (.inl (by simp [listEvent, settleList, hq.pending_eq])) _)

theorem steady_seqOp (ht : truthy token = true) {m : ListMachine α σ} (h : Steady m)
    {e : ListEvent α σ} (hmut : ∀ server', e ≠ .mutate server')
    (hsearch : ∀ v, e = .search v → v ≠ m.state.query.search) :
    Steady (seqOp p token m e [true, true]) := by
  rcases seqOp_ok_cases p token ht h.quiet h.page_pos e hsearch with he | ⟨m₁, -, hp1, he⟩ |
    ⟨hm, m₁, hsrv, hrows, hq, hp1, he⟩ | ⟨server', rfl⟩
  · rwa [he]
  · rw [he]
    exact steady_answered_first _ hp1
  · rw [he]
    exact ⟨quiet_answered _ _ _, inStep_answered_next h.inStep hm hsrv hrows hq hp1, by simp [hp1]⟩
  · exact absurd rfl (hmut server')

theorem seqMount_of_truthy (ht : truthy token = true) (server : Server α σ) (ok : Bool)
    (oks : List Bool) :
    seqMount p token server (ok :: oks) = answered ⟨server,
      { initialListState p.defaultSortBy with loading := true }, initialListState p.defaultSortBy,
      [.fetch ⟨(initialListState p.defaultSortBy : ListState α σ).query, 1, false⟩], []⟩
      ⟨(initialListState p.defaultSortBy : ListState α σ).query, 1, false⟩ ok := by
  rw [seqMount, mountList_of_truthy p token ht, settle_render_of_one_fetch p token _ _ rfl rfl]

/-- The sequential runs of a list page in which every request succeeds and no debounced search
repeats the query already shown. -/
inductive OkSeqReachable : ListMachine α σ → Prop
  | mount (server : Server α σ) : OkSeqReachable (seqMount p token server [true])
  | op {m : ListMachine α σ} (e : ListEvent α σ) : OkSeqReachable m →
      (∀ v, e = .search v → v ≠ m.state.query.search) →
      OkSeqReachable (seqOp p token m e [true, true])

/-- Users: in every sequential run whose requests all succeed and whose debounced searches each
change the query, the displayed list is the first rows of the current query's sequence and,
while there is more, exactly `page` pages of it. -/
theorem users_list_in_step_of_ok_runs (ht : truthy token = true) {m : ListMachine α UsersSortBy}
    (h : OkSeqReachable (usersPage α) token m) : Quiet m ∧ InStep m := by
  have hs : Steady m := by
    induction h with
    | mount server =>
      rw [seqMount_of_truthy _ token ht]
      exact steady_answered_first _ rfl
    | op e _ hsearch ih =>
      cases e with
      | mutate server' =>
        rw [users_seqOp_mutate token ht ih.quiet server' true []]
        exact steady_answered_first _ rfl
      | _ => exact steady_seqOp _ token ht ih (fun _ ↦ ListEvent.noConfusion) hsearch
  exact ⟨hs.quiet, hs.inStep⟩

def usersScrolled : ListMachine ℕ UsersSortBy :=
  seqOp (usersPage ℕ) (some "t") (seqMount (usersPage ℕ) (some "t") (fun _ ↦ List.range 70) [true])
    .scroll [true, true]

theorem usersScrolled_reachable : OkSeqReachable (usersPage ℕ) (some "t") usersScrolled :=
  .op _ (.mount _) fun _ h ↦ ListEvent.noConfusion h

theorem users_list_in_step_after_scroll :
    truthy (some "t") = true ∧ OkSeqReachable (usersPage ℕ) (some "t") usersScrolled ∧
      Quiet usersScrolled ∧ InStep usersScrolled :=
  ⟨rfl, usersScrolled_reachable,
    users_list_in_step_of_ok_runs (some "t") rfl usersScrolled_reachable⟩

theorem covered_seqOp (ht : truthy token = true) {m : ListMachine α TablesSortBy} (h : Covered m)
    (e : ListEvent α TablesSortBy) (hsearch : ∀ v, e = .search v → v ≠ m.state.query.search) :
    Covered (seqOp (tablesPage α) token m e [true, true]) := by
  rcases seqOp_ok_cases _ token ht h.quiet h.page_pos e hsearch with he | ⟨m₁, -, hp1, he⟩ |
    ⟨-, m₁, hsrv, hrows, hq, hp1, he⟩ | ⟨server', rfl⟩
  · rwa [he]
  · rw [he]
    exact covered_answered_first _ rfl (by omega)
  · rw [he]
    exact covered_answered_next h hsrv hrows hq hp1
  · rw [tables_seqOp_mutate token ht h.quiet server' true []]
    exact covered_answered_first _ rfl h.page_pos

/-- Tables: in every sequential run whose requests all succeed and whose debounced searches each
change the query, the displayed rows are a sublist of the first `page` pages of the current
query's sequence: no row is shown that the query does not return, and none is shown twice when
the server's rows are distinct. Rows can still be skipped after a create, edit or delete. -/
theorem tables_rows_sublist_of_ok_runs (ht : truthy token = true)
    {m : ListMachine α TablesSortBy} (h : OkSeqReachable (tablesPage α) token m) :
    Quiet m ∧ m.state.rows.Sublist ((m.server m.state.query).take (m.state.page * PAGE_SIZE)) := by
  have hc : Covered m := by
    induction h with
    | mount server =>
      rw [seqMount_of_truthy _ token ht]
      exact covered_answered_first _ rfl Nat.one_pos
    | op e _ hsearch ih => exact covered_seqOp token ht ih e hsearch
  exact ⟨hc.quiet, hc.sublist⟩

def createdAfterScroll : ListMachine ℕ TablesSortBy :=
  seqOp (tablesPage ℕ) (some "t")
    (seqOp (tablesPage ℕ) (some "t") (seqMount (tablesPage ℕ) (some "t") (fun _ ↦ List.range 70) [true])
      .scroll [true, true]) (.mutate fun _ ↦ List.range 71) [true, true]

theorem tables_rows_sublist_after_create :
    truthy (some "t") = true ∧ OkSeqReachable (tablesPage ℕ) (some "t") createdAfterScroll ∧
      Quiet createdAfterScroll ∧
      createdAfterScroll.state.rows.Sublist
        ((createdAfterScroll.server createdAfterScroll.state.query).take
          (createdAfterScroll.state.page * PAGE_SIZE)) :=
  have h : OkSeqReachable (tablesPage ℕ) (some "t") createdAfterScroll :=
    .op _ (.op _ (.mount _) fun _ h ↦ ListEvent.noConfusion h) fun _ h ↦ ListEvent.noConfusion h
  ⟨rfl, h, tables_rows_sublist_of_ok_runs (some "t") rfl h⟩

theorem complete_seqOp (ht : truthy token = true) {m : ListMachine α σ} (h : Steady m)
    (hc : Complete m) {e : ListEvent α σ} (hmut : ∀ server', e ≠ .mutate server')
    (hsearch : ∀ v, e = .search v → v ≠ m.state.query.search) :
    Complete (seqOp p token m e [true, true]) := by
  rcases seqOp_ok_cases p token ht h.quiet h.page_pos e hsearch with he | ⟨m₁, -, -, he⟩ |
    ⟨hm, m₁, hsrv, hrows, hq, -, he⟩ | ⟨server', rfl⟩
  · rwa [he]
  · rw [he]
    exact complete_answered_first _ rfl
  · rw [he]
    refine complete_answered hq.symm ?_
    rw [answered_next_rows, hrows, rows_eq_take h.inStep hm, hsrv, ← List.take_add]
    simp [ListRequest.skip]
  · exact absurd rfl (hmut server')

/-- Users: in every sequential run whose requests all succeed and whose debounced searches each
change the query, once `hasMore` is false the page shows every user its query returns. -/
theorem users_rows_complete_of_ok_runs (ht : truthy token = true)
    {m : ListMachine α UsersSortBy} (h : OkSeqReachable (usersPage α) token m)
    (hm : m.state.hasMore = false) :
    m.state.rows = m.server m.state.query := by
  have hsc : Steady m ∧ Complete m := by
    clear hm
    induction h with
    | mount server =>
      rw [seqMount_of_truthy _ token ht]
      exact ⟨steady_answered_first _ rfl, complete_answered_first _ rfl⟩
    | op e _ hsearch ih =>
      cases e with
      | mutate server' =>
        rw [users_seqOp_mutate token ht ih.1.quiet server' true []]
        exact ⟨steady_answered_first _ rfl, complete_answered_first _ rfl⟩
      | _ =>
        exact ⟨steady_seqOp _ token ht ih.1 (fun _ ↦ ListEvent.noConfusion) hsearch,
          complete_seqOp _ token ht ih.1 ih.2 (fun _ ↦ ListEvent.noConfusion) hsearch⟩
  exact hsc.2 hm

theorem users_rows_complete_after_scroll :
    truthy (some "t") = true ∧ OkSeqReachable (usersPage ℕ) (some "t") usersScrolled ∧
      usersScrolled.state.hasMore = false ∧
      usersScrolled.state.rows = usersScrolled.server usersScrolled.state.query :=
  ⟨rfl, usersScrolled_reachable, rfl,
    users_rows_complete_of_ok_runs (some "t") rfl usersScrolled_reachable rfl⟩

/-- A debounced search for the value already shown (typing and erasing within the debounce
delay) resets `page` to 1 without a refetch, so on a page in step past page 1 the next scroll
requests page 2 again and appends rows already displayed. -/
theorem search_same_then_scroll_repeats_page_two (ht : truthy token = true)
    {m : ListMachine α σ} (h : Steady m) (hm : m.state.hasMore = true) (h2 : 2 ≤ m.state.page) :
    (seqOp p token (seqOp p token m (.search m.state.query.search) []) .scroll [true]).state.rows =
        m.state.rows ++ (m.state.rows.drop PAGE_SIZE).take PAGE_SIZE ∧
      (seqOp p token (seqOp p token m (.search m.state.query.search) []) .scroll [true]).state.page
        = 2 := by
  have hq : Quiet { m with state := { m.state with page := 1 }, rendered := { m.state with page := 1 } } :=
    ⟨h.quiet.pending_eq, rfl, h.quiet.not_loading, h.quiet.not_loadingMore⟩
  rw [seqOp_search_same p token h.quiet, seqOp_scroll p token ht hq Nat.one_pos hm]
  refine ⟨?_, rfl⟩
  have h2p : 2 * PAGE_SIZE ≤ m.state.page * PAGE_SIZE := Nat.mul_le_mul_right _ h2
  rw [answered_next_rows, rows_eq_take h.inStep hm, List.drop_take, List.take_take,
    min_eq_left (by omega)]
  rfl

def scrolledTwoPages : ListMachine ℕ TablesSortBy :=
  seqOp (tablesPage ℕ) (some "t")
    (seqMount (tablesPage ℕ) (some "t") (fun _ ↦ List.range 100) [true]) .scroll [true]

theorem search_same_then_scroll_after_two_pages :
    truthy (some "t") = true ∧ Steady scrolledTwoPages ∧ scrolledTwoPages.state.hasMore = true ∧
      2 ≤ scrolledTwoPages.state.page ∧
      (seqOp (tablesPage ℕ) (some "t") (seqOp (tablesPage ℕ) (some "t") scrolledTwoPages
          (.search scrolledTwoPages.state.query.search) []) .scroll [true]).state.rows =
        scrolledTwoPages.state.rows ++ (scrolledTwoPages.state.rows.drop PAGE_SIZE).take PAGE_SIZE ∧
      (seqOp (tablesPage ℕ) (some "t") (seqOp (tablesPage ℕ) (some "t") scrolledTwoPages
          (.search scrolledTwoPages.state.query.search) []) .scroll [true]).state.page = 2 :=
  have hs : Steady scrolledTwoPages := ⟨⟨rfl, rfl, rfl, rfl⟩, ⟨rfl, fun _ ↦ rfl⟩, by decide⟩
  ⟨rfl, hs, rfl, by decide,
    search_same_then_scroll_repeats_page_two (tablesPage ℕ) (some "t") rfl hs rfl (by decide)⟩

def hundredTables : Server ℕ TablesSortBy := fun _ ↦ List.range 100

def hundredOneTables : Server ℕ TablesSortBy := fun _ ↦ List.range 101

/-- Tables: mount with a hundred tables, scroll to page 2, then create a table; every request
succeeds. -/
def createAfterScroll : ListMachine ℕ TablesSortBy :=
  seqOp (tablesPage ℕ) (some "t")
    (seqOp (tablesPage ℕ) (some "t") (seqMount (tablesPage ℕ) (some "t") hundredTables [true])
      .scroll [true]) (.mutate hundredOneTables) [true, true]

/-- The refetch after the create shows the first 50 rows while `page` stays 2 and `hasMore` is
true, so the next scroll shows row 100 after row 49 and rows 50 to 99 are never displayed. -/
theorem tables_create_after_scroll_skips_rows :
    createAfterScroll.pending = [] ∧ createAfterScroll.state.loading = false ∧
      createAfterScroll.state.hasMore = true ∧ createAfterScroll.state.page = 2 ∧
      createAfterScroll.state.rows = List.range 50 ∧ ¬InStep createAfterScroll ∧
      (seqOp (tablesPage ℕ) (some "t") createAfterScroll .scroll [true]).state.rows =
        List.range 50 ++ [100] := by
  refine ⟨rfl, rfl, rfl, rfl, rfl, fun h ↦ ?_, rfl⟩
  have h2 := h.2 rfl
  revert h2
  decide

end SelfDbMini.Frontend.ListSequential
