import SelfDbMini.Frontend.ListSequential
import SelfDbMini.Frontend.TableDetail

namespace SelfDbMini.Frontend.ListInterleaving

open PlainObject InfiniteList ListSequential TableDetail

variable {α σ : Type}

def applyResponse (d : List α × Bool) (x : ListRequest σ × Option (List α)) : List α × Bool :=
  match x.2 with
  | some data => (if x.1.append then d.1 ++ data else data, data.length == PAGE_SIZE)
  | none => d

def shown (s : ListState α σ) : List α × Bool := (s.rows, s.hasMore)

theorem shown_receiveList (s : ListState α σ) (r : ListRequest σ) (x : Option (List α)) :
    shown (receiveList s r x) = applyResponse (shown s) (r, x) := by
  cases x <;> rfl

/-- The page shows what its responses gave, applied in the order they arrived. -/
def FollowsArrivals (m : ListMachine α σ) : Prop :=
  shown m.state = m.settled.foldl applyResponse ([], true)

/-- A flag that shows a load in progress has a list request in flight behind it. -/
def FlagsBacked (m : ListMachine α σ) : Prop :=
  (m.state.loading = true → ∃ r, .fetch r ∈ m.pending) ∧
    (m.state.isLoadingMore = true → ∃ r, .fetch r ∈ m.pending)

variable (p : ListPage α σ) (token : Option String)

/-- What the page's own code guarantees beyond the shared fetch: the fetch's branch without a
token and the continuation of a create, edit or delete touch neither the rows nor the history,
and the continuation leaves a list request in flight. -/
structure Lawful : Prop where
  noToken_shown : ∀ s, shown (p.noToken s) = shown s
  done_shown : ∀ m q, shown (p.mutationDone token m q).state = shown m.state
  done_settled : ∀ m q, (p.mutationDone token m q).settled = m.settled
  done_flags : truthy token = true → ∀ m q, FlagsBacked (p.mutationDone token m q)

theorem fetch_shown (hnt : ∀ s, shown (p.noToken s) = shown s) (m : ListMachine α σ)
    (q : ListQuery σ) (n : ℕ) (a : Bool) : shown (p.fetch token m q n a).state = shown m.state := by
  unfold ListPage.fetch fetchList
  split
  · split <;> rfl
  · exact hnt m.state

@[simp] theorem fetch_settled (m : ListMachine α σ) (q : ListQuery σ) (n : ℕ) (a : Bool) :
    (p.fetch token m q n a).settled = m.settled := by
  unfold ListPage.fetch fetchList
  split <;> rfl

theorem flagsBacked_fetch (ht : truthy token = true) (m : ListMachine α σ) (q : ListQuery σ)
    (n : ℕ) (a : Bool) : FlagsBacked (p.fetch token m q n a) := by
  rw [fetch_of_truthy p token ht]
  have hr : ∃ r, Pending.fetch r ∈ m.pending ++ [.fetch ⟨q, n, a⟩] :=
    ⟨_, List.mem_append_right _ (List.mem_singleton_self _)⟩
  exact ⟨fun _ ↦ hr, fun _ ↦ hr⟩

theorem tablesPage_lawful : Lawful (tablesPage α) token where
  noToken_shown _ := rfl
  done_shown m q := fetch_shown (tablesPage α) token (fun _ ↦ rfl) m q 1 false
  done_settled m q := fetch_settled (tablesPage α) token m q 1 false
  done_flags ht m q := flagsBacked_fetch (tablesPage α) token ht m q 1 false

theorem usersPage_lawful : Lawful (usersPage α) token where
  noToken_shown _ := rfl
  done_shown _ q := fetch_shown (usersPage α) token (fun _ ↦ rfl) _ q 1 false
  done_settled _ q := fetch_settled (usersPage α) token _ q 1 false
  done_flags ht _ q := flagsBacked_fetch (usersPage α) token ht _ q 1 false

/-- The machines of a list page reachable once its mount effect ran, under any interleaving of
events, renders and responses. -/
inductive ListMounted [DecidableEq σ] : ListMachine α σ → Prop
  | mount (server : Server α σ) : ListMounted (mountList p token server)
  | step {m m' : ListMachine α σ} (e : ListEvent α σ) : ListMounted m →
      listEvent p token m e = some m' → ListMounted m'

/-- The machines reachable from the first render: the first render itself, and every machine once
its mount effect ran. -/
def ListReachable [DecidableEq σ] (m : ListMachine α σ) : Prop :=
  (∃ server, m = firstList p server) ∨ ListMounted p token m

/-- What a list page shows under any interleaving: the rows and `hasMore` its responses gave, in
the order they arrived, and, once the mount effect ran, no load in progress when every request
is answered. -/
def ShowsArrivals (m : ListMachine α σ) : Prop :=
  FollowsArrivals m ∧
    (m.pending = [] → m = firstList p m.server ∨
      m.state.loading = false ∧ m.state.isLoadingMore = false)

variable {p token}

theorem ListMounted.run [DecidableEq σ] {m m' : ListMachine α σ} {es : List (ListEvent α σ)}
    (h : ListMounted p token m) (hr : listRun p token m es = some m') :
    ListMounted p token m' := by
  induction es generalizing m with
  | nil => cases hr; exact h
  | cons e es ih =>
    obtain ⟨m₁, h₁, h₂⟩ := Option.bind_eq_some.1 hr
    exact ih (h.step e h₁) h₂

theorem renderList_shown (hl : Lawful p token) [DecidableEq σ] (m : ListMachine α σ) :
    shown (renderList p token m).state = shown m.state ∧
      (renderList p token m).settled = m.settled := by
  unfold renderList
  split
  · exact ⟨rfl, rfl⟩
  · exact ⟨fetch_shown p token hl.noToken_shown _ _ _ _, fetch_settled p token _ _ _ _⟩

theorem listEvent_shown (hl : Lawful p token) [DecidableEq σ] {m m' : ListMachine α σ}
    {e : ListEvent α σ} (he : listEvent p token m e = some m') :
    (shown m'.state = shown m.state ∧ m'.settled = m.settled) ∨
      ∃ x, shown m'.state = applyResponse (shown m.state) x ∧ m'.settled = m.settled ++ [x] := by
  have hf := fun m q n a ↦
    And.intro (fetch_shown p token hl.noToken_shown m q n a) (fetch_settled p token m q n a)
  cases e with
  | scroll | refresh =>
    simp only [listEvent] at he
    split_ifs at he <;> cases he
    all_goals first | exact .inl (hf _ _ _ _) | exact .inl ⟨rfl, rfl⟩
  | search | toggleSortOrder | mutate => cases he; exact .inl ⟨rfl, rfl⟩
  | clearSearch | sortBy =>
    simp only [listEvent] at he
    split_ifs at he; cases he; exact .inl ⟨rfl, rfl⟩
  | render => cases he; exact .inl (renderList_shown hl m)
  | settle i ok =>
    simp only [listEvent, settleList] at he
    split at he
    · cases he
    · cases he
      exact .inr ⟨_, shown_receiveList _ _ _, rfl⟩
    · cases he
      split
      · exact .inl ⟨hl.done_shown _ _, hl.done_settled _ _⟩
      · exact .inl ⟨rfl, rfl⟩

theorem flagsBacked_listEvent (hl : Lawful p token) (ht : truthy token = true) [DecidableEq σ]
    {m m' : ListMachine α σ} {e : ListEvent α σ} (h : FlagsBacked m)
    (he : listEvent p token m e = some m') : FlagsBacked m' := by
  cases e with
  | scroll | refresh =>
    simp only [listEvent] at he
    split_ifs at he <;> cases he
    all_goals first | exact flagsBacked_fetch p token ht _ _ _ _ | exact h
  | search | toggleSortOrder => cases he; exact h
  | clearSearch | sortBy =>
    simp only [listEvent] at he
    split_ifs at he; cases he; exact h
  | mutate =>
    cases he
    exact ⟨fun hl ↦ (h.1 hl).imp fun _ ↦ List.mem_append_left _,
      fun hl ↦ (h.2 hl).imp fun _ ↦ List.mem_append_left _⟩
  | render =>
    cases he
    unfold renderList
    split
    · exact h
    · exact flagsBacked_fetch p token ht _ _ _ _
  | settle i ok =>
    simp only [listEvent, settleList] at he
    split at he
    · cases he
    · cases he
      exact ⟨fun h ↦ by simp at h, fun h ↦ by simp at h⟩
    · rename_i hi
      cases he
      split
      · exact hl.done_flags ht _ _
      · have hk : ∀ r, Pending.fetch r ∈ m.pending → .fetch r ∈ m.pending.eraseIdx i :=
          fun r hr ↦ mem_eraseIdx_of_getElem?_ne hr (by simp [hi])
        exact ⟨fun hl ↦ (h.1 hl).imp hk, fun hl ↦ (h.2 hl).imp hk⟩

theorem followsArrivals_listEvent (hl : Lawful p token) [DecidableEq σ] {m m' : ListMachine α σ}
    {e : ListEvent α σ} (h : FollowsArrivals m) (he : listEvent p token m e = some m') :
    FollowsArrivals m' := by
  rcases listEvent_shown hl he with ⟨hs, hh⟩ | ⟨x, hs, hh⟩
  · rw [FollowsArrivals, hs, hh]
    exact h
  · rw [FollowsArrivals, hs, hh, List.foldl_append, ← h]
    rfl

theorem showsArrivals_of_reachable (hl : Lawful p token) (ht : truthy token = true)
    [DecidableEq σ] {m : ListMachine α σ} (h : ListReachable p token m) : ShowsArrivals p m := by
  rcases h with ⟨server, rfl⟩ | h
  · exact ⟨rfl, fun _ ↦ .inl rfl⟩
  have hfb : FollowsArrivals m ∧ FlagsBacked m := by
    induction h with
    | mount server =>
      refine ⟨?_, flagsBacked_fetch p token ht _ _ _ _⟩
      rw [FollowsArrivals, mountList, fetch_settled, fetch_shown p token hl.noToken_shown]
      rfl
    | step e _ he ih =>
      exact ⟨followsArrivals_listEvent hl ih.1 he, flagsBacked_listEvent hl ht ih.2 he⟩
  refine ⟨hfb.1, fun h0 ↦ .inr ?_⟩
  have idle : ∀ b : Bool, (b = true → ∃ r, Pending.fetch r ∈ m.pending) → b = false :=
    fun b hb ↦ Bool.eq_false_iff.2 fun hs ↦ by simpa [h0] using hb hs
  exact ⟨idle _ hfb.2.1, idle _ hfb.2.2⟩

/-- Under any interleaving, from the first render on, the Tables and Users pages show the rows
their list responses gave, applied in the order the responses arrived, and once the mount effect
ran they are not loading when every request is answered; `TableDetail` shows the rows and total
of the last data response to arrive. -/
theorem list_views_follow_arrivals {β ρ : Type} (ht : truthy token = true)
    {m : ListMachine α TablesSortBy} {m' : ListMachine β UsersSortBy} {d : DetailMachine ρ}
    (h : ListReachable (tablesPage α) token m) (h' : ListReachable (usersPage β) token m')
    (hd : DetailReachable token d) :
    ShowsArrivals (tablesPage α) m ∧ ShowsArrivals (usersPage β) m' ∧ ShowsLastData d :=
  ⟨showsArrivals_of_reachable (tablesPage_lawful token) ht h,
    showsArrivals_of_reachable (usersPage_lawful token) ht h', showsLastData_of_reachable token hd⟩

/-- The mount's response and a render, then two scroll events handled by the closures of one
render, a render, and both responses. -/
def scrollTwiceOnOneRender : List (ListEvent ℕ TablesSortBy) :=
  [.settle 0 true, .render, .scroll, .scroll, .render, .settle 0 true, .settle 0 true, .render]

def scrollOnce : List (ListEvent ℕ UsersSortBy) :=
  [.settle 0 true, .render, .scroll, .render, .settle 0 true, .render]

theorem list_views_follow_arrivals_after_scrolls :
    ∃ m m' d,
      listRun (tablesPage ℕ) (some "t") (mountList (tablesPage ℕ) (some "t") hundredTables)
        scrollTwiceOnOneRender = some m ∧
      listRun (usersPage ℕ) (some "t") (mountList (usersPage ℕ) (some "t") fun _ ↦ List.range 70)
        scrollOnce = some m' ∧
      seqDetailRun (some "t") (mountDetail (some "t") fiftyOneRows)
        [.settle 0 true, .render, .settle 0 true, .render] = some d ∧
      truthy (some "t") = true ∧ ListReachable (tablesPage ℕ) (some "t") m ∧
      ListReachable (usersPage ℕ) (some "t") m' ∧ DetailReachable (some "t") d ∧
      ShowsArrivals (tablesPage ℕ) m ∧ ShowsArrivals (usersPage ℕ) m' ∧ ShowsLastData d :=
  have hr : listRun (tablesPage ℕ) (some "t") (mountList (tablesPage ℕ) (some "t") hundredTables)
      scrollTwiceOnOneRender = some _ := rfl
  have hr' : listRun (usersPage ℕ) (some "t")
      (mountList (usersPage ℕ) (some "t") fun _ ↦ List.range 70) scrollOnce = some _ := rfl
  have hd : seqDetailRun (some "t") (mountDetail (some "t") fiftyOneRows)
      [.settle 0 true, .render, .settle 0 true, .render] = some _ := rfl
  have h : ListReachable (tablesPage ℕ) (some "t") _ := .inr ((ListMounted.mount _).run hr)
  have h' : ListReachable (usersPage ℕ) (some "t") _ := .inr ((ListMounted.mount _).run hr')
  have hd' : DetailReachable (some "t") _ := .inr ((DetailMounted.mount _).seqDetailRun _ hd)
  ⟨_, _, _, hr, hr', hd, rfl, h, h', hd',
    list_views_follow_arrivals (show truthy (some "t") = true from rfl) h h' hd'⟩

/-- Both scroll events request page 2, so once both are answered rows 50 to 99 are shown twice;
answered one by one, the same two scrolls show rows 0 to 99 once. Both runs end on page 3. -/
theorem tables_double_scroll_duplicates_rows :
    ∃ m, listRun (tablesPage ℕ) (some "t") (mountList (tablesPage ℕ) (some "t") hundredTables)
        scrollTwiceOnOneRender =
        some m ∧ ListReachable (tablesPage ℕ) (some "t") m ∧ m.pending = [] ∧
      m.state.page = 3 ∧ m.state.rows = List.range 100 ++ List.range' 50 50 ∧
      let s := seqOp (tablesPage ℕ) (some "t")
        (seqOp (tablesPage ℕ) (some "t") (seqMount (tablesPage ℕ) (some "t") hundredTables [true])
          .scroll [true]) .scroll [true]
      s.pending = [] ∧ s.state.page = 3 ∧ s.state.rows = List.range 100 :=
  ⟨_, rfl, .inr ((ListMounted.mount hundredTables).run
    (show listRun _ _ _ scrollTwiceOnOneRender = some _ from rfl)),
    rfl, rfl, by decide, rfl, rfl, by decide⟩

end SelfDbMini.Frontend.ListInterleaving
