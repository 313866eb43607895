import SelfDbMini.Frontend.DetailSync

namespace SelfDbMini.Frontend.DetailPaging

open PlainObject InfiniteList TableDetail DetailSync

variable {ρ : Type}

def total (m : DetailMachine ρ) : ℕ := (m.server.rows m.state.dataRequest.query).length

theorem table_of_gridShown {s : DetailState ρ} (h : s.gridShown = true) :
    s.table.isSome = true := by
  simp only [DetailState.gridShown, DetailState.controlsShown, Bool.and_eq_true] at h
  exact h.1.2

theorem pageInData_of_page_eq_one {s : DetailState ρ} (h : s.page = 1) : PageInData s :=
  ⟨h.ge, fun hT ↦ by rwa [h, Nat.sub_self, Nat.zero_mul]⟩

/-- The page is within the data, also of the server's current count, and every pending handler
leaves the row counts as they are. -/
structure PageBounds (m : DetailMachine ρ) : Prop where
  inData : PageInData m.state
  within : m.state.page = 1 ∨ (m.state.page - 1) * pageSize < total m
  counts : ∀ k s' r, DetailPending.mutation k s' r ∈ m.pending →
    ∀ q, (s'.rows q).length = (m.server.rows q).length

/-- What a sequential run keeps while no request changes how many rows a query has and no data
request fails. -/
structure Bounded (m : DetailMachine ρ) extends Synced m, PageBounds m : Prop

/-- The events of a sequential run in which no data request fails and no request changes how
many rows a query has. -/
def CountsKept (m : DetailMachine ρ) : DetailEvent ρ → Prop
  | .settle i false => ∀ r, m.pending[i]? ≠ some (.data r)
  | .mutate _ server' => ∀ q, (server'.rows q).length = (m.server.rows q).length
  | _ => True

/-- `m'` keeps what the page bounds read: the page, `totalRows`, the request and the server, and
it adds no handler. -/
structure Framed (m m' : DetailMachine ρ) : Prop where
  page_eq : m'.state.page = m.state.page
  totalRows_eq : m'.state.totalRows = m.state.totalRows
  dataRequest_eq : m'.state.dataRequest = m.state.dataRequest
  server_eq : m'.server = m.server
  mutation_mem : ∀ k s r, DetailPending.mutation k s r ∈ m'.pending →
    DetailPending.mutation k s r ∈ m.pending

theorem Framed.trans {m₁ m₂ m₃ : DetailMachine ρ} (h₁ : Framed m₁ m₂) (h₂ : Framed m₂ m₃) :
    Framed m₁ m₃ :=
  ⟨h₂.page_eq.trans h₁.page_eq, h₂.totalRows_eq.trans h₁.totalRows_eq,
    h₂.dataRequest_eq.trans h₁.dataRequest_eq, h₂.server_eq.trans h₁.server_eq,
    fun k s r hx ↦ h₁.mutation_mem k s r (h₂.mutation_mem k s r hx)⟩

theorem PageBounds.frame {m m' : DetailMachine ρ} (h : PageBounds m) (hf : Framed m m') :
    PageBounds m' := by
  have htot : total m' = total m := by rw [total, total, hf.dataRequest_eq, hf.server_eq]
  have hin : PageInData m'.state := by
    unfold PageInData
    rw [hf.page_eq, hf.totalRows_eq]
    exact h.inData
  exact ⟨hin, by rw [hf.page_eq, htot]; exact h.within,
    fun k s' r hx q ↦ hf.server_eq ▸ h.counts k s' r (hf.mutation_mem k s' r hx) q⟩

variable (token : Option String)

/-- The machines of sequential runs without row-count changes or failed data requests, once the
mount effects ran. -/
inductive KeptMounted [DecidableEq ρ] : DetailMachine ρ → Prop
  | mount (server : DetailServer ρ) : KeptMounted (mountDetail token server)
  | step {m m' : DetailMachine ρ} (e : DetailEvent ρ) : KeptMounted m →
      (e.isOperation = true → m.quiet = true) → CountsKept m e →
      detailEvent token m e = some m' → KeptMounted m'

/-- The first render, and the machines of such runs after it. -/
def KeptReachable [DecidableEq ρ] (m : DetailMachine ρ) : Prop :=
  (∃ server, m = firstDetail server) ∨ KeptMounted token m

theorem framed_fetchTable (m : DetailMachine ρ) : Framed m (fetchTable token m) := by
  unfold fetchTable
  split
  · exact ⟨rfl, rfl, rfl, rfl, fun k s r hx ↦ by simpa using hx⟩
  · exact ⟨rfl, rfl, rfl, rfl, fun _ _ _ ↦ id⟩

theorem framed_fetchData (m : DetailMachine ρ) (r : DataRequest) :
    Framed m (fetchData token m r) := by
  unfold fetchData
  split
  · exact ⟨rfl, rfl, rfl, rfl, fun k s r hx ↦ by simpa using hx⟩
  · exact ⟨rfl, rfl, rfl, rfl, fun _ _ _ ↦ id⟩

theorem framed_renderDetail (m : DetailMachine ρ) : Framed m (renderDetail token m) := by
  unfold renderDetail
  split
  · exact (show Framed m { m with rendered := m.state } from
      ⟨rfl, rfl, rfl, rfl, fun _ _ _ ↦ id⟩).trans (framed_fetchData token _ _)
  · exact ⟨rfl, rfl, rfl, rfl, fun _ _ _ ↦ id⟩

variable {token}

theorem PageBounds.eraseIdx {m : DetailMachine ρ} (h : PageBounds m) (i : ℕ) :
    PageBounds { m with pending := m.pending.eraseIdx i } :=
  h.frame ⟨rfl, rfl, rfl, rfl, fun _ _ _ ↦ List.mem_of_mem_eraseIdx⟩

theorem Bounded.pageBounds_settleDetail {m m' : DetailMachine ρ} (h : Bounded m) {i : ℕ}
    {ok : Bool} (hk : CountsKept m (.settle i ok))
    (he : TableDetail.settleDetail token m i ok = some m') : PageBounds m' := by
  unfold TableDetail.settleDetail at he
  split at he
  · cases he
  · cases he
    refine (h.toPageBounds.eraseIdx i).frame ⟨?_, ?_, ?_, rfl, fun _ _ _ ↦ id⟩ <;> cases ok <;> rfl
  · rename_i r hi
    cases he
    cases ok with
    | false => exact absurd hi (hk r)
    | true =>
      have hr : r = m.state.dataRequest := h.carries _ (List.getElem?_mem hi) r rfl
      subst hr
      refine ⟨⟨h.inData.1, fun hpos ↦ ?_⟩, h.within,
        fun k s' r hx ↦ h.counts k s' r (List.mem_of_mem_eraseIdx hx)⟩
      show (m.state.page - 1) * pageSize < total m
      rcases h.within with hp | hp
      · rw [hp, Nat.sub_self, Nat.zero_mul]
        exact hpos
      · exact hp
  · rename_i k s' r hi
    cases he
    have he' := h.toPageBounds.eraseIdx i
    split
    · have hc := h.counts k s' r (List.getElem?_mem hi)
      have htot : total { m with server := s', pending := m.pending.eraseIdx i } = total m := hc _
      have hs : PageBounds { m with server := s', pending := m.pending.eraseIdx i } :=
        ⟨h.inData, htot ▸ h.within, fun k' s'' r' hx q ↦ (he'.counts k' s'' r' hx q).trans (hc q).symm⟩
      exact hs.frame (refetches_rec token (Framed _) r (fun _ hm ↦ hm.trans (framed_fetchTable token _))
        (fun _ hm ↦ hm.trans (framed_fetchData token _ _)) _ _ ⟨rfl, rfl, rfl, rfl, fun _ _ _ ↦ id⟩)
    · exact he'

theorem PageBounds.operate {m : DetailMachine ρ} (hq : m.pending = [] ∧ m.rendered = m.state)
    {s : DetailState ρ} (hin : PageInData s)
    (hw : s.page = 1 ∨ (s.page - 1) * pageSize < (m.server.rows s.dataRequest.query).length) :
    PageBounds { m with state := s } :=
  ⟨hin, hw, by simp [hq.1]⟩

theorem Bounded.advance {m : DetailMachine ρ} (h : Bounded m)
    (hq : m.pending = [] ∧ m.rendered = m.state) (hg : m.rendered.gridShown = true)
    (hlt : m.rendered.page * pageSize < m.rendered.totalRows) :
    PageBounds (setPage m fun p ↦ p + 1) := by
  rw [hq.2] at hg hlt
  have hT : m.state.totalRows = total m :=
    congrArg Prod.snd (h.current (table_of_gridShown hg) (by rw [hq.2]) (by rw [hq.2])
      (by simp [hq.1]))
  refine PageBounds.operate hq ⟨Nat.le_add_left _ _, fun _ ↦ ?_⟩ (.inr ?_) <;>
    simpa [hT] using hlt

theorem PageBounds.retreat {m : DetailMachine ρ} (h : PageBounds m)
    (hq : m.pending = [] ∧ m.rendered = m.state) (hp : m.rendered.page ≠ 1) :
    PageBounds (setPage m fun p ↦ max 1 (p - 1)) := by
  rw [hq.2] at hp
  have h1 := h.inData.1
  have hle : (max 1 (m.state.page - 1) - 1) * pageSize ≤ (m.state.page - 1) * pageSize :=
    Nat.mul_le_mul_right _ (by omega)
  refine PageBounds.operate hq ⟨le_max_left _ _, fun hT ↦ hle.trans_lt (h.inData.2 hT)⟩ (.inr ?_)
  exact hle.trans_lt (h.within.resolve_left hp)

theorem PageBounds.resetPage {m : DetailMachine ρ} (hq : m.pending = [] ∧ m.rendered = m.state)
    (f : DetailState ρ → DetailState ρ) : PageBounds (TableDetail.resetPage m f) :=
  PageBounds.operate hq (pageInData_of_page_eq_one rfl) (.inl rfl)

/-- Every event of a sequential run without row-count changes or failed data requests keeps the
invariant. -/
theorem Bounded.detailEvent [DecidableEq ρ] (ht : truthy token = true) {m m' : DetailMachine ρ}
    (h : Bounded m) {e : DetailEvent ρ} (hop : e.isOperation = true → m.quiet = true)
    (hk : CountsKept m e) (he : TableDetail.detailEvent token m e = some m') : Bounded m' := by
  have hs : Synced m' := h.toSynced.detailEvent ht hop (fun i hi ↦ by subst hi; exact hk) he
  refine ⟨hs, ?_⟩
  cases e with
  | render => cases he; exact h.toPageBounds.frame (framed_renderDetail token m)
  | settle i ok => exact h.pageBounds_settleDetail hk he
  | search v => cases he; exact PageBounds.resetPage (quiet_iff.1 (hop rfl)) _
  | previous =>
    simp only [TableDetail.detailEvent] at he
    split_ifs at he with hg
    cases he
    exact h.toPageBounds.retreat (quiet_iff.1 (hop rfl)) hg.2
  | next =>
    simp only [TableDetail.detailEvent] at he
    split_ifs at he with hg
    cases he
    exact h.advance (quiet_iff.1 (hop rfl)) hg.1 hg.2
  | scroll =>
    simp only [TableDetail.detailEvent] at he
    split_ifs at he with hg hlt <;> cases he
    · exact h.advance (quiet_iff.1 (hop rfl)) hg hlt
    · exact h.toPageBounds
  | clearSearch | sortBy | toggleSortOrder =>
    simp only [TableDetail.detailEvent] at he
    split_ifs at he
    cases he
    exact PageBounds.resetPage (quiet_iff.1 (hop rfl)) _
  | refresh =>
    simp only [TableDetail.detailEvent] at he
    split_ifs at he
    cases he
    exact h.toPageBounds.frame ((framed_fetchTable token m).trans (framed_fetchData token _ _))
  | mutate kind server' =>
    simp only [TableDetail.detailEvent] at he
    split_ifs at he
    cases he
    refine ⟨h.inData, h.within, fun k s' r hx ↦ ?_⟩
    rcases List.mem_append.1 hx with hx | hx
    · exact h.counts k s' r hx
    · simp only [List.mem_singleton, DetailPending.mutation.injEq] at hx
      obtain ⟨-, rfl, -⟩ := hx
      exact hk

theorem bounded_firstDetail (server : DetailServer ρ) : Bounded (firstDetail server) :=
  ⟨synced_firstDetail server, pageInData_of_page_eq_one rfl, .inl rfl,
    fun _ _ _ h ↦ absurd h (List.not_mem_nil _)⟩

/-- In a sequential run where no request changes how many rows a query has and no data request
fails, every reached state has `page ≥ 1` and, with rows, `(page - 1) * pageSize < totalRows`. -/
theorem page_in_data_of_kept_runs [DecidableEq ρ] (ht : truthy token = true)
    {m : DetailMachine ρ} (h : KeptReachable token m) : PageInData m.state := by
  rcases h with ⟨server, rfl⟩ | h
  · exact (bounded_firstDetail server).inData
  · have hb : Bounded m := by
      induction h with
      | mount server =>
        exact ⟨(synced_firstDetail server).fetchTable ht,
          (bounded_firstDetail server).toPageBounds.frame (framed_fetchTable token _)⟩
      | step e _ hop hk he ih => exact ih.detailEvent ht hop hk he
    exact hb.inData

theorem KeptMounted.run [DecidableEq ρ] {m m' : DetailMachine ρ} {es : List (DetailEvent ρ)}
    (h : KeptMounted token m) (hr : seqDetailRun token m es = some m')
    (hk : ∀ e ∈ es, ∀ m : DetailMachine ρ, CountsKept m e) : KeptMounted token m' := by
  induction es generalizing m with
  | nil => cases hr; exact h
  | cons e es ih =>
    unfold seqDetailRun at hr
    split_ifs at hr with hq
    obtain ⟨m₁, h₁, h₂⟩ := Option.bind_eq_some.1 hr
    exact ih (h.step e (fun ho ↦ by simpa [ho] using hq) (hk e (List.mem_cons_self _ _) m) h₁) h₂
      fun e he ↦ hk e (List.mem_cons_of_mem _ he)

/-- Mount a table of 51 rows and go to page 2 with Next; every request succeeds. -/
def nextPage : List (DetailEvent ℕ) :=
  [.settle 0 true, .render, .settle 0 true, .render, .next, .render, .settle 0 true, .render]

theorem page_in_data_after_next :
    ∃ m, seqDetailRun (some "t") (mountDetail (some "t") fiftyOneRows) nextPage = some m ∧
      truthy (some "t") = true ∧ KeptReachable (some "t") m ∧ m.state.page = 2 ∧
      PageInData m.state :=
  have hr : seqDetailRun (some "t") (mountDetail (some "t") fiftyOneRows) nextPage = some _ := rfl
  have h : KeptReachable (some "t") _ := .inr ((KeptMounted.mount _).run hr fun e he _ ↦ by
    simp only [nextPage, List.mem_cons, List.mem_singleton, List.not_mem_nil, or_false] at he
    rcases he with rfl | rfl | rfl | rfl | rfl | rfl | rfl | rfl <;> trivial)
  ⟨_, hr, rfl, h, rfl, page_in_data_of_kept_runs (show truthy (some "t") = true from rfl) h⟩

end SelfDbMini.Frontend.DetailPaging
