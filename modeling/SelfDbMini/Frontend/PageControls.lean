import Mathlib.Data.Nat.Defs

namespace SelfDbMini.Frontend.PageControls

def totalPages (totalRows pageSize : ℕ) : ℕ := (totalRows + pageSize - 1) / pageSize

/-- The two page-based pagination buttons of `DataTable`. -/
inductive PageClick
  | previous
  | next
  deriving DecidableEq, Repr

def previousPage (p : ℕ) : ℕ := max 1 (p - 1)

def nextPage (totalPages p : ℕ) : ℕ := min totalPages (p + 1)

/-- A click runs the button's updater unless the button is disabled
(`page === 1`, `page >= totalPages`). -/
def click (totalRows pageSize page : ℕ) : PageClick → ℕ
  | .previous => if page = 1 then page else previousPage page
  | .next =>
    if totalPages totalRows pageSize ≤ page then page
    else nextPage (totalPages totalRows pageSize) page

/-- The page after a sequence of clicks. -/
def clicks (totalRows pageSize page : ℕ) (cs : List PageClick) : ℕ :=
  cs.foldl (click totalRows pageSize) page

def showingFrom (pageSize page : ℕ) : ℕ := (page - 1) * pageSize + 1

def showingTo (totalRows pageSize page : ℕ) : ℕ := min (page * pageSize) totalRows

/-- The page lies between the first and the last page. -/
def InRange (totalRows pageSize page : ℕ) : Prop :=
  1 ≤ page ∧ page ≤ totalPages totalRows pageSize

/-- The label of one page names a nonempty range of at most `pageSize` rows of the table. -/
def LabelValid (totalRows pageSize page : ℕ) : Prop :=
  1 ≤ showingFrom pageSize page ∧ showingFrom pageSize page ≤ showingTo totalRows pageSize page ∧
    showingTo totalRows pageSize page ≤ totalRows ∧
    showingTo totalRows pageSize page - showingFrom pageSize page + 1 ≤ pageSize

/-- The row `i` is in the label of `page`. -/
def Labels (totalRows pageSize page i : ℕ) : Prop :=
  showingFrom pageSize page ≤ i ∧ i ≤ showingTo totalRows pageSize page

/-- The labels of pages `1 .. totalPages` are pairwise disjoint and their union is `1 .. N`. -/
def LabelsPartition (totalRows pageSize : ℕ) : Prop :=
  (∀ j k i, InRange totalRows pageSize j → InRange totalRows pageSize k →
      Labels totalRows pageSize j i → Labels totalRows pageSize k i → j = k) ∧
    ∀ i, (1 ≤ i ∧ i ≤ totalRows) ↔ ∃ k, InRange totalRows pageSize k ∧ Labels totalRows pageSize k i

variable {N P : ℕ}

theorem le_totalPages_iff (hP : 1 ≤ P) {k : ℕ} : k ≤ totalPages N P ↔ k * P ≤ N + P - 1 :=
  Nat.le_div_iff_mul_le (by omega)

theorem one_le_totalPages (hN : 1 ≤ N) (hP : 1 ≤ P) : 1 ≤ totalPages N P :=
  (le_totalPages_iff hP).2 (by omega)

theorem previousPage_inRange {p : ℕ} (h : InRange N P p) : InRange N P (previousPage p) := by
  unfold InRange previousPage at *
  omega

theorem nextPage_inRange (hN : 1 ≤ N) (hP : 1 ≤ P) {p : ℕ} (h : InRange N P p) :
    InRange N P (nextPage (totalPages N P) p) := by
  have := one_le_totalPages hN hP
  unfold InRange nextPage at *
  omega

theorem click_inRange (hN : 1 ≤ N) (hP : 1 ≤ P) {p : ℕ} (h : InRange N P p) (c : PageClick) :
    InRange N P (click N P p c) := by
  cases c with
  | previous =>
    rw [click]
    split_ifs
    · exact h
    · exact previousPage_inRange h
  | next =>
    rw [click]
    split_ifs
    · exact h
    · exact nextPage_inRange hN hP h

theorem clicks_inRange (hN : 1 ≤ N) (hP : 1 ≤ P) (cs : List PageClick) {p : ℕ}
    (h : InRange N P p) : InRange N P (clicks N P p cs) := by
  induction cs generalizing p with
  | nil => exact h
  | cons c cs ih => exact ih (click_inRange hN hP h c)

theorem rows_before_lt {p : ℕ} (hP : 1 ≤ P) (h : InRange N P p) : (p - 1) * P < N := by
  obtain ⟨h1, h2⟩ := h
  have hm := (le_totalPages_iff hP).1 h2
  obtain ⟨q, rfl⟩ : ∃ q, p = q + 1 := ⟨p - 1, by omega⟩
  rw [Nat.succ_mul] at hm
  simp only [Nat.add_sub_cancel]
  omega

theorem labelValid_of_inRange (hP : 1 ≤ P) {p : ℕ} (h : InRange N P p) : LabelValid N P p := by
  have hlt := rows_before_lt hP h
  obtain ⟨q, rfl⟩ : ∃ q, p = q + 1 := ⟨p - 1, by have := h.1; omega⟩
  unfold LabelValid showingFrom showingTo
  simp only [Nat.add_sub_cancel] at hlt ⊢
  rw [Nat.succ_mul]
  omega

theorem page_of_labels {k i : ℕ} (hk : 1 ≤ k) (h : Labels N P k i) :
    k = (i - 1) / P + 1 := by
  obtain ⟨q, rfl⟩ : ∃ q, k = q + 1 := ⟨k - 1, by omega⟩
  unfold Labels showingFrom showingTo at h
  simp only [Nat.add_sub_cancel] at h
  rw [Nat.succ_mul] at h
  have h1 : q * P ≤ i - 1 := by omega
  have h2 : i - 1 < (q + 1) * P := by rw [Nat.succ_mul]; omega
  rw [Nat.div_eq_of_lt_le h1 h2]

theorem labels_of_row (hN : 1 ≤ N) (hP : 1 ≤ P) {i : ℕ} (hi : 1 ≤ i ∧ i ≤ N) :
    InRange N P ((i - 1) / P + 1) ∧ Labels N P ((i - 1) / P + 1) i := by
  have hle := Nat.div_mul_le_self (i - 1) P
  have hlt : i - 1 < (i - 1) / P * P + P := Nat.lt_div_mul_add (by omega)
  refine ⟨⟨Nat.le_add_left 1 _, (le_totalPages_iff hP).2 ?_⟩, ?_⟩
  · rw [Nat.succ_mul]
    omega
  · unfold Labels showingFrom showingTo
    simp only [Nat.add_sub_cancel]
    rw [Nat.succ_mul]
    omega

theorem labelsPartition (hN : 1 ≤ N) (hP : 1 ≤ P) : LabelsPartition N P := by
  refine ⟨fun j k i hj hk hij hik ↦ ?_, fun i ↦ ⟨fun hi ↦ ⟨_, labels_of_row hN hP hi⟩, ?_⟩⟩
  · rw [page_of_labels hj.1 hij, page_of_labels hk.1 hik]
  · rintro ⟨k, hk, hki⟩
    have := labelValid_of_inRange hP hk
    unfold Labels LabelValid at *
    omega

theorem page_controls_partition_rows (hN : 1 ≤ N) (hP : 1 ≤ P) (cs : List PageClick) :
    InRange N P (clicks N P 1 cs) ∧ LabelValid N P (clicks N P 1 cs) ∧ LabelsPartition N P := by
  have h := clicks_inRange hN hP cs ⟨le_refl 1, one_le_totalPages hN hP⟩
  exact ⟨h, labelValid_of_inRange hP h, labelsPartition hN hP⟩

theorem page_controls_partition_rows_seven_by_three :
    (1 ≤ 7 ∧ 1 ≤ 3) ∧ InRange 7 3 (clicks 7 3 1 [.next, .next, .next, .previous]) ∧
      LabelValid 7 3 (clicks 7 3 1 [.next, .next, .next, .previous]) ∧ LabelsPartition 7 3 :=
  ⟨⟨by decide, by decide⟩, page_controls_partition_rows (by decide) (by decide) _⟩

end SelfDbMini.Frontend.PageControls
