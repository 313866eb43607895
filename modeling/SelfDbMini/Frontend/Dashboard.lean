import SelfDbMini.Frontend.PlainObject

namespace SelfDbMini.Frontend.Dashboard

open PlainObject

/-- What one count call of `fetchStats` gives: a response with `data`, a response without it
(an error response that does not throw), or a thrown error. -/
inductive CountReply
  | data (n : ℕ)
  | noData
  | thrown
  deriving DecidableEq, Repr

inductive StatsTask
  | users
  | tables
  deriving DecidableEq, Repr

/-- The Dashboard between events: its two counters, the `token` of the render whose effect ran
last, the count requests in flight, and the replies that arrived for each count, in arrival
order (these two exist to state what the counters show; no modelled function reads them). -/
structure DashboardMachine where
  userCount : ℕ
  tableCount : ℕ
  renderedToken : Option String
  pending : List StatsTask
  usersSettled : List CountReply
  tablesSettled : List CountReply
  deriving DecidableEq, Repr

def fetchStats (token : Option String) (m : DashboardMachine) : DashboardMachine :=
  if truthy token then { m with pending := m.pending ++ [.users] } else m

/-- The Dashboard at its first render: `useState(0)` twice, nothing in flight. -/
def firstDashboard (token : Option String) : DashboardMachine := ⟨0, 0, token, [], [], []⟩

def mountDashboard (token : Option String) : DashboardMachine :=
  fetchStats token (firstDashboard token)

/-- A render with the token the auth context holds, or the arrival of a reply. -/
inductive DashboardEvent
  | render (token : Option String)
  | usersReply (r : CountReply)
  | tablesReply (r : CountReply)
  deriving DecidableEq, Repr

def resumeUsers (m : DashboardMachine) : CountReply → DashboardMachine
  | .data n => { m with userCount := n, pending := m.pending ++ [.tables] }
  | .noData => { m with pending := m.pending ++ [.tables] }
  | .thrown => m

def resumeTables (m : DashboardMachine) : CountReply → DashboardMachine
  | .data n => { m with tableCount := n }
  | _ => m

/-- One event, or `none` when no request of that kind is in flight. The effect depends on
`[token]`, so a render runs `fetchStats` again only when the token changed; nothing cancels the
calls still waiting. -/
def dashboardEvent (m : DashboardMachine) : DashboardEvent → Option DashboardMachine
  | .render token =>
    some (if token = m.renderedToken then m else fetchStats token { m with renderedToken := token })
  | .usersReply r =>
    if .users ∈ m.pending then
      some (resumeUsers
        { m with pending := m.pending.erase .users, usersSettled := m.usersSettled ++ [r] } r)
    else none
  | .tablesReply r =>
    if .tables ∈ m.pending then
      some (resumeTables
        { m with pending := m.pending.erase .tables, tablesSettled := m.tablesSettled ++ [r] } r)
    else none

/-- The machines reachable once the mount effect ran, under any interleaving of renders and
replies. -/
inductive StatsMounted : DashboardMachine → Prop
  | mount (token : Option String) : StatsMounted (mountDashboard token)
  | step {m m' : DashboardMachine} (e : DashboardEvent) : StatsMounted m →
      dashboardEvent m e = some m' → StatsMounted m'

/-- The machines reachable from the first render: the first render itself, and every machine once
its mount effect ran. -/
def StatsReachable (m : DashboardMachine) : Prop :=
  (∃ token, m = firstDashboard token) ∨ StatsMounted m

def countAfter (c : ℕ) : CountReply → ℕ
  | .data n => n
  | _ => c

def lastCount (replies : List CountReply) : ℕ := replies.foldl countAfter 0

theorem lastCount_concat (replies : List CountReply) (r : CountReply) :
    lastCount (replies ++ [r]) = countAfter (lastCount replies) r := by
  simp [lastCount]

/-- Each counter shows the last count of its kind to arrive, and a table count is requested
once for each user count reply that did not throw. -/
structure FollowsReplies (m : DashboardMachine) : Prop where
  userCount_eq : m.userCount = lastCount m.usersSettled
  tableCount_eq : m.tableCount = lastCount m.tablesSettled
  chained : m.pending.count .tables + m.tablesSettled.length =
    m.usersSettled.countP (· != .thrown)

theorem followsReplies_fetchStats {m : DashboardMachine} (h : FollowsReplies m)
    (token : Option String) : FollowsReplies (fetchStats token m) := by
  unfold fetchStats
  split
  · exact ⟨h.userCount_eq, h.tableCount_eq, by simpa [List.count_append] using h.chained⟩
  · exact h

theorem followsReplies_firstDashboard (token : Option String) :
    FollowsReplies (firstDashboard token) :=
  ⟨rfl, rfl, rfl⟩

theorem followsReplies_dashboardEvent {m m' : DashboardMachine} (h : FollowsReplies m)
    {e : DashboardEvent} (he : dashboardEvent m e = some m') : FollowsReplies m' := by
  cases e with
  | render token =>
    cases he
    split
    · exact h
    · exact followsReplies_fetchStats
        (show FollowsReplies { m with renderedToken := token } from ⟨h.1, h.2, h.3⟩) token
  | usersReply r =>
    simp only [dashboardEvent] at he
    split_ifs at he
    cases he
    have hc : (m.pending.erase .users).count .tables = m.pending.count .tables :=
      List.count_erase_of_ne (by decide) _
    have hu := h.userCount_eq
    have hs := h.chained
    cases r <;>
      refine ⟨?_, h.tableCount_eq, ?_⟩ <;>
      simp [resumeUsers, lastCount_concat, countAfter, List.count_append, hc, hu] <;> omega
  | tablesReply r =>
    simp only [dashboardEvent] at he
    split_ifs at he with hm
    cases he
    have hc : (m.pending.erase .tables).count .tables + 1 = m.pending.count .tables := by
      have := List.count_pos_iff.2 hm
      rw [List.count_erase_self]
      omega
    have ht := h.tableCount_eq
    have hs := h.chained
    cases r <;>
      refine ⟨h.userCount_eq, ?_, ?_⟩ <;>
      simp [resumeTables, lastCount_concat, countAfter, ht] <;> omega

/-- Under any interleaving of renders and replies, each counter of the Dashboard shows the
count of the last reply of its kind with data to arrive (0 before any), and the table count is
requested exactly once for each user count reply that did not throw: when every user count
call throws, the table count is never requested and Total Tables stays 0. -/
theorem dashboard_counts_follow_replies {m : DashboardMachine} (h : StatsReachable m) :
    m.userCount = lastCount m.usersSettled ∧ m.tableCount = lastCount m.tablesSettled ∧
      m.pending.count .tables + m.tablesSettled.length = m.usersSettled.countP (· != .thrown) := by
  have hf : FollowsReplies m := by
    rcases h with ⟨token, rfl⟩ | h
    · exact followsReplies_firstDashboard token
    · induction h with
      | mount token => exact followsReplies_fetchStats (followsReplies_firstDashboard token) token
      | step _ _ he ih => exact followsReplies_dashboardEvent ih he
  exact ⟨hf.userCount_eq, hf.tableCount_eq, hf.chained⟩

def usersCounted : DashboardMachine :=
  ⟨3, 0, some "t", [.tables], [.data 3], []⟩

theorem dashboard_counts_follow_replies_after_user_count :
    dashboardEvent (mountDashboard (some "t")) (.usersReply (.data 3)) = some usersCounted ∧
      StatsReachable usersCounted ∧
      usersCounted.userCount = lastCount usersCounted.usersSettled ∧
      usersCounted.tableCount = lastCount usersCounted.tablesSettled ∧
      usersCounted.pending.count .tables + usersCounted.tablesSettled.length =
        usersCounted.usersSettled.countP (· != .thrown) :=
  have he : dashboardEvent (mountDashboard (some "t")) (.usersReply (.data 3)) =
      some usersCounted := rfl
  have h : StatsReachable usersCounted := .inr ((StatsMounted.mount _).step _ he)
  ⟨he, h, dashboard_counts_follow_replies h⟩

end SelfDbMini.Frontend.Dashboard
