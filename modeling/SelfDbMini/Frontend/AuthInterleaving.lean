import SelfDbMini.Frontend.AuthSession

namespace SelfDbMini.Frontend.AuthInterleaving

open PlainObject AuthSession

inductive AuthTask
  | initMe
  | loginToken
  | loginMe
  | refreshMe
  deriving DecidableEq, Repr

/-- The provider, the `token` its latest render put in the closures, and the continuations
waiting for responses, in any order of arrival. -/
structure AuthMachine where
  state : AuthState
  renderedToken : Option String
  pending : List AuthTask
  deriving DecidableEq, Repr

/-- One event: an operation starts, the provider re-renders, or a response arrives. -/
inductive AuthEvent
  | startLogin
  | logout
  | startRefresh
  | render
  | tokenReply (r : Reply String)
  | meReply (task : AuthTask) (r : Reply UserRead)
  deriving DecidableEq, Repr

/-- The provider at its first render: the `useState` values, `localStorage` holding `stored`,
and nothing in flight. -/
def firstRender (stored : Option String) : AuthMachine := ⟨mountState stored, none, []⟩

/-- The mount effect: `initAuth` up to its first `await`, with the `localStorage` it reads. -/
def mountEffect (m : AuthMachine) : AuthMachine :=
  if truthy m.state.storedToken then
    { m with state := { m.state with token := m.state.storedToken },
             pending := m.pending ++ [.initMe] }
  else { m with state := { m.state with isLoading := false } }

def mounted (stored : Option String) : AuthMachine := mountEffect (firstRender stored)

def resumeInit (s : AuthState) : Reply UserRead → AuthState
  | .data u => { s with user := some u, isLoading := false }
  | _ => { s with storedToken := none, token := none, isLoading := false }

def resumeMe (s : AuthState) : Reply UserRead → AuthState
  | .data u => { s with user := some u }
  | _ => s

/-- The machine after one event, or `none` when the event cannot happen (its response is not
awaited). -/
def authEvent (m : AuthMachine) : AuthEvent → Option AuthMachine
  | .startLogin => some { m with pending := m.pending ++ [.loginToken] }
  | .logout => some { m with state := logout m.state }
  | .startRefresh =>
    some (if truthy m.renderedToken then { m with pending := m.pending ++ [.refreshMe] } else m)
  | .render => some { m with renderedToken := m.state.token }
  | .tokenReply r =>
    if .loginToken ∈ m.pending then
      let rest := m.pending.erase .loginToken
      match r with
      | .data t =>
        some ⟨{ m.state with storedToken := some t, token := some t }, m.renderedToken,
          rest ++ [.loginMe]⟩
      | _ => some { m with pending := rest }
    else none
  | .meReply task r =>
    if task ∈ m.pending then
      let rest := m.pending.erase task
      match task with
      | .initMe => some ⟨resumeInit m.state r, m.renderedToken, rest⟩
      | .loginMe | .refreshMe => some ⟨resumeMe m.state r, m.renderedToken, rest⟩
      | .loginToken => none
    else none

def authRun (m : AuthMachine) : List AuthEvent → Option AuthMachine
  | [] => some m
  | e :: es => (authEvent m e).bind fun m' ↦ authRun m' es

/-- The machines reachable once the mount effect ran, under any interleaving of operations,
renders and responses. -/
inductive Mounted : AuthMachine → Prop
  | effect (stored : Option String) : Mounted (mounted stored)
  | step {m m' : AuthMachine} (e : AuthEvent) : Mounted m → authEvent m e = some m' → Mounted m'

/-- The machines reachable from the provider's first render: the first render itself, and every
machine once its mount effect ran. React runs a render's effects before it renders again, and
every event needs an element of a later render, so no event comes before the mount effect. -/
def Reachable (m : AuthMachine) : Prop := (∃ stored, m = firstRender stored) ∨ Mounted m

theorem Mounted.run {m m' : AuthMachine} {es : List AuthEvent} (h : Mounted m)
    (hr : authRun m es = some m') : Mounted m' := by
  induction es generalizing m with
  | nil => cases hr; exact h
  | cons e es ih =>
    obtain ⟨m₁, h₁, h₂⟩ := Option.bind_eq_some.1 hr
    exact ih (h.step e h₁) h₂

/-- `localStorage` holds the provider's token, or neither was written since the first render:
then no user is set, the closures hold no token, and only a login's token request can be in
flight. -/
def TokenStored (m : AuthMachine) : Prop :=
  m.state.storedToken = m.state.token ∨
    (m.state.token = none ∧ m.renderedToken = none ∧ m.state.user = none ∧
      ∀ t ∈ m.pending, t = .loginToken)

theorem tokenStored_firstRender (stored : Option String) : TokenStored (firstRender stored) :=
  .inr ⟨rfl, rfl, rfl, fun _ h ↦ absurd h (List.not_mem_nil _)⟩

theorem tokenStored_mountEffect {m : AuthMachine} (h : TokenStored m) :
    TokenStored (mountEffect m) := by
  unfold mountEffect
  split
  · exact .inl rfl
  · exact h

theorem tokenStored_authEvent {m m' : AuthMachine} {e : AuthEvent} (h : TokenStored m)
    (he : authEvent m e = some m') : TokenStored m' := by
  cases e with
  | startLogin =>
    cases he
    exact h.imp id fun ⟨h₁, h₂, h₃, h₄⟩ ↦
      ⟨h₁, h₂, h₃, fun t ht ↦ (List.mem_append.1 ht).elim (h₄ t) List.mem_singleton.1⟩
  | render => cases he; exact h.imp id fun ⟨h₁, _, h₃, h₄⟩ ↦ ⟨h₁, h₁, h₃, h₄⟩
  | logout => cases he; exact .inl rfl
  | startRefresh =>
    cases he
    split
    · rename_i hr
      refine .inl (h.resolve_right fun ⟨_, h₂, _⟩ ↦ ?_)
      simp [h₂, truthy] at hr
    · exact h
  | tokenReply r =>
    simp only [authEvent] at he
    split_ifs at he
    cases r <;> cases he
    all_goals first
      | exact .inl rfl
      | exact h.imp id fun ⟨h₁, h₂, h₃, h₄⟩ ↦ ⟨h₁, h₂, h₃, fun t ht ↦ h₄ t (List.mem_of_mem_erase ht)⟩
  | meReply task r =>
    simp only [authEvent] at he
    split_ifs at he with hm
    rcases h with h | ⟨-, -, -, h₄⟩
    · cases task <;> cases r <;> cases he <;> first | exact .inl rfl | exact .inl h
    · cases h₄ task hm
      cases he

theorem tokenStored_of_reachable {m : AuthMachine} (h : Reachable m) : TokenStored m := by
  rcases h with ⟨stored, rfl⟩ | h
  · exact tokenStored_firstRender stored
  · induction h with
    | effect stored => exact tokenStored_mountEffect (tokenStored_firstRender stored)
    | step e _ he ih => exact tokenStored_authEvent ih he

/-- Under any interleaving of operations, renders and responses, from the first render on: while
a user is set, `localStorage` holds the provider's token. -/
theorem token_stored_while_user_set {m : AuthMachine} (h : Reachable m)
    (hu : m.state.user ≠ none) : m.state.storedToken = m.state.token :=
  (tokenStored_of_reachable h).resolve_right fun ⟨_, _, h₃, _⟩ ↦ hu h₃

def InitCount (m : AuthMachine) : Prop := m.pending.count .initMe = m.state.isLoading.toNat

theorem initCount_mounted (stored : Option String) : InitCount (mounted stored) := by
  unfold mounted mountEffect
  split <;> rfl

theorem initCount_authEvent {m m' : AuthMachine} {e : AuthEvent} (h : InitCount m)
    (he : authEvent m e = some m') : InitCount m' := by
  unfold InitCount at h ⊢
  cases e with
  | startLogin | render | logout => cases he; simpa using h
  | startRefresh => cases he; split <;> simpa using h
  | tokenReply r =>
    simp only [authEvent] at he
    split_ifs at he
    cases r <;> cases he <;> simpa [List.count_erase_of_ne] using h
  | meReply task r =>
    simp only [authEvent] at he
    split_ifs at he with hmem
    cases task with
    | initMe =>
      have hl : m.state.isLoading = true := by
        have := List.count_pos_iff.2 hmem
        rw [h] at this
        cases hs : m.state.isLoading <;> simp_all
      cases r <;> cases he <;> simp [List.count_erase_self, h, hl, resumeInit]
    | loginToken => cases he
    | loginMe | refreshMe =>
      cases r <;> cases he <;> simpa [List.count_erase_of_ne, resumeMe] using h

theorem initCount_of_mounted {m : AuthMachine} (h : Mounted m) : InitCount m := by
  induction h with
  | effect stored => exact initCount_mounted stored
  | step e _ he ih => exact initCount_authEvent ih he

theorem requireAuth_eq_loading (s : AuthState) : requireAuth s = .loading ↔ s.isLoading = true := by
  unfold requireAuth
  split_ifs <;> simp_all

theorem requireAdmin_eq_loading (s : AuthState) :
    requireAdmin s = .loading ↔ s.isLoading = true := by
  unfold requireAdmin
  split_ifs <;> simp_all

theorem isLoading_iff {m : AuthMachine} (h : Reachable m) :
    m.state.isLoading = true ↔ AuthTask.initMe ∈ m.pending ∨ m = firstRender m.state.storedToken := by
  rcases h with ⟨stored, rfl⟩ | h
  · exact ⟨fun _ ↦ .inr rfl, fun _ ↦ rfl⟩
  · have hc := initCount_of_mounted h
    have hl : m.state.isLoading = true ↔ AuthTask.initMe ∈ m.pending := by
      rw [← List.count_pos_iff, hc]
      cases m.state.isLoading <;> simp
    refine hl.trans ⟨.inl, fun h' ↦ h'.elim id fun hf ↦ hl.1 ?_⟩
    rw [hf]
    rfl

/-- Under any interleaving of logins, logouts, refreshes, renders and responses, `RequireAuth` and
`RequireAdmin` show their loading screen at the first render, before the mount effect, and then
exactly while `initAuth` waits for `/users/me`: no other operation ends it or brings it back. -/
theorem guards_loading_while_init_pending {m : AuthMachine} (h : Reachable m) :
    (requireAuth m.state = .loading ↔
        AuthTask.initMe ∈ m.pending ∨ m = firstRender m.state.storedToken) ∧
      (requireAdmin m.state = .loading ↔
        AuthTask.initMe ∈ m.pending ∨ m = firstRender m.state.storedToken) := by
  rw [requireAuth_eq_loading, requireAdmin_eq_loading]
  exact ⟨isLoading_iff h, isLoading_iff h⟩

theorem guards_loading_at_first_render :
    Reachable (firstRender none) ∧
      (requireAuth (firstRender none).state = .loading ↔ AuthTask.initMe ∈ (firstRender none).pending ∨
        firstRender none = firstRender (firstRender none).state.storedToken) ∧
      (requireAdmin (firstRender none).state = .loading ↔
        AuthTask.initMe ∈ (firstRender none).pending ∨
          firstRender none = firstRender (firstRender none).state.storedToken) :=
  have h : Reachable (firstRender none) := .inl ⟨none, rfl⟩
  ⟨h, guards_loading_while_init_pending h⟩

def opEvents (s : AuthState) : AuthOp → List AuthEvent
  | .mount _ => []
  | .login r me =>
    .startLogin :: .tokenReply r :: match r with
      | .data _ => [.meReply .loginMe me]
      | _ => []
  | .logout => [.logout]
  | .refreshUser me =>
    .render :: .startRefresh :: if truthy s.token then [.meReply .refreshMe me] else []

theorem authRun_opEvents {m : AuthMachine} (hp : m.pending = []) (op : AuthOp)
    (hop : ∀ me, op ≠ .mount me) :
    ∃ m', authRun m (opEvents m.state op) = some m' ∧ m'.state = authStep m.state op ∧
      m'.pending = [] := by
  obtain ⟨s, rt, pending⟩ := m
  subst hp
  cases op with
  | mount me => exact absurd rfl (hop me)
  | logout => exact ⟨_, rfl, rfl, rfl⟩
  | login r me => cases r <;> cases me <;> exact ⟨_, rfl, rfl, rfl⟩
  | refreshUser me =>
    by_cases ht : truthy s.token = true
    · cases me <;> simp [opEvents, authRun, authEvent, ht, authStep, refreshUser, resumeMe]
    · simp [opEvents, authRun, authEvent, ht, authStep, refreshUser]

theorem mount_mounted (stored : Option String) (me : Reply UserRead) :
    ∃ m, Mounted m ∧ m.state = initAuth (mountState stored) me ∧ m.pending = [] := by
  by_cases ht : truthy stored = true
  · have hr : authRun (mounted stored) [.meReply .initMe me] =
        some ⟨resumeInit ⟨none, stored, true, stored⟩ me, none, []⟩ := by
      simp [authRun, authEvent, mounted, mountEffect, firstRender, mountState, ht]
    refine ⟨_, (Mounted.effect stored).run hr, ?_, rfl⟩
    cases me <;> simp [resumeInit, initAuth, mountState, ht]
  · refine ⟨_, .effect stored, ?_, ?_⟩ <;>
      simp [mounted, mountEffect, firstRender, initAuth, mountState, ht]

/-- Every state of a sequential session, whatever its operations and outcomes, is the state of a
machine reached under some interleaving, with nothing in flight: the sequential model is the
interleaving one with each operation's responses arriving before the next operation. -/
theorem session_reachable (stored : Option String) (me : Reply UserRead) (ops : List AuthOp) :
    ∃ m, Reachable m ∧ m.state = session stored me ops ∧ m.pending = [] := by
  suffices h : ∀ (ops : List AuthOp) (s : AuthState),
      (∃ m, Mounted m ∧ m.state = s ∧ m.pending = []) →
        ∃ m, Mounted m ∧ m.state = ops.foldl authStep s ∧ m.pending = [] by
    obtain ⟨m, hm, hs⟩ := h ops _ (mount_mounted stored me)
    exact ⟨m, .inr hm, hs⟩
  intro ops
  induction ops with
  | nil => exact fun _ h ↦ h
  | cons op ops ih =>
    rintro s ⟨m, hm, rfl, hp⟩
    refine ih _ ?_
    by_cases hop : ∀ me, op ≠ .mount me
    · obtain ⟨m', hr, hs, hp'⟩ := authRun_opEvents hp op hop
      exact ⟨m', hm.run hr, hs, hp'⟩
    · push_neg at hop
      obtain ⟨me', rfl⟩ := hop
      exact mount_mounted m.state.storedToken me'

def logoutDuringLogin : List AuthEvent :=
  [.startLogin, .tokenReply (.data "t"), .logout, .meReply .loginMe (.data ⟨"u1", some .ADMIN⟩)]

theorem token_stored_after_late_login_reply :
    ∃ m, authRun (mounted none) logoutDuringLogin = some m ∧ Reachable m ∧
      m.state.user ≠ none ∧ m.state.storedToken = m.state.token :=
  have hr : authRun (mounted none) logoutDuringLogin = some _ := rfl
  have hm : Reachable _ := .inr ((Mounted.effect none).run hr)
  ⟨_, hr, hm, Option.some_ne_none _, token_stored_while_user_set hm (Option.some_ne_none _)⟩

/-- The login's late response re-authenticates the session with no token: `RequireAuth`, and
for an admin `RequireAdmin`, render their children. -/
theorem login_reply_after_logout_authenticates :
    ∃ m, authRun (mounted none) logoutDuringLogin = some m ∧ Reachable m ∧
      m.state.user = some ⟨"u1", some .ADMIN⟩ ∧ m.state.token = none ∧
      requireAuth m.state = .children ∧ requireAdmin m.state = .children :=
  ⟨_, rfl, .inr ((Mounted.effect none).run (show authRun _ logoutDuringLogin = some _ from rfl)),
    rfl, rfl, rfl, rfl⟩

end SelfDbMini.Frontend.AuthInterleaving
