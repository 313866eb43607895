import SelfDbMini.Frontend.PlainObject

namespace SelfDbMini.Frontend.AuthSession

open PlainObject

inductive UserRole
  | ADMIN
  | USER
  deriving DecidableEq, Repr

structure UserRead where
  id : String
  role : Option UserRole
  deriving DecidableEq, Repr

/-- How one SDK call settles: with `data`, with neither data nor error, with `error`, or by a
rejected promise. -/
inductive Reply (α : Type)
  | data (a : α)
  | empty
  | error
  | thrown
  deriving DecidableEq, Repr

/-- The `AuthProvider` state and the browser's `localStorage` entry `token`. -/
structure AuthState where
  user : Option UserRead
  token : Option String
  isLoading : Bool
  storedToken : Option String
  deriving DecidableEq, Repr

/-- The provider's state on mount, before `initAuth` reads `localStorage`. -/
def mountState (stored : Option String) : AuthState := ⟨none, none, true, stored⟩

def initAuth (s : AuthState) (me : Reply UserRead) : AuthState :=
  if truthy s.storedToken then
    match me with
    | .data u => { s with token := s.storedToken, user := some u, isLoading := false }
    | _ => { s with storedToken := none, token := none, isLoading := false }
  else { s with isLoading := false }

/-- `login` run to completion: the token request settles as `tokenReply`, then `/users/me`
as `me`. A thrown error leaves the state as the last update made it. -/
def login (s : AuthState) (tokenReply : Reply String) (me : Reply UserRead) : AuthState :=
  match tokenReply with
  | .data t =>
    match me with
    | .data u => { s with storedToken := some t, token := some t, user := some u }
    | _ => { s with storedToken := some t, token := some t }
  | _ => s

def logout (s : AuthState) : AuthState :=
  { s with storedToken := none, user := none, token := none }

def refreshUser (s : AuthState) (me : Reply UserRead) : AuthState :=
  if truthy s.token then
    match me with
    | .data u => { s with user := some u }
    | _ => s
  else s

inductive AuthOp
  | mount (me : Reply UserRead)
  | login (tokenReply : Reply String) (me : Reply UserRead)
  | logout
  | refreshUser (me : Reply UserRead)
  deriving DecidableEq, Repr

/-- One operation, completed before the next starts. A mount starts from fresh React state and
the `localStorage` the previous operations left. -/
def authStep (s : AuthState) : AuthOp → AuthState
  | .mount me => initAuth (mountState s.storedToken) me
  | .login r me => login s r me
  | .logout => logout s
  | .refreshUser me => refreshUser s me

def session (stored : Option String) (me : Reply UserRead) (ops : List AuthOp) : AuthState :=
  ops.foldl authStep (initAuth (mountState stored) me)

inductive Guard
  | loading
  | navigate (path : String)
  | children
  deriving DecidableEq, Repr

def isAuthenticated (s : AuthState) : Bool := s.user.isSome

def requireAuth (s : AuthState) : Guard :=
  if s.isLoading then .loading
  else if !isAuthenticated s then .navigate "/login"
  else .children

def requireAdmin (s : AuthState) : Guard :=
  if s.isLoading then .loading
  else if !isAuthenticated s then .navigate "/login"
  else if s.user.bind UserRead.role ≠ some .ADMIN then .navigate "/"
  else .children

/-- From a mount without a stored token, a login whose `/users/me` call fails leaves a stored
token with no user, no longer loading. -/
theorem login_failed_me_leaves_token_without_user :
    session none .empty [.login (.data "t") .error] =
      ⟨none, some "t", false, some "t"⟩ := rfl

end SelfDbMini.Frontend.AuthSession
