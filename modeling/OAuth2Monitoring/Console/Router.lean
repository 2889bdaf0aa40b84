import OAuth2Monitoring.Console.Stores

/-!
# Routes and their guard

The routes of the console, the roles a user has, and the guard that is applied to every navigation
and to every redirect.

## Main definitions

* `Route`, `resolve`: the routes and their paths.
* `beforeEach`: the guard.
* `VueRouter`, `VueRouter.Documented`: the router, a parameter, and what is documented of it.
* `Router.Bound`, `Router.Strayed`: where the navigation under way leads.
-/

namespace Console

open JsStd

/-! ## Roles -/

/-- A list of roles from the environment, separated by commas. -/
def roleList (value : Option Text) (default : String) : List Text :=
  let names := match value with
    | none | some [] => text default
    | some names => names
  ((names.splitOn 44).map trim).filter (· ≠ [])

/-- The roles that gate the console. -/
structure RoleLists where
  /-- The roles with full access. -/
  admin : List Text
  /-- The roles that may read. -/
  viewer : List Text

/-- `ADMIN_ROLES` and `VIEWER_ROLES`. -/
def RoleLists.ofEnv (adminRoles viewerRoles : Option Text) : RoleLists where
  admin := roleList adminRoles "admin,monitor_admin"
  viewer := roleList viewerRoles "monitor_viewer"

namespace AuthStore

/-- `user.value?.roles ?? []`, which is an array if it is there. -/
def roles (s : AuthStore) : List Json :=
  match Json.optionalGet s.user "roles" with
  | some (.arr roles) => roles
  | _ => []

/-- Does the user have a role of the list? The empty list asks for none. -/
def hasRole (s : AuthStore) (list : List Text) : Bool :=
  list.isEmpty || s.roles.any fun role => list.any fun name => Json.isText name (some role)

/-- `isAdmin`. -/
def isAdmin (s : AuthStore) (lists : RoleLists) : Bool := s.hasRole lists.admin

/-- `isViewer`. -/
def isViewer (s : AuthStore) (lists : RoleLists) : Bool := s.isAdmin lists || s.hasRole lists.viewer

end AuthStore

/-! ## Routes -/

/-- The names of the routes. -/
inductive Route
  | login
  | unauthorised
  | dashboard
  | events
  | threats
  | sessions
  | tokens
  | reports
  | geo
  | policyDecisions
  | alerts
  | blockedIPs
  | auditLogs
  | settings
  deriving DecidableEq

namespace Route

/-- The routes, in the order of the table. -/
def all : List Route :=
  [login, unauthorised, dashboard, events, threats, sessions, tokens, reports, geo, policyDecisions,
    alerts, blockedIPs, auditLogs, settings]

/-- The path of a route. -/
def path : Route → Text
  | login => text "/login"
  | unauthorised => text "/unauthorised"
  | dashboard => text "/"
  | events => text "/events"
  | threats => text "/threats"
  | sessions => text "/sessions"
  | tokens => text "/tokens"
  | reports => text "/reports"
  | geo => text "/geo"
  | policyDecisions => text "/policy-decisions"
  | alerts => text "/alerts"
  | blockedIPs => text "/blocked-ips"
  | auditLogs => text "/audit-logs"
  | settings => text "/settings"

/-- `meta.requiresAuth`. -/
def requiresAuth : Route → Bool
  | login | unauthorised => false
  | _ => true

/-- `meta.requiresAdmin`. -/
def requiresAdmin : Route → Bool
  | alerts | blockedIPs | auditLogs | settings => true
  | _ => false

end Route

/-- The route of a path. -/
def resolve (path : Text) : Option Route := Route.all.find? fun route => route.path = path

theorem resolve_login : resolve (text "/login") = some .login := by decide

theorem resolve_unauthorised : resolve (text "/unauthorised") = some .unauthorised := by decide

theorem resolve_dashboard : resolve (text "/") = some .dashboard := by decide

/-- The guard: the path it redirects to, if it does not let the navigation pass. -/
def beforeEach (lists : RoleLists) (auth : AuthStore) (target : Route) : Option Text :=
  if target.requiresAuth ∧ !auth.isAuthenticated then some (text "/login")
  else if target.requiresAuth ∧ target.requiresAdmin ∧ !auth.isAdmin lists then
    some (text "/unauthorised")
  -- the other routes need no more than read access
  else if target.requiresAuth ∧ !target.requiresAdmin ∧ !auth.isViewer lists then
    some (text "/unauthorised")
  else if target = .login ∧ auth.isAuthenticated then some (text "/")
  else none

section

variable {lists : RoleLists} {auth : AuthStore}

/-- Nobody is kept from the page for users without roles. -/
theorem beforeEach_unauthorised : beforeEach lists auth .unauthorised = none := by
  simp [beforeEach, Route.requiresAuth]

/-- Users who are signed in have no reason to sit on the login page. -/
theorem beforeEach_login :
    beforeEach lists auth .login = if auth.isAuthenticated then some (text "/") else none := by
  simp [beforeEach, Route.requiresAuth]

/-- Users who are signed out are sent to the login page. -/
theorem beforeEach_of_not (h : auth.isAuthenticated = false) {target : Route}
    (h' : target.requiresAuth = true) : beforeEach lists auth target = some (text "/login") := by
  simp [beforeEach, h, h']

/-- A user who is signed in is let through to the dashboard, or sent to the page for users without
roles. -/
theorem beforeEach_dashboard (h : auth.isAuthenticated = true) :
    beforeEach lists auth .dashboard =
      if auth.isViewer lists then none else some (text "/unauthorised") := by
  cases hviewer : auth.isViewer lists <;>
    simp [beforeEach, h, hviewer, Route.requiresAuth, Route.requiresAdmin]

end

/-! ## Navigations -/

/-- A navigation that is under way. -/
structure Navigation where
  /-- Where to. -/
  target : Route
  /-- Whether the guard has let it pass. -/
  passed : Bool := false

/-- The state of the router. -/
structure Router where
  /-- The route that is shown. -/
  current : Route
  /-- The navigation under way. -/
  pending : Option Navigation := none

/-- What the console uses of the router. -/
structure VueRouter where
  /-- `router.push(path)`. -/
  push : Text → Router → Router
  /-- The next step of the navigation under way, the guard seeing this identity. -/
  advance : AuthStore → Router → Router → Prop

/-- What is documented of the router with the guard of the console: the guard is applied to every
navigation and to every redirect. -/
structure VueRouter.Documented (lists : RoleLists) (vr : VueRouter) : Prop where
  /-- What is pushed takes the place of the navigation under way, and there is none to the route
  that is shown. -/
  pushes : ∀ {path : Text} {target : Route} (r : Router), resolve path = some target →
    vr.push path r = { r with pending := if target = r.current then none else some { target } }
  /-- A path that the guard redirects to is pushed. -/
  redirects : ∀ {auth : AuthStore} {r r' : Router} {target : Route} {path : Text},
    vr.advance auth r r' → r.pending = some { target } →
    beforeEach lists auth target = some path → r' = vr.push path r
  /-- The guard lets a navigation pass. -/
  passes : ∀ {auth : AuthStore} {r r' : Router} {target : Route}, vr.advance auth r r' →
    r.pending = some { target } → beforeEach lists auth target = none →
    r' = { r with pending := some { target, passed := true } }
  /-- When it has passed its route is shown. -/
  shows : ∀ {auth : AuthStore} {r r' : Router} {target : Route}, vr.advance auth r r' →
    r.pending = some { target, passed := true } → r' = { current := target }
  /-- Nothing happens when no navigation is under way. -/
  rests : ∀ {auth : AuthStore} {r r' : Router}, vr.advance auth r r' → r.pending ≠ none

namespace Router

/-- The router is on the way to the login page, or shows it. -/
def Bound (r : Router) : Prop :=
  match r.pending with
  | none => r.current = .login
  | some { target := .login, .. } => True
  | some { target := .dashboard, passed := false } => True
  | _ => False

/-- The router is on the way somewhere else, the guard having nothing to say to it any more, or
shows something else. -/
def Strayed (r : Router) : Prop :=
  match r.pending with
  | none => r.current ≠ .login
  | some { target := .dashboard, passed := true } => True
  | some { target := .unauthorised, .. } => True
  | _ => False

section

variable {lists : RoleLists} {auth : AuthStore} {r r' : Router} {vr : VueRouter}

/-- A push of the login page leads there. -/
theorem bound_push_login (hvr : vr.Documented lists) (r : Router) :
    (vr.push (text "/login") r).Bound := by
  rw [hvr.pushes r resolve_login, Bound]
  by_cases h : Route.login = r.current
  · rw [if_pos h]
    exact h.symm
  · rw [if_neg h]
    trivial

theorem strayed_push_unauthorised (hvr : vr.Documented lists) (r : Router) :
    (vr.push (text "/unauthorised") r).Strayed := by
  rw [hvr.pushes r resolve_unauthorised, Strayed]
  by_cases h : Route.unauthorised = r.current
  · rw [if_pos h]
    show r.current ≠ .login
    rw [← h]
    nofun
  · rw [if_neg h]
    trivial

/-- A user who is signed out is not led away from the login page. -/
theorem Bound.step (hvr : vr.Documented lists) (h : r.Bound)
    (hauth : auth.isAuthenticated = false) (hstep : vr.advance auth r r') : r'.Bound := by
  -- nothing is under way, or a navigation before its guard, or one the guard has let pass
  obtain ⟨current, _ | ⟨target, _ | _⟩⟩ := r
  · exact absurd rfl (hvr.rests hstep)
  · cases target with
    | login =>
      -- the guard lets them pass
      have hguard : beforeEach lists auth .login = none := by
        rw [beforeEach_login, hauth]
        rfl
      obtain rfl := hvr.passes hstep rfl hguard
      trivial
    | dashboard =>
      -- and sends them to the login page from here
      obtain rfl := hvr.redirects hstep rfl (beforeEach_of_not hauth rfl)
      exact bound_push_login hvr _
    | _ => exact h.elim
  · obtain rfl := hvr.shows hstep rfl
    cases target with
    | login => rfl
    | _ => exact h.elim

/-- Nothing leads back to the login page. -/
theorem Strayed.step (hvr : vr.Documented lists) (h : r.Strayed)
    (hstep : vr.advance auth r r') : r'.Strayed := by
  obtain ⟨current, _ | ⟨target, _ | _⟩⟩ := r
  · exact absurd rfl (hvr.rests hstep)
  -- the guard lets the page for the unauthorised pass
  · cases target with
    | unauthorised =>
      obtain rfl := hvr.passes hstep rfl beforeEach_unauthorised
      trivial
    | _ => exact h.elim
  · obtain rfl := hvr.shows hstep rfl
    cases target with
    | dashboard | unauthorised => nofun
    | _ => exact h.elim

/-- A user who is signed in when the guard meets the dashboard does not reach the login page. -/
theorem strayed_of_dashboard (hvr : vr.Documented lists)
    (h : r.pending = some { target := .dashboard }) (hauth : auth.isAuthenticated = true)
    (hstep : vr.advance auth r r') : r'.Strayed := by
  have hguard : beforeEach lists auth .dashboard =
      if auth.isViewer lists then none else some (text "/unauthorised") :=
    beforeEach_dashboard hauth
  cases hviewer : auth.isViewer lists with
  | true =>
    -- they stay on the dashboard
    rw [hviewer, if_pos rfl] at hguard
    obtain rfl := hvr.passes hstep h hguard
    trivial
  | false =>
    -- they are sent to the page for users without roles
    rw [hviewer, if_neg Bool.false_ne_true] at hguard
    obtain rfl := hvr.redirects hstep h hguard
    exact strayed_push_unauthorised hvr r

end

end Router

end Console
