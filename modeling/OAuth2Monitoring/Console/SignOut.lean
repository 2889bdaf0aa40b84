import OAuth2Monitoring.Console.Router
import OAuth2Monitoring.ToMathlib.EventLoop.Loop

/-!
# Signing out

The sidebar and the page for users without roles offer to sign out. The sidebar awaits the logout
before it goes to the login page; the other page goes there at once, when the guard still sees a
user who is signed in and sends them to the dashboard. Where they end depends on whether the logout
has settled when the guard is applied to that redirect.

## Main definitions

* `View`, `View.logout`: the two functions.
* `Tab`, `SignOutRun`: a tab of the browser, and its runs with one click.
* `GuardInTime`: the guard does not meet the redirect to the dashboard before the logout has
  settled.

## Main results

* `signedOut_of_guardInTime`: then the user ends at the login page, and otherwise does not.
-/

namespace Console

open JsStd EventLoop

/-! ## The two functions -/

/-- A tab of the browser, with the `POST /bff/logout` it has sent. -/
structure Tab where
  /-- The auth store. -/
  auth : AuthStore
  /-- The state of the router. -/
  router : Router
  /-- The headers of each request, in the order they were sent. -/
  posts : List (List (Text × Text)) := []

/-- The response to `POST /bff/logout`, of which only the status could be read. -/
inductive LogoutWait
  | response

/-- What is awaited is of this type. -/
@[reducible]
def LogoutWait.Value : LogoutWait → Type
  | response => ℕ

/-- `authStore.logout()`. -/
def AuthStore.logout : Async Tab LogoutWait.Value String Unit := do
  Async.modify fun t => { t with posts := t.posts ++ [t.auth.csrfHeaders] }
  -- whatever becomes of the request
  Async.tryCatch (do let _ ← Async.ask .response; return ()) fun _ => return ()
  Async.modify fun t => { t with auth := t.auth.setUnauthenticated }

/-- `router.push(path)`. -/
def Tab.push (vr : VueRouter) (path : Text) (t : Tab) : Tab :=
  { t with router := vr.push path t.router }

/-- The views that offer to sign out. -/
inductive View
  | app
  | unauthorised
  deriving DecidableEq

/-- What a click runs. -/
def View.logout (vr : VueRouter) : View → Async Tab LogoutWait.Value String Unit
  | app => do
    AuthStore.logout
    Async.modify (Tab.push vr (text "/login"))
  | unauthorised => Async.unawaited (Tab.push vr (text "/login")) AuthStore.logout

/-- Is the button shown? -/
def View.offers (t : Tab) : View → Bool
  | app => t.auth.isAuthenticated && t.router.current ∉ [.login, .unauthorised]
  | unauthorised => t.router.current = .unauthorised

/-- What the segments of a click do: the first one sends the request, and the other one drops the
identity; the sidebar pushes the login page in that one, the other view in the first. -/
def View.spec (vr : VueRouter) (v : View) : Spec Tab LogoutWait.Value String Unit where
  wait h t₀ t _ := h = [] ∧ t.auth = t₀.auth ∧
    t.router = if v = .app then t₀.router else vr.push (text "/login") t₀.router
  done h t₀ t _ := h ≠ [] ∧ t.auth = t₀.auth.setUnauthenticated ∧
    t.router = if v = .app then vr.push (text "/login") t₀.router else t₀.router

/-- The request may be answered with anything, at any time. -/
def anyAnswer (_ : Tab) (q : LogoutWait) (_ : Except String q.Value) : Prop := True

/-- A click does what its specification says. -/
theorem View.sat (vr : VueRouter) (v : View) (t : Tab) :
    (v.logout vr).Sat anyAnswer (v.spec vr) [] t t := by
  cases v with
  | app =>
    refine ⟨⟨rfl, rfl, rfl⟩, fun a t₁ _ => ?_⟩
    cases a <;> exact ⟨List.cons_ne_nil _ _, rfl, rfl⟩
  | unauthorised =>
    refine ⟨⟨rfl, rfl, rfl⟩, fun a t₁ _ => ?_⟩
    cases a <;> exact ⟨List.cons_ne_nil _ _, rfl, rfl⟩

/-! ## Runs with one click -/

/-- A tab with its clicks, and what a step of it does. -/
abbrev Clicks := Loop Tab View LogoutWait.Value String Unit

/-- The labels of the steps. -/
abbrev ClickMove := Label View Unit LogoutWait.Value String

/-- The navigation under way goes on, as the router has it. -/
def navigates (vr : VueRouter) (t : Tab) (_ : Unit) (t' : Tab) : Prop :=
  ∃ r, vr.advance t.auth t.router r ∧ t' = { t with router := r }

/-- One click on a button that is shown. -/
def ClicksOnce (L : Clicks) : ClickMove → Prop
  | .call v => L.acts = [] ∧ v.offers L.shared = true
  | _ => True

/-- The guard meets the dashboard only when nobody is signed in any more. -/
def GuardInTime (L : Clicks) : ClickMove → Prop
  | .env _ => L.shared.router.pending = some { target := .dashboard } →
      L.shared.auth.isAuthenticated = false
  | _ => True

/-- The tabs of the runs whose steps meet `C`. -/
abbrev SignOutRun (vr : VueRouter) (C : Clicks → ClickMove → Prop) (t : Tab) : Clicks → Prop :=
  Reachable (View.logout vr) anyAnswer (navigates vr) C t

/-- The logout has settled, and no navigation is under way. -/
def Quiet (L : Clicks) : Prop :=
  L.acts ≠ [] ∧ (∀ act ∈ L.acts, ¬act.pause.Waits) ∧ L.shared.router.pending = none

/-- Nobody is signed in, and the login page is shown. -/
def SignedOut (t : Tab) : Prop :=
  t.auth = { authenticated := false, user := none, csrf := none } ∧ t.router.current = .login

section

variable {lists : RoleLists} {vr : VueRouter} {t : Tab} {L : Clicks}

/-- How far a click that began in `t` has come, in `t'`, as long as the guard is in time: the logout
has not settled, the sidebar waiting for it and the other view being on the way to the login page;
or it has settled. -/
inductive Leaving (t : Tab) (v : View) (p : Pause Tab LogoutWait.Value String Unit) (t' : Tab) :
    Prop
  | waits (hp : p.Waits) (hauth : t'.auth = t.auth)
      (happ : v = .app → t'.router.pending = none)
      (hother : v = .unauthorised → t'.router.current = .unauthorised ∧
        (t'.router.pending = some { target := .login } ∨
          t'.router.pending = some { target := .dashboard }))
  | settled (hp : ¬p.Waits) (hauth : t'.auth = t.auth.setUnauthenticated)
      (hbound : t'.router.Bound)

section

variable {v : View} {p p' : Pause Tab LogoutWait.Value String Unit} {t' t'' : Tab}

/-- The router goes on. -/
theorem Leaving.navigate (hrouter : vr.Documented lists)
    (hauth : t.auth.isAuthenticated = true) (h : Leaving t v p t')
    (hin : t'.router.pending = some { target := .dashboard } → t'.auth.isAuthenticated = false)
    (hnav : navigates vr t' () t'') : Leaving t v p t'' := by
  obtain ⟨r, hr, rfl⟩ := hnav
  cases h with
  | settled hp hout hbound =>
    have hnot : t'.auth.isAuthenticated = false := by
      rw [hout]
      rfl
    exact .settled hp hout (hbound.step hrouter hnot hr)
  | waits hp hsame happ hother =>
    have hin' : t'.router.pending ≠ some { target := .dashboard } := by
      intro hdashboard
      have hnot := hin hdashboard
      rw [hsame, hauth] at hnot
      cases hnot
    cases v with
    | app =>
      -- nothing is under way
      exact absurd (happ rfl) (hrouter.rests hr)
    | unauthorised =>
      obtain ⟨hcurrent, hlogin | hdashboard⟩ := hother rfl
      · -- the guard sees a user who is signed in, and sends them to the dashboard
        have hguard : beforeEach lists t'.auth .login = some (text "/") := by
          rw [beforeEach_login, hsame, hauth]
          rfl
        obtain rfl := hrouter.redirects hr hlogin hguard
        rw [hrouter.pushes _ resolve_dashboard, hcurrent]
        exact .waits hp hsame (fun h => by cases h) fun _ => ⟨rfl, .inr rfl⟩
      · exact absurd hdashboard hin'

/-- The logout settles. -/
theorem Leaving.resume (hrouter : vr.Documented lists)
    {h : List (Answered LogoutWait.Value String)} (hwait : p.Waits) (hl : Leaving t v p t')
    (h₀ : h ≠ []) (hp' : p'.Admits (v.spec vr) h t' t'') : Leaving t v p' t'' := by
  cases hl with
  | settled hp => exact absurd hwait hp
  | waits _ hsame happ hother =>
    cases p' with
    | waiting q k => exact absurd hp'.1 h₀
    | settled r =>
      obtain ⟨-, hout, hr⟩ := hp'
      refine .settled Pause.waits_settled hout ?_
      cases v with
      | app =>
        -- the login page is pushed in this segment
        rw [hr]
        exact Router.bound_push_login hrouter _
      | unauthorised =>
        -- the navigation under way was started by the click, and is met signed out from now on
        obtain ⟨-, hlogin | hdashboard⟩ := hother rfl
        · rw [hr, Router.Bound]
          simp [hlogin]
        · rw [hr, Router.Bound]
          simp [hdashboard]

/-- The click. -/
theorem leaving_of_call (hrouter : vr.Documented lists) (hpending : t.router.pending = none)
    (hoffers : v.offers t = true) (hp : p.Admits (v.spec vr) [] t t') : Leaving t v p t' := by
  cases p with
  | settled r => exact absurd rfl hp.1
  | waiting q k =>
    obtain ⟨-, hsame, hr⟩ := hp
    cases v with
    | app => exact .waits Pause.waits_waiting hsame (fun _ => by rw [hr]; exact hpending) nofun
    | unauthorised =>
      -- the button is on that page only, and the login page is pushed at once
      have hcurrent : t.router.current = .unauthorised := of_decide_eq_true hoffers
      refine .waits Pause.waits_waiting hsame nofun fun _ => ?_
      rw [hr, if_neg nofun, hrouter.pushes _ resolve_login, hcurrent]
      exact ⟨rfl, .inl rfl⟩

end

/-- The router stands still when no navigation is under way. -/
theorem not_navigates (hrouter : vr.Documented lists) {t' t'' : Tab} {e : Unit}
    (h : t'.router.pending = none) : ¬navigates vr t' e t'' := by
  rintro ⟨r, hr, -⟩
  exact hrouter.rests hr h

/-- A run with one click whose guard is in time. -/
theorem leaving_of_run (hrouter : vr.Documented lists)
    (hauth : t.auth.isAuthenticated = true) (hpending : t.router.pending = none)
    (hL : SignOutRun vr (fun L l => ClicksOnce L l ∧ GuardInTime L l) t L) :
    (L.acts = [] ∧ L.shared = t) ∨
      ∃ act, L.acts = [act] ∧ Leaving t act.job act.pause L.shared := by
  refine Reachable.alone (J := (· = t)) (I := fun v _ _ p t' => Leaving t v p t')
    (S := fun v _ => v.spec vr) (View.sat vr) (fun _ _ hC => hC.1.1) rfl ?_ ?_ ?_ ?_ hL
  · intro L v t' p hshared hcall hp
    rw [hshared] at hp
    exact leaving_of_call hrouter hpending (hshared ▸ hcall.1.2) hp
  · intro v c h q k a t' t'' p hleaving hp
    exact hleaving.resume hrouter Pause.waits_waiting (List.cons_ne_nil _ _) hp
  · -- nothing is under way before the click
    intro L e t' hshared _ hnav
    exact absurd hnav (not_navigates hrouter (hshared ▸ hpending))
  · intro L e t' v c h p hleaving hin hnav
    exact hleaving.navigate hrouter hauth hin.2 hnav

/-- In any run with one click, nothing is under way while the sidebar waits for the logout. -/
theorem idle_of_run (hrouter : vr.Documented lists) (hpending : t.router.pending = none)
    (hL : SignOutRun vr ClicksOnce t L) :
    ∀ act ∈ L.acts, act.job = .app → act.pause.Waits → L.shared.router.pending = none := by
  have hidle : (L.acts = [] ∧ L.shared.router.pending = none) ∨ ∃ act, L.acts = [act] ∧
      (act.job = .app → act.pause.Waits → L.shared.router.pending = none) := by
    refine Reachable.alone (J := fun t' => t'.router.pending = none)
      (I := fun v _ _ p t' => v = .app → p.Waits → t'.router.pending = none)
      (S := fun v _ => v.spec vr) (View.sat vr) (fun _ _ hC => hC.1) hpending ?_ ?_ ?_ ?_ hL
    · -- the first segment of the sidebar's click leaves the router alone
      rintro L v t' p hnone - hp rfl hwaits
      cases p with
      | settled r => exact hwaits.elim
      | waiting q k =>
        obtain ⟨-, -, hr⟩ := hp
        rw [hr]
        exact hnone
    · -- and its second one settles
      rintro v c h q k a t' t'' p - hp - hwaits
      cases p with
      | settled r => exact hwaits.elim
      | waiting q' k' => cases hp.1
    · intro L e t' hnone _ hnav
      exact absurd hnav (not_navigates hrouter hnone)
    · intro L e t' v c h p hI _ hnav happ hwaits
      exact absurd hnav (not_navigates hrouter (hI happ hwaits))
  intro act hact
  rcases hidle with ⟨hnone, -⟩ | ⟨act', hacts, hI⟩
  · rw [hnone] at hact
    cases hact
  · rw [hacts] at hact
    obtain rfl := List.mem_singleton.mp hact
    exact hI

/-- The router has gone astray, and no sidebar will push the login page. -/
def Astray (L : Clicks) : Prop :=
  L.shared.router.Strayed ∧ ∀ act ∈ L.acts, act.job = .app → ¬act.pause.Waits

/-- It stays so, unless there is another click. -/
theorem Astray.step {L' : Clicks} {l : ClickMove} (hrouter : vr.Documented lists)
    (hL : SignOutRun vr ClicksOnce t L)
    (hstep : Step (View.logout vr) anyAnswer (navigates vr) L l L') (hl : ∀ v, l ≠ .call v)
    (h : Astray L) : Astray L' := by
  obtain ⟨hstrayed, hsidebar⟩ := h
  cases hstep with
  | call v => exact absurd rfl (hl v)
  | env e he =>
    obtain ⟨r, hr, rfl⟩ := he
    exact ⟨hstrayed.step hrouter hr, hsidebar⟩
  | @resume i v c h q k a hact ha =>
    have hmem := List.mem_of_getElem? hact
    have hsat := hL.coherent (S := fun v _ => v.spec vr) (View.sat vr) _ hmem
    have hp := (hsat a L.shared ha).run.1
    have hother : v ≠ .app := fun happ => hsidebar _ hmem happ Pause.waits_waiting
    -- the other view pushed the login page when it was clicked, and only drops the identity now
    cases hpause : ((k a).run L.shared).2 with
    | waiting q' k' =>
      rw [hpause] at hp
      cases hp.1
    | settled r =>
      rw [hpause] at hp
      obtain ⟨-, -, hr⟩ := hp
      rw [if_neg hother] at hr
      refine ⟨?_, fun act hact' happ => ?_⟩
      · show ((k a).run L.shared).1.router.Strayed
        rw [hr]
        exact hstrayed
      · rcases List.mem_or_eq_of_mem_set hact' with hact' | rfl
        · exact hsidebar act hact' happ
        · exact Pause.waits_settled

/-- A tab that went astray stays so while nobody clicks. -/
theorem Astray.runs {L' : Clicks} {moves : List ClickMove} (hrouter : vr.Documented lists)
    (hL : SignOutRun vr ClicksOnce t L)
    (hruns : Runs (View.logout vr) anyAnswer (navigates vr) L moves L')
    (hmoves : ∀ v, .call v ∉ moves) (h : Astray L) : Astray L' := by
  induction hruns with
  | nil => exact h
  | @cons L L₁ L' l moves hstep _ ih =>
    have hl : ∀ v, l ≠ .call v := fun v heq => hmoves v (heq ▸ List.mem_cons_self)
    -- no button is clicked any more, so every step is one of the environment or an answer
    have hC : ClicksOnce L l := by
      cases l with
      | call v => exact absurd rfl (hl v)
      | _ => trivial
    exact ih (hL.step hC hstep) (fun v hv => hmoves v (List.mem_cons_of_mem _ hv))
      (h.step hrouter hL hstep hl)

/-- In a run with one click whose guard meets the dashboard only when nobody is signed in any more,
the user is signed out, and at the login page, when everything has settled; and when the guard meets
the dashboard earlier, they are not, however the run goes on. -/
theorem signedOut_of_guardInTime (hrouter : vr.Documented lists)
    (hauth : t.auth.isAuthenticated = true) (hpending : t.router.pending = none) :
    (∀ L, SignOutRun vr (fun L l => ClicksOnce L l ∧ GuardInTime L l) t L → Quiet L →
      SignedOut L.shared) ∧
    ∀ L l L₁ moves L', SignOutRun vr ClicksOnce t L →
      Step (View.logout vr) anyAnswer (navigates vr) L l L₁ → ¬GuardInTime L l →
      Runs (View.logout vr) anyAnswer (navigates vr) L₁ moves L' → (∀ v, .call v ∉ moves) →
      Quiet L' → ¬SignedOut L'.shared := by
  constructor
  · rintro L hL ⟨hclicked, hsettled, hnone⟩
    rcases leaving_of_run hrouter hauth hpending hL with ⟨hacts, -⟩ | ⟨act, hacts, hleaving⟩
    · exact absurd hacts hclicked
    · have hpause := hsettled act (by rw [hacts]; exact List.mem_singleton_self act)
      cases hleaving with
      | waits hp => exact absurd hp hpause
      | settled _ hout hbound =>
        -- bound for the login page with nothing under way is to be there
        refine ⟨hout, ?_⟩
        rw [Router.Bound, hnone] at hbound
        exact hbound
  · rintro L l L₁ moves L' hL hstep hlate hruns hmoves ⟨-, -, hnone⟩ ⟨-, hlogin⟩
    -- only the router's steps are conditioned: the guard met the dashboard with a user signed in
    have hastray : Astray L₁ := by
      cases hstep with
      | call v => exact absurd trivial hlate
      | resume i a hact ha => exact absurd trivial hlate
      | env e he =>
        rw [GuardInTime, Classical.not_imp, Bool.not_eq_false] at hlate
        obtain ⟨hdashboard, hsigned⟩ := hlate
        obtain ⟨r, hr, rfl⟩ := he
        refine ⟨Router.strayed_of_dashboard hrouter hdashboard hsigned hr,
          fun act hact happ hwaits => ?_⟩
        -- a sidebar that waits has nothing under way, so this was the other view's navigation
        have hidle := idle_of_run hrouter hpending hL act hact happ hwaits
        rw [hdashboard] at hidle
        cases hidle
    have hC : ClicksOnce L l := by
      cases l with
      | call v => exact absurd trivial hlate
      | _ => trivial
    have hstrayed := (hastray.runs hrouter (hL.step hC hstep) hruns hmoves).1
    rw [Router.Strayed, hnone] at hstrayed
    exact hstrayed hlogin

end

/-! ## Two users -/

/-- The roles without an environment. -/
def defaultRoles : RoleLists := .ofEnv none none

namespace Router

/-- A push, as documented. Every path that is pushed has a route. -/
def push (path : Text) (r : Router) : Router :=
  match resolve path with
  | none => { r with pending := none }
  | some target => { r with pending := if target = r.current then none else some { target } }

/-- The next step of the navigation under way, as documented. -/
def step (auth : AuthStore) (r : Router) : Option Router :=
  match r.pending with
  | none => none
  | some { target, passed := false } =>
    match beforeEach defaultRoles auth target with
    | some path => some (r.push path)
    | none => some { r with pending := some { target, passed := true } }
  | some { target, passed := true } => some { current := target }

end Router

/-- The router, exactly as documented. -/
def documentedRouter : VueRouter where
  push := Router.push
  advance auth r r' := r.step auth = some r'

/-- The sample router behaves as documented. -/
theorem documented_documentedRouter : documentedRouter.Documented defaultRoles where
  pushes r hpath := by
    show r.push _ = _
    rw [Router.push, hpath]
  redirects hstep hpending hguard := by
    simp only [documentedRouter, Router.step, hpending, hguard, Option.some.injEq] at hstep
    exact hstep.symm
  passes hstep hpending hguard := by
    simp only [documentedRouter, Router.step, hpending, hguard, Option.some.injEq] at hstep
    exact hstep.symm
  shows hstep hpending := by
    simp only [documentedRouter, Router.step, hpending, Option.some.injEq] at hstep
    exact hstep.symm
  rests hstep hpending := by
    simp only [documentedRouter, Router.step, hpending] at hstep
    cases hstep

/-- The navigation under way goes on. -/
def Clicks.navigated (L : Clicks) : Clicks :=
  { L with shared := { L.shared with
      router := (L.shared.router.step L.shared.auth).getD L.shared.router } }

theorem run_navigated {C : Clicks → ClickMove → Prop} {t : Tab} {L : Clicks}
    (hL : SignOutRun documentedRouter C t L)
    (hstep : (L.shared.router.step L.shared.auth).isSome = true)
    (hC : C L (.env ())) : SignOutRun documentedRouter C t L.navigated := by
  obtain ⟨r, hr⟩ := Option.isSome_iff_exists.mp hstep
  refine hL.happened () ⟨r, hr, ?_⟩ hC
  rw [hr]
  rfl

/-- The logout settles with this outcome. -/
def Clicks.settled (L : Clicks) (outcome : Except String ℕ) : Clicks :=
  L.answered 0 fun | .response => outcome

theorem run_settled {C : Clicks → ClickMove → Prop} {t : Tab} {L : Clicks}
    (hL : SignOutRun documentedRouter C t L) (hwaits : L.question 0 = some .response)
    (outcome : Except String ℕ) (hC : ∀ a, C L (.resume 0 a)) :
    SignOutRun documentedRouter C t (L.settled outcome) :=
  hL.answered 0 _ hwaits trivial (hC _)

/-- A user with the role of a viewer, on the dashboard. -/
def viewerTab : Tab where
  auth :=
    { authenticated := true, csrf := some (text "t"),
      user := some (.obj [(text "roles", .arr [.str (text "monitor_viewer")])]) }
  router := { current := .dashboard }

/-- The viewer clicks in the sidebar, and the request fails. -/
def leftDashboard : Clicks :=
  let clicked : Clicks := (Loop.start viewerTab).called (View.logout documentedRouter) .app
  ((clicked.settled (.error "network")).navigated).navigated

theorem run_leftDashboard : SignOutRun documentedRouter
    (fun L l => ClicksOnce L l ∧ GuardInTime L l) viewerTab leftDashboard := by
  have h₁ : SignOutRun documentedRouter (fun L l => ClicksOnce L l ∧ GuardInTime L l) viewerTab _ :=
    Reachable.start.called .app ⟨⟨rfl, rfl⟩, trivial⟩
  have h₂ := run_settled h₁ rfl (.error "network") fun _ => ⟨trivial, trivial⟩
  have h₃ := run_navigated h₂ rfl ⟨trivial, fun _ => rfl⟩
  exact run_navigated h₃ rfl ⟨trivial, fun _ => rfl⟩

/-- The login page is shown in the end. -/
theorem leftDashboard_signedOut : Quiet leftDashboard ∧ SignedOut leftDashboard.shared := by
  have hquiet : Quiet leftDashboard := ⟨by decide, by decide, rfl⟩
  have hboth := signedOut_of_guardInTime documented_documentedRouter (t := viewerTab) rfl rfl
  exact ⟨hquiet, hboth.1 _ run_leftDashboard hquiet⟩

/-- A user without roles, on the page for such users. -/
def deniedTab : Tab where
  auth := { authenticated := true, user := some (.obj []), csrf := some (text "t") }
  router := { current := .unauthorised }

/-- They click, the guard sends them to the dashboard and back, and then the logout settles. -/
def leftUnauthorised : Clicks :=
  let clicked : Clicks := (Loop.start deniedTab).called (View.logout documentedRouter) .unauthorised
  ((clicked.navigated).navigated).settled (.ok 204)

theorem run_leftUnauthorised :
    SignOutRun documentedRouter ClicksOnce deniedTab leftUnauthorised := by
  have h₁ : SignOutRun documentedRouter ClicksOnce deniedTab _ :=
    Reachable.start.called .unauthorised ⟨rfl, rfl⟩
  have h₂ := run_navigated h₁ rfl trivial
  have h₃ := run_navigated h₂ rfl trivial
  exact run_settled h₃ rfl (.ok 204) fun _ => trivial

/-- They are signed out, and are told that they lack a role. -/
theorem stranded : Quiet leftUnauthorised ∧
    leftUnauthorised.shared.auth.isAuthenticated = false ∧
    leftUnauthorised.shared.router.current = .unauthorised ∧
    ¬∀ L, SignOutRun documentedRouter ClicksOnce deniedTab L → Quiet L → SignedOut L.shared := by
  have hquiet : Quiet leftUnauthorised := ⟨by decide, by decide, rfl⟩
  refine ⟨hquiet, rfl, rfl, fun hall => ?_⟩
  obtain ⟨-, hlogin⟩ := hall _ run_leftUnauthorised hquiet
  cases hlogin

end Console
