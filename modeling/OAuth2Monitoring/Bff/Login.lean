import OAuth2Monitoring.Bff.Reference
import OAuth2Monitoring.ToMathlib.Interleaving.Count

/-!
# The login protocol

`/bff/login` stores a pending login under a fresh state and sends the browser to the authorize
endpoint; `/bff/callback` takes it once and creates the session. The two run interleaved with
themselves, with each other, with every other endpoint and with the sweeper, for any number of
browsers and with states nobody stored.

What one handler does is said by `LoginStep` and `CallbackStep`, which speak about the handler's
own past. What the store and the random source do is said by `PendingInv`. Counting connects the
two: a state is taken at most as often as it is stored, and stored at most as often as it is drawn.

## Main results

* `handler_protocol`: each handler keeps to its part of the protocol.
* `pendingInv_of_run`: the invariant of the pending logins.
* `loginRun_of_run`: the protocol's guarantees, in every run.
-/

namespace Bff

open GoStd Interleaving Interleaving.Prog

variable {d : Deps} {srv : Server d}

/-! ## Events of the protocol -/

/-- The state and the code a callback presents. -/
def stateOf (r : Request) : Bytes := (parseQuery r.url.rawQuery).get (ascii "state")

/-- The code in a callback's query. -/
def codeOf (r : Request) : Bytes := (parseQuery r.url.rawQuery).get (ascii "code")

/-- A random token was drawn. -/
abbrev drew (n : ℕ) (v : Bytes) : Event (@Res d) := ⟨.randomToken n, v⟩

/-- A pending login was stored. -/
abbrev stored (state : Bytes) (login : PendingLogin) : Event (@Res d) :=
  ⟨.pendingPut state login, true⟩

/-- A pending login was taken. -/
abbrev took (state : Bytes) (login : PendingLogin) : Event (@Res d) :=
  ⟨.pendingTake state, some login⟩

/-- A statement that puts or deletes a session. -/
def WritesSessions : Op d → Prop
  | .sessionPut _ | .sessionDelete _ => True
  | _ => False

/-- The exchange of a callback's code with a verifier. -/
def exchangeCall (srv : Server d) (r : Request) (verifier : Bytes) : Call :=
  issuerCall srv.cfg (Server.attribution d r) d "/oauth/token"
    (exchangeForm srv.cfg (codeOf r) verifier)

/-! ## What one handler does -/

/-- The login handler stores once, under a state it has drawn, a nonce it has drawn and the
sanitized return path of its request. -/
def LoginStep (r : Request) (past : List (Event (@Res d))) : Op d → Prop
  | .pendingPut state login =>
    (∀ ev ∈ past, ∀ s l, ev.op ≠ .pendingPut s l) ∧ (∃ n, drew n state ∈ past) ∧
      (∃ n, drew n login.nonce ∈ past) ∧
      login.returnTo =
        d.sanitizeReturnTo ((parseQuery r.url.rawQuery).get (ascii "return_to"))
  | .pendingTake _ => False
  | _ => True

/-- It redirects only when the login was stored, to the authorize URL with that state and the
challenge of that verifier, and sets that nonce as a cookie. -/
structure LoginDone (srv : Server d) (r : Request) (past : List (Event (@Res d)))
    (resp : Response) : Prop where
  redirect : ∀ state login, stored state login ∈ past →
    resp.location = some (redirectURL r.url.path
        (authorizeURL srv.cfg state (d.s256Challenge login.verifier))) ∧
      SetCookie.login login.nonce ∈ resp.cookies
  stored_of_redirect : resp.location ≠ none → ∃ state login, stored state login ∈ past

/-- The callback handler takes the pending login of its state first. It exchanges its code with
that login's verifier, and creates one session, both only when the binding cookie is that login's
nonce and the session only when the exchange gave tokens. -/
def CallbackStep (srv : Server d) (r : Request) (past : List (Event (@Res d))) : Op d → Prop
  | .pendingPut _ _ => False
  | .pendingTake state => state = stateOf r ∧ past = []
  | .post up c => ∃ login, past = [took (stateOf r) login] ∧
      d.loginCookie r = some login.nonce ∧ up = .issuer ∧ c = exchangeCall srv r login.verifier
  | .sessionPut _ => (∀ ev ∈ past, ¬WritesSessions ev.op) ∧
      ∃ login, took (stateOf r) login ∈ past ∧ d.loginCookie r = some login.nonce ∧
        ∃ a tr, (⟨.post .issuer (exchangeCall srv r login.verifier), a⟩ : Event (@Res d)) ∈ past ∧
          tokenReply d a = .ok tr
  | .sessionDelete _ => False
  | _ => True

/-- A callback ends by redirecting to the return path of the login it took, the session it has
created in a cookie, or it has written no session and sets no session cookie. -/
def CallbackDone (r : Request) (past : List (Event (@Res d))) (resp : Response) : Prop :=
  (∃ login sess res, took (stateOf r) login ∈ past ∧
      (⟨.sessionPut sess, res⟩ : Event (@Res d)) ∈ past ∧
      resp.location = some (redirectURL r.url.path login.returnTo) ∧
      resp.cookies = [.clearLogin, .session (d.id sess)]) ∨
    ((∀ ev ∈ past, ¬WritesSessions ev.op) ∧ resp.location = none ∧
      ∀ id, SetCookie.session id ∉ resp.cookies)

/-- What a handler does for the protocol, by the endpoint its request reaches. -/
def ProtocolStep (srv : Server d) (r : Request) (past : List (Event (@Res d))) (op : Op d) : Prop :=
  match dispatch srv.cfg r with
  | .handler .login => LoginStep r past op
  | .handler .callback => CallbackStep srv r past op
  | _ => (∀ s l, op ≠ .pendingPut s l) ∧ ∀ s, op ≠ .pendingTake s

/-- What a handler's answer says. -/
def ProtocolDone (srv : Server d) (r : Request) (past : List (Event (@Res d)))
    (resp : Response) : Prop :=
  match dispatch srv.cfg r with
  | .handler .login => LoginDone srv r past resp
  | .handler .callback => CallbackDone r past resp
  | _ => True

/-- Only a login stores a pending login. -/
theorem ProtocolStep.login {r : Request} {past : List (Event (@Res d))} {state : Bytes}
    {login : PendingLogin} (h : ProtocolStep srv r past (.pendingPut state login)) :
    dispatch srv.cfg r = .handler .login ∧ LoginStep r past (.pendingPut state login) := by
  unfold ProtocolStep at h
  split at h
  · next hlogin => exact ⟨hlogin, h⟩
  · exact h.elim
  · exact absurd rfl (h.1 state login)

/-- A login keeps to the protocol. -/
theorem handleLogin_sat (r : Request) :
    (srv.handleLogin r).Sat (LoginStep r) (LoginDone srv r) [] := by
  refine ⟨trivial, fun limited => ?_⟩
  cases limited with
  | some retry => exact ⟨fun state login h => by simp at h, fun h => absurd rfl h⟩
  | none =>
    -- three tokens are drawn, the clock is read, and the login is stored under the first of them
    refine ⟨trivial, fun state => ⟨trivial, fun verifier => ⟨trivial, fun nonce =>
      ⟨trivial, fun created => ⟨?_, fun done => ?_⟩⟩⟩⟩⟩
    · refine ⟨fun ev hev s l => ?_, ⟨32, by simp⟩, ⟨32, by simp⟩, rfl⟩
      simp only [List.mem_cons, List.not_mem_nil, or_false] at hev
      rcases hev with rfl | rfl | rfl | rfl | rfl <;> simp
    · cases done with
      | true =>
        refine ⟨fun s l h => ?_, fun _ => ⟨_, _, List.mem_cons_self⟩⟩
        have hput : s = state ∧ l.verifier = verifier ∧ l.nonce = nonce := by
          simp only [List.mem_cons, Event.mk.injEq, Op.pendingPut.injEq, List.not_mem_nil,
            reduceCtorEq, false_and, or_false] at h
          obtain ⟨⟨rfl, rfl⟩, -⟩ := h
          exact ⟨rfl, rfl, rfl⟩
        obtain ⟨rfl, rfl, rfl⟩ := hput
        exact ⟨rfl, List.mem_cons_self⟩
      | false =>
        refine ⟨fun s l h => ?_, fun h => absurd rfl h⟩
        simp at h

/-- The end of a callback whose code was exchanged. -/
theorem openSession_sat {r : Request} {login : PendingLogin} {tr : TokenResponse}
    {past : List (Event (@Res d))} {a : Option Answer}
    (hpast : past = [⟨.post .issuer (exchangeCall srv r login.verifier), a⟩,
      took (stateOf r) login])
    (hnonce : d.loginCookie r = some login.nonce) (htr : tokenReply d a = .ok tr) :
    (srv.openSession r login tr).Sat (CallbackStep srv r) (CallbackDone r) past := by
  subst hpast
  refine ⟨trivial, fun now => ⟨trivial, fun id => ⟨trivial, fun csrf => ⟨?_, fun res => ?_⟩⟩⟩⟩
  · refine ⟨fun ev hev => ?_, login, by simp, hnonce, a, tr, by simp, htr⟩
    simp only [List.mem_cons, List.not_mem_nil, or_false] at hev
    rcases hev with rfl | rfl | rfl | rfl | rfl <;> exact not_false
  · exact .inl ⟨login, _, res, by simp, List.mem_cons_self, rfl, rfl⟩

/-- A refused callback, which has written no session. -/
theorem callbackDone_of_refused {r : Request} {past : List (Event (@Res d))} {resp : Response}
    (hpast : ∀ ev ∈ past, ¬WritesSessions ev.op) (hloc : resp.location = none)
    (hcookie : resp.cookies = [] ∨ resp.cookies = [.clearLogin]) : CallbackDone r past resp := by
  refine .inr ⟨hpast, hloc, fun id hid => ?_⟩
  rcases hcookie with h | h <;> simp [h] at hid

/-- A callback keeps to the protocol. -/
theorem handleCallback_sat (hd : d.Lawful) (r : Request) :
    (srv.handleCallback (Server.attribution d r) r).Sat (CallbackStep srv r) (CallbackDone r)
      [] := by
  unfold Server.handleCallback
  dsimp only
  split
  · exact callbackDone_of_refused (by simp) rfl (.inl rfl)
  · refine ⟨⟨rfl, rfl⟩, fun taken => ?_⟩
    have htaken : ∀ ev ∈ [(⟨.pendingTake (stateOf r), taken⟩ : Event (@Res d))],
        ¬WritesSessions ev.op := by
      intro ev hev
      rw [List.mem_singleton.mp hev]
      exact id
    cases taken with
    | none => exact callbackDone_of_refused htaken rfl (.inl rfl)
    | some login =>
      dsimp only [Prog.bind]
      split
      · exact callbackDone_of_refused htaken rfl (.inl rfl)
      · split
        · exact callbackDone_of_refused htaken rfl (.inr rfl)
        · -- from here on the browser is the one that began the login
          rename_i hverify
          have hnonce : d.loginCookie r = some login.nonce :=
            hd.verifyBinding _ _ (by simpa using hverify)
          refine Sat.bind ((token_sat ?_).mono (fun _ _ hop => hop) ?_)
          · exact ⟨login, rfl, hnonce, rfl, rfl⟩
          · rintro past reply (⟨rfl, e, rfl⟩ | ⟨a, rfl, rfl⟩)
            · exact callbackDone_of_refused htaken rfl (.inr rfl)
            · cases htr : tokenReply d a with
              | error e =>
                refine callbackDone_of_refused (fun ev hev => ?_) rfl (.inr rfl)
                rcases List.mem_cons.mp hev with rfl | hev
                · exact id
                · exact htaken ev hev
              | ok tr => exact openSession_sat rfl hnonce htr

/-- Every handler keeps to the protocol: only logins store a pending login, and only callbacks take
one. -/
theorem handler_protocol (hd : d.Lawful) (hgw : srv.gateway.Lawful) (r : Request) :
    (srv.handler r).Sat (ProtocolStep srv r) (ProtocolDone srv r) [] := by
  unfold Server.handler
  cases hdisp : dispatch srv.cfg r with
  | handler e =>
    -- the footprints of the other handlers have no pending login in them
    have hother : e ≠ .login → e ≠ .callback →
        (srv.serve (Server.attribution d r) r e).Sat (ProtocolStep srv r) (ProtocolDone srv r)
          [] := by
      intro hlogin hcallback
      refine ((Server.serve_uses hgw e).sat fun past op hop => ?_).mono (fun _ _ h => h)
        fun past resp _ => ?_
      · have hstep : (∀ s l, op ≠ .pendingPut s l) ∧ ∀ s, op ≠ .pendingTake s := by
          constructor
          · rintro s l rfl
            exact hlogin (Endpoint.eq_login_of_pendingPut hop)
          · rintro s rfl
            exact hcallback (Endpoint.eq_callback_of_pendingTake hop)
        unfold ProtocolStep
        rw [hdisp]
        cases e <;> first | exact absurd rfl hlogin | exact absurd rfl hcallback | exact hstep
      · unfold ProtocolDone
        rw [hdisp]
        cases e <;> first | exact absurd rfl hlogin | exact absurd rfl hcallback | trivial
    cases e with
    | login =>
      refine (handleLogin_sat r).mono (fun past op h => ?_) fun past resp h => ?_
      · unfold ProtocolStep
        rwa [hdisp]
      · unfold ProtocolDone
        rwa [hdisp]
    | callback =>
      refine (handleCallback_sat hd r).mono (fun past op h => ?_) fun past resp h => ?_
      · unfold ProtocolStep
        rwa [hdisp]
      · unfold ProtocolDone
        rwa [hdisp]
    | _ => exact hother (by simp) (by simp)
  | _ =>
    show ProtocolDone srv r [] _
    unfold ProtocolDone
    rw [hdisp]
    trivial

/-! ## The pending logins and the random source -/

/-- The trace of a run of the server. -/
abbrev Trace (d : Deps) := List (Entry Request (@Res d))

/-- The events of the protocol, as they are counted in a trace. -/
def draws (v : Bytes) (e : Entry Request (@Res d)) : Bool :=
  match e.event with
  | ⟨.randomToken _, res⟩ => (res : Bytes) = v
  | _ => false

/-- The event stores a login under this state. -/
def stores (state : Bytes) (e : Entry Request (@Res d)) : Bool :=
  match e.event with
  | ⟨.pendingPut s _, done⟩ => s = state && done
  | _ => false

/-- The event takes the login of this state. -/
def takes (state : Bytes) (e : Entry Request (@Res d)) : Bool :=
  match e.event with
  | ⟨.pendingTake s, some _⟩ => s = state
  | _ => false

/-- One more if the login is still there to be taken. -/
def live (w : World d) (state : Bytes) : ℕ := if (w.pending state).isSome then 1 else 0

/-- What the pending logins and the random source guarantee: a token is drawn once; what is there
to be taken, and what was taken, was stored; and each login stored is there or taken once. -/
structure PendingInv (w : World d) (tr : Trace d) : Prop where
  drawn_once : ∀ v, tr.countP (draws v) ≤ if v ∈ w.issued then 1 else 0
  stored_of_pending : ∀ state login, w.pending state = some login →
    ∃ e ∈ tr, e.event = stored state login
  stored_of_took : Along (fun older e => ∀ state login, e.event = took state login →
    ∃ e' ∈ older, e'.event = stored state login) tr
  taken_once : ∀ state, tr.countP (takes state) + live w state ≤ tr.countP (stores state)

theorem live_le_of_imp {w w' : World d} {state : Bytes}
    (h : ∀ login, w'.pending state = some login → w.pending state = some login) :
    live w' state ≤ live w state := by
  unfold live
  cases hw' : w'.pending state with
  | none => simp
  | some login => rw [h login hw']

/-- Nothing between the operations breaks the invariant. -/
theorem PendingInv.env {cfg : Config} {w w' : World d} {tr : Trace d} (h : PendingInv w tr)
    (henv : Env cfg w w') : PendingInv w' tr where
  drawn_once v := henv.issued_eq ▸ h.drawn_once v
  stored_of_pending state login hp := h.stored_of_pending state login (henv.pending_of_some hp)
  stored_of_took := h.stored_of_took
  taken_once state :=
    (Nat.add_le_add_left (live_le_of_imp fun _ => henv.pending_of_some) _).trans
      (h.taken_once state)

/-- An operation that is none of the protocol's. -/
theorem PendingInv.other {w w' : World d} {tr : Trace d} {e : Entry Request (@Res d)}
    (h : PendingInv w tr) (hissued : w'.issued = w.issued) (hpending : w'.pending = w.pending)
    (hdraws : ∀ v, draws v e = false) (hstores : ∀ state, stores state e = false)
    (htakes : ∀ state, takes state e = false) : PendingInv w' (e :: tr) where
  drawn_once v := by
    rw [List.countP_cons, hdraws, hissued]
    exact h.drawn_once v
  stored_of_pending state login hp := by
    obtain ⟨e', he', hev⟩ := h.stored_of_pending state login (hpending ▸ hp)
    exact ⟨e', List.mem_cons_of_mem _ he', hev⟩
  stored_of_took := by
    refine ⟨fun state login hev => ?_, h.stored_of_took⟩
    have htrue : takes state e = true := by simp [takes, hev]
    rw [htakes] at htrue
    cases htrue
  -- the step draws, stores and takes nothing, so the counts are those of the shorter trace
  taken_once state := by
    rw [List.countP_cons, List.countP_cons, htakes, hstores]
    simpa [live, hpending] using h.taken_once state

/-- Drawing a token. -/
theorem PendingInv.draw {w : World d} {tr : Trace d} (h : PendingInv w tr) (t n : ℕ) (r : Request)
    {v : Bytes} (hv : v ∉ w.issued) :
    PendingInv (w.issue v) (⟨t, r, drew n v⟩ :: tr) where
  drawn_once u := by
    have hu := h.drawn_once u
    rw [List.countP_cons]
    by_cases huv : v = u
    · -- a fresh token was not drawn before
      subst huv
      rw [if_neg hv] at hu
      have hmem : v ∈ (w.issue v).issued := List.mem_cons_self
      rw [if_pos hmem, if_pos (by simp [draws])]
      exact Nat.add_le_add_right hu 1
    · have hmem : u ∈ (w.issue v).issued ↔ u ∈ w.issued := by simp [World.issue, Ne.symm huv]
      rw [if_neg (by simp [draws, huv]), Nat.add_zero]
      simpa only [hmem] using hu
  stored_of_pending state login hp := by
    obtain ⟨e', he', hev⟩ := h.stored_of_pending state login hp
    exact ⟨e', List.mem_cons_of_mem _ he', hev⟩
  stored_of_took := ⟨fun state login hev => (by cases hev), h.stored_of_took⟩
  taken_once state := by
    rw [List.countP_cons, List.countP_cons]
    exact h.taken_once state

/-- Storing a login. -/
theorem PendingInv.store {w : World d} {tr : Trace d} (h : PendingInv w tr) (t : ℕ) (r : Request)
    (state : Bytes) (login : PendingLogin) :
    PendingInv (w.setPending state (some login)) (⟨t, r, stored state login⟩ :: tr) where
  drawn_once v := by
    rw [List.countP_cons]
    exact h.drawn_once v
  stored_of_pending s l hp := by
    by_cases hs : s = state
    · -- the newest entry is the one that stored it
      subst hs
      rw [World.setPending_self] at hp
      cases hp
      exact ⟨_, List.mem_cons_self, rfl⟩
    · rw [World.setPending_of_ne _ _ hs] at hp
      obtain ⟨e', he', hev⟩ := h.stored_of_pending s l hp
      exact ⟨e', List.mem_cons_of_mem _ he', hev⟩
  stored_of_took := ⟨fun s l hev => (by cases hev), h.stored_of_took⟩
  taken_once s := by
    have htaken := h.taken_once s
    rw [List.countP_cons, List.countP_cons]
    by_cases hs : state = s
    · -- one more was stored, and one at most is live
      subst hs
      simp [takes, stores, live]
      unfold live at htaken
      omega
    · simpa [takes, stores, live, hs, w.setPending_of_ne _ (Ne.symm hs)] using htaken

/-- Taking a login. -/
theorem PendingInv.take {w : World d} {tr : Trace d} (h : PendingInv w tr) (t : ℕ) (r : Request)
    {state : Bytes} {login : PendingLogin} (hp : w.pending state = some login) :
    PendingInv (w.setPending state none) (⟨t, r, took state login⟩ :: tr) where
  drawn_once v := by
    rw [List.countP_cons]
    exact h.drawn_once v
  stored_of_pending s l hs := by
    by_cases hss : s = state
    · subst hss
      rw [World.setPending_self] at hs
      cases hs
    · rw [World.setPending_of_ne _ _ hss] at hs
      obtain ⟨e', he', hev⟩ := h.stored_of_pending s l hs
      exact ⟨e', List.mem_cons_of_mem _ he', hev⟩
  stored_of_took := by
    refine ⟨fun s l hev => ?_, h.stored_of_took⟩
    cases hev
    exact h.stored_of_pending _ _ hp
  taken_once s := by
    have htaken := h.taken_once s
    rw [List.countP_cons, List.countP_cons]
    by_cases hs : state = s
    · -- one more was taken, which was live and is so no longer
      subst hs
      simp [takes, stores, live]
      simp [live, hp] at htaken
      exact htaken
    · simpa [takes, stores, live, hs, w.setPending_of_ne _ (Ne.symm hs)] using htaken

/-- Every operation keeps the invariant. -/
theorem PendingInv.step {cfg : Config} {w w' : World d} {tr : Trace d}
    {e : Entry Request (@Res d)} (h : PendingInv w tr)
    (hstep : Answers cfg w e.event.op e.event.res w') : PendingInv w' (e :: tr) := by
  obtain ⟨t, r, op, res⟩ := e
  have hkept := hstep.kept
  cases op with
  | randomToken n =>
    obtain ⟨hv, rfl⟩ := hstep
    exact h.draw t n r hv
  | pendingPut state login =>
    cases res with
    | true =>
      obtain rfl : w' = _ := hstep
      exact h.store t r state login
    | false =>
      -- a failed write stores nothing
      obtain rfl : w' = w := hstep
      exact h.other rfl rfl (fun _ => rfl) (fun _ => by simp [stores]) fun _ => rfl
  | pendingTake state =>
    cases res with
    | none =>
      obtain rfl : w' = w := hstep
      exact h.other rfl rfl (fun _ => rfl) (fun _ => rfl) fun _ => rfl
    | some login =>
      obtain ⟨hp, rfl⟩ := hstep
      exact h.take t r hp
  | _ =>
    exact h.other (hkept.issued (by simp)) (hkept.pending (by simp) (by simp)) (fun _ => rfl)
      (fun _ => rfl) fun _ => rfl

/-- The invariant holds in every run that starts without pending logins. -/
theorem pendingInv_of_run {t : ℤ} {st : SessionStore d}
    {P : Pool (World d) Request (@Res d) Response} (hP : srv.Run (World.start srv.cfg t st) P) :
    PendingInv P.shared P.trace := by
  refine Reachable.invariant_of_exec ?_ (fun w tr e w' h hstep => h.step hstep)
    (fun w tr w' h henv => h.env henv) hP
  exact ⟨by simp, fun state login h => (by cases h), trivial, by simp [live, World.start]⟩

/-! ## The guarantees -/

/-- A session is stored by a callback that presents `state`. -/
def creates (srv : Server d) (state : Bytes) (e : Entry Request (@Res d)) : Bool :=
  match e.event.op with
  | .sessionPut _ => dispatch srv.cfg e.job = .handler .callback ∧ stateOf e.job = state
  | _ => false

/-- Before `older` ended, the login request of thread `u` stored this login under `state`, with a
nonce it had drawn and the sanitized return path of its request. When it has answered, it has
redirected to the authorize URL with the challenge of the login's verifier, and set the nonce as
the binding cookie. -/
structure StoredBy (srv : Server d) (P : Pool (World d) Request (@Res d) Response)
    (older : Trace d) (u : ℕ) (state : Bytes) (login : PendingLogin) : Prop where
  stored : stored state login ∈ history u older
  nonce_drawn : ∃ n, drew n login.nonce ∈ history u older
  thread : ∃ th, P.threads[u]? = some th ∧ dispatch srv.cfg th.job = .handler .login ∧
    login.returnTo =
      d.sanitizeReturnTo ((parseQuery th.job.url.rawQuery).get (ascii "return_to")) ∧
    ∀ resp, th.prog = .ret resp →
      resp.location = some (redirectURL th.job.url.path
          (authorizeURL srv.cfg state (d.s256Challenge login.verifier))) ∧
        SetCookie.login login.nonce ∈ resp.cookies

/-- What every run of the server guarantees about logins. -/
structure LoginRun (srv : Server d) (P : Pool (World d) Request (@Res d) Response) : Prop where
  /-- A callback stores a session only after it has taken the login of its state, stored by an
  earlier login request whose nonce it presents as the binding cookie. -/
  created : ∀ newer e older sess, P.trace = newer ++ e :: older →
    dispatch srv.cfg e.job = .handler .callback → e.event.op = .sessionPut sess →
    ∃ login u, took (stateOf e.job) login ∈ history e.tid older ∧
      StoredBy srv P older u (stateOf e.job) login ∧ d.loginCookie e.job = some login.nonce
  /-- A callback sets a session cookie only for a session it has stored. -/
  cookie : ∀ t r resp id, P.threads[t]? = some ⟨r, .ret resp⟩ →
    dispatch srv.cfg r = .handler .callback → SetCookie.session id ∈ resp.cookies →
    ∃ sess res, (⟨.sessionPut sess, res⟩ : Event (@Res d)) ∈ history t P.trace ∧ d.id sess = id
  /-- No login is taken twice. -/
  taken_once : ∀ state, P.trace.countP (takes state) ≤ 1
  /-- At most one session is created for a state. -/
  created_once : ∀ state, P.trace.countP (creates srv state) ≤ 1
  /-- A callback exchanges its code with the verifier of the login it has taken. -/
  exchanged : ∀ newer e older up c, P.trace = newer ++ e :: older →
    dispatch srv.cfg e.job = .handler .callback → e.event.op = .post up c →
    ∃ login u, took (stateOf e.job) login ∈ history e.tid older ∧
      StoredBy srv P older u (stateOf e.job) login ∧ up = .issuer ∧
      c = exchangeCall srv e.job login.verifier
  /-- A callback that has stored a session redirects to the return path of the login it has taken:
  to what `http.Redirect` makes of it, and to itself when it is clean. -/
  returned : ∀ t r resp sess res, P.threads[t]? = some ⟨r, .ret resp⟩ →
    dispatch srv.cfg r = .handler .callback →
    (⟨.sessionPut sess, res⟩ : Event (@Res d)) ∈ history t P.trace →
    ∃ login u, took (stateOf r) login ∈ history t P.trace ∧
      StoredBy srv P P.trace u (stateOf r) login ∧
      resp.location = some (redirectURL r.url.path login.returnTo) ∧
      (IsClean login.returnTo → resp.location = some login.returnTo)
  /-- A login redirects only if the pending login was stored. -/
  redirected : ∀ t r resp, P.threads[t]? = some ⟨r, .ret resp⟩ →
    dispatch srv.cfg r = .handler .login → resp.location ≠ none →
    ∃ state login, stored state login ∈ history t P.trace
  /-- A refused callback leaves the session store as it was. -/
  refused : ∀ t r resp, P.threads[t]? = some ⟨r, .ret resp⟩ →
    dispatch srv.cfg r = .handler .callback → resp.location = none →
    ∀ ev ∈ history t P.trace, ¬WritesSessions ev.op

section Run

variable {t₀ : ℤ} {st : SessionStore d} {P : Pool (World d) Request (@Res d) Response}

/-- A callback's own step at a place of the trace. -/
theorem callbackStep_of_run (hd : d.Lawful) (hgw : srv.gateway.Lawful) {w₀ : World d}
    (hP : srv.Run w₀ P) {newer older : Trace d} {e : Entry Request (@Res d)}
    (htr : P.trace = newer ++ e :: older) (hcb : dispatch srv.cfg e.job = .handler .callback) :
    CallbackStep srv e.job (history e.tid older) e.event.op := by
  have hstep := along_iff.mp (hP.obeys (handler_protocol hd hgw)) newer e older htr
  unfold ProtocolStep at hstep
  rwa [hcb] at hstep

/-- What a callback that has answered has done. -/
theorem callbackDone_of_run (hd : d.Lawful) (hgw : srv.gateway.Lawful) {w₀ : World d}
    (hP : srv.Run w₀ P) {t : ℕ} {r : Request} {resp : Response}
    (ht : P.threads[t]? = some ⟨r, .ret resp⟩) (hcb : dispatch srv.cfg r = .handler .callback) :
    CallbackDone r (history t P.trace) resp := by
  have hdone := hP.returns (handler_protocol hd hgw) ht
  unfold ProtocolDone at hdone
  rwa [hcb] at hdone

/-- A login that was stored was stored by a login request. -/
theorem storedBy_of_stored (hd : d.Lawful) (hgw : srv.gateway.Lawful) {w₀ : World d}
    (hP : srv.Run w₀ P) {newer older : Trace d} (htr : P.trace = newer ++ older)
    {e : Entry Request (@Res d)} (he : e ∈ older) {state : Bytes} {login : PendingLogin}
    (hev : e.event = stored state login) : StoredBy srv P older e.tid state login := by
  have hcoh := hP.coherent (handler_protocol hd hgw)
  have hobeys : Along (fun o e => ProtocolStep srv e.job (history e.tid o) e.event.op) older :=
    Along.of_append (htr ▸ hcoh.obeys)
  obtain ⟨n₁, o₁, hold, hstep⟩ := hobeys.of_mem he
  have hop : e.event.op = .pendingPut state login := by rw [hev]
  rw [hop] at hstep
  obtain ⟨hlogin, -, -, ⟨n, hnonce⟩, hreturn⟩ := ProtocolStep.login hstep
  obtain ⟨th, hth, hjob⟩ := hcoh.job e (htr ▸ List.mem_append_right _ he)
  refine ⟨mem_history.mpr ⟨e, he, rfl, hev⟩, ⟨n, ?_⟩, th, hth, hjob ▸ hlogin, hjob ▸ hreturn, ?_⟩
  · rw [hold]
    exact mem_history_append (mem_history_cons hnonce)
  · -- if the login has answered, its answer redirects with this state
    intro resp hresp
    have hdone := hP.returns (handler_protocol hd hgw) (j := th.job) (a := resp)
      (t := e.tid) (by rw [hth, ← hresp])
    unfold ProtocolDone at hdone
    rw [hjob, hlogin] at hdone
    rw [hjob]
    refine hdone.redirect state login (mem_history.mpr ⟨e, ?_, rfl, hev⟩)
    exact htr ▸ List.mem_append_right _ he

/-- A login that was taken was stored by a login request before. -/
theorem storedBy_of_took (hd : d.Lawful) (hgw : srv.gateway.Lawful)
    (hP : srv.Run (World.start srv.cfg t₀ st) P) {newer older : Trace d}
    (htr : P.trace = newer ++ older) {t : ℕ} {state : Bytes} {login : PendingLogin}
    (h : took state login ∈ history t older) : ∃ u, StoredBy srv P older u state login := by
  obtain ⟨e, he, -, hev⟩ := mem_history.mp h
  have hinv := (pendingInv_of_run hP).stored_of_took
  rw [htr] at hinv
  -- the event that took it stands in front of one that stored it
  obtain ⟨n₁, o₁, hold, hstored⟩ := hinv.of_append.of_mem he
  obtain ⟨e', he', hev'⟩ := hstored state login hev
  have hmem : e' ∈ older := by
    rw [hold]
    exact List.mem_append_right _ (List.mem_cons_of_mem _ he')
  exact ⟨e'.tid, storedBy_of_stored hd hgw hP htr hmem hev'⟩

/-- A state is stored at most as often as it is drawn. -/
theorem stores_le_draws (hd : d.Lawful) (hgw : srv.gateway.Lawful) {w₀ : World d}
    (hP : srv.Run w₀ P) (state : Bytes) :
    P.trace.countP (stores state) ≤ P.trace.countP (draws state) := by
  have hcoh := hP.coherent (handler_protocol hd hgw)
  refine countP_le_of_once (along_iff.mpr fun newer e older htr hstores => ?_)
  obtain ⟨login, hev⟩ : ∃ login, e.event = stored state login := by
    obtain ⟨t, r, op, res⟩ := e
    cases op <;> simp [stores] at hstores
    obtain ⟨rfl, rfl⟩ := hstores
    exact ⟨_, rfl⟩
  have hstep := along_iff.mp hcoh.obeys newer e older htr
  have hop : e.event.op = .pendingPut state login := by rw [hev]
  rw [hop] at hstep
  obtain ⟨-, hfirst, ⟨n, hdrew⟩, -, -⟩ := ProtocolStep.login hstep
  constructor
  · -- the thread has stored no login before
    intro e' he'
    obtain ⟨he', ht⟩ := mem_entries.mp he'
    have hne := hfirst e'.event (mem_history.mpr ⟨e', he', ht, rfl⟩)
    obtain ⟨t, r, op, res⟩ := e'
    cases op <;> first | rfl | exact absurd rfl (hne _ _)
  · obtain ⟨e', he', ht, hev'⟩ := mem_history.mp hdrew
    exact ⟨e', mem_entries.mpr ⟨he', ht⟩, by simp [draws, hev']⟩

/-- A session is created for a state at most as often as its login is taken. -/
theorem creates_le_takes (hd : d.Lawful) (hgw : srv.gateway.Lawful) {w₀ : World d}
    (hP : srv.Run w₀ P) (state : Bytes) :
    P.trace.countP (creates srv state) ≤ P.trace.countP (takes state) := by
  refine countP_le_of_once (along_iff.mpr fun newer e older htr hcreates => ?_)
  obtain ⟨sess, hop, hcb, hstate⟩ : ∃ sess, e.event.op = .sessionPut sess ∧
      dispatch srv.cfg e.job = .handler .callback ∧ stateOf e.job = state := by
    unfold creates at hcreates
    split at hcreates
    · rename_i sess hop
      exact ⟨sess, hop, by simpa using hcreates⟩
    · cases hcreates
  have hstep := callbackStep_of_run hd hgw hP htr hcb
  rw [hop] at hstep
  obtain ⟨hfirst, login, htook, -, -⟩ := hstep
  constructor
  · -- nor created a session
    intro e' he'
    obtain ⟨he', ht⟩ := mem_entries.mp he'
    have hne := hfirst e'.event (mem_history.mpr ⟨e', he', ht, rfl⟩)
    unfold creates
    split
    · rename_i s hs
      rw [hs] at hne
      exact absurd trivial hne
    · rfl
  · obtain ⟨e', he', ht, hev'⟩ := mem_history.mp htook
    exact ⟨e', mem_entries.mpr ⟨he', ht⟩, by simp [takes, hev', hstate]⟩

/-- Every state is taken at most once. -/
theorem takes_le_one (hd : d.Lawful) (hgw : srv.gateway.Lawful)
    (hP : srv.Run (World.start srv.cfg t₀ st) P) (state : Bytes) :
    P.trace.countP (takes state) ≤ 1 := by
  have hinv := pendingInv_of_run hP
  -- taken at most as often as stored, stored at most as often as drawn, drawn at most once
  calc P.trace.countP (takes state)
      ≤ P.trace.countP (stores state) := (Nat.le_add_right _ _).trans (hinv.taken_once state)
    _ ≤ P.trace.countP (draws state) := stores_le_draws hd hgw hP state
    _ ≤ 1 := (hinv.drawn_once state).trans (by split <;> omega)

/-- In every run of the server, from a start without pending logins, the login protocol keeps its
guarantees: whatever logins, callbacks and sweeps do, in whatever order. -/
theorem loginRun_of_run (hd : d.Lawful) (hgw : srv.gateway.Lawful)
    (hP : srv.Run (World.start srv.cfg t₀ st) P) : LoginRun srv P where
  created newer e older sess htr hcb hop := by
    -- a callback puts a session only after it took a login, whose nonce the browser has
    have hstep := callbackStep_of_run hd hgw hP htr hcb
    rw [hop] at hstep
    obtain ⟨-, login, htook, hnonce, -⟩ := hstep
    obtain ⟨u, hu⟩ := storedBy_of_took hd hgw hP (htr.trans (List.append_cons newer e older)) htook
    exact ⟨login, u, htook, hu, hnonce⟩
  cookie t r resp id ht hcb hcookie := by
    rcases callbackDone_of_run hd hgw hP ht hcb with
      ⟨login, sess, res, -, hput, -, hcookies⟩ | ⟨-, -, hnone⟩
    · rw [hcookies] at hcookie
      have hid : id = d.id sess := by simpa using hcookie
      exact ⟨sess, res, hput, hid.symm⟩
    · exact absurd hcookie (hnone id)
  taken_once := takes_le_one hd hgw hP
  created_once state := (creates_le_takes hd hgw hP state).trans (takes_le_one hd hgw hP state)
  exchanged newer e older up c htr hcb hop := by
    -- and calls an upstream only with the verifier of the login it took
    have hstep := callbackStep_of_run hd hgw hP htr hcb
    rw [hop] at hstep
    obtain ⟨login, hpast, -, hup, hc⟩ := hstep
    have htook : took (stateOf e.job) login ∈ history e.tid older := by rw [hpast]; simp
    obtain ⟨u, hu⟩ := storedBy_of_took hd hgw hP (htr.trans (List.append_cons newer e older)) htook
    exact ⟨login, u, htook, hu, hup, hc⟩
  returned t r resp sess res ht hcb hput := by
    rcases callbackDone_of_run hd hgw hP ht hcb with
      ⟨login, _, _, htook, -, hloc, -⟩ | ⟨hnone, -, -⟩
    · obtain ⟨u, hu⟩ := storedBy_of_took hd hgw hP (List.nil_append _).symm htook
      exact ⟨login, u, htook, hu, hloc, fun hclean => by rw [hloc, redirectURL_of_isClean hclean]⟩
    · -- a callback that was refused has put nothing
      exact absurd trivial (hnone _ hput)
  redirected t r resp ht hlogin hloc := by
    have hdone := hP.returns (handler_protocol hd hgw) ht
    unfold ProtocolDone at hdone
    rw [hlogin] at hdone
    exact hdone.stored_of_redirect hloc
  refused t r resp ht hcb hloc := by
    rcases callbackDone_of_run hd hgw hP ht hcb with
      ⟨login, _, _, -, -, hredirect, -⟩ | ⟨hnone, -, -⟩
    · rw [hloc] at hredirect
      cases hredirect
    · exact hnone

end Run

/-! ## A run -/

section Undisturbed

variable {w : World d} {r : Request} {ctx : Attribution}

/-- A login within its budget whose pending login is stored redirects to the issuer. -/
theorem handleLogin_run {rl : RateLimiter} {state verifier nonce : Bytes}
    (hallow : (w.limiter .login).allow w.clock (clientIP d r) = (none, rl))
    (hstate : state ∉ w.issued) (hverifier : verifier ∉ state :: w.issued)
    (hnonce : nonce ∉ verifier :: state :: w.issued) :
    let login : PendingLogin :=
      { verifier := verifier
        returnTo := d.sanitizeReturnTo ((parseQuery r.url.rawQuery).get (ascii "return_to"))
        nonce := nonce
        created := w.clock }
    Exec (Answers srv.cfg) w (srv.handleLogin r)
      [⟨.allow .login (clientIP d r), none⟩, drew 32 state, drew 32 verifier, drew 32 nonce,
        ⟨.now, w.clock⟩, stored state login]
      (.ret ((httpRedirect r (authorizeURL srv.cfg state (d.s256Challenge verifier)) 302).withCookie
        (.login nonce)))
      ((((w.setLimiter rl .login).issue state).issue verifier).issue nonce |>.setPending state
        (some login)) := by
  intro login
  refine Exec.bind (Reference.rateLimited_run hallow) ?_
  -- three draws, each of a value that was not issued before, then the clock and the store
  refine exec_call_iff.mpr ⟨state, _, _, rfl, ⟨hstate, rfl⟩, ?_⟩
  refine exec_call_iff.mpr ⟨verifier, _, _, rfl, ⟨hverifier, rfl⟩, ?_⟩
  refine exec_call_iff.mpr ⟨nonce, _, _, rfl, ⟨hnonce, rfl⟩, ?_⟩
  refine exec_call_iff.mpr ⟨w.clock, _, _, rfl, ⟨rfl, rfl⟩, ?_⟩
  exact exec_call_iff.mpr ⟨true, _, _, rfl, rfl, .refl _ _⟩

/-- A session is opened with two fresh values. -/
theorem openSession_run {cfg : Config} {login : PendingLogin} {tr : TokenResponse}
    {id csrf : Bytes} (hid : id ∉ w.issued) (hcsrf : csrf ∉ id :: w.issued) : ∃ sess,
    Exec (Answers cfg) w (srv.openSession r login tr)
      [⟨.now, w.clock⟩, drew 32 id, drew 32 csrf, ⟨.sessionPut sess, Stmt.done ()⟩]
      (.ret (((httpRedirect r login.returnTo 302).withCookie .clearLogin).withCookie
        (.session (d.id sess))))
      { (w.issue id).issue csrf with sessions := w.sessions.put sess } := by
  unfold Server.openSession
  exact ⟨_, exec_call_iff.mpr ⟨w.clock, _, _, rfl, ⟨rfl, rfl⟩,
    exec_call_iff.mpr ⟨id, _, _, rfl, ⟨hid, rfl⟩, exec_call_iff.mpr ⟨csrf, _, _, rfl, ⟨hcsrf, rfl⟩,
      exec_call_iff.mpr ⟨.done (), _, _, rfl, rfl, .refl _ _⟩⟩⟩⟩⟩

/-- A code is exchanged when the issuer gives tokens. -/
theorem exchange_run {cfg : Config} {code verifier : Bytes} {a : Answer} {tr : TokenResponse}
    (hurl : d.validURL (issuerCall cfg ctx d "/oauth/token" []).endpoint = true)
    (hreply : tokenReply d (some a) = .ok tr) :
    Exec (Answers cfg) w (exchange cfg ctx code verifier)
      [⟨.post .issuer (issuerCall cfg ctx d "/oauth/token" (exchangeForm cfg code verifier)),
        some a⟩]
      (.ret (.ok tr)) w := by
  unfold exchange token
  refine (if_pos hurl : (if d.validURL (issuerCall cfg ctx d "/oauth/token" []).endpoint = true
    then _ else _) = _) ▸ ?_
  rw [← hreply]
  exact exec_call_iff.mpr ⟨some a, _, _, rfl, rfl, .refl _ _⟩

/-- A callback of the browser that has the binding cookie, whose code is exchanged, opens a
session. -/
theorem handleCallback_run {login : PendingLogin} {a : Answer} {tr : TokenResponse}
    {id csrf : Bytes} (herror : (parseQuery r.url.rawQuery).get (ascii "error") = [])
    (hcode : codeOf r ≠ []) (hpending : w.pending (stateOf r) = some login)
    (hbinding : d.verifyBinding r login.nonce = true)
    (hurl : d.validURL (issuerCall srv.cfg ctx d "/oauth/token" []).endpoint = true)
    (hreply : tokenReply d (some a) = .ok tr) (hid : id ∉ w.issued)
    (hcsrf : csrf ∉ id :: w.issued) : ∃ sess,
    Exec (Answers srv.cfg) w (srv.handleCallback ctx r)
      [took (stateOf r) login,
        ⟨.post .issuer (issuerCall srv.cfg ctx d "/oauth/token"
          (exchangeForm srv.cfg (codeOf r) login.verifier)), some a⟩,
        ⟨.now, w.clock⟩, drew 32 id, drew 32 csrf, ⟨.sessionPut sess, Stmt.done ()⟩]
      (.ret (((httpRedirect r login.returnTo 302).withCookie .clearLogin).withCookie
        (.session (d.id sess))))
      { ((w.setPending (stateOf r) none).issue id).issue csrf with
        sessions := w.sessions.put sess } := by
  obtain ⟨sess, hopen⟩ := @openSession_run d srv (w.setPending (stateOf r) none) r srv.cfg login
    tr id csrf hid hcsrf
  refine ⟨sess, ?_⟩
  unfold Server.handleCallback
  simp only [herror, ne_eq, not_true_eq_false, if_false]
  refine exec_call_iff.mpr ⟨some login, _, _, rfl, ⟨hpending, rfl⟩, ?_⟩
  -- the code is there and the cookie binds this browser, so the exchange is tried
  show Exec _ _
    (if codeOf r = [] then _ else if d.verifyBinding r login.nonce = false then _ else _)
    _ _ _
  rw [if_neg hcode, hbinding, if_neg Bool.true_eq_false.mp]
  exact Exec.bind (exchange_run hurl hreply) hopen

end Undisturbed

namespace Reference

/-- A browser begins a login, and comes back with a code and its binding cookie. -/
def loginRequest : Request := request "GET" "/bff/login" "return_to=/users" []

/-- The issuer sends the browser back. -/
def callbackRequest : Request :=
  request "GET" "/bff/callback" "code=code-1&state=state-1" [("Cookie", "__Host-mon_login=nonce-1")]

theorem dispatch_loginRequest : dispatch server.cfg loginRequest = .handler .login := by
  decide +kernel

theorem dispatch_callbackRequest : dispatch server.cfg callbackRequest = .handler .callback := by
  decide +kernel

/-- The issuer's answer to the code. -/
def tokenAnswer : Answer := { status := 200, header := Header.empty, body := tokenBody }

theorem tokenReply_answer : tokenReply deps (some tokenAnswer) =
    .ok { accessToken := ascii "at-1", refreshToken := ascii "rt-1", expiresIn := 300 } := by
  have hlen : tokenBody.length ≤ readLimit := by decide +kernel
  have htok : ascii "at-1" ≠ [] := by decide
  simp [tokenReply, tokenAnswer, hlen, htok]

/-- What a login with a return path stores. -/
def pendingLogin (returnTo : Bytes := ascii "/users") : PendingLogin :=
  { verifier := verifier, returnTo := returnTo, nonce := ascii "nonce-1", created := 0 }

/-- The state after the login. -/
def loginWorld (rl : RateLimiter) (returnTo : Bytes := ascii "/users") : World deps :=
  (((world.setLimiter rl .login).issue (ascii "state-1")).issue verifier).issue (ascii "nonce-1")
    |>.setPending (ascii "state-1") (some (pendingLogin returnTo))

/-- A login whose return path is sanitized to `returnTo`. -/
theorem login_run {r : Request} {returnTo : Bytes}
    (hdisp : dispatch server.cfg r = .handler .login)
    (hreturn : deps.sanitizeReturnTo ((parseQuery r.url.rawQuery).get (ascii "return_to")) =
      returnTo) :
    ∃ l rl, Exec (Answers server.cfg) world (server.handler r) l
      (.ret ((httpRedirect r (authorizeURL server.cfg (ascii "state-1") challenge) 302).withCookie
        (.login (ascii "nonce-1")))) (loginWorld rl returnTo) := by
  rw [Server.handler_of_dispatch hdisp]
  have hrun := @handleLogin_run deps server world r _ (ascii "state-1") verifier
    (ascii "nonce-1") rfl List.not_mem_nil (by decide +kernel) (by decide +kernel)
  rw [hreturn] at hrun
  exact ⟨_, _, hrun⟩

/-- The login runs by itself from the start. -/
theorem loginRequest_run : ∃ l rl, Exec (Answers server.cfg) world (server.handler loginRequest) l
    (.ret ((httpRedirect loginRequest (authorizeURL server.cfg (ascii "state-1") challenge)
      302).withCookie (.login (ascii "nonce-1")))) (loginWorld rl) :=
  login_run dispatch_loginRequest (by decide +kernel)

/-- The callback that follows it has posted its code, and opens a session. -/
theorem callbackRequest_run (rl : RateLimiter) (returnTo : Bytes := ascii "/users") :
    ∃ l sess w', Exec (Answers server.cfg) (loginWorld rl returnTo)
      (server.handler callbackRequest) l
      (.ret (((httpRedirect callbackRequest returnTo 302).withCookie .clearLogin).withCookie
        (.session (deps.id sess)))) w' ∧
      ⟨.post .issuer (exchangeCall server callbackRequest verifier), some tokenAnswer⟩ ∈ l := by
  rw [Server.handler_of_dispatch dispatch_callbackRequest]
  have hstate : stateOf callbackRequest = ascii "state-1" := by decide +kernel
  have hpending : (loginWorld rl returnTo).pending (stateOf callbackRequest) =
      some (pendingLogin returnTo) := by
    rw [hstate]
    exact World.setPending_self ..
  have hbinding : deps.verifyBinding callbackRequest (ascii "nonce-1") = true := by decide +kernel
  have hissued : (loginWorld rl returnTo).issued =
      [ascii "nonce-1", verifier, ascii "state-1"] := rfl
  obtain ⟨sess, hrun⟩ := @handleCallback_run deps server (loginWorld rl returnTo) callbackRequest
    (Server.attribution deps callbackRequest) (pendingLogin returnTo) tokenAnswer _
    (ascii "id-1") (ascii "csrf-1") (by decide +kernel) (by decide +kernel) hpending hbinding
    (by decide +kernel) tokenReply_answer (by rw [hissued]; decide +kernel)
    (by rw [hissued]; decide +kernel)
  exact ⟨_, sess, _, hrun, List.mem_cons_of_mem _ List.mem_cons_self⟩

/-- A clean return path is where the callback redirects to. -/
theorem isClean_users : IsClean (ascii "/users") := ⟨by decide +kernel, rfl, by decide⟩

/-- A login that is completed: it opens a session, as the protocol allows. -/
theorem login_completed : ∃ P resp₁ resp₂ id, server.Run world P ∧
    P.threads = [⟨loginRequest, .ret resp₁⟩, ⟨callbackRequest, .ret resp₂⟩] ∧
    resp₂.location = some (ascii "/users") ∧ SetCookie.session id ∈ resp₂.cookies ∧
    LoginRun server P := by
  obtain ⟨l, rl, hlogin⟩ := loginRequest_run
  obtain ⟨l', sess, w', hcallback, -⟩ := callbackRequest_run rl
  have hP : server.Run world _ :=
    (Reachable.start.run loginRequest hlogin).run callbackRequest hcallback
  exact ⟨_, _, _, deps.id sess, hP, rfl,
    congrArg some (redirectURL_of_isClean isClean_users _), by simp [Response.withCookie],
    loginRun_of_run lawful gateway_lawful hP⟩

/-- Of a login and its callback only the first is a login. -/
theorem eq_of_dispatch_login {th th' : Thread Request (@Res deps) Response}
    {p : Handler deps} {u : ℕ} (hth : [th, ⟨callbackRequest, p⟩][u]? = some th')
    (hdisp : dispatch server.cfg th'.job = .handler .login) : u = 0 ∧ th' = th := by
  match u, hth with
  | 0, hth => exact ⟨rfl, (Option.some.inj hth).symm⟩
  | 1, hth =>
    obtain rfl := Option.some.inj hth
    rw [dispatch_callbackRequest] at hdisp
    cases hdisp
  | u + 2, hth => cases hth

/-- A login whose return path holds a doubled slash. -/
def doubledLogin : Request := request "GET" "/bff/login" "return_to=/a//b" []

theorem dispatch_doubledLogin : dispatch server.cfg doubledLogin = .handler .login := by
  decide +kernel

/-- `http.Redirect` cleans the path, so its callback sends the browser to another one. -/
theorem doubledReturn_cleaned : ∃ P resp sess res, server.Run world P ∧
    P.threads[1]? = some ⟨callbackRequest, .ret resp⟩ ∧
    (⟨.sessionPut sess, res⟩ : Event (@Res deps)) ∈ history 1 P.trace ∧
    resp.location = some (ascii "/a/b") ∧
    ∀ u login, StoredBy server P P.trace u (stateOf callbackRequest) login →
      resp.location ≠ some login.returnTo := by
  have hsanitized : deps.sanitizeReturnTo ((parseQuery doubledLogin.url.rawQuery).get
      (ascii "return_to")) = ascii "/a//b" := by
    decide +kernel
  obtain ⟨l, rl, hlogin⟩ := login_run dispatch_doubledLogin hsanitized
  obtain ⟨l', sess, w', hcallback, -⟩ := callbackRequest_run rl (ascii "/a//b")
  have hP : server.Run world _ :=
    (Reachable.start.run doubledLogin hlogin).run callbackRequest hcallback
  have hlocation : redirectURL callbackRequest.url.path (ascii "/a//b") = ascii "/a/b" := by
    decide +kernel
  -- the callback has answered with a redirect, so it put a session
  have hdone := callbackDone_of_run lawful gateway_lawful hP (t := 1) rfl dispatch_callbackRequest
  rcases hdone with ⟨-, sess', res, -, hput, -⟩ | ⟨-, hnone, -⟩
  · refine ⟨_, _, sess', res, hP, rfl, hput, congrArg some hlocation,
      fun u login hstored heq => ?_⟩
    -- the login was stored by the first request, and its return path is the sanitized one
    obtain ⟨th, hth, hdisp, hreturn, -⟩ := hstored.thread
    obtain ⟨-, rfl⟩ := eq_of_dispatch_login hth hdisp
    rw [hreturn, hsanitized] at heq
    exact absurd (hlocation.symm.trans (Option.some.inj heq)) (by decide)
  · cases hnone

end Reference

end Bff
