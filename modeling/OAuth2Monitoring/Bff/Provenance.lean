import OAuth2Monitoring.Bff.SessionRows

/-!
# Where a session comes from

Every session the BFF works with was created by a callback, unless a durable store kept it over a
restart. The callback has drawn the session's id and its CSRF token, and has read its user from the
issuer's answer to its code. From there on both stay what they are: what `/bff/session` tells a
browser are the user and the CSRF token the session in its cookie was created with, and a step-up or
a logout is carried out only for a request that presents that CSRF token.

A callback never overwrites a row: the id it has drawn was in no use before.

## Main results

* `sessionRun_of_run`: requests keep to their own row, and new sessions get fresh rows.
* `authentic_of_run`: what a browser is told, and what it must present, is what a callback created.
-/

namespace Bff

open GoStd Interleaving Interleaving.Prog

variable {d : Deps} {srv : Server d}

/-! ## Fresh rows -/

/-- What the requests of a run do to the rows. -/
structure SessionRun (srv : Server d) (w₀ : World d)
    (P : Pool (World d) Request (@Res d) Response) : Prop where
  /-- A request reads the row of its own cookie only. -/
  reads : ∀ newer e older id, P.trace = newer ++ e :: older → e.event.op = .sessionGet id →
    d.sessionCookie e.job = some id
  /-- What it puts is the session of its cookie, which it has read, or a callback's new one. -/
  puts : ∀ newer e older s, P.trace = newer ++ e :: older → e.event.op = .sessionPut s →
    d.sessionCookie e.job = some (d.id s) ∧ ReadBack (history e.tid older) s ∨ CreatedBy srv e s
  /-- What it deletes is the session of its cookie, which it has read. -/
  deletes : ∀ newer e older id, P.trace = newer ++ e :: older → e.event.op = .sessionDelete id →
    d.sessionCookie e.job = some id ∧ ∃ s, d.id s = id ∧ ReadBack (history e.tid older) s
  /-- The id of a new session was in no use: there was no row, and there had been none. -/
  creates : ∀ newer e older s, P.trace = newer ++ e :: older → CreatedBy srv e s →
    ¬Known srv w₀ older (d.id s)

section Runs

variable {w₀ : World d} {P : Pool (World d) Request (@Res d) Response} {newer older : Trace d}
  {e : Entry Request (@Res d)}

/-- What a request does at a place of the trace. -/
theorem rowsStep_of_run (hd : d.KeepsIdentity) (hgw : srv.gateway.Confined) (hP : srv.Run w₀ P)
    (htr : P.trace = newer ++ e :: older) :
    RowsStep srv e.job (history e.tid older) e.event.op :=
  along_iff.mp (hP.obeys (handler_rows hd hgw)) newer e older htr

/-- The history of a thread at a place of the trace is honest. -/
theorem honest_of_run (hd : d.KeepsIdentity) (hgw : srv.gateway.Confined) (hP : srv.Run w₀ P)
    (htr : P.trace = newer ++ older) (t : ℕ) : Honest (history t older) := by
  intro id s hmem
  obtain ⟨e, he, -, hev⟩ := mem_history.mp hmem
  exact ((rowsInv_of_run hd hgw hP).found e (htr ▸ List.mem_append_right _ he) id s hev).1

/-- What a callback creates was drawn by itself. -/
theorem exists_draw_of_createdBy (hd : d.KeepsIdentity) (hgw : srv.gateway.Confined)
    (hP : srv.Run w₀ P) (htr : P.trace = newer ++ e :: older) {s : d.Session}
    (hby : CreatedBy srv e s) : ∃ x ∈ older, x.tid = e.tid ∧ draws (d.id s) x = true := by
  have hcreates := (rowsStep_of_run hd hgw hP htr).creates hby.2
  rw [hby.1] at hcreates
  obtain ⟨x, hx, htid, hev⟩ := mem_history.mp hcreates.1
  exact ⟨x, hx, htid, draws_of_drew hev⟩

/-- A callback's session gets an id that was in no use, when the ids in use at the start are not
drawn again. -/
theorem not_known_of_createdBy (hlaw : d.Lawful) (hgwl : srv.gateway.Lawful)
    (hd : d.KeepsIdentity) (hgw : srv.gateway.Confined)
    (hids : ∀ id, w₀.sessions.row id ≠ .absent → id ∈ w₀.issued) (hP : srv.Run w₀ P)
    (htr : P.trace = newer ++ e :: older) {s : d.Session} (hby : CreatedBy srv e s) :
    ¬Known srv w₀ older (d.id s) := by
  have hinv := issuedInv_of_run hP
  obtain ⟨x, hx, hxt, hdraws⟩ := exists_draw_of_createdBy hd hgw hP htr hby
  have hmem : ∀ y ∈ older, y ∈ P.trace := fun y hy =>
    htr ▸ List.mem_append_right _ (List.mem_cons_of_mem _ hy)
  rintro (hrow | ⟨e', he', s₀, hby', hid⟩)
  · -- the ids of the start are issued, and what is drawn is not
    exact (hinv.drawn _ x (hmem x hx) hdraws).2 (hids _ hrow)
  · obtain ⟨n', o', hold⟩ := List.append_of_mem he'
    have htr' : P.trace = (newer ++ e :: n') ++ e' :: o' := by
      rw [htr, hold]
      simp
    obtain ⟨x', hx', hxt', hdraws'⟩ := exists_draw_of_createdBy hd hgw hP htr' hby'
    -- both ids were drawn by one request, which puts one session only
    have htid : e.tid = e'.tid := by
      rw [← hxt, ← hxt']
      refine hinv.once _ x (hmem x hx) x' (hmem x' ?_) hdraws (hid ▸ hdraws')
      rw [hold]
      exact List.mem_append_right _ (List.mem_cons_of_mem _ hx')
    have hstep := callbackStep_of_run hlaw hgwl hP htr hby.2
    rw [hby.1] at hstep
    have hnone := hstep.1 e'.event (mem_history.mpr ⟨e', he', htid.symm, rfl⟩)
    rw [hby'.1] at hnone
    exact hnone trivial

/-- In every run requests keep to the row of their own session, and new sessions get fresh rows. -/
theorem sessionRun_of_run (hlaw : d.Lawful) (hgwl : srv.gateway.Lawful) (hd : d.KeepsIdentity)
    (hgw : srv.gateway.Confined) (hids : ∀ id, w₀.sessions.row id ≠ .absent → id ∈ w₀.issued)
    (hP : srv.Run w₀ P) : SessionRun srv w₀ P where
  reads newer e older id htr hop := by
    have hstep := rowsStep_of_run hd hgw hP htr
    rw [hop] at hstep
    by_cases hcb : dispatch srv.cfg e.job = .handler .callback
    · exact (hstep.creates hcb).elim
    · exact hstep.own hcb
  puts newer e older s htr hop := by
    have hstep := rowsStep_of_run hd hgw hP htr
    rw [hop] at hstep
    by_cases hcb : dispatch srv.cfg e.job = .handler .callback
    · exact .inr ⟨hop, hcb⟩
    · exact .inl (hstep.own hcb (honest_of_run hd hgw hP (htr.trans (List.append_cons ..)) _))
  deletes newer e older id htr hop := by
    have hstep := rowsStep_of_run hd hgw hP htr
    rw [hop] at hstep
    by_cases hcb : dispatch srv.cfg e.job = .handler .callback
    · exact (hstep.creates hcb).elim
    · exact hstep.own hcb (honest_of_run hd hgw hP (htr.trans (List.append_cons ..)) _)
  creates newer e older s htr hby := not_known_of_createdBy hlaw hgwl hd hgw hids hP htr hby

end Runs

/-! ## What a browser is told, and what it must present -/

/-- The request presents the CSRF token of a session of its cookie that has been read. -/
def Vouched (r : Request) (past : List (Event (@Res d))) : Prop :=
  ∃ s, OwnSession r past s ∧ Server.csrfHeader r = d.csrf s

/-- The operation calls upstream or deletes a session. -/
def Mutates : Op d → Prop
  | .post _ _ | .sessionDelete _ => True
  | _ => False

/-- Only step-ups call the admin API by themselves; they and logouts call upstream, and delete a
session, only for requests that present the CSRF token. -/
def VouchedStep (srv : Server d) (r : Request) (past : List (Event (@Res d))) (op : Op d) : Prop :=
  match dispatch srv.cfg r with
  | .handler .elevate => Mutates op → Vouched r past
  | .handler .logout => (Mutates op → Vouched r past) ∧ ∀ c, op ≠ .post .admin c
  | _ => ∀ c, op ≠ .post .admin c

/-- The answer to a browser that is signed in. -/
def authenticated (u : UserInfo) (csrf : Bytes) : Body :=
  .json [(ascii "authenticated", .flag true), (ascii "user", .user u), (ascii "csrf", .text csrf)]

/-- `/bff/session` tells a browser the user and the CSRF token of the session of its cookie. -/
def SessionTold (srv : Server d) (r : Request) (past : List (Event (@Res d)))
    (resp : Response) : Prop :=
  dispatch srv.cfg r = .handler .session → ∀ u csrf, resp.body = authenticated u csrf →
    ∃ s, OwnSession r past s ∧ d.user s = u ∧ d.csrf s = csrf

section Handlers

variable {r : Request} {ctx : Attribution} {past : List (Event (@Res d))}

theorem Vouched.append {l : List (Event (@Res d))} (h : Vouched r past) :
    Vouched r (l ++ past) := by
  obtain ⟨s, hown, hcsrf⟩ := h
  exact ⟨s, hown.append, hcsrf⟩

/-- The lookup neither calls upstream nor deletes. -/
theorem currentSession_vouched (hd : d.KeepsIdentity) {Φ : List (Event (@Res d)) → Op d → Prop}
    (hΦ : ∀ past op, LookupOp op → Φ past op) :
    (Server.currentSession r).Sat Φ (fun past' found => ∀ s, found = some s → OwnSession r past' s)
      past :=
  ((currentSession_rows hd).and ((Server.currentSession_uses fun _ h => h).sat hΦ)).mono
    (fun _ _ h => h.2) fun _ _ h => h.1

/-- What follows the check of the CSRF token may call upstream and delete. -/
theorem vouched_rest {α : Type} (p : Prog (@Res d) α) (h : Vouched r past) :
    p.Sat (fun past op => Mutates op → Vouched r past) (fun _ _ => True) past :=
  (sat_of_forall p fun _ _ _ => h.append).mono (fun _ _ h => h) fun _ _ _ => trivial

/-- A request that passes the check of the token is vouched for. -/
theorem vouched_of_match (hlaw : d.Lawful) {s : d.Session} (hown : OwnSession r past s)
    (hmatch : ¬d.matchCSRF s (Server.csrfHeader r) = false) : Vouched r past :=
  ⟨s, hown, hlaw.matchCSRF s _ (by simpa using hmatch)⟩

/-- An operation of the lookup is neither a call nor a delete. -/
theorem LookupOp.not_mutates {op : Op d} (h : LookupOp op) : ¬Mutates op := by
  intro hmut
  cases op <;> first | exact h | exact hmut

/-- A logout calls upstream and deletes only when it is vouched for. -/
theorem handleLogout_vouched (hlaw : d.Lawful) (hd : d.KeepsIdentity) :
    (srv.handleLogout ctx r).Sat (fun past op => Mutates op → Vouched r past) (fun _ _ => True)
      past := by
  refine Sat.bind ((currentSession_vouched hd fun _ op hop hmut =>
    absurd hmut hop.not_mutates).mono (fun _ _ h => h) fun past' sess hsess => ?_)
  cases sess with
  | none => trivial
  | some s =>
    dsimp only
    split
    · trivial
    · exact vouched_rest _ (vouched_of_match hlaw (hsess s rfl) ‹_›)

/-- So does a step-up. -/
theorem handleElevate_vouched (hlaw : d.Lawful) (hd : d.KeepsIdentity) :
    (srv.handleElevate ctx r).Sat (fun past op => Mutates op → Vouched r past) (fun _ _ => True)
      past := by
  refine Sat.bind ((Server.rateLimited_sat fun h => h.elim).mono (fun _ _ h => h) ?_)
  rintro _ _ ⟨limited, rfl, rfl⟩
  cases limited with
  | some retry => trivial
  | none =>
    refine Sat.bind ((currentSession_vouched hd fun _ op hop hmut =>
      absurd hmut hop.not_mutates).mono (fun _ _ h => h) fun past' sess hsess => ?_)
    cases sess with
    | none => trivial
    | some s =>
      dsimp only
      split
      · trivial
      · exact vouched_rest _ (vouched_of_match hlaw (hsess s rfl) ‹_›)

/-- The user and the CSRF token told are those of the session that was looked up. -/
theorem handleSession_told (hd : d.KeepsIdentity) {Φ : List (Event (@Res d)) → Op d → Prop}
    (hΦ : ∀ past op, LookupOp op → Φ past op) :
    (Server.handleSession r).Sat Φ (fun past' resp => ∀ u csrf, resp.body = authenticated u csrf →
      ∃ s, OwnSession r past' s ∧ d.user s = u ∧ d.csrf s = csrf) past := by
  refine Sat.bind (Sat.bind ((currentSession_vouched hd hΦ).mono (fun _ _ h => h) ?_))
  intro past' sess hsess
  cases sess with
  | none =>
    intro u csrf hbody
    cases hbody
  | some s =>
    intro u csrf hbody
    cases hbody
    exact ⟨s, hsess s rfl, rfl, rfl⟩

end Handlers

/-- Every handler checks the CSRF token, and tells browsers about their own session. -/
theorem handler_vouched (hlaw : d.Lawful) (hgw : srv.gateway.Lawful) (hd : d.KeepsIdentity)
    (r : Request) : (srv.handler r).Sat (VouchedStep srv r) (SessionTold srv r) [] := by
  unfold Server.handler
  cases hdisp : dispatch srv.cfg r with
  | handler e =>
    have hnot : e ≠ .session → ∀ past resp, SessionTold srv r past resp := by
      intro he past resp h
      rw [hdisp] at h
      cases h
      exact absurd rfl he
    -- the other handlers never post to the admin API
    have hother : e ≠ .logout → e ≠ .elevate → e ≠ .session →
        (srv.serve (Server.attribution d r) r e).Sat (VouchedStep srv r) (SessionTold srv r)
          [] := by
      intro hlogout helevate hsession
      refine ((Server.serve_uses hgw e).sat fun past op hop => ?_).mono (fun _ _ h => h)
        fun past resp _ => hnot hsession past resp
      have hadmin : ∀ c, op ≠ .post .admin c := by
        rintro c rfl
        cases e <;> first | exact absurd rfl hlogout | exact absurd rfl helevate |
          simp [Endpoint.Footprint, RefreshingOp, GatewayOp, LookupOp] at hop
      unfold VouchedStep
      rw [hdisp]
      cases e <;> first | exact absurd rfl hlogout | exact absurd rfl helevate | exact hadmin
    cases e with
    | logout =>
      refine ((handleLogout_vouched hlaw hd).and (Server.handleLogout_uses.sat
        fun _ _ h => h)).mono (fun past op h => ?_) fun past resp _ => hnot (by simp) past resp
      unfold VouchedStep
      rw [hdisp]
      refine ⟨h.1, ?_⟩
      rintro c rfl
      cases h.2
    | elevate =>
      refine (handleElevate_vouched hlaw hd).mono (fun past op h => ?_) fun past resp _ =>
        hnot (by simp) past resp
      unfold VouchedStep
      rwa [hdisp]
    | session =>
      refine (handleSession_told hd fun past op hop => ?_).mono (fun _ _ h => h)
        fun past resp h _ => h
      unfold VouchedStep
      rw [hdisp]
      rintro c rfl
      exact hop
    | _ => exact hother (by simp) (by simp) (by simp)
  | _ =>
    intro h
    rw [hdisp] at h
    cases h

/-! ## Runs -/

/-- The id, the user and the CSRF token are those of a session of the start, or of one a callback
has put into the store, having drawn the id and the token and read the user from the issuer's answer
to its code. -/
def Genuine (srv : Server d) (w₀ : World d) (tr : Trace d) (id : Bytes) (u : UserInfo)
    (csrf : Bytes) : Prop :=
  (∃ s₀, w₀.sessions.find id = some s₀ ∧ d.user s₀ = u ∧ d.csrf s₀ = csrf) ∨
    ∃ newer e older, tr = newer ++ e :: older ∧
      (∃ s₀, CreatedBy srv e s₀ ∧ d.id s₀ = id ∧ d.user s₀ = u ∧ d.csrf s₀ = csrf) ∧
      drew 32 id ∈ history e.tid older ∧ drew 32 csrf ∈ history e.tid older ∧
      ∃ login a reply, took (stateOf e.job) login ∈ history e.tid older ∧
        (⟨.post .issuer (exchangeCall srv e.job login.verifier), a⟩ : Event (@Res d)) ∈
          history e.tid older ∧
        tokenReply d a = .ok reply ∧ u = userFromToken d srv.cfg.clientID reply

/-- What the browsers of a run are told, and what they present, is genuine. -/
structure Authentic (srv : Server d) (w₀ : World d)
    (P : Pool (World d) Request (@Res d) Response) : Prop where
  /-- `/bff/session` names the user and the CSRF token of the session in the cookie. -/
  told : ∀ (t : ℕ) (r : Request) (resp : Response) u csrf, P.threads[t]? = some ⟨r, .ret resp⟩ →
    dispatch srv.cfg r = .handler .session → resp.body = authenticated u csrf →
    ∃ id, d.sessionCookie r = some id ∧ Genuine srv w₀ P.trace id u csrf
  /-- A logout or a step-up calls upstream, or deletes, only for a request that presents the CSRF
  token of the session in its cookie. -/
  presented : ∀ newer e older, P.trace = newer ++ e :: older →
    dispatch srv.cfg e.job = .handler .logout ∨ dispatch srv.cfg e.job = .handler .elevate →
    Mutates e.event.op → ∃ id u, d.sessionCookie e.job = some id ∧
      Genuine srv w₀ older id u (Server.csrfHeader e.job)
  /-- The BFF itself calls the admin API only to step up. -/
  elevates : ∀ e ∈ P.trace, ∀ c, e.event.op = .post .admin c →
    dispatch srv.cfg e.job = .handler .elevate

section Runs

variable {w₀ : World d} {P : Pool (World d) Request (@Res d) Response} {newer older : Trace d}

/-- The origin of a session that was read tells what the session was created with. -/
theorem Origin.genuine (hd : d.KeepsIdentity) (hgw : srv.gateway.Confined) (hP : srv.Run w₀ P)
    (htr : P.trace = newer ++ older) {s : d.Session} (h : Origin srv w₀ older s) :
    Genuine srv w₀ older (d.id s) (d.user s) (d.csrf s) := by
  rcases h with ⟨s₀, hfind, hsame⟩ | ⟨e, he, s₀, hby, hsame⟩
  · exact .inl ⟨s₀, hfind, hsame.user.symm, hsame.csrf.symm⟩
  · obtain ⟨n, o, hold⟩ := List.append_of_mem he
    have htr' : P.trace = (newer ++ n) ++ e :: o := by rw [htr, hold, List.append_assoc]
    have hcreates := (rowsStep_of_run hd hgw hP htr').creates hby.2
    rw [hby.1] at hcreates
    obtain ⟨hid, hcsrf, login, a, reply, htook, hpost, hreply, huser⟩ := hcreates
    exact .inr ⟨n, e, o, hold, ⟨s₀, hby, hsame.id.symm, hsame.user.symm, hsame.csrf.symm⟩,
      hsame.id ▸ hid, hsame.csrf ▸ hcsrf, login, a, reply, htook, hpost, hreply,
      hsame.user.trans huser⟩

/-- A session of the request's cookie that a thread has read is genuine. -/
theorem OwnSession.genuine (hd : d.KeepsIdentity) (hgw : srv.gateway.Confined) (hP : srv.Run w₀ P)
    (htr : P.trace = newer ++ older) {r : Request} {t : ℕ} {s : d.Session}
    (h : OwnSession r (history t older) s) :
    d.sessionCookie r = some (d.id s) ∧ Genuine srv w₀ older (d.id s) (d.user s) (d.csrf s) := by
  obtain ⟨hcookie, s', hmem, hsame⟩ := h (honest_of_run hd hgw hP htr t)
  obtain ⟨e, he, -, hev⟩ := mem_history.mp hmem
  -- the moment the session was found
  obtain ⟨n, o, hold⟩ := List.append_of_mem he
  have htr' : P.trace = (newer ++ n) ++ e :: o := by rw [htr, hold, List.append_assoc]
  obtain ⟨P₀, P₁, hP₀, -, hstep, -, hP₁, -⟩ := hP.exists_cut htr'
  have hinv := rowsInv_of_run hd hgw (hP₀.step hstep)
  rw [hP₁] at hinv
  have horigin := ((hinv.found e List.mem_cons_self _ s' hev).2).of_same hsame
  refine ⟨hcookie, (horigin.mono fun x hx => ?_).genuine hd hgw hP htr⟩
  exact hold ▸ List.mem_append_right _ hx

/-- In every run what browsers are told and what they must present is what a callback created. -/
theorem authentic_of_run (hlaw : d.Lawful) (hgwl : srv.gateway.Lawful) (hd : d.KeepsIdentity)
    (hgw : srv.gateway.Confined) (hP : srv.Run w₀ P) : Authentic srv w₀ P where
  told t r resp u csrf ht hsession hbody := by
    obtain ⟨s, hown, rfl, rfl⟩ := hP.returns (handler_vouched hlaw hgwl hd) ht hsession u csrf hbody
    exact ⟨d.id s, hown.genuine hd hgw hP (List.nil_append _).symm⟩
  presented newer e older htr hdisp hop := by
    have hstep := along_iff.mp (hP.obeys (handler_vouched hlaw hgwl hd)) newer e older htr
    obtain ⟨s, hown, hcsrf⟩ : Vouched e.job (history e.tid older) := by
      unfold VouchedStep at hstep
      rcases hdisp with hdisp | hdisp <;> rw [hdisp] at hstep
      · exact hstep.1 hop
      · exact hstep hop
    obtain ⟨hcookie, hgenuine⟩ := hown.genuine hd hgw hP (htr.trans (List.append_cons ..))
    exact ⟨d.id s, d.user s, hcookie, hcsrf ▸ hgenuine⟩
  elevates e he c hop := by
    obtain ⟨newer, older, htr⟩ := List.append_of_mem he
    have hstep := along_iff.mp (hP.obeys (handler_vouched hlaw hgwl hd)) newer e older htr
    unfold VouchedStep at hstep
    split at hstep
    · assumption
    · exact absurd hop (hstep.2 c)
    · exact absurd hop (hstep c)

end Runs

/-! ## A run -/

namespace Reference

/-- The sample sessions keep their identity. -/
theorem keepsIdentity : deps.KeepsIdentity where
  newSession _ _ _ _ _ := ⟨rfl, rfl, rfl⟩
  touch _ _ := ⟨rfl, rfl, rfl⟩
  setTokens _ _ _ := ⟨rfl, rfl, rfl⟩

theorem gateway_confined : gateway.Confined where
  ensureFresh _ _ s _ _ _ := fun s' h => by
    cases h
    exact .refl s
  authorize passthrough _ r _ := by
    refine Sat.bind ((currentSession_rows keepsIdentity).mono (fun _ _ h => h) fun _ sess _ => ?_)
    cases sess <;> trivial

/-- The sample state after a restart: the id of the session that survived it is not drawn again. -/
def survivedWorld : World deps := { world with issued := [session.id] }

theorem survivedWorld_issued : ∀ id, survivedWorld.sessions.row id ≠ .absent →
    id ∈ survivedWorld.issued := by
  intro id hrow
  by_cases hid : id = session.id
  · rw [hid]
    exact List.mem_singleton.mpr rfl
  · have hput : store.row id = SessionStore.empty.row id := SessionStore.row_put_of_ne hid
    exact absurd hput hrow

/-- The session's browser asks who it is. -/
def whoRequest : Request := sessionRequest "GET" "/bff/session"

theorem dispatch_whoRequest : dispatch server.cfg whoRequest = .handler .session := by
  decide +kernel

/-- It is told. -/
theorem whoRequest_run : ∃ l resp w', resp.body = authenticated session.user session.csrf ∧
    Exec (Answers server.cfg) survivedWorld (server.handler whoRequest) l (.ret resp) w' := by
  rw [Server.handler_of_dispatch dispatch_whoRequest]
  have hlookup := @currentSession_run deps server.cfg survivedWorld whoRequest session.id session
    (cookie_sessionRequest "GET" "/bff/session") world_get
  exact ⟨_, _, _, rfl, Exec.bind (Exec.bind hlookup (.refl _ _)) (.refl _ _)⟩

/-- The browser of a session is told whose it is. -/
theorem who_told : ∃ P resp, server.Run survivedWorld P ∧
    P.threads[0]? = some ⟨whoRequest, .ret resp⟩ ∧
    resp.body = authenticated session.user session.csrf ∧ Authentic server survivedWorld P := by
  obtain ⟨l, resp, w', hbody, hrun⟩ := whoRequest_run
  have hP : server.Run survivedWorld _ := Reachable.start.run whoRequest hrun
  exact ⟨_, resp, hP, rfl, hbody,
    authentic_of_run lawful gateway_lawful keepsIdentity gateway_confined hP⟩

/-- It reads the row of its cookie only. -/
theorem who_ownRow : ∃ P resp, server.Run survivedWorld P ∧
    P.threads[0]? = some ⟨whoRequest, .ret resp⟩ ∧ SessionRun server survivedWorld P := by
  obtain ⟨l, resp, w', -, hrun⟩ := whoRequest_run
  have hP : server.Run survivedWorld _ := Reachable.start.run whoRequest hrun
  exact ⟨_, resp, hP, rfl, sessionRun_of_run lawful gateway_lawful keepsIdentity gateway_confined
    survivedWorld_issued hP⟩

end Reference

end Bff
