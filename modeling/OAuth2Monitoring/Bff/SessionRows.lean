import OAuth2Monitoring.Bff.Login
import OAuth2Monitoring.ToMathlib.Interleaving.Later

/-!
# Whose row a request touches

A request that carries a session cookie reads, puts and deletes the row of that cookie's id and no
other one, and what it puts or deletes it has read before. Only a callback puts a row it has not
read: the session it has just drawn the id and the CSRF token of, for the identity in the issuer's
answer.

The gateway is assumed to do the same. What a session is created with, its id, its CSRF token and
its user, is assumed to stay when its idle window is slid or its tokens are replaced.

## Main definitions

* `SameIdentity`: two states of one session.
* `OwnRow`, `Creates`: what a request does to the rows.
* `Gateway.Confined`: what is assumed of the gateway.

## Main results

* `handler_rows`: every handler keeps to its own row.
* `rowsInv_of_run`: every row and every session found comes from a callback's put, or from the
  start.
-/

namespace Bff

open GoStd Interleaving Interleaving.Prog

variable {d : Deps} {srv : Server d}

/-! ## Rows of one session -/

/-- What a session is created with and keeps. -/
structure SameIdentity (s s' : d.Session) : Prop where
  id : d.id s = d.id s'
  csrf : d.csrf s = d.csrf s'
  user : d.user s = d.user s'

theorem SameIdentity.refl (s : d.Session) : SameIdentity s s := ⟨rfl, rfl, rfl⟩

theorem SameIdentity.trans {s s' s'' : d.Session} (h : SameIdentity s s')
    (h' : SameIdentity s' s'') : SameIdentity s s'' :=
  ⟨h.id.trans h'.id, h.csrf.trans h'.csrf, h.user.trans h'.user⟩

/-- The packages keep the identity of a session. -/
structure Deps.KeepsIdentity (d : Deps) : Prop where
  newSession : ∀ id csrf ts u now, d.id (d.newSession id csrf ts u now) = id ∧
    d.csrf (d.newSession id csrf ts u now) = csrf ∧ d.user (d.newSession id csrf ts u now) = u
  touch : ∀ s now, SameIdentity (d.touch s now) s
  setTokens : ∀ s ts now, SameIdentity (d.setTokens s ts now) s

/-- A `Get` answered with the session. -/
abbrev found (id : Bytes) (s : d.Session) : Event (@Res d) := ⟨.sessionGet id, .done (some s)⟩

/-- Each session found had the id it was looked up by. -/
def Honest (past : List (Event (@Res d))) : Prop := ∀ id s, found id s ∈ past → d.id s = id

/-- The row of `s` has been read, as a state of the same session. -/
def ReadBack (past : List (Event (@Res d))) (s : d.Session) : Prop :=
  ∃ s', found (d.id s) s' ∈ past ∧ SameIdentity s s'

theorem ReadBack.mono {past past' : List (Event (@Res d))} {s : d.Session} (h : ReadBack past s)
    (hsub : ∀ ev ∈ past, ev ∈ past') : ReadBack past' s := by
  obtain ⟨s', hmem, hsame⟩ := h
  exact ⟨s', hsub _ hmem, hsame⟩

theorem ReadBack.cons {past : List (Event (@Res d))} {s : d.Session} (h : ReadBack past s)
    (ev : Event (@Res d)) : ReadBack (ev :: past) s :=
  h.mono fun _ => List.mem_cons_of_mem _

theorem ReadBack.of_same {past : List (Event (@Res d))} {s s' : d.Session} (h : ReadBack past s)
    (hsame : SameIdentity s' s) : ReadBack past s' := by
  obtain ⟨s'', hmem, hsame'⟩ := h
  exact ⟨s'', hsame.id ▸ hmem, hsame.trans hsame'⟩

theorem Honest.tail {past : List (Event (@Res d))} {ev : Event (@Res d)}
    (h : Honest (ev :: past)) : Honest past := fun id s hmem => h id s (List.mem_cons_of_mem _ hmem)

/-! ## What a request does to the rows -/

/-- A request with a session touches the row of its cookie, and puts and deletes what it has
read. -/
def OwnRow (r : Request) (past : List (Event (@Res d))) : Op d → Prop
  | .sessionGet id => d.sessionCookie r = some id
  | .sessionPut s => Honest past → d.sessionCookie r = some (d.id s) ∧ ReadBack past s
  | .sessionDelete id => Honest past →
    d.sessionCookie r = some id ∧ ∃ s, d.id s = id ∧ ReadBack past s
  | _ => True

/-- A callback puts the session of the tokens it got, under an id and with a CSRF token that it has
drawn, for the user the issuer's answer names. -/
def Creates (srv : Server d) (r : Request) (past : List (Event (@Res d))) : Op d → Prop
  | .sessionPut s => drew 32 (d.id s) ∈ past ∧ drew 32 (d.csrf s) ∈ past ∧
      ∃ login a tr, took (stateOf r) login ∈ past ∧
        (⟨.post .issuer (exchangeCall srv r login.verifier), a⟩ : Event (@Res d)) ∈ past ∧
        tokenReply d a = .ok tr ∧ d.user s = userFromToken d srv.cfg.clientID tr
  | .sessionGet _ | .sessionDelete _ => False
  | _ => True

/-- What a request does to the rows, by the endpoint it reaches. -/
def RowsStep (srv : Server d) (r : Request) (past : List (Event (@Res d))) (op : Op d) : Prop :=
  match dispatch srv.cfg r with
  | .handler .callback => Creates srv r past op
  | _ => OwnRow r past op

/-- The refresher only calls the issuer. -/
def IssuerOnly (refresh : TokenRefresher d) : Prop :=
  ∀ tok, (refresh tok).Uses fun op => ∃ c, op = .post .issuer c

/-- The gateway keeps to the row of the request's session, and the session it freshens stays the
same session. -/
structure Gateway.Confined (gw : Gateway d) : Prop where
  ensureFresh : ∀ (refresh : TokenRefresher d) (r : Request) (s : d.Session)
    (past : List (Event (@Res d))), IssuerOnly refresh →
    (Honest past → d.sessionCookie r = some (d.id s) ∧ ReadBack past s) →
    (gw.ensureFresh refresh s).Sat (OwnRow r)
      (fun _ f => ∀ s', f = .fresh s' → SameIdentity s' s) past
  authorize : ∀ (passthrough : Bool) (refresh : TokenRefresher d) (r : Request),
    IssuerOnly refresh → (gw.authorize passthrough refresh r).Sat (OwnRow r) (fun _ _ => True) []

/-! ## The handlers -/

section Handlers

variable {r : Request} {ctx : Attribution} {past : List (Event (@Res d))}

/-- The lookup ends with a session of the request's cookie that it has read. -/
theorem currentSession_rows (hd : d.KeepsIdentity) :
    (Server.currentSession r).Sat (OwnRow r) (fun past' found => ∀ s, found = some s →
      Honest past' → d.sessionCookie r = some (d.id s) ∧ ReadBack past' s) past := by
  unfold Server.currentSession Server.sessionFromRequest
  cases hcookie : d.sessionCookie r with
  | none => exact fun s h => by cases h
  | some id =>
    refine ⟨hcookie, fun st => ?_⟩
    rcases st with (_ | s) | _
    · exact fun s h => by cases h
    · -- what is put is what was found, touched
      have hread : ∀ (past' : List (Event (@Res d))) (now : ℤ), found id s ∈ past' →
          Honest past' →
            some id = some (d.id (d.touch s now)) ∧ ReadBack past' (d.touch s now) := by
        intro past' now hmem hhonest
        have hid : d.id s = id := hhonest id s hmem
        have hsame := hd.touch s now
        refine ⟨by rw [hsame.id, hid], s, ?_, hsame⟩
        rwa [hsame.id, hid]
      refine ⟨trivial, fun now => ⟨fun hhonest => ?_, fun res s' hs' hhonest => ?_⟩⟩
      · rw [hcookie]
        exact hread _ now (by simp) hhonest
      · cases hs'
        exact hread _ now (by simp) hhonest
    · exact fun s h => by cases h

/-- A session of the request's cookie that has been read. -/
def OwnSession (r : Request) (past : List (Event (@Res d))) (s : d.Session) : Prop :=
  Honest past → d.sessionCookie r = some (d.id s) ∧ ReadBack past s

theorem OwnSession.append {l : List (Event (@Res d))} {s : d.Session} (h : OwnSession r past s) :
    OwnSession r (l ++ past) s := by
  intro hhonest
  obtain ⟨hcookie, hread⟩ := h fun id s hmem => hhonest id s (List.mem_append_right _ hmem)
  exact ⟨hcookie, hread.mono fun _ => List.mem_append_right _⟩

/-- A session with its identity is the request's own too. -/
theorem OwnSession.of_same {s s' : d.Session} (h : OwnSession r past s)
    (hsame : SameIdentity s' s) : OwnSession r past s' := by
  intro hhonest
  obtain ⟨hcookie, hread⟩ := h hhonest
  exact ⟨by rw [hcookie, hsame.id], hread.of_same hsame⟩

/-- What has been read may be deleted. -/
theorem OwnSession.delete {s : d.Session} (h : OwnSession r past s) :
    OwnRow r past (.sessionDelete (d.id s)) := by
  intro hhonest
  obtain ⟨hcookie, hread⟩ := h hhonest
  exact ⟨hcookie, s, rfl, hread⟩

/-- Operations that are no statements of the store only make the past longer. -/
theorem rows_of_uses {α : Type} {p : Prog (@Res d) α} {A : Op d → Prop} (hp : p.Uses A)
    (hA : ∀ past op, A op → OwnRow r past op) :
    p.Sat (OwnRow r) (fun past' _ => ∃ l, past' = l ++ past) past := by
  refine (hp.sat_append hA).mono (fun _ _ h => h) ?_
  rintro past' a ⟨l, -, -, rfl⟩
  exact ⟨_, rfl⟩

/-- A proxy touches no row. -/
theorem serveProxy_rows {up : Upstream} {p : ReverseProxy} {r' : Request} :
    (serveProxy up p r').Sat (OwnRow r) (fun _ _ => True) past := by
  unfold serveProxy
  cases p.outgoing r' with
  | none => trivial
  | some out => exact ⟨trivial, fun a => by cases a <;> trivial⟩

/-- `/bff/session` keeps to the row of its cookie. -/
theorem handleSession_rows (hd : d.KeepsIdentity) :
    (Server.handleSession r).Sat (OwnRow r) (fun _ _ => True) past := by
  refine Sat.bind (Sat.bind ((currentSession_rows hd).mono (fun _ _ h => h) ?_))
  intro past' sess _
  cases sess <;> trivial

theorem handleLogout_rows (hd : d.KeepsIdentity) :
    (srv.handleLogout ctx r).Sat (OwnRow r) (fun _ _ => True) past := by
  refine Sat.bind ((currentSession_rows hd).mono (fun _ _ h => h) fun past' sess hsess => ?_)
  cases sess with
  | none => trivial
  | some s =>
    have hown : OwnSession r past' s := hsess s rfl
    dsimp only
    split
    · trivial
    · -- the revocations leave the session one that has been read
      refine Sat.bind ((rows_of_uses (Server.revokeSessionTokens_uses (A := fun op => ∃ c,
        op = .post .issuer c) fun c => ⟨c, rfl⟩) ?_).mono (fun _ _ h => h) ?_)
      · rintro past _ ⟨c, rfl⟩
        trivial
      · rintro _ _ ⟨l, rfl⟩
        refine Sat.bind ⟨trivial, fun before => ⟨?_, fun res => ⟨trivial, fun after => ?_⟩⟩⟩
        · exact ((hown.append (l := l)).append (l := [⟨.sessionErrors, before⟩])).delete
        · show Sat _ _ (if _ then _ else _) _
          split <;> trivial

theorem elevateReply_rows (hd : d.KeepsIdentity) {s : d.Session} (hown : OwnSession r past s)
    (a : Option Answer) : (Server.elevateReply s a).Sat (OwnRow r) (fun _ _ => True) past := by
  cases a with
  | none => trivial
  | some resp =>
    unfold Server.elevateReply
    dsimp only
    split
    · split <;> trivial
    · split
      · trivial
      · split
        · trivial
        · refine ⟨trivial, fun now => ⟨?_, fun _ => trivial⟩⟩
          exact (hown.append (l := [⟨.now, now⟩])).of_same (hd.setTokens s _ now)

/-- A step-up keeps to the row of its cookie. -/
theorem handleElevate_rows (hd : d.KeepsIdentity) (hgw : srv.gateway.Confined) :
    (srv.handleElevate ctx r).Sat (OwnRow r) (fun _ _ => True) past := by
  refine Sat.bind ((Server.rateLimited_sat trivial).mono (fun _ _ h => h) ?_)
  rintro _ _ ⟨limited, rfl, rfl⟩
  cases limited with
  | some retry => trivial
  | none =>
    refine Sat.bind ((currentSession_rows hd).mono (fun _ _ h => h) fun past' sess hsess => ?_)
    cases sess with
    | none => trivial
    | some s =>
      have hown : OwnSession r past' s := hsess s rfl
      dsimp only
      split
      · trivial
      · refine Sat.bind (((hgw.ensureFresh _ r s past'
          (fun tok => tokenRefresherAdapter_uses (fun c => ⟨c, rfl⟩) tok) hown).yields).mono
          (fun _ _ h => h) ?_)
        rintro _ f ⟨hf, l, -, rfl⟩
        have hown' : OwnSession r (l.reverse ++ past') s := hown.append
        cases f with
        | fresh s' =>
          -- the session that was freshened is the one that was read
          have hfresh := hown'.of_same (hf s' rfl)
          dsimp only [Server.elevateUpstream]
          split
          · exact ⟨trivial, fun a => elevateReply_rows hd (hfresh.append (l := [_])) a⟩
          · trivial
        | fatal => exact ⟨hown'.delete, fun _ => trivial⟩
        | transient => trivial

/-- The session of a callback is the one it has drawn the id and the CSRF token of. -/
theorem openSession_rows (hd : d.KeepsIdentity) {login : PendingLogin} {tr : TokenResponse}
    {a : Option Answer} (htook : took (stateOf r) login ∈ past)
    (hpost : (⟨.post .issuer (exchangeCall srv r login.verifier), a⟩ : Event (@Res d)) ∈ past)
    (htr : tokenReply d a = .ok tr) :
    (srv.openSession r login tr).Sat (Creates srv r) (fun _ _ => True) past := by
  refine ⟨trivial, fun now => ⟨trivial, fun id => ⟨trivial, fun csrf => ⟨?_, fun _ => trivial⟩⟩⟩⟩
  obtain ⟨hid, hcsrf, huser⟩ := hd.newSession id csrf
    { accessToken := tr.accessToken, refreshToken := tr.refreshToken, idToken := tr.idToken,
      expiresIn := tr.expiresIn } (userFromToken d srv.cfg.clientID tr) now
  refine ⟨?_, ?_, login, a, tr, ?_, ?_, htr, huser⟩
  · rw [hid]
    simp
  · rw [hcsrf]
    simp
  · simp [htook]
  · simp [hpost]

/-- A callback writes nothing but the session it creates. -/
theorem handleCallback_rows (hd : d.KeepsIdentity) :
    (srv.handleCallback (Server.attribution d r) r).Sat (Creates srv r) (fun _ _ => True) [] := by
  unfold Server.handleCallback
  dsimp only
  split
  · trivial
  · refine ⟨trivial, fun taken => ?_⟩
    cases taken with
    | none => trivial
    | some login =>
      dsimp only [Prog.bind]
      split
      · trivial
      · split
        · trivial
        · refine Sat.bind ((token_sat trivial).mono (fun _ _ h => h) ?_)
          rintro past reply (⟨rfl, e, rfl⟩ | ⟨a, rfl, rfl⟩)
          · trivial
          · cases htr : tokenReply d a with
            | error e => trivial
            | ok tr => exact openSession_rows hd (by simp [stateOf]) (List.mem_cons_self) htr

end Handlers

/-- Every handler keeps to its own row. -/
theorem handler_rows (hd : d.KeepsIdentity) (hgw : srv.gateway.Confined) (r : Request) :
    (srv.handler r).Sat (RowsStep srv r) (fun _ _ => True) [] := by
  unfold Server.handler
  cases hdisp : dispatch srv.cfg r with
  | handler e =>
    have hstep : ∀ past op, OwnRow r past op → e ≠ .callback → RowsStep srv r past op := by
      intro past op h he
      unfold RowsStep
      rw [hdisp]
      cases e <;> first | exact absurd rfl he | exact h
    cases e with
    | callback =>
      refine (handleCallback_rows hd).mono (fun past op h => ?_) fun _ _ h => h
      unfold RowsStep
      rwa [hdisp]
    | health => trivial
    | proxyWithSession =>
      refine Sat.mono (Sat.bind ((hgw.authorize _ _ r fun tok =>
        tokenRefresherAdapter_uses (fun c => ⟨c, rfl⟩) tok).mono (fun _ _ h => h)
        fun past verdict _ => ?_)) (fun past op h => hstep past op h (by simp)) fun _ _ h => h
      cases verdict with
      | refuse resp => trivial
      | forward r' => exact serveProxy_rows
    | proxy =>
      exact serveProxy_rows.mono (fun past op h => hstep past op h (by simp)) fun _ _ h => h
    | login =>
      refine Server.handleLogin_uses.sat fun past op hop => hstep past op ?_ (by simp)
      cases op <;> trivial
    | session =>
      exact (handleSession_rows hd).mono (fun past op h => hstep past op h (by simp)) fun _ _ h => h
    | logout =>
      exact (handleLogout_rows hd).mono (fun past op h => hstep past op h (by simp)) fun _ _ h => h
    | elevate =>
      exact (handleElevate_rows hd hgw).mono (fun past op h => hstep past op h (by simp))
        fun _ _ h => h
    | version =>
      simp only [Server.serve]
      cases srv.cfg.oauthURL with
      | none => trivial
      | some base =>
        exact serveProxy_rows.mono (fun past op h => hstep past op h (by simp)) fun _ _ h => h
  | _ => trivial

/-! ## Runs -/

/-- The tokens drawn in a run are new, and each is drawn by one request. -/
structure IssuedInv (w₀ w : World d) (tr : Trace d) : Prop where
  base : ∀ v ∈ w₀.issued, v ∈ w.issued
  drawn : ∀ v, ∀ e ∈ tr, draws v e = true → v ∈ w.issued ∧ v ∉ w₀.issued
  once : ∀ v, ∀ e ∈ tr, ∀ e' ∈ tr, draws v e = true → draws v e' = true → e.tid = e'.tid

theorem draws_of_drew {e : Entry Request (@Res d)} {n : ℕ} {v : Bytes} (h : e.event = drew n v) :
    draws v e = true := by
  simp [draws, h]

/-- Drawing a token that was not issued. -/
theorem IssuedInv.draw {w₀ w : World d} {tr : Trace d} (h : IssuedInv w₀ w tr) (t n : ℕ)
    (r : Request) {u : Bytes} (hu : u ∉ w.issued) :
    IssuedInv w₀ (w.issue u) (⟨t, r, drew n u⟩ :: tr) := by
  have hself : ∀ v, draws v (⟨t, r, drew n u⟩ : Entry Request (@Res d)) = true → u = v :=
    fun v hv => by simpa [draws] using hv
  have hfresh : ∀ v, ∀ e ∈ tr, draws v e = true → u ≠ v := by
    rintro v e he hdraws rfl
    exact hu (h.drawn u e he hdraws).1
  refine ⟨fun v hv => List.mem_cons_of_mem _ (h.base v hv), fun v e he hdraws => ?_,
    fun v e he e' he' hdraws hdraws' => ?_⟩
  · rcases List.mem_cons.mp he with rfl | he
    · obtain rfl := hself v hdraws
      exact ⟨List.mem_cons_self, fun hv => hu (h.base u hv)⟩
    · obtain ⟨hissued, hbase⟩ := h.drawn v e he hdraws
      exact ⟨List.mem_cons_of_mem _ hissued, hbase⟩
  · -- the token is none of those drawn before
    rcases List.mem_cons.mp he with rfl | he <;> rcases List.mem_cons.mp he' with rfl | he'
    · rfl
    · exact absurd (hself v hdraws) (hfresh v e' he' hdraws')
    · exact absurd (hself v hdraws') (hfresh v e he hdraws)
    · exact h.once v e he e' he' hdraws hdraws'

/-- An operation that draws nothing. -/
theorem IssuedInv.other {w₀ w w' : World d} {tr : Trace d} {e : Entry Request (@Res d)}
    (h : IssuedInv w₀ w tr) (hissued : w'.issued = w.issued) (hnot : ∀ v, draws v e = false) :
    IssuedInv w₀ w' (e :: tr) := by
  have hmem : ∀ v, ∀ x ∈ e :: tr, draws v x = true → x ∈ tr := by
    intro v x hx hdraws
    rcases List.mem_cons.mp hx with rfl | hx
    · rw [hnot] at hdraws
      cases hdraws
    · exact hx
  exact ⟨fun v hv => hissued ▸ h.base v hv,
    fun v x hx hdraws => hissued ▸ h.drawn v x (hmem v x hx hdraws) hdraws,
    fun v x hx y hy hdraws hdraws' =>
      h.once v x (hmem v x hx hdraws) y (hmem v y hy hdraws') hdraws hdraws'⟩

/-- In every run what is drawn was not issued before, and by one request only. -/
theorem issuedInv_of_run {w₀ : World d} {P : Pool (World d) Request (@Res d) Response}
    (hP : srv.Run w₀ P) : IssuedInv w₀ P.shared P.trace := by
  refine Reachable.invariant_of_exec (I := IssuedInv w₀) ⟨fun _ h => h, by simp, by simp⟩ ?_ ?_ hP
  · rintro w tr ⟨t, r, op, res⟩ w' h hans
    cases op with
    | randomToken n =>
      obtain ⟨hnew, rfl⟩ := hans
      exact h.draw t n r hnew
    | _ => exact h.other (hans.kept.issued (by rintro _ ⟨⟩)) fun _ => rfl
  · rintro w tr w' h henv
    exact ⟨fun v hv => henv.issued_eq ▸ h.base v hv,
      fun v e he hdraws => henv.issued_eq ▸ h.drawn v e he hdraws, h.once⟩

/-- A callback has put a state of this session. -/
def CreatedBy (srv : Server d) (e : Entry Request (@Res d)) (s₀ : d.Session) : Prop :=
  e.event.op = .sessionPut s₀ ∧ dispatch srv.cfg e.job = .handler .callback

/-- The session was there at the start, or a callback has created it. -/
def Origin (srv : Server d) (w₀ : World d) (tr : Trace d) (s : d.Session) : Prop :=
  (∃ s₀, w₀.sessions.find (d.id s) = some s₀ ∧ SameIdentity s s₀) ∨
    ∃ e ∈ tr, ∃ s₀, CreatedBy srv e s₀ ∧ SameIdentity s s₀

/-- The id was in use at the start, or a callback has created a session with it. -/
def Known (srv : Server d) (w₀ : World d) (tr : Trace d) (id : Bytes) : Prop :=
  w₀.sessions.row id ≠ .absent ∨ ∃ e ∈ tr, ∃ s₀, CreatedBy srv e s₀ ∧ d.id s₀ = id

/-- Every row in use, and every session found, comes from the start or from a callback. -/
structure RowsInv (srv : Server d) (w₀ w : World d) (tr : Trace d) : Prop where
  row : ∀ id, w.sessions.row id ≠ .absent → Known srv w₀ tr id
  live : ∀ id s, w.sessions.find id = some s → Origin srv w₀ tr s
  found : ∀ e ∈ tr, ∀ id s, e.event = Bff.found id s → d.id s = id ∧ Origin srv w₀ tr s

section Rows

variable {w₀ w w' : World d} {tr : Trace d} {e : Entry Request (@Res d)}

/-- A session that is found has a row. -/
theorem SessionStore.row_ne_absent_of_find {st : SessionStore d} {id : Bytes} {s : d.Session}
    (h : st.find id = some s) : st.row id ≠ .absent := by
  intro habsent
  rw [SessionStore.find, habsent] at h
  cases h

theorem Origin.mono {tr' : Trace d} {s : d.Session} (h : Origin srv w₀ tr s)
    (hsub : ∀ x ∈ tr, x ∈ tr') : Origin srv w₀ tr' s := by
  rcases h with h | ⟨e', he', h⟩
  · exact .inl h
  · exact .inr ⟨e', hsub e' he', h⟩

theorem Origin.cons {s : d.Session} (h : Origin srv w₀ tr s) : Origin srv w₀ (e :: tr) s :=
  h.mono fun _ => List.mem_cons_of_mem _

theorem Known.cons {id : Bytes} (h : Known srv w₀ tr id) : Known srv w₀ (e :: tr) id := by
  rcases h with h | ⟨e', he', h⟩
  · exact .inl h
  · exact .inr ⟨e', List.mem_cons_of_mem _ he', h⟩

theorem Origin.of_same {s s' : d.Session} (h : Origin srv w₀ tr s) (hsame : SameIdentity s' s) :
    Origin srv w₀ tr s' := by
  rcases h with ⟨s₀, hfind, h⟩ | ⟨e, he, s₀, hby, h⟩
  · exact .inl ⟨s₀, hsame.id ▸ hfind, hsame.trans h⟩
  · exact .inr ⟨e, he, s₀, hby, hsame.trans h⟩

/-- A session with an origin has an id in use. -/
theorem Origin.known {s : d.Session} (h : Origin srv w₀ tr s) : Known srv w₀ tr (d.id s) := by
  rcases h with ⟨s₀, hfind, -⟩ | ⟨e, he, s₀, hby, h⟩
  · exact .inl (SessionStore.row_ne_absent_of_find hfind)
  · exact .inr ⟨e, he, s₀, hby, h.id.symm⟩

/-- What each thread has read is honest. -/
theorem RowsInv.honest (h : RowsInv srv w₀ w tr) (t : ℕ) : Honest (history t tr) := by
  intro id s hmem
  obtain ⟨e, he, -, hev⟩ := mem_history.mp hmem
  exact (h.found e he id s hev).1

/-- What a thread has read comes from the start or from a callback. -/
theorem RowsInv.origin_of_readBack (h : RowsInv srv w₀ w tr) {t : ℕ} {s : d.Session}
    (hread : ReadBack (history t tr) s) : Origin srv w₀ tr s := by
  obtain ⟨s', hmem, hsame⟩ := hread
  obtain ⟨e, he, -, hev⟩ := mem_history.mp hmem
  exact (h.found e he _ s' hev).2.of_same hsame

/-- An operation that leaves the rows alone and finds no session. -/
theorem RowsInv.other (h : RowsInv srv w₀ w tr) (hrows : w'.sessions = w.sessions)
    (hnot : ∀ id s, e.event ≠ Bff.found id s) : RowsInv srv w₀ w' (e :: tr) where
  row id hrow := (h.row id (hrows ▸ hrow)).cons
  live id s hfind := (h.live id s (hrows ▸ hfind)).cons
  found x hx id s hev := by
    rcases List.mem_cons.mp hx with rfl | hx
    · exact absurd hev (hnot id s)
    · obtain ⟨hid, horigin⟩ := h.found x hx id s hev
      exact ⟨hid, horigin.cons⟩

/-- A `Get` finds what is there. -/
theorem RowsInv.get {cfg : Config} {t : ℕ} {r : Request} {id : Bytes}
    {res : Stmt (Option d.Session)} (h : RowsInv srv w₀ w tr)
    (hans : Answers cfg w (.sessionGet id) res w') :
    RowsInv srv w₀ w' (⟨t, r, ⟨.sessionGet id, res⟩⟩ :: tr) := by
  rcases res with (_ | s) | _
  · obtain ⟨-, rfl⟩ := hans
    exact h.other rfl (by rintro _ _ ⟨⟩)
  · obtain ⟨hget, rfl⟩ := hans
    have hfind := World.find_of_get hget.symm
    refine ⟨fun k hk => (h.row k hk).cons, fun k s' hk => (h.live k s' hk).cons,
      fun x hx k s' hev => ?_⟩
    rcases List.mem_cons.mp hx with rfl | hx
    · cases hev
      exact ⟨SessionStore.id_of_find hfind, (h.live id s hfind).cons⟩
    · obtain ⟨hid, horigin⟩ := h.found x hx k s' hev
      exact ⟨hid, horigin.cons⟩
  · obtain rfl : w' = w.countError := hans
    exact h.other rfl (by rintro _ _ ⟨⟩)

/-- A session of known origin is put. -/
theorem RowsInv.put {cfg : Config} {t : ℕ} {r : Request} {s : d.Session} {res : Stmt Unit}
    (h : RowsInv srv w₀ w tr) (hans : Answers cfg w (.sessionPut s) res w')
    (horigin : Origin srv w₀ (⟨t, r, ⟨.sessionPut s, res⟩⟩ :: tr) s) :
    RowsInv srv w₀ w' (⟨t, r, ⟨.sessionPut s, res⟩⟩ :: tr) := by
  cases res with
  | failed =>
    obtain rfl : w' = w.countError := hans
    exact h.other rfl (by rintro _ _ ⟨⟩)
  | done a =>
    obtain rfl : w' = _ := hans
    refine ⟨fun k hk => ?_, fun k s' hk => ?_, fun x hx k s' hev => ?_⟩
    · by_cases hks : k = d.id s
      · rw [hks]
        exact horigin.known
      · rw [SessionStore.row_put_of_ne hks] at hk
        exact (h.row k hk).cons
    · by_cases hks : k = d.id s
      · -- the row holds what was put, or it is a tombstone
        subst hks
        by_cases htomb : ∃ since, w.sessions.row (d.id s) = .tombstone since
        · obtain ⟨since, htomb⟩ := htomb
          rw [SessionStore.put_of_tombstone htomb] at hk
          exact (h.live _ s' hk).cons
        · have hself := SessionStore.row_put_self fun since hrow => htomb ⟨since, hrow⟩
          rw [SessionStore.find, hself] at hk
          cases hk
          exact horigin
      · rw [SessionStore.find_put_of_ne hks] at hk
        exact (h.live k s' hk).cons
    · rcases List.mem_cons.mp hx with rfl | hx
      · cases hev
      · obtain ⟨hid, ho⟩ := h.found x hx k s' hev
        exact ⟨hid, ho.cons⟩

/-- A known row is deleted. -/
theorem RowsInv.delete {cfg : Config} {t : ℕ} {r : Request} {id : Bytes} {res : Stmt Unit}
    (h : RowsInv srv w₀ w tr) (hans : Answers cfg w (.sessionDelete id) res w')
    (hknown : Known srv w₀ tr id) :
    RowsInv srv w₀ w' (⟨t, r, ⟨.sessionDelete id, res⟩⟩ :: tr) := by
  cases res with
  | failed =>
    obtain rfl : w' = w.countError := hans
    exact h.other rfl (by rintro _ _ ⟨⟩)
  | done a =>
    obtain rfl : w' = _ := hans
    have hne : ∀ k, k ≠ id → (w.sessions.delete id w.clock).row k = w.sessions.row k :=
      fun k hk => Function.update_of_ne hk ..
    refine ⟨fun k hk => ?_, fun k s' hk => ?_, fun x hx k s' hev => ?_⟩
    · by_cases hkid : k = id
      · rw [hkid]
        exact hknown.cons
      · exact (h.row k (hne k hkid ▸ hk)).cons
    · by_cases hkid : k = id
      · subst hkid
        rw [SessionStore.find_delete_self] at hk
        cases hk
      · rw [SessionStore.find, hne k hkid] at hk
        exact (h.live k s' hk).cons
    · rcases List.mem_cons.mp hx with rfl | hx
      · cases hev
      · obtain ⟨hid, ho⟩ := h.found x hx k s' hev
        exact ⟨hid, ho.cons⟩

/-- The sweeper only makes rows absent. -/
theorem RowsInv.sweep {cfg : Config} {res : Stmt Unit} (h : RowsInv srv w₀ w tr)
    (hans : Answers cfg w .sessionSweep res w') : RowsInv srv w₀ w' tr := by
  cases res with
  | failed =>
    obtain rfl : w' = w.countError := hans
    exact ⟨h.row, h.live, h.found⟩
  | done a =>
    obtain rfl : w' = w.sweepSessions cfg := hans
    have hrow : ∀ id, (w.sweepSessions cfg).sessions.row id = .absent ∨
        (w.sweepSessions cfg).sessions.row id = w.sessions.row id := by
      intro id
      unfold World.sweepSessions SessionStore.sweep
      dsimp only
      split
      · exact .inl rfl
      · rename_i s hs
        split
        · exact .inl rfl
        · exact .inr hs.symm
      · rename_i since hs
        split
        · exact .inl rfl
        · exact .inr hs.symm
    refine ⟨fun id hid => ?_, fun id s hfind => ?_, h.found⟩
    · rcases hrow id with habsent | heq
      · exact absurd habsent hid
      · exact h.row id (heq ▸ hid)
    · rcases hrow id with habsent | heq
      · exact absurd habsent (SessionStore.row_ne_absent_of_find hfind)
      · rw [SessionStore.find, heq] at hfind
        exact h.live id s hfind

/-- The sweeper and the clock keep the invariant of the rows. -/
theorem RowsInv.env {cfg : Config} (h : RowsInv srv w₀ w tr) (henv : Env cfg w w') :
    RowsInv srv w₀ w' tr := by
  cases henv with
  | sweepSessions res hsweep => exact h.sweep hsweep
  | ambient henv =>
    cases henv with
    | tick => exact ⟨h.row, h.live, h.found⟩
    | sweepPending => exact ⟨h.row, h.live, h.found⟩
    | sweepLimiter b => cases b <;> exact ⟨h.row, h.live, h.found⟩

end Rows

/-- A request that is not a callback keeps to its own row. -/
theorem RowsStep.own {r : Request} {past : List (Event (@Res d))} {op : Op d}
    (h : RowsStep srv r past op) (hcb : dispatch srv.cfg r ≠ .handler .callback) :
    OwnRow r past op := by
  unfold RowsStep at h
  split at h
  · exact absurd ‹_› hcb
  · exact h

/-- An operation of a callback is one of creating a session. -/
theorem RowsStep.creates {r : Request} {past : List (Event (@Res d))} {op : Op d}
    (h : RowsStep srv r past op) (hcb : dispatch srv.cfg r = .handler .callback) :
    Creates srv r past op := by
  unfold RowsStep at h
  rwa [hcb] at h

/-- In every run each row in use, and each session found, comes from the start or from a
callback. -/
theorem rowsInv_of_run (hd : d.KeepsIdentity) (hgw : srv.gateway.Confined) {w₀ : World d}
    {P : Pool (World d) Request (@Res d) Response} (hP : srv.Run w₀ P) :
    RowsInv srv w₀ P.shared P.trace := by
  refine Reachable.invariant (handler_rows hd hgw) ?_ ?_ ?_ hP
  · refine ⟨fun id hid => .inl hid, fun id s hfind => .inl ⟨s, ?_, .refl s⟩, by simp⟩
    rwa [SessionStore.id_of_find hfind]
  · rintro w tr ⟨t, r, op, res⟩ w' h hstep hans
    dsimp only at hstep hans
    cases op with
    | sessionGet id => exact h.get hans
    | sessionPut s =>
      refine h.put hans ?_
      by_cases hcb : dispatch srv.cfg r = .handler .callback
      · exact .inr ⟨_, List.mem_cons_self, s, ⟨rfl, hcb⟩, .refl s⟩
      · exact (h.origin_of_readBack ((hstep.own hcb) (h.honest t)).2).cons
    | sessionDelete id =>
      refine h.delete hans ?_
      by_cases hcb : dispatch srv.cfg r = .handler .callback
      · exact (hstep.creates hcb).elim
      · obtain ⟨-, s, rfl, hread⟩ := (hstep.own hcb) (h.honest t)
        exact (h.origin_of_readBack hread).known
    | sessionSweep => exact (h.sweep hans).other rfl (by rintro _ _ ⟨⟩)
    | _ =>
      exact h.other (hans.kept.sessions (by rintro _ ⟨⟩) (by rintro _ ⟨⟩) (by rintro ⟨⟩))
        (by rintro _ _ ⟨⟩)
  · exact fun w tr w' h henv => h.env henv

end Bff
