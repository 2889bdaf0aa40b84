import OAuth2Monitoring.Bff.Logout
import OAuth2Monitoring.Bff.Provenance

/-!
# One cookie, one identity

A session cookie stands for one user and one CSRF token for as long as anything is found under it,
over any number of touches, refreshes and step-ups, and over a restart: two sessions with one id go
back to the same creation. So a browser is told the same whenever it asks, and the token it was told
is never refused by a logout or a step-up.

## Main results

* `sameIdentity_of_origin`: sessions of one id are states of one session.
* `oneIdentity_of_run`: what holds of the answers to one cookie.
-/

namespace Bff

open GoStd Interleaving Interleaving.Prog

variable {d : Deps} {srv : Server d}

/-! ## Sessions of one id -/

theorem SameIdentity.symm {s s' : d.Session} (h : SameIdentity s s') : SameIdentity s' s :=
  ⟨h.id.symm, h.csrf.symm, h.user.symm⟩

section Runs

variable {w₀ : World d} {P : Pool (World d) Request (@Res d) Response}

/-- Two creations with one id are one. -/
theorem eq_of_createdBy (hlaw : d.Lawful) (hgwl : srv.gateway.Lawful) (hd : d.KeepsIdentity)
    (hgw : srv.gateway.Confined) (hids : ∀ id, w₀.sessions.row id ≠ .absent → id ∈ w₀.issued)
    (hP : srv.Run w₀ P) {e e' : Entry Request (@Res d)} {s s' : d.Session} (he : e ∈ P.trace)
    (he' : e' ∈ P.trace) (hby : CreatedBy srv e s) (hby' : CreatedBy srv e' s')
    (hid : d.id s = d.id s') : s = s' := by
  obtain ⟨newer, older, htr⟩ := List.append_of_mem he
  have hfresh := not_known_of_createdBy hlaw hgwl hd hgw hids hP htr hby
  rw [htr] at he'
  rcases List.mem_append.mp he' with hnewer | hrest
  · -- the other one is later, and its id is not in use either
    obtain ⟨n, o, hnew⟩ := List.append_of_mem hnewer
    have htr' : P.trace = n ++ e' :: (o ++ e :: older) := by rw [htr, hnew, List.append_assoc]; rfl
    refine absurd ?_ (not_known_of_createdBy hlaw hgwl hd hgw hids hP htr' hby')
    exact .inr ⟨e, by simp, s, hby, hid⟩
  · rcases List.mem_cons.mp hrest with rfl | holder
    · have hput := hby.1.symm.trans hby'.1
      cases hput
      rfl
    · exact absurd (.inr ⟨e', holder, s', hby', hid.symm⟩) hfresh

/-- Sessions of one id are states of one session. -/
theorem sameIdentity_of_origin (hlaw : d.Lawful) (hgwl : srv.gateway.Lawful) (hd : d.KeepsIdentity)
    (hgw : srv.gateway.Confined) (hids : ∀ id, w₀.sessions.row id ≠ .absent → id ∈ w₀.issued)
    (hP : srv.Run w₀ P) {s s' : d.Session} (h : Origin srv w₀ P.trace s)
    (h' : Origin srv w₀ P.trace s') (hid : d.id s = d.id s') : SameIdentity s s' := by
  -- an id of the start is not drawn again
  have hstart : ∀ {e : Entry Request (@Res d)} {s₀ s₁ : d.Session}, e ∈ P.trace →
      CreatedBy srv e s₁ → w₀.sessions.find (d.id s₁) = some s₀ → False := by
    intro e s₀ s₁ he hby hfind
    obtain ⟨newer, older, htr⟩ := List.append_of_mem he
    exact not_known_of_createdBy hlaw hgwl hd hgw hids hP htr hby
      (.inl (SessionStore.row_ne_absent_of_find hfind))
  rcases h with ⟨s₀, hfind, hsame⟩ | ⟨e, he, s₀, hby, hsame⟩ <;>
    rcases h' with ⟨s₁, hfind', hsame'⟩ | ⟨e', he', s₁, hby', hsame'⟩
  · rw [hid, hfind'] at hfind
    cases hfind
    exact hsame.trans hsame'.symm
  · exact (hstart he' hby' (by rwa [← hsame'.id, ← hid])).elim
  · exact (hstart he hby (by rwa [← hsame.id, hid])).elim
  · have heq := eq_of_createdBy hlaw hgwl hd hgw hids hP he he' hby hby'
      (hsame.id.symm.trans (hid.trans hsame'.id))
    exact hsame.trans (heq ▸ hsame'.symm)

/-- What a thread has read comes from the start or from a callback. -/
theorem OwnSession.origin (hd : d.KeepsIdentity) (hgw : srv.gateway.Confined) (hP : srv.Run w₀ P)
    {r : Request} {t : ℕ} {s : d.Session} (h : OwnSession r (history t P.trace) s) :
    d.sessionCookie r = some (d.id s) ∧ Origin srv w₀ P.trace s := by
  have hinv := rowsInv_of_run hd hgw hP
  obtain ⟨hcookie, hread⟩ := h (hinv.honest t)
  exact ⟨hcookie, hinv.origin_of_readBack hread⟩

end Runs

/-! ## The refusal of a token -/

/-- The body that refuses a CSRF token. -/
def csrfRefused : Body := (writeError "invalid_csrf" 403).body

/-- A refusal was given for a token that does not match the session of the cookie. -/
def RefusedRightly (r : Request) (past : List (Event (@Res d))) (resp : Response) : Prop :=
  resp.body = csrfRefused →
    ∃ s, OwnSession r past s ∧ d.matchCSRF s (Server.csrfHeader r) = false

section Handlers

variable {r : Request} {ctx : Attribution} {past : List (Event (@Res d))}

/-- Another error is no refusal. -/
theorem error_ne_csrfRefused {error : Bytes} (h : error ≠ ascii "invalid_csrf") :
    Body.json [(ascii "error", .text error)] ≠ csrfRefused := by
  intro heq
  simp only [writeError, writeJSON, csrfRefused, Response.withHeader, Body.json.injEq,
    List.cons.injEq, Prod.mk.injEq, Field.text.injEq, true_and, and_true] at heq
  exact h heq

/-- A program none of whose answers is a refusal. -/
theorem refusedRightly_of_ne {p : Handler d} {Φ : List (Event (@Res d)) → Op d → Prop}
    (hp : p.Sat Φ (fun _ resp => resp.body ≠ csrfRefused) past) :
    p.Sat Φ (fun past' resp => RefusedRightly r past' resp) past :=
  hp.mono (fun _ _ h => h) fun _ _ hne heq => absurd heq hne

/-- The end of a step-up refuses no CSRF token. -/
theorem elevateReply_refuses {s : d.Session} (a : Option Answer) :
    (Server.elevateReply s a).Sat (fun _ _ => True) (fun _ resp => resp.body ≠ csrfRefused)
      past := by
  have hfailed : ∀ status, (Server.elevationFailed status).body ≠ csrfRefused := fun status =>
    error_ne_csrfRefused (by decide)
  cases a with
  | none => exact hfailed _
  | some resp =>
    unfold Server.elevateReply
    dsimp only
    split
    · split
      · -- the challenge is the upstream's own answer
        nofun
      · exact hfailed _
    · split
      · exact hfailed _
      · split
        · exact hfailed _
        · exact ⟨trivial, fun now => ⟨trivial, fun _ => nofun⟩⟩

/-- A step-up refuses a token only when it is not that of the session. -/
theorem handleElevate_refuses (hd : d.KeepsIdentity) :
    (srv.handleElevate ctx r).Sat (fun _ _ => True) (RefusedRightly r) past := by
  refine Sat.bind ((Server.rateLimited_sat trivial).mono (fun _ _ h => h) ?_)
  rintro _ _ ⟨limited, rfl, rfl⟩
  cases limited with
  | some retry => exact fun h => absurd h (error_ne_csrfRefused (by decide))
  | none =>
    refine Sat.bind ((currentSession_rows hd).mono (fun _ _ _ => trivial)
      fun past' sess hsess => ?_)
    cases sess with
    | none => exact fun h => absurd h (error_ne_csrfRefused (by decide))
    | some s =>
      dsimp only
      split
      · exact fun _ => ⟨s, hsess s rfl, ‹_›⟩
      · -- past the check there is no refusal any more
        refine refusedRightly_of_ne (Sat.bind (sat_true _ _ |>.mono (fun _ _ _ => trivial) ?_))
        intro _ f _
        cases f with
        | fresh s' =>
          dsimp only [Server.elevateUpstream]
          split
          · exact ⟨trivial, fun a => elevateReply_refuses a⟩
          · exact error_ne_csrfRefused (by decide)
        | fatal => exact ⟨trivial, fun _ => error_ne_csrfRefused (by decide)⟩
        | transient => exact error_ne_csrfRefused (by decide)

/-- So does a logout. -/
theorem handleLogout_refuses (hd : d.KeepsIdentity) :
    (srv.handleLogout ctx r).Sat (fun _ _ => True) (RefusedRightly r) past := by
  refine Sat.bind ((currentSession_rows hd).mono (fun _ _ _ => trivial) fun past' sess hsess => ?_)
  cases sess with
  | none => exact fun h => absurd h (by nofun)
  | some s =>
    dsimp only
    split
    · exact fun _ => ⟨s, hsess s rfl, ‹_›⟩
    · refine refusedRightly_of_ne (Sat.bind (sat_true _ _ |>.mono (fun _ _ _ => trivial) ?_))
      refine fun _ _ _ => Sat.bind ⟨trivial, fun before => ⟨trivial, fun _ => ⟨trivial, ?_⟩⟩⟩
      intro after
      show Sat _ _ (if _ then _ else _) _
      split
      · nofun
      · exact error_ne_csrfRefused (by decide)

end Handlers

/-- The request is one that presents a CSRF token to the BFF itself. -/
def PresentsToken (srv : Server d) (r : Request) : Prop :=
  dispatch srv.cfg r = .handler .logout ∨ dispatch srv.cfg r = .handler .elevate

/-- Logouts and step-ups refuse no token that matches the session of the cookie. -/
theorem handler_refuses (hd : d.KeepsIdentity) (r : Request) :
    (srv.handler r).Sat (fun _ _ => True)
      (fun past resp => PresentsToken srv r → RefusedRightly r past resp) [] := by
  by_cases hr : PresentsToken srv r
  · rcases hr with hr | hr <;> rw [Server.handler_of_dispatch hr]
    · exact (handleLogout_refuses hd).mono (fun _ _ h => h) fun _ _ h _ => h
    · exact (handleElevate_refuses hd).mono (fun _ _ h => h) fun _ _ h _ => h
  · exact (sat_true _ _).mono (fun _ _ h => h) fun _ _ _ h => absurd h hr

/-! ## Runs -/

/-- Somebody with the session cookie was told the user and the CSRF token by `/bff/session`. -/
def Told (srv : Server d) (P : Pool (World d) Request (@Res d) Response) (cookie : Bytes)
    (u : UserInfo) (csrf : Bytes) : Prop :=
  ∃ (t : ℕ) (r : Request) (resp : Response), P.threads[t]? = some ⟨r, .ret resp⟩ ∧
    dispatch srv.cfg r = .handler .session ∧ d.sessionCookie r = some cookie ∧
    resp.body = authenticated u csrf

/-- What holds of the answers to one cookie. -/
structure OneIdentity (srv : Server d) (P : Pool (World d) Request (@Res d) Response) : Prop where
  /-- Everybody with the cookie is told the same. -/
  told : ∀ cookie u u' csrf csrf', Told srv P cookie u csrf → Told srv P cookie u' csrf' →
    u = u' ∧ csrf = csrf'
  /-- A logout or a step-up that presents what the cookie was told is not refused for it. -/
  accepted : ∀ cookie u csrf, Told srv P cookie u csrf → csrf ≠ [] →
    ∀ (t : ℕ) (r : Request) (resp : Response), P.threads[t]? = some ⟨r, .ret resp⟩ →
      PresentsToken srv r → d.sessionCookie r = some cookie → Server.csrfHeader r = csrf →
      resp.body ≠ csrfRefused

section Runs

variable {w₀ : World d} {P : Pool (World d) Request (@Res d) Response}

/-- What was told is a session of the run. -/
theorem Told.origin (hlaw : d.Lawful) (hgwl : srv.gateway.Lawful) (hd : d.KeepsIdentity)
    (hgw : srv.gateway.Confined) (hP : srv.Run w₀ P) {cookie csrf : Bytes} {u : UserInfo}
    (h : Told srv P cookie u csrf) :
    ∃ s, d.id s = cookie ∧ d.user s = u ∧ d.csrf s = csrf ∧ Origin srv w₀ P.trace s := by
  obtain ⟨t, r, resp, ht, hsession, hcookie, hbody⟩ := h
  obtain ⟨s, hown, huser, hcsrf⟩ :=
    hP.returns (handler_vouched hlaw hgwl hd) ht hsession u csrf hbody
  obtain ⟨hid, horigin⟩ := hown.origin hd hgw hP
  exact ⟨s, Option.some.inj (hid.symm.trans hcookie), huser, hcsrf, horigin⟩

/-- In every run a cookie has one identity, and its CSRF token is good as long as it lasts. -/
theorem oneIdentity_of_run (hlaw : d.Lawful) (hgwl : srv.gateway.Lawful) (hd : d.KeepsIdentity)
    (hgw : srv.gateway.Confined) (hmatch : ∀ s, d.csrf s ≠ [] → d.matchCSRF s (d.csrf s) = true)
    (hids : ∀ id, w₀.sessions.row id ≠ .absent → id ∈ w₀.issued) (hP : srv.Run w₀ P) :
    OneIdentity srv P where
  told cookie u u' csrf csrf' h h' := by
    obtain ⟨s, hid, rfl, rfl, horigin⟩ := h.origin hlaw hgwl hd hgw hP
    obtain ⟨s', hid', rfl, rfl, horigin'⟩ := h'.origin hlaw hgwl hd hgw hP
    have hsame := sameIdentity_of_origin hlaw hgwl hd hgw hids hP horigin horigin'
      (hid.trans hid'.symm)
    exact ⟨hsame.user, hsame.csrf⟩
  accepted cookie u csrf h hne t r resp ht hr hcookie hheader hbody := by
    obtain ⟨s, hid, -, rfl, horigin⟩ := h.origin hlaw hgwl hd hgw hP
    -- the session that the token was refused for
    obtain ⟨s', hown, hrefused⟩ := hP.returns (handler_refuses hd) ht hr hbody
    obtain ⟨hcookie', horigin'⟩ := hown.origin hd hgw hP
    have hid' : d.id s' = cookie := Option.some.inj (hcookie'.symm.trans hcookie)
    have hsame := sameIdentity_of_origin hlaw hgwl hd hgw hids hP horigin horigin'
      (hid.trans hid'.symm)
    rw [hheader, hsame.csrf, hmatch s' (hsame.csrf ▸ hne)] at hrefused
    cases hrefused

end Runs

/-! ## A run -/

namespace Reference

/-- The sample session's own token matches. -/
theorem matchCSRF_csrf (s : Session) (h : deps.csrf s ≠ []) :
    deps.matchCSRF s (deps.csrf s) = true := by
  simp [h]

/-- The browser asks who it is and then logs out, whatever comes of it. -/
theorem logoutTold_accepted : ∃ P resp, server.Run survivedWorld P ∧
    Told server P session.id session.user session.csrf ∧
    P.threads[1]? = some ⟨logoutRequest, .ret resp⟩ ∧ OneIdentity server P := by
  obtain ⟨l, who, w', hbody, hwho⟩ := whoRequest_run
  obtain ⟨l', resp, w'', hlogout⟩ := exists_exec (exists_answers server.cfg)
    (server.handler logoutRequest) w'
  have hP : server.Run survivedWorld _ :=
    (Reachable.start.run whoRequest hwho).run logoutRequest hlogout
  refine ⟨_, resp, hP, ⟨0, whoRequest, who, rfl, dispatch_whoRequest,
    cookie_sessionRequest "GET" "/bff/session", hbody⟩, rfl, ?_⟩
  exact oneIdentity_of_run lawful gateway_lawful keepsIdentity gateway_confined matchCSRF_csrf
    survivedWorld_issued hP

end Reference

end Bff
