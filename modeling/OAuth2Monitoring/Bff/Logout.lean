import OAuth2Monitoring.Bff.Reference

/-!
# What a logout's answer is worth

A logout runs its statements against a store in which any statement may fail. The delete is
checked: a failed one is answered 500. The lookup is not: when its `Get` fails the handler sees no
session, clears the cookie and answers 204, and the session stays.

## Main results

* `currentSession_exec`, `deleteSession_exec`: all outcomes of the two steps.
* `logout_truthful_iff`: the answer is the truth exactly when the lookup's `Get` did not fail.
-/

namespace Bff

open GoStd Interleaving Interleaving.Prog

variable {d : Deps} {cfg : Config} {srv : Server d} {ctx : Attribution} {r : Request}
  {w w' : World d} {id : Bytes} {sess : d.Session}

/-! ## The state after a statement -/

/-- What a statement leaves does not depend on the failures counted. -/
@[simp]
theorem World.get_countError : w.countError.get cfg id = w.get cfg id := rfl

theorem World.get_eq_none_of_find (h : w.sessions.find id = none) : w.get cfg id = none := by
  rw [World.get, h, Option.filter_none]

/-! ## The steps of a logout -/

/-- All outcomes of the session lookup for a cookie that names a live session: the `Get` fails, or
the session is found and its idle window slid, whether the `Put` works or not. -/
theorem currentSession_exec (hcookie : d.sessionCookie r = some id)
    (hlive : w.get cfg id = some sess) {l : List (Event (@Res d))} {found : Option d.Session}
    (hrun : Exec (Answers cfg) w (Server.currentSession r) l (.ret found) w') :
    (l = [⟨.sessionGet id, Stmt.failed⟩] ∧ found = none ∧ w' = w.countError) ∨
      ∃ put : Stmt Unit, l = [⟨.sessionGet id, .done (some sess)⟩, ⟨.now, w.clock⟩,
          ⟨.sessionPut (d.touch sess w.clock), put⟩] ∧
        found = some (d.touch sess w.clock) := by
  cases lookupRun_of_exec hrun with
  -- there is a cookie, and a live session behind it, so the lookup fails or finds it
  | noCookie hnone =>
    rw [hcookie] at hnone
    cases hnone
  | unread hid =>
    obtain rfl := Option.some.inj (hcookie.symm.trans hid)
    exact .inl ⟨rfl, rfl, rfl⟩
  | noRow hid hget =>
    obtain rfl := Option.some.inj (hcookie.symm.trans hid)
    rw [hlive] at hget
    cases hget
  | @slid _ _ put _ hid hget hput =>
    obtain rfl := Option.some.inj (hcookie.symm.trans hid)
    obtain rfl := Option.some.inj (hlive.symm.trans hget)
    exact .inr ⟨put, rfl, rfl⟩

/-- All outcomes of the checked delete: it is confirmed and the row is gone, or it is not. -/
theorem deleteSession_exec {l : List (Event (@Res d))} {clean : Bool}
    (hrun : Exec (Answers cfg) w (Server.deleteSession id) l (.ret clean) w') :
    clean = true → w'.sessions.find id = none := by
  obtain ⟨before, l₁, w₁, rfl, hbefore, hrun₁⟩ := exec_call_iff.mp hrun
  obtain ⟨rfl, rfl⟩ : before = w.sessionErrors ∧ w₁ = w := hbefore
  obtain ⟨deleted, l₂, w₂, rfl, hdelete, hrun₂⟩ := exec_call_iff.mp hrun₁
  obtain ⟨after, l₃, w₃, rfl, hafter, hrun₃⟩ := exec_call_iff.mp hrun₂
  obtain ⟨rfl, rfl⟩ : after = w₂.sessionErrors ∧ w₃ = w₂ := hafter
  obtain ⟨rfl, hclean, rfl⟩ := exec_ret_iff.mp hrun₃
  cases hclean
  cases deleted with
  | done _ =>
    obtain rfl : w' = { w₁ with sessions := w₁.sessions.delete id w₁.clock } := hdelete
    intro _
    exact SessionStore.find_delete_self ..
  | failed =>
    -- the failed statement was counted, and the counts differ by one
    obtain rfl : w' = w₁.countError := hdelete
    intro heq
    simp [World.countError] at heq

/-- A token that could not be revoked: the issuer did not answer. -/
theorem revoke_run {tok : Bytes} (hint : String) (htok : tok ≠ [])
    (hurl : d.validURL (issuerCall cfg ctx d "/oauth/revoke" []).endpoint = true) :
    Exec (Answers cfg) w (revoke cfg ctx tok hint)
      [⟨.post .issuer (issuerCall cfg ctx d "/oauth/revoke" (revokeForm cfg tok hint)), none⟩]
      (.ret (some .transport)) w := by
  unfold revoke
  rw [if_neg htok]
  refine (if_pos hurl : (if d.validURL (issuerCall cfg ctx d "/oauth/revoke" []).endpoint = true
    then _ else _) = _) ▸ ?_
  exact exec_call_iff.mpr ⟨none, _, _, rfl, rfl, .refl _ _⟩

/-- Both tokens of a session are posted, and the issuer answers neither. -/
theorem revokeSessionTokens_run (hrefresh : d.refreshToken sess ≠ [])
    (haccess : d.accessToken sess ≠ [])
    (hurl : d.validURL (issuerCall srv.cfg ctx d "/oauth/revoke" []).endpoint = true) :
    Exec (Answers srv.cfg) w (srv.revokeSessionTokens ctx sess)
      [⟨.post .issuer (issuerCall srv.cfg ctx d "/oauth/revoke"
          (revokeForm srv.cfg (d.refreshToken sess) "refresh_token")), none⟩,
        ⟨.post .issuer (issuerCall srv.cfg ctx d "/oauth/revoke"
          (revokeForm srv.cfg (d.accessToken sess) "access_token")), none⟩]
      (.ret ()) w :=
  (revoke_run "refresh_token" hrefresh hurl).bind
    ((revoke_run "access_token" haccess hurl).bind (.refl _ _))

/-- A delete that works is confirmed. -/
theorem deleteSession_run (cfg : Config) (w : World d) (id : Bytes) :
    Exec (Answers cfg) w (Server.deleteSession id)
      [⟨.sessionErrors, w.sessionErrors⟩, ⟨.sessionDelete id, Stmt.done ()⟩,
        ⟨.sessionErrors, w.sessionErrors⟩] (.ret true)
      { w with sessions := w.sessions.delete id w.clock } := by
  refine exec_call_iff.mpr ⟨w.sessionErrors, _, _, rfl, ⟨rfl, rfl⟩, ?_⟩
  refine exec_call_iff.mpr ⟨.done (), _, _, rfl, rfl, ?_⟩
  refine exec_call_iff.mpr ⟨w.sessionErrors, _, _, rfl, ⟨rfl, rfl⟩, ?_⟩
  exact exec_ret_iff.mpr ⟨rfl, congrArg ret (decide_eq_true rfl).symm, rfl⟩

/-! ## The answer -/

/-- The answer to a logout for the session of the row `id` is the truth: after a 204 the session
cannot be retrieved, and a session that can is answered with an error. -/
structure LogoutTruthful (cfg : Config) (w : World d) (id : Bytes) (resp : Response) : Prop where
  gone_of_success : resp.status = 204 → w.get cfg id = none
  error_of_live : w.get cfg id ≠ none → resp.status = 403 ∨ resp.status = 500

/-- The lookup's `Get` is among these events and failed. -/
def LookupFailed (id : Bytes) (l : List (Event (@Res d))) : Prop :=
  (⟨.sessionGet id, Stmt.failed⟩ : Event (@Res d)) ∈ l

/-- What a logout does to the session it has found. -/
def logoutFound (srv : Server d) (ctx : Attribution) (r : Request) (sess : d.Session) :
    Handler d :=
  if d.matchCSRF sess (Server.csrfHeader r) = false then
    pure ((writeError "invalid_csrf" 403).withHeader "Cache-Control" "no-store")
  else do
    srv.revokeSessionTokens ctx sess
    if ← Server.deleteSession (d.id sess) then pure Server.loggedOut
      else pure Server.logoutIncomplete

/-- The operations of a logout after the lookup. -/
def EndingOp : Op d → Prop
  | .post _ _ | .sessionErrors | .sessionDelete _ => True
  | _ => False

/-- What a logout does once the session is found. -/
theorem logoutFound_uses : (logoutFound srv ctx r sess).Uses EndingOp := by
  unfold logoutFound
  split
  · trivial
  · refine (Server.revokeSessionTokens_uses fun _ => trivial).bind fun _ => ?_
    have hdelete : (Server.deleteSession (d.id sess)).Uses (@EndingOp d) :=
      ⟨trivial, fun _ => ⟨trivial, fun _ => ⟨trivial, fun _ => trivial⟩⟩⟩
    exact hdelete.bind fun clean => by cases clean <;> trivial

/-- Once the session is found, the answer is the truth. -/
theorem logoutFound_truthful {l : List (Event (@Res d))} {resp : Response}
    (hrun : Exec (Answers cfg) w (logoutFound srv ctx r sess) l (.ret resp) w') :
    LogoutTruthful cfg w' (d.id sess) resp := by
  unfold logoutFound at hrun
  split at hrun
  · -- a forged logout claims nothing
    obtain ⟨-, hresp, -⟩ := exec_ret_iff.mp hrun
    cases hresp
    exact ⟨fun h => absurd h (by decide), fun _ => .inl rfl⟩
  · obtain ⟨_, l₁, l₂, w₁, rfl, -, hrun₁⟩ := exec_bind_iff.mp hrun
    obtain ⟨clean, l₃, l₄, w₂, rfl, hdelete, hrun₂⟩ := exec_bind_iff.mp hrun₁
    cases clean with
    | true =>
      -- the count did not move, so the delete was none of the failures
      obtain ⟨-, hresp, rfl⟩ := exec_ret_iff.mp hrun₂
      cases hresp
      have hgone : w'.get cfg (d.id sess) = none :=
        World.get_eq_none_of_find (deleteSession_exec hdelete rfl)
      exact ⟨fun _ => hgone, fun h => absurd hgone h⟩
    | false =>
      obtain ⟨-, hresp, rfl⟩ := exec_ret_iff.mp hrun₂
      cases hresp
      exact ⟨fun h => absurd h (by decide), fun _ => .inr rfl⟩

/-- The answer to a logout whose cookie names a live session is the truth exactly when the `Get`
of the session lookup did not fail, whatever the other statements did. -/
theorem logout_truthful_iff (hd : d.Lawful) (hr : dispatch srv.cfg r = .handler .logout)
    (hcookie : d.sessionCookie r = some id) (hlive : w.get srv.cfg id = some sess)
    {l : List (Event (@Res d))} {resp : Response}
    (hrun : Exec (Answers srv.cfg) w (srv.handler r) l (.ret resp) w') :
    LogoutTruthful srv.cfg w' id resp ↔ ¬LookupFailed id l := by
  have hhandler : srv.handler r = Server.currentSession r >>= fun found =>
      found.elim (pure Server.loggedOut) (logoutFound srv (Server.attribution d r) r) := by
    simp only [Server.handler, hr]
    refine congrArg (Server.currentSession r >>= ·) (funext fun found => ?_)
    cases found <;> rfl
  rw [hhandler] at hrun
  obtain ⟨found, l₁, l₂, w₁, rfl, hlookup, hrun₁⟩ := exec_bind_iff.mp hrun
  rcases currentSession_exec hcookie hlive hlookup with ⟨rfl, rfl, rfl⟩ | ⟨put, rfl, rfl⟩
  · -- the session is still there, and the answer is a success
    obtain ⟨rfl, hresp, rfl⟩ := exec_ret_iff.mp hrun₁
    cases hresp
    refine iff_of_false (fun h => ?_) (fun h => h List.mem_cons_self)
    have hgone := h.gone_of_success rfl
    rw [World.get_countError, hlive] at hgone
    cases hgone
  · have hid : d.id (d.touch sess w.clock) = id :=
      (hd.id_touch _ _).trans (SessionStore.id_of_find (World.find_of_get hlive))
    refine iff_of_true (hid ▸ logoutFound_truthful hrun₁) fun hfailed => ?_
    rcases List.mem_append.mp hfailed with hmem | hmem
    · simp at hmem
    · exact hrun₁.of_uses logoutFound_uses _ hmem

/-! ## Two runs -/

namespace Reference

/-- A logout whose statements all work, whatever comes of the revocation. -/
theorem handleLogout_run (hcookie : d.sessionCookie r = some id)
    (hlive : w.get cfg id = some sess)
    (hmatch : d.matchCSRF (d.touch sess w.clock) (Server.csrfHeader r) = true)
    {l : List (Event (@Res d))} {w₁ : World d}
    (hrevoke : Exec (Answers cfg) { w with sessions := w.sessions.put (d.touch sess w.clock) }
      (srv.revokeSessionTokens ctx (d.touch sess w.clock)) l (.ret ()) w₁) :
    Exec (Answers cfg) w (srv.handleLogout ctx r)
      ([⟨.sessionGet id, .done (some sess)⟩, ⟨.now, w.clock⟩,
          ⟨.sessionPut (d.touch sess w.clock), .done ()⟩] ++ (l ++
        [⟨.sessionErrors, w₁.sessionErrors⟩,
          ⟨.sessionDelete (d.id (d.touch sess w.clock)), Stmt.done ()⟩,
          ⟨.sessionErrors, w₁.sessionErrors⟩]))
      (.ret Server.loggedOut)
      { w₁ with sessions := w₁.sessions.delete (d.id (d.touch sess w.clock)) w₁.clock } := by
  refine Exec.bind (currentSession_run hcookie hlive) ?_
  simp only [hmatch]
  exact hrevoke.bind ((deleteSession_run ..).bind (.refl _ _))

/-- The session's browser signs out. -/
def logoutRequest : Request := sessionRequest "POST" "/bff/logout"

theorem dispatch_logoutRequest : dispatch server.cfg logoutRequest = .handler .logout := by
  decide +kernel

theorem cookie_logoutRequest : deps.sessionCookie logoutRequest = some session.id :=
  cookie_sessionRequest "POST" "/bff/logout"

/-- The post that revokes a token at the sign-out. -/
def revokeCall (tok : Bytes) (hint : String) : Call :=
  issuerCall server.cfg (Server.attribution deps logoutRequest) deps "/oauth/revoke"
    (revokeForm server.cfg tok hint)

theorem validURL_revoke : deps.validURL (issuerCall server.cfg
    (Server.attribution deps logoutRequest) deps "/oauth/revoke" []).endpoint = true := by
  decide +kernel

/-- A logout whose statements all work, while the issuer does not answer: it has posted the tokens
of its session, and deleted it. -/
theorem logoutRequest_run {w : World deps} {sess : Session}
    (hlive : w.get server.cfg session.id = some sess) (hcsrf : sess.csrf = session.csrf)
    (hrefresh : sess.tokens.refreshToken ≠ []) (haccess : sess.tokens.accessToken ≠ []) :
    ∃ l w', Exec (Answers server.cfg) w (server.handler logoutRequest) l
      (.ret Server.loggedOut) w' ∧
      ⟨.post .issuer (revokeCall sess.tokens.refreshToken "refresh_token"), none⟩ ∈ l ∧
      ⟨.sessionDelete sess.id, Stmt.done ()⟩ ∈ l := by
  rw [Server.handler_of_dispatch dispatch_logoutRequest]
  have hmatch : deps.matchCSRF (deps.touch sess w.clock) (Server.csrfHeader logoutRequest) =
      true := by
    show decide (_ ≠ [] ∧ _ = sess.csrf) = true
    rw [hcsrf]
    exact matchCSRF_sessionRequest "POST" "/bff/logout"
  have hrevoke := @revokeSessionTokens_run deps server (Server.attribution deps logoutRequest)
    { w with sessions := w.sessions.put (deps.touch sess w.clock) } (deps.touch sess w.clock)
    hrefresh haccess validURL_revoke
  refine ⟨_, _, handleLogout_run cookie_logoutRequest hlive hmatch hrevoke, ?_, ?_⟩
  · exact List.mem_append_right _ List.mem_cons_self
  · refine List.mem_append_right _ (List.mem_append_right _ ?_)
    exact List.mem_cons_of_mem _ List.mem_cons_self

/-- A logout whose statements all work: it is answered 204, and truthfully so. -/
theorem logout_truthful : ∃ l w', Exec (Answers server.cfg) world (server.handler logoutRequest) l
    (.ret Server.loggedOut) w' ∧
    (LogoutTruthful server.cfg w' session.id Server.loggedOut ↔ ¬LookupFailed session.id l) := by
  obtain ⟨l, w', hrun, -, -⟩ := logoutRequest_run world_get rfl (by decide) (by decide)
  exact ⟨l, w', hrun, logout_truthful_iff lawful dispatch_logoutRequest cookie_logoutRequest
    world_get hrun⟩

/-- A logout whose lookup fails: it is answered 204, and the session is still there. -/
theorem logout_untruthful : ∃ l w', Exec (Answers server.cfg) world (server.handler logoutRequest) l
    (.ret Server.loggedOut) w' ∧ Server.loggedOut.status = 204 ∧
    w'.get server.cfg session.id = some session ∧
    ¬LogoutTruthful server.cfg w' session.id Server.loggedOut := by
  have hlive : world.countError.get server.cfg session.id = some session := world_get
  have hrun : Exec (Answers server.cfg) world (server.handler logoutRequest)
      [⟨.sessionGet session.id, Stmt.failed⟩] (.ret Server.loggedOut) world.countError := by
    rw [Server.handler_of_dispatch dispatch_logoutRequest]
    exact exec_call_iff.mpr ⟨Stmt.failed, [], _, rfl, rfl, .refl _ _⟩
  refine ⟨_, _, hrun, rfl, hlive, fun h => ?_⟩
  rw [h.gone_of_success rfl] at hlive
  cases hlive

end Reference

end Bff
