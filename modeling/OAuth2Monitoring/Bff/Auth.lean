import OAuth2Monitoring.Bff.OAuth

/-!
# The `/bff` endpoints

Each handler is the program its source function runs, one operation after the other.
-/

namespace Bff

open GoStd Interleaving Interleaving.Prog

/-- The BFF's handlers are configured once. -/
structure Server (d : Deps) where
  cfg : Config
  gateway : Gateway d

namespace Server

variable {d : Deps} (srv : Server d) (ctx : Attribution) (r : Request)

/-! ## Shared steps -/

/-- The answer to a request over its budget. -/
def tooManyRequests (retry : ℤ) : Response :=
  (writeError "rate_limited" 429).withHeader "Retry-After" (toString (max 1 (retry / second)))

/-- Enforce a budget against the request's client address; the answer is the 429, if any. -/
def rateLimited (d : Deps) (b : Budget) (r : Request) : Prog (@Res d) (Option Response) := do
  match ← allow b (clientIP d r) with
  | none => pure none
  | some retry => pure (some (tooManyRequests retry))

/-- `Gateway.SessionFromRequest`: look the cookie's session up in the store. -/
def sessionFromRequest : Prog (@Res d) (Option d.Session) :=
  match d.sessionCookie r with
  | none => pure none
  | some id => do pure ((← storeGet id).answer none)

/-- Persist a change to an existing session. -/
def writeBack (sess : d.Session) : Prog (@Res d) Unit := do
  let _ ← storePut sess
  pure ()

/-- The session of the request's cookie, its idle window slid. -/
def currentSession : Prog (@Res d) (Option d.Session) := do
  match ← sessionFromRequest r with
  | none => pure none
  | some sess => do
    let now ← timeNow
    let sess := d.touch sess now
    writeBack sess
    pure (some sess)

/-- Whether a session was deleted for all that is known: no statement failed meanwhile. -/
def deleteSession (id : Bytes) : Prog (@Res d) Bool := do
  let before ← sessionErrorsLoad
  let _ ← storeDelete id
  let after ← sessionErrorsLoad
  pure (before = after)

/-- The CSRF token of a request. -/
def csrfHeader (r : Request) : Bytes := r.header.get (ascii "X-CSRF-Token")

/-! ## Login -/

/-- `GET /bff/login`: store state and verifier, bind them to this browser, and send it to the
authorize endpoint. -/
def handleLogin : Handler d := do
  match ← rateLimited d .login r with
  | some resp => pure resp
  | none => do
    let state ← randomToken 32
    let verifier ← randomToken 32
    -- `LoginBinding.Begin` draws the nonce and sets it as a cookie
    let nonce ← randomToken 32
    let created ← timeNow
    let stored ← pendingPut state
      { verifier := verifier
        returnTo := d.sanitizeReturnTo ((parseQuery r.url.rawQuery).get (ascii "return_to"))
        nonce := nonce
        created := created }
    -- a full store or one that is unreachable: the callback could only be refused
    let resp := if stored then
        httpRedirect r (authorizeURL srv.cfg state (d.s256Challenge verifier)) 302
      else
        ((httpError (ascii "sign-in is temporarily unavailable, please try again in a minute")
          503).withHeader "Cache-Control" "no-store").withHeader "Retry-After" "60"
    pure (resp.withCookie (.login nonce))

/-- The end of a callback whose code was exchanged: create the session and set its cookie. -/
def openSession (ls : PendingLogin) (tr : TokenResponse) : Handler d := do
  let now ← timeNow
  let id ← randomToken 32
  let csrf ← randomToken 32
  let ts : TokenSet :=
    { accessToken := tr.accessToken, refreshToken := tr.refreshToken, idToken := tr.idToken,
      expiresIn := tr.expiresIn }
  let sess := d.newSession id csrf ts (userFromToken d srv.cfg.clientID tr) now
  -- `Put` reports no error: a failed one is counted, and the cookie is set all the same
  let _ ← storePut sess
  pure (((httpRedirect r ls.returnTo 302).withCookie .clearLogin).withCookie
    (.session (d.id sess)))

/-- `GET /bff/callback`: take the pending login of the state, exchange the code, create the
session. -/
def handleCallback : Handler d :=
  let q := parseQuery r.url.rawQuery
  let failure := q.get (ascii "error")
  if failure ≠ [] then pure (httpError (ascii "login failed: " ++ failure) 400)
  else do
    let code := q.get (ascii "code")
    -- single-use: the login is taken even if the rest of the request is refused
    match ← pendingTake (q.get (ascii "state")) with
    | none => pure (httpError (ascii "invalid or expired login state") 400)
    | some ls =>
      if code = [] then pure (httpError (ascii "invalid or expired login state") 400)
      else if d.verifyBinding r ls.nonce = false then
        -- `LoginBinding.Verify` clears the cookie either way
        pure ((httpError (ascii "login was not started by this browser") 400).withCookie
          .clearLogin)
      else do
        match ← exchange srv.cfg ctx code ls.verifier with
        | .error _ => pure ((httpError (ascii "token exchange failed") 502).withCookie .clearLogin)
        | .ok tr => openSession srv r ls tr

/-! ## Session and logout -/

/-- `GET /bff/session`: who am I, and the CSRF token. -/
def handleSession : Handler d := do
  let resp ← (do
    match ← currentSession r with
    | none => pure (writeJSON [(ascii "authenticated", .flag false)] 200)
    | some sess =>
      pure (writeJSON [(ascii "authenticated", .flag true), (ascii "user", .user (d.user sess)),
        (ascii "csrf", .text (d.csrf sess))] 200))
  pure (resp.withHeader "Cache-Control" "no-store")

/-- Revoke the session's refresh and access tokens at the issuer; failures are swallowed. -/
def revokeSessionTokens (sess : d.Session) : Prog (@Res d) Unit := do
  let _ ← revoke srv.cfg ctx (d.refreshToken sess) "refresh_token"
  let _ ← revoke srv.cfg ctx (d.accessToken sess) "access_token"
  pure ()

/-- The answer to a logout that is done, or that had nothing to do. -/
def loggedOut : Response :=
  (Response.withHeader { status := 204 } "Cache-Control" "no-store").withCookie .clearSession

/-- The answer to a logout whose delete may have failed. -/
def logoutIncomplete : Response :=
  ((writeError "logout_incomplete" 500).withHeader "Cache-Control" "no-store").withCookie
    .clearSession

/-- `POST /bff/logout`: revoke the tokens, destroy the session, clear the cookie. -/
def handleLogout : Handler d := do
  match ← currentSession r with
  -- nothing is known to be there, and nothing is deleted
  | none => pure loggedOut
  | some sess =>
    if d.matchCSRF sess (csrfHeader r) = false then
      pure ((writeError "invalid_csrf" 403).withHeader "Cache-Control" "no-store")
    else do
      revokeSessionTokens srv ctx sess
      if ← deleteSession (d.id sess) then pure loggedOut else pure logoutIncomplete

/-! ## Step-up -/

/-- The step-up call: the browser's body, with the session's current access token. -/
def elevateCall (sess : d.Session) : Call where
  endpoint := trimRight srv.cfg.adminUpstream slash ++ ascii "/api/admin/elevate"
  header := d.applyClientAttribution ctx
    ((Header.empty.set (ascii "Authorization") (ascii "Bearer " ++ d.accessToken sess)).set
      (ascii "Content-Type") (ascii "application/json"))
  body := r.body.take 4096

/-- The answer to a step-up that failed upstream. -/
def elevationFailed (status : ℕ) : Response :=
  (writeError "elevation_failed" status).withHeader "Cache-Control" "no-store"

/-- What is made of the upstream's answer. A 4xx challenge is copied to the browser; any other
body stays here. -/
def elevateReply (sess : d.Session) : Option Answer → Handler d
  | none => pure (elevationFailed 502)
  | some resp =>
    let rb := resp.body.take readLimit
    if resp.status ≠ 200 then
      if 400 ≤ resp.status ∧ resp.status < 500 then
        pure <| (Response.withHeader
          { status := resp.status, body := .upstream { resp with body := rb } }
          "Content-Type" "application/json").withHeader "Cache-Control" "no-store"
      else pure (elevationFailed 502)
    else
      match d.unmarshalElevate rb with
      | none => pure (elevationFailed 502)
      | some lr =>
        if lr.accessToken = [] ∨ lr.expiresIn ≤ 0 then pure (elevationFailed 502)
        else do
          let now ← timeNow
          writeBack (d.setTokens sess
            { accessToken := lr.accessToken, refreshToken := lr.refreshToken,
              idToken := lr.idToken, expiresIn := lr.expiresIn } now)
          pure (Response.withHeader { status := 204 } "Cache-Control" "no-store")

/-- The step-up of a session whose access token is fresh. -/
def elevateUpstream (sess : d.Session) : Handler d :=
  let c := elevateCall srv ctx r sess
  if d.validURL c.endpoint then do
    let resp ← post .admin c
    elevateReply sess resp
  else pure (elevationFailed 500)

/-- `POST /bff/elevate`: forward the password to Socrate and keep the fresh token in the
session. -/
def handleElevate : Handler d := do
  match ← rateLimited d .elevate r with
  | some resp => pure resp
  | none => do
    match ← currentSession r with
    | none => pure (writeError "unauthenticated" 401)
    | some sess =>
      if d.matchCSRF sess (csrfHeader r) = false then pure (writeError "invalid_csrf" 403)
      else do
        match ← srv.gateway.ensureFresh (tokenRefresherAdapter srv.cfg ctx) sess with
        | .fresh sess => elevateUpstream srv ctx r sess
        | .fatal => do
          -- the issuer has rejected the refresh token, so the session is over
          let _ ← storeDelete (d.id sess)
          pure
            (((writeError "session expired" 401).withHeader "Cache-Control" "no-store").withCookie
              .clearSession)
        | .transient =>
          pure ((writeError "token_refresh_unavailable" 502).withHeader "Cache-Control" "no-store")

end Server

end Bff
