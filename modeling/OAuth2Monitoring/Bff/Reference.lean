import OAuth2Monitoring.Bff.Footprint

/-!
# A reference instance of the packages

A small implementation of what the model leaves open, with the behaviour the packages document, to
run the server on concrete requests: sessions in plain records, cookies under the names the BFF
configures, IPv4 addresses, and a gateway that looks the session up, checks the CSRF token of
unsafe methods, and forwards with the session's bearer. Where the real functions are involved
(hashing, JSON, base64) the instance knows the few values the runs use.

## Main definitions

* `server`: the BFF with sign-in enabled, over this instance.
* `session`, `store`: a session, and a store that has it.

## Main results

* `lawful`, `gateway_lawful`: the instance keeps what the documentation promises.
* `currentSession_run`, `elevateRequest_run`: undisturbed runs of the handlers.
-/

namespace Bff.Reference

open GoStd Interleaving Interleaving.Prog

/-! ## Sessions and cookies -/

/-- A session. -/
structure Session where
  id : Bytes
  csrf : Bytes
  user : UserInfo
  tokens : TokenSet
  created : ℤ
  seen : ℤ

/-- The value of a cookie. -/
def cookie (name : String) (r : Request) : Option Bytes :=
  let pairs := ((r.header.get (ascii "Cookie")).splitOn 59).map trimString
  let key := ascii name ++ [61]
  (pairs.find? fun pair => key.isPrefixOf pair).map fun pair => pair.drop key.length

/-- A path of this site, or its root. -/
def sanitizeReturnTo (p : Bytes) : Bytes :=
  if p.head? = some slash ∧ p.tail.head? ≠ some slash ∧ p.tail.head? ≠ some 92 then p else [slash]

/-- A decimal number below 256 without leading zeros. -/
def parseOctet (s : Bytes) : Option UInt8 :=
  let n := s.foldl (fun n c => 10 * n + (c.toNat - 48)) 0
  if s ≠ [] ∧ s.length ≤ 3 ∧ s.all (fun c => 48 ≤ c ∧ c ≤ 57) ∧ (s.head? = some 48 → s = [48]) ∧
      n < 256 then some n.toUInt8
  else none

/-- An IPv4 address, in the form of 16 bytes. -/
def parseIPv4 (s : Bytes) : Option Bytes := do
  let octets ← (s.splitOn 46).mapM parseOctet
  if octets.length = 4 then pure (List.replicate 10 0 ++ [255, 255] ++ octets) else none

/-! ## Known values -/

/-- A verifier and its S256 challenge. -/
def verifier : Bytes := ascii "dBjftJeZ4CVP-mB92K27uhbUJU1p1r_wW1gFWFOEjXk"

/-- The challenge of the verifier. -/
def challenge : Bytes := ascii "E9Melhoa2OwvFrEMTJguCHaoeK1t8URWbuGJSstw-cM"

/-- The body of a token response and of a step-up reply. -/
def tokenBody : Bytes :=
  ascii "\x7b\"access_token\":\"at-1\",\"refresh_token\":\"rt-1\",\"expires_in\":300\x7d"

/-- The body of the admin API's answer to a step-up. -/
def elevateBody : Bytes :=
  ascii "\x7b\"access_token\":\"at-2\",\"refresh_token\":\"rt-1\",\"expires_in\":300\x7d"

/-! ## The instance -/

/-- The packages. -/
abbrev deps : Deps where
  Session := Session
  newSession id csrf tokens user now :=
    { id := id, csrf := csrf, user := user, tokens := tokens, created := now, seen := now }
  id := Session.id
  csrf := Session.csrf
  user := Session.user
  accessToken s := s.tokens.accessToken
  refreshToken s := s.tokens.refreshToken
  touch s now := { s with seen := now }
  setTokens s tokens _ := { s with tokens := tokens }
  matchCSRF s h := h ≠ [] ∧ h = s.csrf
  expired idle absolute s now := s.seen + idle ≤ now ∨ s.created + absolute ≤ now
  tombstoneTTL := 600 * second
  pendingLoginTTL := 600 * second
  sessionCookie := cookie "__Host-mon_session"
  loginCookie := cookie "__Host-mon_login"
  verifyBinding r nonce := cookie "__Host-mon_login" r = some nonce
  s256Challenge v := if v = verifier then challenge else []
  sanitizeReturnTo := sanitizeReturnTo
  singleHostDirector base out :=
    { out with
      path := (joinURLPath (base.path, base.rawPath) (out.path, out.rawPath)).1
      rawPath := (joinURLPath (base.path, base.rawPath) (out.path, out.rawPath)).2
      host := base.host }
  applyClientAttribution ctx h :=
    (h.set (ascii "X-Forwarded-For") ctx.ip).set (ascii "User-Agent") ctx.userAgent
  parseIP := parseIPv4
  validURL u := (ascii "http://").isPrefixOf u || (ascii "https://").isPrefixOf u
  unmarshalToken body := if body = tokenBody then
      { accessToken := ascii "at-1", refreshToken := ascii "rt-1", expiresIn := 300 }
    else {}
  unmarshalElevate body := if body = elevateBody then
      some { accessToken := ascii "at-2", refreshToken := ascii "rt-1", idToken := [],
             expiresIn := 300 }
    else none
  unmarshalObject _ := none
  rawURLDecode _ := none

/-- The attribution sets two headers only. -/
theorem attribution_keeps (ctx : Attribution) (h : Header) (key : Bytes)
    (hxff : key ≠ ascii "X-Forwarded-For") (hagent : key ≠ ascii "User-Agent") :
    deps.applyClientAttribution ctx h key = h key := by
  have hx : canonicalMIMEHeaderKey (ascii "X-Forwarded-For") = ascii "X-Forwarded-For" := by decide
  have ha : canonicalMIMEHeaderKey (ascii "User-Agent") = ascii "User-Agent" := by decide
  show ((h.set (ascii "X-Forwarded-For") ctx.ip).set (ascii "User-Agent") ctx.userAgent) key = h key
  rw [Header.set_of_ne _ _ (by rwa [ha]), Header.set_of_ne _ _ (by rwa [hx])]

/-- The sample functions behave as documented. -/
theorem lawful : deps.Lawful where
  id_newSession _ _ _ _ _ := rfl
  id_touch _ _ := rfl
  csrf_touch _ _ := rfl
  accessToken_touch _ _ := rfl
  refreshToken_touch _ _ := rfl
  id_setTokens _ _ _ := rfl
  accessToken_setTokens _ _ _ := rfl
  matchCSRF s h hm := by
    have : h ≠ [] ∧ h = s.csrf := by simpa using hm
    exact this.2
  verifyBinding r nonce h := by simpa using h
  singleHost_path _ _ := rfl
  singleHost_method _ _ := rfl
  attribution_keeps := attribution_keeps

/-- Methods that change nothing. -/
def safeMethod (m : Bytes) : Bool := m ∈ ["GET", "HEAD", "OPTIONS", "TRACE"].map ascii

/-- What the gateway answers by itself. -/
def refusal (error : String) (status : ℕ) : Verdict := .refuse (writeError error status)

/-- The request with the session's bearer, without cookies. -/
def withBearer (r : Request) (tok : Bytes) : Request :=
  let h := r.header.del (ascii "Cookie")
  { r with header := h.set (ascii "Authorization") (ascii "Bearer " ++ tok) }

/-- A gateway that finds every token fresh. -/
def gateway : Gateway deps where
  ensureFresh _ sess := .ret (.fresh sess)
  authorize passthrough _ r := do
    match ← Server.currentSession r with
    | none => pure (if passthrough then .forward r else refusal "unauthenticated" 401)
    | some sess =>
      pure <| if safeMethod r.method = false ∧
          deps.matchCSRF sess (Server.csrfHeader r) = false then
          refusal "invalid_csrf" 403
        else .forward (withBearer r (deps.accessToken sess))

theorem gateway_lawful : gateway.Lawful where
  ensureFresh_uses _ _ _ _ _ := trivial
  authorize_uses passthrough refresh r A hA _ := by
    refine (Server.currentSession_uses fun op h => hA op (by cases op <;> trivial)).bind
      fun sess => ?_
    cases sess <;> trivial
  authorize_for passthrough refresh r l v h := by
    -- the one verdict that changes the request adds the bearer token
    have hsat : (gateway.authorize passthrough refresh r).Sat (fun _ _ => True)
        (fun _ v => v.For r) [] := by
      refine Sat.bind ((sat_true _ _).mono (fun _ _ h => h) fun past sess _ => ?_)
      cases sess with
      | none =>
        show Verdict.For r (if passthrough then _ else _)
        split
        · exact ⟨rfl, rfl, rfl⟩
        · exact rfl
      | some sess =>
        show Verdict.For r (if _ then _ else _)
        split
        · exact rfl
        · exact ⟨rfl, rfl, rfl⟩
    exact h.sat hsat

/-! ## A sample server -/

/-- The defaults, with sign-in enabled. -/
def cfg : Config where
  adminUpstream := ascii "http://127.0.0.1:8081"
  adminURL := ⟨ascii "127.0.0.1:8081", [], []⟩
  oauthUpstream := ascii "http://127.0.0.1:8080"
  oauthURL := some ⟨ascii "127.0.0.1:8080", [], []⟩
  oauthPublicURL := ascii "http://localhost:8080"
  publicOrigin := ascii "http://localhost:3000"
  clientID := ascii "monitor"
  clientSecret := []
  scopes := ascii "openid profile email"
  sessionIdle := 1800 * second
  sessionAbsolute := 28800 * second
  loginRate := 10
  elevateRate := 5
  allowPassthrough := false

/-- The BFF. -/
def server : Server deps := ⟨cfg, gateway⟩

/-- A request of a browser, with these headers. -/
def request (method path query : String) (headers : List (String × String)) : Request where
  method := ascii method
  url := Url.ofPath (ascii path) (ascii query)
  host := ascii "localhost:3000"
  remoteAddr := ascii "192.0.2.7:40000"
  header := headers.foldl (fun h kv => h.set (ascii kv.1) (ascii kv.2)) Header.empty
  body := []

/-- A session. -/
def session : Session where
  id := ascii "s1"
  csrf := ascii "c1"
  user := {}
  tokens := { accessToken := ascii "at-1", refreshToken := ascii "rt-1", idToken := [],
              expiresIn := 300 }
  created := 0
  seen := 0

/-- A store that has the session. -/
def store : SessionStore deps := SessionStore.empty.put session

/-- The state a run starts in. -/
def world : World deps := World.start cfg 0 store

/-- A request of the session's browser. -/
def sessionRequest (method path : String) : Request :=
  request method path "" [("Cookie", "__Host-mon_session=s1"), ("X-CSRF-Token", "c1")]

theorem cookie_sessionRequest (method path : String) :
    cookie "__Host-mon_session" (sessionRequest method path) = some session.id :=
  (by decide +kernel : cookie "__Host-mon_session" (sessionRequest "" "") = some session.id)

theorem matchCSRF_sessionRequest (method path : String) :
    deps.matchCSRF session (Server.csrfHeader (sessionRequest method path)) = true :=
  (by decide +kernel :
    deps.matchCSRF session (Server.csrfHeader (sessionRequest "" "")) = true)

theorem world_get : world.get cfg session.id = some session := by
  rfl

/-! ## Undisturbed runs -/

section Runs

variable {d : Deps} {cfg : Config} {w : World d} {r : Request} {id : Bytes} {sess : d.Session}

/-- The session is found, and its idle window slid. -/
theorem currentSession_run (hcookie : d.sessionCookie r = some id)
    (hlive : w.get cfg id = some sess) :
    Exec (Answers cfg) w (Server.currentSession r)
      [⟨.sessionGet id, .done (some sess)⟩, ⟨.now, w.clock⟩,
        ⟨.sessionPut (d.touch sess w.clock), .done ()⟩]
      (.ret (some (d.touch sess w.clock)))
      { w with sessions := w.sessions.put (d.touch sess w.clock) } := by
  unfold Server.currentSession Server.sessionFromRequest
  rw [hcookie]
  refine exec_call_iff.mpr ⟨.done (some sess), _, _, rfl, ⟨hlive.symm, rfl⟩, ?_⟩
  refine exec_call_iff.mpr ⟨w.clock, _, _, rfl, ⟨rfl, rfl⟩, ?_⟩
  exact exec_call_iff.mpr ⟨.done (), _, _, rfl, rfl, .refl _ _⟩

/-- A request within its budget goes on. -/
theorem rateLimited_run {b : Budget} {rl : RateLimiter}
    (hallow : (w.limiter b).allow w.clock (clientIP d r) = (none, rl)) :
    Exec (Answers cfg) w (Server.rateLimited d b r) [⟨.allow b (clientIP d r), none⟩] (.ret none)
      (w.setLimiter rl b) := by
  unfold Server.rateLimited
  refine exec_call_iff.mpr ⟨none, _, _, rfl, ⟨(congrArg Prod.fst hallow).symm, rfl⟩, ?_⟩
  rw [hallow]
  exact .refl _ _

/-- A proxy forwards the request and copies the answer. -/
theorem serveProxy_run {up : Upstream} {p : ReverseProxy} {out : OutRequest}
    (hout : p.outgoing r = some out) (a : Answer) :
    Exec (Answers cfg) w (serveProxy up p r) [⟨.proxy up out, some a⟩] (.ret (copyAnswer a)) w := by
  unfold serveProxy
  rw [hout]
  exact exec_call_iff.mpr ⟨some a, _, _, rfl, rfl, .refl _ _⟩

/-- The answer to a step-up that has stored its tokens. -/
def elevated : Response := Response.withHeader { status := 204 } "Cache-Control" "no-store"

/-- The tokens of a step-up's reply. -/
def tokensOfReply (lr : ElevateReply) : TokenSet :=
  { accessToken := lr.accessToken, refreshToken := lr.refreshToken, idToken := lr.idToken,
    expiresIn := lr.expiresIn }

variable {srv : Server d} {ctx : Attribution} {a : Answer} {lr : ElevateReply}

/-- The answer to a step-up is read and its tokens are put. -/
theorem elevateReply_run (h200 : a.status = 200)
    (hreply : d.unmarshalElevate (a.body.take readLimit) = some lr)
    (htok : ¬(lr.accessToken = [] ∨ lr.expiresIn ≤ 0)) :
    Exec (Answers cfg) w (Server.elevateReply sess (some a))
      [⟨.now, w.clock⟩, ⟨.sessionPut (d.setTokens sess (tokensOfReply lr) w.clock), .done ()⟩]
      (.ret elevated)
      { w with sessions := w.sessions.put (d.setTokens sess (tokensOfReply lr) w.clock) } := by
  unfold Server.elevateReply
  simp only [h200, hreply, htok, ne_eq, not_true_eq_false, if_false]
  refine exec_call_iff.mpr ⟨w.clock, _, _, rfl, ⟨rfl, rfl⟩, ?_⟩
  exact exec_call_iff.mpr ⟨.done (), _, _, rfl, rfl, .refl _ _⟩

/-- The admin API is asked for the step-up's tokens, and they are put. -/
theorem elevateUpstream_run
    (hurl : d.validURL (srv.elevateCall ctx r sess).endpoint = true) (h200 : a.status = 200)
    (hreply : d.unmarshalElevate (a.body.take readLimit) = some lr)
    (htok : ¬(lr.accessToken = [] ∨ lr.expiresIn ≤ 0)) :
    Exec (Answers cfg) w (srv.elevateUpstream ctx r sess)
      [⟨.post .admin (srv.elevateCall ctx r sess), some a⟩, ⟨.now, w.clock⟩,
        ⟨.sessionPut (d.setTokens sess (tokensOfReply lr) w.clock), .done ()⟩]
      (.ret elevated)
      { w with sessions := w.sessions.put (d.setTokens sess (tokensOfReply lr) w.clock) } := by
  unfold Server.elevateUpstream
  rw [if_pos hurl]
  exact exec_call_iff.mpr ⟨some a, _, _, rfl, rfl, elevateReply_run h200 hreply htok⟩

/-- A step-up within its budget, with the session's CSRF token and a fresh access token, goes on to
ask the admin API. -/
theorem handleElevate_checked {rl : RateLimiter}
    (hallow : (w.limiter .elevate).allow w.clock (clientIP d r) = (none, rl))
    (hcookie : d.sessionCookie r = some id) (hlive : w.get cfg id = some sess)
    (hcsrf : d.matchCSRF (d.touch sess w.clock) (Server.csrfHeader r) = true)
    (hfresh : ∀ refresh sess, srv.gateway.ensureFresh refresh sess = .ret (.fresh sess)) :
    Exec (Answers cfg) w (srv.handleElevate ctx r)
      [⟨.allow .elevate (clientIP d r), none⟩, ⟨.sessionGet id, .done (some sess)⟩,
        ⟨.now, w.clock⟩, ⟨.sessionPut (d.touch sess w.clock), .done ()⟩]
      (srv.elevateUpstream ctx r (d.touch sess w.clock))
      { w with elevateLimiter := rl, sessions := w.sessions.put (d.touch sess w.clock) } := by
  -- the checks let the request pass one after the other
  refine Exec.bind (rateLimited_run (b := .elevate) hallow) ?_
  have hlookup := currentSession_run (w := w.setLimiter rl .elevate) hcookie hlive
  refine Exec.bind hlookup ?_
  simp only [hcsrf, hfresh, World.setLimiter]
  exact .refl _ _

end Runs

/-- The gateway lets a request with the session's CSRF token through. -/
theorem authorize_run {cfg : Config} {w : World deps} {r : Request} {id : Bytes} {sess : Session}
    (hcookie : cookie "__Host-mon_session" r = some id) (hlive : w.get cfg id = some sess)
    (hcsrf : deps.matchCSRF sess (Server.csrfHeader r) = true) (passthrough : Bool)
    (refresh : TokenRefresher deps) :
    Exec (Answers cfg) w (gateway.authorize passthrough refresh r)
      [⟨.sessionGet id, .done (some sess)⟩, ⟨.now, w.clock⟩,
        ⟨.sessionPut (deps.touch sess w.clock), .done ()⟩]
      (.ret (.forward (withBearer r sess.tokens.accessToken)))
      { w with sessions := w.sessions.put (deps.touch sess w.clock) } := by
  have hmatch : deps.matchCSRF (deps.touch sess w.clock) (Server.csrfHeader r) = true := hcsrf
  refine Exec.bind (currentSession_run hcookie hlive) ?_
  refine exec_ret_iff.mpr ⟨rfl, congrArg ret (if_neg fun h => ?_).symm, rfl⟩
  rw [hmatch] at h
  cases h.2

/-- The upstream's answer to a step-up. -/
def elevateAnswer : Answer := { status := 200, header := Header.empty, body := elevateBody }

theorem unmarshalElevate_answer : deps.unmarshalElevate (elevateAnswer.body.take readLimit) =
    some { accessToken := ascii "at-2", refreshToken := ascii "rt-1", idToken := [],
           expiresIn := 300 } := by
  have htake : elevateAnswer.body.take readLimit = elevateBody :=
    List.take_of_length_le (by decide +kernel)
  simp [htake]

theorem elevateReply_tokens : ¬(ascii "at-2" = [] ∨ (300 : ℤ) ≤ 0) := by
  decide

/-! ## A step-up -/

/-- The session's browser steps up. -/
def elevateRequest : Request := sessionRequest "POST" "/bff/elevate"

theorem dispatch_elevateRequest : dispatch server.cfg elevateRequest = .handler .elevate := by
  decide +kernel

/-- The session with the tokens of the step-up. -/
def elevatedSession : Session :=
  { session with
    tokens := { accessToken := ascii "at-2", refreshToken := ascii "rt-1", idToken := [],
                expiresIn := 300 } }

/-- The checks of the step-up, from the start. -/
def checkEvents : List (Event (@Res deps)) :=
  [⟨.allow .elevate (clientIP deps elevateRequest), none⟩,
    ⟨.sessionGet session.id, Stmt.done (some session)⟩, ⟨.now, (0 : ℤ)⟩,
    ⟨.sessionPut session, Stmt.done ()⟩]

/-- What the step-up does after its checks. -/
def tokenEvents : List (Event (@Res deps)) :=
  [⟨.post .admin (server.elevateCall (Server.attribution deps elevateRequest) elevateRequest
      session), some elevateAnswer⟩,
    ⟨.now, (0 : ℤ)⟩, ⟨.sessionPut elevatedSession, Stmt.done ()⟩]

/-- What the step-up does, from the start. -/
def elevateEvents : List (Event (@Res deps)) := checkEvents ++ tokenEvents

/-- What the step-up has left to do after its checks. -/
def elevateRest : Handler deps :=
  server.elevateUpstream (Server.attribution deps elevateRequest) elevateRequest session

/-- The step-up passes its checks. -/
theorem elevateRequest_checked : ∃ rl,
    Exec (Answers server.cfg) world (server.handler elevateRequest) checkEvents elevateRest
      { world with elevateLimiter := rl, sessions := store.put session } := by
  rw [Server.handler_of_dispatch dispatch_elevateRequest]
  exact ⟨_, handleElevate_checked rfl (cookie_sessionRequest "POST" "/bff/elevate") world_get
    (matchCSRF_sessionRequest "POST" "/bff/elevate") fun _ _ => rfl⟩

/-- After its checks the step-up stores its tokens, whatever happened meanwhile, at the time `0`. -/
theorem elevateRest_run {w : World deps} (hclock : w.clock = 0) :
    Exec (Answers server.cfg) w elevateRest tokenEvents (.ret elevated)
      { w with sessions := w.sessions.put elevatedSession } := by
  have hurl : deps.validURL (server.elevateCall (Server.attribution deps elevateRequest)
      elevateRequest session).endpoint = true := by
    decide +kernel
  obtain ⟨clock, loginLimiter, elevateLimiter, sessions, sessionErrors, pending, issued⟩ := w
  subst hclock
  exact elevateUpstream_run hurl rfl unmarshalElevate_answer elevateReply_tokens

/-- The step-up runs by itself from the start. -/
theorem elevateRequest_run : ∃ rl, Exec (Answers server.cfg) world (server.handler elevateRequest)
    elevateEvents (.ret elevated)
    { world with elevateLimiter := rl, sessions := (store.put session).put elevatedSession } := by
  obtain ⟨rl, hchecked⟩ := elevateRequest_checked
  exact ⟨rl, hchecked.trans (elevateRest_run rfl)⟩

end Bff.Reference
