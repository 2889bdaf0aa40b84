import OAuth2Monitoring.GoStd.Http

/-!
# What the BFF is configured with and linked with

The configuration as far as the handlers read it, and the packages whose code is not part of the
repository: the sessions, cookies and tokens of `backendkit/bff`, the client attribution of
`backendkit/socrate`, and the decoders of the standard library. They are the fields of `Deps`;
`Deps.Lawful` collects what their documentation promises and the results rely on.
-/

namespace Bff

open GoStd

/-- One second. Points of time and durations are integers, in nanoseconds. -/
def second : ℤ := 1000000000

/-! ## Configuration -/

/-- The parsed base URL of an upstream. -/
structure BaseURL where
  host : Bytes
  path : Bytes
  rawPath : Bytes

/-- The BFF's runtime configuration. -/
structure Config where
  /-- Internal base URL of the Socrate admin API. -/
  adminUpstream : Bytes
  adminURL : BaseURL
  /-- Internal base URL of the Socrate OAuth server. -/
  oauthUpstream : Bytes
  oauthURL : Option BaseURL
  /-- Public base URL of the Socrate OAuth server. -/
  oauthPublicURL : Bytes
  /-- This console's public origin. -/
  publicOrigin : Bytes
  clientID : Bytes
  clientSecret : Bytes
  scopes : Bytes
  sessionIdle : ℤ
  sessionAbsolute : ℤ
  /-- Per-IP budgets; a value that is not positive disables the limiter. -/
  loginRate : ℤ
  elevateRate : ℤ
  allowPassthrough : Bool

namespace Config

variable (cfg : Config)

/-- Whether server-side OAuth and sessions are configured. -/
def authEnabled : Bool := cfg.clientID ≠ []

/-- The registered callback of the BFF's OAuth client. -/
def redirectURI : Bytes := trimRight cfg.publicOrigin slash ++ ascii "/bff/callback"

end Config

/-! ## Tokens and identities -/

/-- `socrate.TokenSet`. -/
structure TokenSet where
  accessToken : Bytes
  refreshToken : Bytes
  idToken : Bytes
  expiresIn : ℤ
  tokenType : Bytes := []
  roles : List Bytes := []
  appRoles : List (Bytes × Bytes) := []

/-- Socrate's reply to a token request. -/
structure TokenResponse where
  accessToken : Bytes := []
  refreshToken : Bytes := []
  idToken : Bytes := []
  tokenType : Bytes := []
  expiresIn : ℤ := 0
  roles : List Bytes := []
  appRoles : List (Bytes × Bytes) := []
  error : Bytes := []
  errorDesc : Bytes := []

/-- The fields of Socrate's reply to a step-up that the BFF reads. -/
structure ElevateReply where
  accessToken : Bytes
  refreshToken : Bytes
  idToken : Bytes
  expiresIn : ℤ

/-- `bff.UserInfo`. -/
structure UserInfo where
  sub : Bytes := []
  email : Bytes := []
  name : Bytes := []
  roles : List Bytes := []

/-- `bff.PendingLogin`: what is kept between `/bff/login` and `/bff/callback`. -/
structure PendingLogin where
  verifier : Bytes
  returnTo : Bytes
  nonce : Bytes
  created : ℤ

/-- The browser an outgoing call is made for: its address and its `User-Agent`. -/
structure Attribution where
  ip : Bytes
  userAgent : Bytes

/-- A JSON value. -/
inductive Json
  | null
  | bool (b : Bool)
  | num (text : Bytes)
  | str (s : Bytes)
  | arr (elems : List Json)
  | obj (fields : List (Bytes × Json))

/-! ## Code outside the repository -/

/-- The parts of `backendkit` and of the standard library the model does not open. -/
structure Deps where
  /-- `bff.Session`, with the accessors the handlers use. -/
  Session : Type
  newSession : (id csrf : Bytes) → TokenSet → UserInfo → ℤ → Session
  id : Session → Bytes
  csrf : Session → Bytes
  user : Session → UserInfo
  accessToken : Session → Bytes
  refreshToken : Session → Bytes
  /-- Slide the idle window. -/
  touch : Session → ℤ → Session
  setTokens : Session → TokenSet → ℤ → Session
  matchCSRF : Session → Bytes → Bool
  /-- Whether a store with these idle and absolute bounds no longer returns the session. -/
  expired : (idle absolute : ℤ) → Session → ℤ → Bool
  /-- How long a deleted session is remembered, and how long a pending login is kept. -/
  tombstoneTTL : ℤ
  pendingLoginTTL : ℤ
  /-- The session id and the login-binding nonce in the request's cookies. -/
  sessionCookie : Request → Option Bytes
  loginCookie : Request → Option Bytes
  /-- The verdict of `LoginBinding.Verify`. -/
  verifyBinding : Request → Bytes → Bool
  s256Challenge : Bytes → Bytes
  sanitizeReturnTo : Bytes → Bytes
  /-- The Director of `bff.NewSingleHostProxy`. -/
  singleHostDirector : BaseURL → OutRequest → OutRequest
  /-- `socrate.ApplyClientAttribution`, on the headers of an outgoing request. -/
  applyClientAttribution : Attribution → Header → Header
  /-- `net.ParseIP`, in the form of 16 bytes. -/
  parseIP : Bytes → Option Bytes
  /-- Whether `http.NewRequest` accepts a URL. -/
  validURL : Bytes → Bool
  /-- `json.Unmarshal` into a token response, errors ignored. -/
  unmarshalToken : Bytes → TokenResponse
  /-- `json.Unmarshal` into a step-up reply. -/
  unmarshalElevate : Bytes → Option ElevateReply
  /-- `json.Unmarshal` into a map, and `base64.RawURLEncoding.DecodeString`. -/
  unmarshalObject : Bytes → Option (Bytes → Option Json)
  rawURLDecode : Bytes → Option Bytes

/-- What the documentation of the packages promises. -/
structure Deps.Lawful (d : Deps) : Prop where
  id_newSession : ∀ id csrf ts u now, d.id (d.newSession id csrf ts u now) = id
  id_touch : ∀ s now, d.id (d.touch s now) = d.id s
  csrf_touch : ∀ s now, d.csrf (d.touch s now) = d.csrf s
  accessToken_touch : ∀ s now, d.accessToken (d.touch s now) = d.accessToken s
  refreshToken_touch : ∀ s now, d.refreshToken (d.touch s now) = d.refreshToken s
  id_setTokens : ∀ s ts now, d.id (d.setTokens s ts now) = d.id s
  accessToken_setTokens : ∀ s ts now, d.accessToken (d.setTokens s ts now) = ts.accessToken
  matchCSRF : ∀ s h, d.matchCSRF s h = true → h = d.csrf s
  /-- The binding holds only for the browser that has the nonce's cookie. -/
  verifyBinding : ∀ r nonce, d.verifyBinding r nonce = true → d.loginCookie r = some nonce
  /-- The proxy joins the upstream's path and the request's, and sends the request there. -/
  singleHost_path : ∀ base out, ((d.singleHostDirector base out).path,
    (d.singleHostDirector base out).rawPath) =
      joinURLPath (base.path, base.rawPath) (out.path, out.rawPath)
  singleHost_method : ∀ base out, (d.singleHostDirector base out).method = out.method
  /-- Attribution touches the client's address and agent only. -/
  attribution_keeps : ∀ a h key, key ≠ ascii "X-Forwarded-For" → key ≠ ascii "User-Agent" →
    d.applyClientAttribution a h key = h key

end Bff
