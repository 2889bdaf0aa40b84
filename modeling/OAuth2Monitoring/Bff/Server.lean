import OAuth2Monitoring.Bff.Auth
import OAuth2Monitoring.GoStd.ReverseProxy
import OAuth2Monitoring.GoStd.ServeMux

/-!
# The BFF's routes

What `Server.Handler` makes of a request: non-canonical paths are refused first, then the mux
dispatches to the endpoints or to one of the two proxies.
-/

namespace Bff

open GoStd Interleaving Interleaving.Prog

/-! ## Routing -/

/-- The only proxied path family. -/
def adminPrefix : Bytes := ascii "/api/admin/"

/-- The path of the version probe. -/
def versionPath : Bytes := ascii "/api/version"

/-- What is registered at the mux. `proxyWithSession` is the admin proxy behind the gateway,
`proxy` the admin proxy itself. -/
inductive Endpoint
  | health
  | proxyWithSession
  | proxy
  | login
  | callback
  | session
  | logout
  | elevate
  | version
  deriving DecidableEq

/-- The patterns `Server.Handler` registers. -/
def routes (cfg : Config) : ServeMux Endpoint :=
  (⟨none, ascii "/bff/healthz"⟩, .health) ::
    ((if cfg.authEnabled then
      [(⟨none, adminPrefix⟩, .proxyWithSession), (⟨none, ascii "/bff/login"⟩, .login),
        (⟨none, ascii "/bff/callback"⟩, .callback), (⟨none, ascii "/bff/session"⟩, .session),
        (⟨none, ascii "/bff/logout"⟩, .logout), (⟨none, ascii "/bff/elevate"⟩, .elevate)]
      else [(⟨none, adminPrefix⟩, .proxy)]) ++
    if cfg.oauthURL.isSome then [(⟨some (ascii "GET"), versionPath⟩, .version)] else [])

/-- `canonicalPathOnly` lets a URL through whose path is clean, up to a trailing slash, and whose
encoding is the default one. -/
def canonicalPathOnly (u : Url) : Bool :=
  u.rawPath = [] ∧ (u.path = clean u.path ∨ u.path = clean u.path ++ [slash])

/-- What becomes of a request. -/
def dispatch (cfg : Config) (r : Request) : Routed Endpoint :=
  if canonicalPathOnly r.url then (routes cfg).route r.method r.url else .notFound

/-! ## Proxies -/

section Proxies

variable (d : Deps)

/-- `attributedProxy`: the outgoing request names the attributed client only. -/
def attributedDirector (ctx : Attribution) (out : OutRequest) : OutRequest :=
  { out with header :=
      d.applyClientAttribution ctx (out.header.del (ascii "X-Forwarded-For")) }

/-- A single-host proxy that sends the upstream's own host name. -/
def hostDirector (base : BaseURL) (out : OutRequest) : OutRequest :=
  { d.singleHostDirector base out with host := base.host }

/-- The proxy to the admin API. -/
def adminProxy (cfg : Config) (ctx : Attribution) : ReverseProxy where
  director out := attributedDirector d ctx (hostDirector d cfg.adminURL out)

/-- `newVersionProxy`: the probe carries no credentials. -/
def versionProxy (base : BaseURL) (ctx : Attribution) : ReverseProxy where
  director out :=
    let out := hostDirector d base out
    attributedDirector d ctx
      { out with header := (out.header.del (ascii "Authorization")).del (ascii "Cookie") }

variable {d}

/-- The answer when an upstream gives none. -/
def badGateway : Response := { status := 502 }

/-- The response a reverse proxy copies from an upstream's answer. -/
def copyAnswer (answer : Answer) : Response where
  status := answer.status
  header := removeHopByHopHeaders answer.header
  body := .upstream answer

/-- `ReverseProxy.ServeHTTP`. -/
def serveProxy (upstream : Upstream) (p : ReverseProxy) (r : Request) : Handler d :=
  match p.outgoing r with
  | none => pure badGateway
  | some out => do
    match ← proxied upstream out with
    -- the default error handler
    | none => pure badGateway
    | some answer => pure (copyAnswer answer)

end Proxies

/-! ## The handler -/

namespace Server

variable {d : Deps} (srv : Server d)

/-- `Gateway.ProxyWithSession` of the admin proxy. -/
def proxyWithSession (ctx : Attribution) (r : Request) : Handler d := do
  match ← srv.gateway.authorize srv.cfg.allowPassthrough (tokenRefresherAdapter srv.cfg ctx) r with
  | .refuse resp => pure resp
  | .forward r' => serveProxy .admin (adminProxy d srv.cfg ctx) r'

/-- The health check. -/
def health : Handler d :=
  pure (Response.withHeader { status := 200, body := .json [(ascii "status", .text (ascii "ok"))] }
    "Content-Type" "application/json")

/-- Run the handler of an endpoint. -/
def serve (ctx : Attribution) (r : Request) : Endpoint → Handler d
  | .health => health
  | .proxyWithSession => srv.proxyWithSession ctx r
  | .proxy => serveProxy .admin (adminProxy d srv.cfg ctx) r
  | .login => srv.handleLogin r
  | .callback => srv.handleCallback ctx r
  | .session => handleSession r
  | .logout => srv.handleLogout ctx r
  | .elevate => srv.handleElevate ctx r
  | .version =>
    match srv.cfg.oauthURL with
    -- registered with an issuer only
    | none => pure notFound
    | some base => serveProxy .issuer (versionProxy d base ctx) r

/-- The browser a request is attributed to. -/
def attribution (d : Deps) (r : Request) : Attribution :=
  { ip := clientIP d r, userAgent := r.header.get (ascii "User-Agent") }

/-- The mux's own answer to a path below which it would match, or that is not clean. -/
def muxRedirect (r : Request) (path : Bytes) : Response :=
  let query := if r.url.rawQuery = [] then [] else 63 :: r.url.rawQuery
  httpRedirect r (escape .path path ++ query) 307

/-- The mux's own answer to a method no pattern of the path has. -/
def methodNotAllowed (allow : List Bytes) : Response :=
  let resp := httpError (ascii "Method Not Allowed") 405
  { resp with header := resp.header.set (ascii "Allow") ([(44 : UInt8), 32].intercalate allow) }

/-- `Server.Handler`. -/
def handler (r : Request) : Handler d :=
  match dispatch srv.cfg r with
  | .handler e => srv.serve (attribution d r) r e
  | .redirect path => pure (muxRedirect r path)
  | .methodNotAllowed allow => pure (methodNotAllowed allow)
  | .notFound => pure notFound
  | .badRequest => pure { status := 400 }

variable {srv} in
/-- A request that the mux gives to an endpoint is served by it. -/
theorem handler_of_dispatch {r : Request} {e : Endpoint} (h : dispatch srv.cfg r = .handler e) :
    srv.handler r = srv.serve (attribution d r) r e := by
  rw [handler, h]

/-- A run of the server: any number of requests, their operations interleaved. -/
abbrev Run (w₀ : World d) : Pool (World d) Request (@Res d) Response → Prop :=
  Reachable (Answers srv.cfg) srv.handler (Env srv.cfg) w₀

end Server

end Bff
