import OAuth2Monitoring.Bff.World
import OAuth2Monitoring.GoStd.Redirect

/-!
# Answers to the browser, and the session gateway

A handler is a program over the operations of `World.lean` that returns a `Response`. A response
keeps apart what the BFF wrote itself and what it copied from an upstream, so that it can be said
which bytes an upstream sent reach the browser.

`bff.Gateway` is code outside the repository. It is given by two programs, `ensureFresh` and
`authorize`, the latter being what `ProxyWithSession` does before it hands a request to its proxy.
Both may use the session store and the clock, and refresh tokens with the adapter they are given.
-/

namespace Bff

open GoStd Interleaving

/-! ## Responses -/

/-- A `Set-Cookie` of the BFF. -/
inductive SetCookie
  | session (id : Bytes)
  | clearSession
  | login (nonce : Bytes)
  | clearLogin

/-- A value of a JSON object the BFF writes. -/
inductive Field
  | text (s : Bytes)
  | flag (b : Bool)
  | user (u : UserInfo)

/-- A body: nothing, a text, a JSON object, or the bytes of an upstream's answer. -/
inductive Body
  | empty
  | text (s : Bytes)
  | json (fields : List (Bytes × Field))
  | upstream (answer : Answer)

/-- What a handler writes. `location` is the header of a redirect. -/
structure Response where
  status : ℕ
  header : Header := Header.empty
  cookies : List SetCookie := []
  location : Option Bytes := none
  body : Body := .empty

namespace Response

/-- `w.Header().Set`. -/
def withHeader (r : Response) (key value : String) : Response :=
  { r with header := r.header.set (ascii key) (ascii value) }

/-- `Set-Cookie`. -/
def withCookie (r : Response) (c : SetCookie) : Response := { r with cookies := r.cookies ++ [c] }

end Response

/-- `writeJSON`. -/
def writeJSON (fields : List (Bytes × Field)) (status : ℕ) : Response :=
  Response.withHeader { status := status, body := .json fields } "Content-Type" "application/json"

/-- `writeJSON` of an error. -/
def writeError (error : String) (status : ℕ) : Response :=
  writeJSON [(ascii "error", .text (ascii error))] status

/-- `http.Error`. -/
def httpError (text : Bytes) (status : ℕ) : Response :=
  (Response.withHeader { status := status, body := .text (text ++ [10]) }
    "Content-Type" "text/plain; charset=utf-8").withHeader "X-Content-Type-Options" "nosniff"

/-- `http.NotFound`. -/
def notFound : Response := httpError (ascii "404 page not found") 404

/-- `http.StatusText`, of the statuses the BFF redirects with. -/
def redirectText (status : ℕ) : Bytes :=
  ascii (if status = 302 then "Found" else "Temporary Redirect")

/-- `http.Redirect`, where no `Content-Type` was set before. -/
def httpRedirect (r : Request) (url : Bytes) (status : ℕ) : Response where
  status := status
  header :=
    if r.method = ascii "GET" ∨ r.method = ascii "HEAD" then
      Header.empty.set (ascii "Content-Type") (ascii "text/html; charset=utf-8")
    else Header.empty
  location := some (redirectURL r.url.path url)
  body :=
    if r.method = ascii "GET" then .text (redirectPage r.url.path url (redirectText status))
    else .empty

/-- The bytes of an upstream that a response carries. -/
def Body.copied : Body → Option Answer
  | upstream answer => some answer
  | _ => none

@[simp]
theorem copied_httpRedirect (r : Request) (url : Bytes) (status : ℕ) :
    (httpRedirect r url status).body.copied = none := by
  unfold httpRedirect
  dsimp only
  split <;> rfl

/-- A handler's program. -/
abbrev Handler (d : Deps) := Prog (@Res d) Response

section Operations

variable {d : Deps}

/-- The operations as programs. -/
abbrev allow (b : Budget) (key : Bytes) : Prog (@Res d) (Option ℤ) := .call (Op.allow b key) .ret

/-- `time.Now()`. -/
abbrev timeNow : Prog (@Res d) ℤ := .call Op.now .ret

/-- A random token of `n` bytes. -/
abbrev randomToken (n : ℕ) : Prog (@Res d) Bytes := .call (Op.randomToken n) .ret

/-- The pending store's `Put`. -/
abbrev pendingPut (state : Bytes) (login : PendingLogin) : Prog (@Res d) Bool :=
  .call (Op.pendingPut state login) .ret

/-- Its `Take`. -/
abbrev pendingTake (state : Bytes) : Prog (@Res d) (Option PendingLogin) :=
  .call (Op.pendingTake state) .ret

/-- The session store's `Get`. -/
abbrev storeGet (id : Bytes) : Prog (@Res d) (Stmt (Option d.Session)) :=
  .call (Op.sessionGet id) .ret

/-- Its `Put`. -/
abbrev storePut (sess : d.Session) : Prog (@Res d) (Stmt Unit) := .call (Op.sessionPut sess) .ret

/-- Its `Delete`. -/
abbrev storeDelete (id : Bytes) : Prog (@Res d) (Stmt Unit) := .call (Op.sessionDelete id) .ret

/-- The number of the errors counted so far. -/
abbrev sessionErrorsLoad : Prog (@Res d) UInt64 := .call Op.sessionErrors .ret

/-- A call of an upstream by the BFF itself. -/
abbrev post (upstream : Upstream) (c : Call) : Prog (@Res d) (Option Answer) :=
  .call (Op.post upstream c) .ret

/-- A request of a browser that is forwarded. -/
abbrev proxied (upstream : Upstream) (out : OutRequest) : Prog (@Res d) (Option Answer) :=
  .call (Op.proxy upstream out) .ret

end Operations

/-! ## The gateway -/

/-- Why a token request failed. -/
inductive TokenError
  | request
  | transport
  | oauth (status : ℕ) (code description : Bytes)
  | missingAccessToken

/-- `bff.TokenRefresher`. -/
abbrev TokenRefresher (d : Deps) := Bytes → Prog (@Res d) (Except TokenError TokenSet)

/-- The outcome of `EnsureFresh`: the session as it is afterwards, or an error, fatal or not in the
sense of `bff.IsFatalRefreshError`. -/
inductive Freshness (d : Deps)
  | fresh (sess : d.Session)
  | fatal
  | transient

/-- What `ProxyWithSession` decides on a request. -/
inductive Verdict
  | refuse (resp : Response)
  | forward (r : Request)

/-- `bff.Gateway`. `authorize` is given whether passthrough is allowed. -/
structure Gateway (d : Deps) where
  ensureFresh : TokenRefresher d → d.Session → Prog (@Res d) (Freshness d)
  authorize : (allowPassthrough : Bool) → TokenRefresher d → Request → Prog (@Res d) Verdict

/-- The operations the gateway performs by itself: the session store and the clock. -/
def GatewayOp {d : Deps} : Op d → Prop
  | .sessionGet _ | .sessionPut _ | .sessionDelete _ | .now => True
  | _ => False

/-- A decision on `r`: a refusal is written by the gateway itself, and what is forwarded is `r` but
for its headers. -/
def Verdict.For (r : Request) : Verdict → Prop
  | refuse resp => resp.body.copied = none
  | forward r' => r'.method = r.method ∧ r'.url = r.url ∧ r'.remoteAddr = r.remoteAddr

/-- What the gateway's documentation promises: it calls nothing but its store, the clock and its
refresher, and decides on the request it is given. -/
structure Gateway.Lawful {d : Deps} (gw : Gateway d) : Prop where
  ensureFresh_uses : ∀ (refresh : TokenRefresher d) (sess : d.Session) (A : Op d → Prop),
    (∀ op, GatewayOp op → A op) → (∀ token, (refresh token).Uses A) →
    (gw.ensureFresh refresh sess).Uses A
  authorize_uses : ∀ (passthrough : Bool) (refresh : TokenRefresher d) (r : Request)
    (A : Op d → Prop), (∀ op, GatewayOp op → A op) → (∀ token, (refresh token).Uses A) →
    (gw.authorize passthrough refresh r).Uses A
  authorize_for : ∀ (passthrough : Bool) (refresh : TokenRefresher d) (r : Request)
    (l : List (Event (@Res d))) (v : Verdict),
    (gw.authorize passthrough refresh r).Yields l v → v.For r

end Bff
