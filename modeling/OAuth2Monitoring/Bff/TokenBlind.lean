import OAuth2Monitoring.Bff.Footprint
import OAuth2Monitoring.ToMathlib.Interleaving.Simulation

/-!
# Handlers that do not read the secrets

A handler copies the client's secret and the tokens of a session into what it sends upstream, and
that is all it does with them. So on sessions that differ in the text of their tokens only, with
another client secret, it performs the same operations up to those texts and returns the same
response.

The packages and the gateway are assumed to be blind to the text of a token in the same way: they
copy tokens and look at their expiry.

## Main definitions

* `SameHeader`, `SameOut`, `SameRequest`: equal but for the bearer token.
* `SameForm`: equal but for the client's secret and the text of a token.
* `TokenBlind`, `Gateway.Blind`: what is assumed of the packages and the gateway.
* `Same`: programs that perform the same operations but for the secrets.

## Main results

* `handler_same`: every request is handled the same.
-/

namespace Bff

open GoStd Interleaving Interleaving.Prog

variable {d : Deps} {srv : Server d} {Alike : d.Session → d.Session → Prop}

/-! ## Requests upstream -/

/-- The header that carries an access token. -/
def bearerKey : Bytes := ascii "Authorization"

/-- The headers differ in the bearer token only. -/
def SameHeader (h h' : Header) : Prop := ∀ key, key ≠ bearerKey → h key = h' key

namespace SameHeader

variable {h h' : Header}

theorem refl (h : Header) : SameHeader h h := fun _ _ => rfl

theorem get (hh : SameHeader h h') {key : Bytes} (hkey : canonicalMIMEHeaderKey key ≠ bearerKey) :
    h.get key = h'.get key := by
  rw [Header.get, Header.get, hh _ hkey]

theorem del (hh : SameHeader h h') (key : Bytes) : SameHeader (h.del key) (h'.del key) := by
  intro k hk
  by_cases heq : k = canonicalMIMEHeaderKey key
  · rw [heq, Header.del_self, Header.del_self]
  · rw [Header.del_of_ne h heq, Header.del_of_ne h' heq, hh k hk]

theorem set (hh : SameHeader h h') (key value : Bytes) :
    SameHeader (h.set key value) (h'.set key value) := by
  intro k hk
  by_cases heq : k = canonicalMIMEHeaderKey key
  · rw [heq, Header.set_self, Header.set_self]
  · rw [Header.set_of_ne h value heq, Header.set_of_ne h' value heq, hh k hk]

theorem set_bearer (h : Header) (tok tok' : Bytes) :
    SameHeader (h.set (ascii "Authorization") tok) (h.set (ascii "Authorization") tok') := by
  have hcanon : canonicalMIMEHeaderKey (ascii "Authorization") = bearerKey := by decide
  intro key hkey
  rw [Header.set_of_ne h tok (by rwa [hcanon]), Header.set_of_ne h tok' (by rwa [hcanon])]

theorem setIf (hh : SameHeader h h') (c : Bool) (key value : Bytes) :
    SameHeader (h.setIf c key value) (h'.setIf c key value) := by
  cases c with
  | false => exact hh
  | true => exact hh.set key value

theorem foldl_del (hh : SameHeader h h') (keys : List Bytes) :
    SameHeader (keys.foldl Header.del h) (keys.foldl Header.del h') := by
  induction keys generalizing h h' with
  | nil => exact hh
  | cons key keys ih => exact ih (hh.del key)

theorem appendPeer (hh : SameHeader h h') (remoteAddr : Bytes) :
    SameHeader (appendPeer remoteAddr h) (appendPeer remoteAddr h') := by
  unfold GoStd.appendPeer
  cases splitHostPort remoteAddr with
  | none => exact hh
  | some peer =>
    dsimp only
    rw [hh (ascii "X-Forwarded-For") (by decide)]
    exact hh.set _ _

/-- Headers that are the same up to the bearer ask for the same upgrade. -/
theorem upgradeType (hh : SameHeader h h') : upgradeType h = upgradeType h' := by
  unfold GoStd.upgradeType
  rw [hh (ascii "Connection") (by decide), hh.get (by decide)]

/-- What a reverse proxy does to the headers does not depend on the bearer token. -/
theorem forwardedHeader (hh : SameHeader h h') (remoteAddr : Bytes) (te : List Bytes) :
    SameHeader (forwardedHeader remoteAddr te h) (forwardedHeader remoteAddr te h') := by
  unfold GoStd.forwardedHeader removeHopByHopHeaders
  dsimp only
  rw [hh (ascii "Connection") (by decide), hh.upgradeType]
  have hhop := (hh.foldl_del ((listElements (h' (ascii "Connection"))).filter (· ≠ []))).foldl_del
    hopHeaders
  have hup := ((hhop.setIf (containsToken te (ascii "trailers")) (ascii "Te")
    (ascii "trailers")).setIf (GoStd.upgradeType h' ≠ []) (ascii "Connection")
    (ascii "Upgrade")).setIf (GoStd.upgradeType h' ≠ []) (ascii "Upgrade") (GoStd.upgradeType h')
  have hpeer := hup.appendPeer remoteAddr
  rw [hpeer (ascii "User-Agent") (by decide)]
  exact hpeer.setIf _ _ _

end SameHeader

/-- The requests differ in the bearer token only. -/
structure SameOut (out out' : OutRequest) : Prop where
  method : out.method = out'.method
  path : out.path = out'.path
  rawPath : out.rawPath = out'.rawPath
  rawQuery : out.rawQuery = out'.rawQuery
  host : out.host = out'.host
  body : out.body = out'.body
  header : SameHeader out.header out'.header

/-- A form without the client's secret, the text of a token blanked out. -/
def redact (form : Values) : List (Bytes × Option Bytes) :=
  (form.filter (·.1 ≠ ascii "client_secret")).map fun kv =>
    (kv.1, if kv.1 ∈ [ascii "refresh_token", ascii "token"] then none else some kv.2)

/-- The forms differ in the client's secret and the text of a token only. -/
def SameForm (form form' : Values) : Prop := redact form = redact form'

theorem redact_append (form form' : Values) :
    redact (form ++ form') = redact form ++ redact form' := by
  unfold redact
  rw [List.filter_append, List.map_append]

/-- A pair that is left out is left out of what is redacted. -/
theorem redact_filter_ne (form : Values) (key : Bytes) :
    redact (form.filter (·.1 ≠ key)) = (redact form).filter (·.1 ≠ key) := by
  unfold redact
  rw [List.filter_map, List.filter_filter, List.filter_filter]
  exact congrArg _ (List.filter_congr fun _ _ => Bool.and_comm ..)

/-- Forms that are the same up to secrets stay so when a pair is set. -/
theorem SameForm.set {form form' : Values} (h : SameForm form form') (key value : Bytes) :
    SameForm (form.set key value) (form'.set key value) := by
  unfold SameForm Values.set at *
  rw [redact_append, redact_append, redact_filter_ne, redact_filter_ne, h]

/-- The client's secret is not seen in what is redacted. -/
theorem redact_set_secret (form : Values) (secret : Bytes) :
    redact (form.set (ascii "client_secret") secret) = redact form := by
  unfold Values.set
  rw [redact_append, redact_filter_ne]
  simp [redact, List.filter_map, List.filter_filter]

/-- The calls differ in the bearer token, and those of the issuer in the secrets of the form that is
posted. -/
structure SameCall (up : Upstream) (c c' : Call) : Prop where
  endpoint : c.endpoint = c'.endpoint
  header : SameHeader c.header c'.header
  body : up = .admin → c.body = c'.body
  form : up = .issuer → ∃ form form' : Values, c.body = form.encode ∧ c'.body = form'.encode ∧
    SameForm form form'

/-- So do these requests, before a proxy has worked on them. -/
structure SameRequest (r r' : Request) : Prop where
  method : r.method = r'.method
  url : r.url = r'.url
  host : r.host = r'.host
  remoteAddr : r.remoteAddr = r'.remoteAddr
  body : r.body = r'.body
  header : SameHeader r.header r'.header

/-! ## What is assumed -/

/-- The packages treat sessions alike that differ in the text of their tokens only, `Alike` being
that relation, and they do not look at the bearer token of a request they forward. -/
structure TokenBlind (d : Deps) (Alike : d.Session → d.Session → Prop) : Prop where
  refl : ∀ s, Alike s s
  id : ∀ {s s'}, Alike s s' → d.id s = d.id s'
  csrf : ∀ {s s'}, Alike s s' → d.csrf s = d.csrf s'
  user : ∀ {s s'}, Alike s s' → d.user s = d.user s'
  matchCSRF : ∀ {s s'}, Alike s s' → ∀ h, d.matchCSRF s h = d.matchCSRF s' h
  expired : ∀ {s s'}, Alike s s' → ∀ idle absolute now,
    d.expired idle absolute s now = d.expired idle absolute s' now
  touch : ∀ {s s'}, Alike s s' → ∀ now, Alike (d.touch s now) (d.touch s' now)
  setTokens : ∀ {s s'}, Alike s s' → ∀ ts now, Alike (d.setTokens s ts now) (d.setTokens s' ts now)
  accessToken : ∀ {s s'}, Alike s s' → (d.accessToken s = [] ↔ d.accessToken s' = [])
  refreshToken : ∀ {s s'}, Alike s s' → (d.refreshToken s = [] ↔ d.refreshToken s' = [])
  director : ∀ base {out out'}, SameOut out out' →
    SameOut (d.singleHostDirector base out) (d.singleHostDirector base out')
  attribution : ∀ ctx {h h'}, SameHeader h h' →
    SameHeader (d.applyClientAttribution ctx h) (d.applyClientAttribution ctx h')

section Relations

variable (Alike)

/-- The same operation, on sessions, forms and requests that differ in secrets only. -/
inductive SameOp : Op d → Op d → Prop
  | refl (op : Op d) : SameOp op op
  | put {s s' : d.Session} (h : Alike s s') : SameOp (.sessionPut s) (.sessionPut s')
  | post (up : Upstream) {c c' : Call} (h : SameCall up c c') :
    SameOp (.post up c) (.post up c')
  | proxy (up : Upstream) {out out' : OutRequest} (h : SameOut out out') :
    SameOp (.proxy up out) (.proxy up out')

/-- Both lookups found a session, and the sessions are alike, or both found none. -/
inductive SameFound : Option d.Session → Option d.Session → Prop
  | none : SameFound none none
  | some {s s' : d.Session} (h : Alike s s') : SameFound (some s) (some s')

/-- The same answer of a `Get`. -/
inductive SameGet : Stmt (Option d.Session) → Stmt (Option d.Session) → Prop
  | failed : SameGet .failed .failed
  | done {a a' : Option d.Session} (h : SameFound Alike a a') : SameGet (.done a) (.done a')

/-- The same operation with the same answer. -/
inductive SameEvent : Event (@Res d) → Event (@Res d) → Prop
  | get (id : Bytes) {a a' : Stmt (Option d.Session)} (h : SameGet Alike a a') :
    SameEvent ⟨.sessionGet id, a⟩ ⟨.sessionGet id, a'⟩
  | put {s s' : d.Session} (h : Alike s s') (a : Stmt Unit) :
    SameEvent ⟨.sessionPut s, a⟩ ⟨.sessionPut s', a⟩
  | post (up : Upstream) {c c' : Call} (h : SameCall up c c') (a : Option Answer) :
    SameEvent ⟨.post up c, a⟩ ⟨.post up c', a⟩
  | proxy (up : Upstream) {out out' : OutRequest} (h : SameOut out out') (a : Option Answer) :
    SameEvent ⟨.proxy up out, a⟩ ⟨.proxy up out', a⟩
  | other {op : Op d} (h : ∀ id, op ≠ .sessionGet id) (a : Res op) : SameEvent ⟨op, a⟩ ⟨op, a⟩

/-- The same outcome of `EnsureFresh`. -/
inductive SameFreshness : Freshness d → Freshness d → Prop
  | fresh {s s' : d.Session} (h : Alike s s') : SameFreshness (.fresh s) (.fresh s')
  | fatal : SameFreshness .fatal .fatal
  | transient : SameFreshness .transient .transient

/-- The same decision on a request. -/
inductive SameVerdict : Verdict → Verdict → Prop
  | refuse (resp : Response) : SameVerdict (.refuse resp) (.refuse resp)
  | forward {r r' : Request} (h : SameRequest r r') : SameVerdict (.forward r) (.forward r')

/-- Programs that behave the same but for secrets. -/
abbrev Same {α : Type} (Q : α → α → Prop) : Prog (@Res d) α → Prog (@Res d) α → Prop :=
  Prog.Similar (SameOp Alike) (SameEvent Alike) Q

/-- The gateway decides by what sessions have in common that are alike. -/
structure Gateway.Blind (gw : Gateway d) : Prop where
  ensureFresh : ∀ {refresh refresh' : TokenRefresher d} {s s'},
    (∀ tok tok', Same Alike Eq (refresh tok) (refresh' tok')) → Alike s s' →
    Same Alike (SameFreshness Alike) (gw.ensureFresh refresh s) (gw.ensureFresh refresh' s')
  authorize : ∀ {passthrough : Bool} {refresh refresh' : TokenRefresher d} {r},
    (∀ tok tok', Same Alike Eq (refresh tok) (refresh' tok')) →
    Same Alike SameVerdict (gw.authorize passthrough refresh r)
      (gw.authorize passthrough refresh' r)

/-- The same row. -/
inductive SameRow : Row d → Row d → Prop
  | absent : SameRow .absent .absent
  | live {s s' : d.Session} (h : Alike s s') : SameRow (.live s) (.live s')
  | tombstone (since : ℤ) : SameRow (.tombstone since) (.tombstone since)

/-- Rows that differ in the tokens only. -/
def SameRows (st st' : SessionStore d) : Prop := ∀ id, SameRow Alike (st.row id) (st'.row id)

/-- The same state, but for the tokens of the sessions. -/
structure SameWorld (w w' : World d) : Prop where
  clock : w.clock = w'.clock
  limiter : ∀ b, w.limiter b = w'.limiter b
  sessionErrors : w.sessionErrors = w'.sessionErrors
  pending : w.pending = w'.pending
  issued : w.issued = w'.issued
  rows : SameRows Alike w.sessions w'.sessions

end Relations

/-! ## One operation -/

section Operations

variable {α : Type} {Q : α → α → Prop}

/-- Only a `Get` can be answered differently in the two runs. -/
theorem SameEvent.res_eq {op : Op d} {a a' : Res op} (h : SameEvent Alike ⟨op, a⟩ ⟨op, a'⟩)
    (hget : ∀ id, op ≠ .sessionGet id) : a = a' := by
  cases h with
  | get id => exact absurd rfl (hget id)
  | put => rfl
  | post => rfl
  | proxy => rfl
  | other => rfl

/-- Whatever is performed on both sides, other than a `Get`, is answered the same. -/
theorem same_call {op : Op d} (hget : ∀ id, op ≠ .sessionGet id)
    {k k' : Res op → Prog (@Res d) α} (hk : ∀ res, Same Alike Q (k res) (k' res)) :
    Same Alike Q (.call op k) (.call op k') := by
  refine .call (.refl op) fun res res' hev => ?_
  obtain rfl := hev.res_eq hget
  exact hk res

/-- Two programs that go on alike after answers that are alike. -/
theorem same_get (id : Bytes) {k k' : Stmt (Option d.Session) → Prog (@Res d) α}
    (hk : ∀ res res', SameGet Alike res res' → Same Alike Q (k res) (k' res')) :
    Same Alike Q (.call (.sessionGet id) k) (.call (.sessionGet id) k') := by
  refine .call (.refl _) fun res res' hev => hk res res' ?_
  cases hev with
  | get _ h => exact h
  | other h => exact absurd rfl (h id)

/-- Two programs that put sessions that are alike. -/
theorem same_put {s s' : d.Session} (h : Alike s s') {k k' : Stmt Unit → Prog (@Res d) α}
    (hk : ∀ res, Same Alike Q (k res) (k' res)) :
    Same Alike Q (.call (.sessionPut s) k) (.call (.sessionPut s') k') := by
  refine .call (.put h) fun res res' hev => ?_
  cases hev with
  | put _ a => exact hk _
  | other => exact hk _

/-- Two calls upstream that are the same up to secrets. -/
theorem same_post {up : Upstream} {c c' : Call} (h : SameCall up c c') :
    Same Alike Eq (post (d := d) up c) (post up c') := by
  refine .call (.post up h) fun res res' hev => .ret ?_
  cases hev with
  | post => rfl
  | other => rfl

/-- Two forwarded requests that are the same up to the bearer. -/
theorem same_proxied (up : Upstream) {out out' : OutRequest} (h : SameOut out out') :
    Same Alike Eq (proxied (d := d) up out) (proxied up out') := by
  refine .call (.proxy up h) fun res res' hev => .ret ?_
  cases hev with
  | proxy => rfl
  | other => rfl

end Operations

/-! ## The handlers -/

/-- The server with another client secret. -/
def Server.withSecret (srv : Server d) (secret : Bytes) : Server d :=
  { srv with cfg := { srv.cfg with clientSecret := secret } }

section Handlers

variable {cfg cfg' : Config} {ctx : Attribution} {r : Request} {secret : Bytes}

/-- The calls of the issuer are the same up to secrets when their forms are. -/
theorem issuerCall_same (path : String) {form form' : Values} (h : SameForm form form') :
    SameCall .issuer (issuerCall cfg ctx d path form)
      (issuerCall { cfg with clientSecret := secret } ctx d path form') := by
  have hsecret (c : Prop) [Decidable c] (form : Values) (secret : Bytes) :
      redact (if c then form.set (ascii "client_secret") secret else form) = redact form := by
    split
    · exact redact_set_secret form secret
    · rfl
  refine ⟨rfl, .refl _, by rintro ⟨⟩, fun _ => ⟨_, _, rfl, rfl, ?_⟩⟩
  exact (hsecret _ _ _).trans (h.trans (hsecret _ _ _).symm)

/-- A token request gets the same reply whatever secrets the form holds that it posts. -/
theorem token_same {form form' : Values} (h : SameForm form form') :
    Same Alike Eq (token (d := d) cfg ctx form)
      (token { cfg with clientSecret := secret } ctx form') := by
  unfold token
  have hendpoint : (issuerCall cfg ctx d "/oauth/token" form).endpoint =
    (issuerCall { cfg with clientSecret := secret } ctx d "/oauth/token" form').endpoint := rfl
  dsimp only
  rw [hendpoint]
  split
  · refine (same_post (issuerCall_same _ h)).bind fun a b hab => ?_
    subst hab
    exact .ret rfl
  · exact .ret rfl

/-- A refresh is the same whatever the refresh token. -/
theorem tokenRefresherAdapter_same (tok tok' : Bytes) :
    Same Alike Eq (tokenRefresherAdapter (d := d) cfg ctx tok)
      (tokenRefresherAdapter { cfg with clientSecret := secret } ctx tok') := by
  have hform : SameForm
      [(ascii "grant_type", ascii "refresh_token"), (ascii "refresh_token", tok),
        (ascii "client_id", cfg.clientID)]
      [(ascii "grant_type", ascii "refresh_token"), (ascii "refresh_token", tok'),
        (ascii "client_id", cfg.clientID)] := rfl
  refine (token_same hform).bind fun a b hab => ?_
  subst hab
  exact .ret rfl

/-- The form of a revocation is the same up to the token and the secret. -/
theorem revokeForm_same (tok tok' : Bytes) (hint : String) :
    SameForm (revokeForm cfg tok hint)
      (revokeForm { cfg with clientSecret := secret } tok' hint) := by
  have hform : SameForm [(ascii "token", tok), (ascii "client_id", cfg.clientID)]
      [(ascii "token", tok'), (ascii "client_id", cfg.clientID)] := rfl
  unfold revokeForm
  dsimp only
  split
  · exact hform.set _ _
  · exact hform

/-- Whether a token is revoked depends on whether there is one. -/
theorem revoke_same {tok tok' : Bytes} (htok : tok = [] ↔ tok' = []) (hint : String) :
    Same Alike Eq (revoke (d := d) cfg ctx tok hint)
      (revoke { cfg with clientSecret := secret } ctx tok' hint) := by
  unfold revoke
  by_cases h : tok = []
  · rw [if_pos h, if_pos (htok.mp h)]
    exact .ret rfl
  · rw [if_neg h, if_neg fun h' => h (htok.mpr h')]
    have hendpoint : (issuerCall cfg ctx d "/oauth/revoke" (revokeForm cfg tok hint)).endpoint =
      (issuerCall { cfg with clientSecret := secret } ctx d "/oauth/revoke"
        (revokeForm { cfg with clientSecret := secret } tok' hint)).endpoint := rfl
    dsimp only
    rw [hendpoint]
    split
    · refine (same_post (issuerCall_same _ (revokeForm_same tok tok' hint))).bind fun a b hab => ?_
      subst hab
      cases a <;> exact .ret rfl
    · exact .ret rfl

/-- The budget does not read tokens. -/
theorem rateLimited_same (b : Budget) :
    Same Alike Eq (Server.rateLimited d b r) (Server.rateLimited d b r) := by
  refine same_call (by rintro _ ⟨⟩) fun res => ?_
  cases res <;> exact .ret rfl

/-- The lookup finds sessions that are alike. -/
theorem currentSession_same (hd : TokenBlind d Alike) :
    Same Alike (SameFound Alike) (Server.currentSession r) (Server.currentSession r) := by
  unfold Server.currentSession Server.sessionFromRequest
  cases d.sessionCookie r with
  | none => exact .ret .none
  | some id =>
    refine same_get id fun res res' hres => ?_
    cases hres with
    | failed => exact .ret .none
    | done hfound =>
      cases hfound with
      | none => exact .ret .none
      | some h =>
        refine same_call (by rintro _ ⟨⟩) fun now => ?_
        exact same_put (hd.touch h now) fun _ => .ret (.some (hd.touch h now))

variable (ctx r secret)

/-- A login is the same with another client secret. -/
theorem handleLogin_same :
    Same Alike Eq (srv.handleLogin r) ((srv.withSecret secret).handleLogin r) := by
  -- the login reads neither a session nor the secret
  show Same Alike Eq (srv.handleLogin r) (srv.handleLogin r)
  refine Server.handleLogin_uses.similar (fun op _ => .refl op) fun op res res' hop hev =>
    hev.res_eq ?_
  rintro id rfl
  exact hop

theorem openSession_same (ls : PendingLogin) (tr : TokenResponse) :
    Same Alike Eq (srv.openSession r ls tr) ((srv.withSecret secret).openSession r ls tr) := by
  show Same Alike Eq (srv.openSession r ls tr) (srv.openSession r ls tr)
  exact same_call (by rintro _ ⟨⟩) fun _ => same_call (by rintro _ ⟨⟩) fun _ =>
    same_call (by rintro _ ⟨⟩) fun _ => same_call (by rintro _ ⟨⟩) fun _ => .ret rfl

theorem handleCallback_same :
    Same Alike Eq (srv.handleCallback ctx r) ((srv.withSecret secret).handleCallback ctx r) := by
  unfold Server.handleCallback
  dsimp only
  split
  · exact .ret rfl
  · refine same_call (by rintro _ ⟨⟩) fun taken => ?_
    cases taken with
    | none => exact .ret rfl
    | some login =>
      dsimp only [Prog.bind]
      split
      · exact .ret rfl
      · split
        · exact .ret rfl
        -- the exchange posts another form when the secret is another one
        · refine (token_same rfl).bind fun a b hab => ?_
          subst hab
          cases a with
          | error e => exact .ret rfl
          | ok tr => exact openSession_same r secret login tr

/-- What a browser is told does not depend on the tokens. -/
theorem handleSession_same (hd : TokenBlind d Alike) :
    Same Alike Eq (Server.handleSession r) (Server.handleSession r) := by
  refine Prog.Similar.bind (Q := Eq) ((currentSession_same hd).bind fun found found' h => ?_)
    fun resp resp' h => ?_
  · cases h with
    | none => exact .ret rfl
    | some h =>
      dsimp only
      rw [hd.user h, hd.csrf h]
      exact .ret rfl
  · subst h
    exact .ret rfl

theorem deleteSession_same (id : Bytes) :
    Same Alike Eq (Server.deleteSession id) (Server.deleteSession id) :=
  same_call (by rintro _ ⟨⟩) fun _ => same_call (by rintro _ ⟨⟩) fun _ =>
    same_call (by rintro _ ⟨⟩) fun _ => .ret rfl

/-- A logout is the same up to the tokens it revokes. -/
theorem handleLogout_same (hd : TokenBlind d Alike) :
    Same Alike Eq (srv.handleLogout ctx r) ((srv.withSecret secret).handleLogout ctx r) := by
  refine (currentSession_same hd).bind fun found found' h => ?_
  cases h with
  | none => exact .ret rfl
  | @some s s' h =>
    dsimp only
    rw [hd.matchCSRF h]
    split
    · exact .ret rfl
    · -- as many revocations on both sides, then the delete of the same row
      refine Prog.Similar.bind (Q := fun _ _ => True) ?_ fun _ _ _ => ?_
      · refine (revoke_same (hd.refreshToken h) _).bind fun _ _ _ => ?_
        exact (revoke_same (hd.accessToken h) _).bind fun _ _ _ => .ret trivial
      · rw [hd.id h]
        refine (deleteSession_same _).bind fun done done' hdone => ?_
        subst hdone
        cases done <;> exact .ret rfl

/-- The end of a step-up is the same for sessions that are alike. -/
theorem elevateReply_same (hd : TokenBlind d Alike) {s s' : d.Session} (h : Alike s s')
    (a : Option Answer) :
    Same Alike Eq (Server.elevateReply s a) (Server.elevateReply s' a) := by
  cases a with
  | none => exact .ret rfl
  | some resp =>
    unfold Server.elevateReply
    dsimp only
    split
    · split <;> exact .ret rfl
    · split
      · exact .ret rfl
      · split
        · exact .ret rfl
        · exact same_call (by rintro _ ⟨⟩) fun now => same_put (hd.setTokens h _ now) fun _ =>
            .ret rfl

/-- So is its call of the admin API, up to the bearer. -/
theorem elevateUpstream_same (hd : TokenBlind d Alike) {s s' : d.Session} (h : Alike s s') :
    Same Alike Eq (srv.elevateUpstream ctx r s)
      ((srv.withSecret secret).elevateUpstream ctx r s') := by
  have hcall : SameCall .admin (srv.elevateCall ctx r s)
      ((srv.withSecret secret).elevateCall ctx r s') :=
    ⟨rfl, hd.attribution ctx ((SameHeader.set_bearer _ _ _).set _ _), fun _ => rfl, by rintro ⟨⟩⟩
  unfold Server.elevateUpstream
  dsimp only
  rw [hcall.endpoint]
  split
  · refine (same_post hcall).bind fun a b hab => ?_
    subst hab
    exact elevateReply_same hd h a
  · exact .ret rfl

/-- So is the whole step-up. -/
theorem handleElevate_same (hd : TokenBlind d Alike) (hgw : Gateway.Blind Alike srv.gateway) :
    Same Alike Eq (srv.handleElevate ctx r) ((srv.withSecret secret).handleElevate ctx r) := by
  refine (rateLimited_same .elevate).bind fun limited limited' hlimited => ?_
  subst hlimited
  cases limited with
  | some resp => exact .ret rfl
  | none =>
    refine (currentSession_same hd).bind fun found found' h => ?_
    cases h with
    | none => exact .ret rfl
    | @some s s' h =>
      dsimp only
      rw [hd.matchCSRF h]
      split
      · exact .ret rfl
      · refine (hgw.ensureFresh (fun tok tok' => tokenRefresherAdapter_same tok tok') h).bind
          fun f f' hf => ?_
        cases hf with
        | fresh h => exact elevateUpstream_same ctx r secret hd h
        | fatal =>
          dsimp only
          rw [hd.id h]
          exact same_call (by rintro _ ⟨⟩) fun _ => .ret rfl
        | transient => exact .ret rfl

end Handlers

/-! ## The proxies -/

section Proxies

variable {cfg : Config} {ctx : Attribution} {r r' : Request}

/-- The requests that are sent out are the same up to the bearer. -/
theorem SameRequest.clone (h : SameRequest r r') : SameOut r.clone r'.clone := by
  obtain ⟨hmethod, hurl, hhost, -, hbody, hheader⟩ := h
  exact ⟨hmethod, congrArg Url.path hurl, congrArg Url.rawPath hurl, congrArg Url.rawQuery hurl,
    hhost, hbody, hheader⟩

/-- A Director that does not look at the bearer token. -/
def BlindDirector (p : ReverseProxy) : Prop :=
  ∀ {out out'}, SameOut out out' → SameOut (p.director out) (p.director out')

/-- The attribution keeps them so. -/
theorem attributedDirector_same (hd : TokenBlind d Alike) {out out' : OutRequest}
    (h : SameOut out out') :
    SameOut (attributedDirector d ctx out) (attributedDirector d ctx out') :=
  { h with header := hd.attribution ctx (h.header.del _) }

theorem hostDirector_same (hd : TokenBlind d Alike) (base : BaseURL) {out out' : OutRequest}
    (h : SameOut out out') : SameOut (hostDirector d base out) (hostDirector d base out') :=
  { hd.director base h with host := rfl }

/-- The admin proxy reads no bearer. -/
theorem adminProxy_blind (hd : TokenBlind d Alike) : BlindDirector (adminProxy d cfg ctx) :=
  fun h => attributedDirector_same hd (hostDirector_same hd cfg.adminURL h)

theorem versionProxy_blind (hd : TokenBlind d Alike) (base : BaseURL) :
    BlindDirector (versionProxy d base ctx) := fun h =>
  have hhost := hostDirector_same hd base h
  attributedDirector_same hd { hhost with header := (hhost.header.del _).del _ }

/-- A proxy sends the same request, or refuses it on both sides. -/
theorem outgoing_same {p : ReverseProxy} (hp : BlindDirector p) (h : SameRequest r r') :
    (∃ out out', p.outgoing r = some out ∧ p.outgoing r' = some out' ∧ SameOut out out') ∨
      p.outgoing r = none ∧ p.outgoing r' = none := by
  have hout := hp h.clone
  have hte : r.header (ascii "Te") = r'.header (ascii "Te") := h.header _ (by decide)
  unfold ReverseProxy.outgoing
  dsimp only
  rw [hout.header.upgradeType, h.remoteAddr, hte]
  split
  · exact .inl ⟨_, _, rfl, rfl, { hout with header := hout.header.forwardedHeader _ _ }⟩
  · exact .inr ⟨rfl, rfl⟩

/-- A proxy forwards requests that are the same up to the bearer alike. -/
theorem serveProxy_same {p : ReverseProxy} (hp : BlindDirector p) (up : Upstream)
    (h : SameRequest r r') : Same Alike Eq (serveProxy (d := d) up p r) (serveProxy up p r') := by
  unfold serveProxy
  rcases outgoing_same hp h with ⟨out, out', hr, hr', hout⟩ | ⟨hr, hr'⟩
  · rw [hr, hr']
    refine (same_proxied up hout).bind fun a b hab => ?_
    subst hab
    cases a <;> exact .ret rfl
  · rw [hr, hr']
    exact .ret rfl

end Proxies

/-- Every request is handled the same. -/
theorem handler_same (hd : TokenBlind d Alike) (hgw : Gateway.Blind Alike srv.gateway)
    (secret : Bytes) (r : Request) :
    Same Alike Eq (srv.handler r) ((srv.withSecret secret).handler r) := by
  have hself : SameRequest r r := ⟨rfl, rfl, rfl, rfl, rfl, .refl _⟩
  have hdisp : dispatch (srv.withSecret secret).cfg r = dispatch srv.cfg r := rfl
  unfold Server.handler
  rw [hdisp]
  cases dispatch srv.cfg r with
  | handler e =>
    cases e with
    | health => exact .ret rfl
    | proxyWithSession =>
      refine (hgw.authorize fun tok tok' => tokenRefresherAdapter_same tok tok').bind
        fun v v' hv => ?_
      cases hv with
      | refuse resp => exact .ret rfl
      | forward h => exact serveProxy_same (adminProxy_blind hd) .admin h
    | proxy => exact serveProxy_same (adminProxy_blind hd) .admin hself
    | login => exact handleLogin_same r secret
    | callback => exact handleCallback_same _ r secret
    | session => exact handleSession_same r hd
    | logout => exact handleLogout_same _ r secret hd
    | elevate => exact handleElevate_same _ r secret hd hgw
    | version =>
      have hissuer : (srv.withSecret secret).cfg.oauthURL = srv.cfg.oauthURL := rfl
      dsimp only [Server.serve]
      rw [hissuer]
      cases srv.cfg.oauthURL with
      | none => exact .ret rfl
      | some base => exact serveProxy_same (versionProxy_blind hd base) .issuer hself
  | _ => exact .ret rfl

end Bff
