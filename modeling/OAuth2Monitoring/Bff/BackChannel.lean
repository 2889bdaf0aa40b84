import OAuth2Monitoring.Bff.Login
import OAuth2Monitoring.GoStd.Query

/-!
# What the issuer reads

The BFF talks to the issuer in forms, and sends the browser there with a query. Both are written by
`Values.encode`, so whatever the values are, a code or a state from the browser among them, the
issuer reads each field as it was meant and no other one.

A form names the BFF's client and carries its secret, and the call is attributed to the browser it
is made for. The code of a callback is exchanged with the verifier whose challenge the login's
redirect carried, for the same client and the same redirect URI.

## Main results

* `backChannel_of_run`: every post to the issuer is one of four forms, read back field by field.
* `pkce_of_run`: the redirect and the exchange of one login belong together.
-/

namespace Bff

open GoStd Interleaving Interleaving.Prog

variable {d : Deps} {srv : Server d}

/-! ## The forms -/

/-- The form of a refresh. -/
def refreshForm (cfg : Config) (refreshToken : Bytes) : Values :=
  [(ascii "grant_type", ascii "refresh_token"), (ascii "refresh_token", refreshToken),
    (ascii "client_id", cfg.clientID)]

/-- The forms the BFF posts, by the endpoint. -/
inductive IssuerForm (cfg : Config) : String → Values → Prop
  | exchange (code verifier : Bytes) :
    IssuerForm cfg "/oauth/token" (exchangeForm cfg code verifier)
  | refresh (refreshToken : Bytes) : IssuerForm cfg "/oauth/token" (refreshForm cfg refreshToken)
  | revokeRefresh (tok : Bytes) :
    IssuerForm cfg "/oauth/revoke" (revokeForm cfg tok "refresh_token")
  | revokeAccess (tok : Bytes) : IssuerForm cfg "/oauth/revoke" (revokeForm cfg tok "access_token")

/-- The form with the client's secret, if there is one. -/
def withClientSecret (cfg : Config) (form : Values) : Values :=
  if cfg.clientSecret ≠ [] then form.set (ascii "client_secret") cfg.clientSecret else form

section Forms

variable {cfg : Config} {path : String} {form : Values}

/-- The form of a revocation, with its hint. -/
theorem revokeForm_eq (tok : Bytes) {hint : String} (hhint : ascii hint ≠ []) :
    revokeForm cfg tok hint =
      [(ascii "token", tok), (ascii "client_id", cfg.clientID),
        (ascii "token_type_hint", ascii hint)] := by
  have hnot : ascii "token_type_hint" ∉ [ascii "token", ascii "client_id"] := by decide
  rw [revokeForm, if_pos hhint]
  exact Values.set_of_not_mem hnot _

/-- The keys of a form differ, the secret's among them. -/
theorem IssuerForm.distinct (h : IssuerForm cfg path form) :
    form.Distinct ∧ ascii "client_secret" ∉ form.map Prod.fst := by
  have hrevoke : ([ascii "token", ascii "client_id", ascii "token_type_hint"] : List Bytes).Nodup ∧
      ascii "client_secret" ∉ [ascii "token", ascii "client_id", ascii "token_type_hint"] := by
    decide
  have hexchange : ([ascii "grant_type", ascii "code", ascii "redirect_uri", ascii "client_id",
      ascii "code_verifier"] : List Bytes).Nodup ∧ ascii "client_secret" ∉ [ascii "grant_type",
      ascii "code", ascii "redirect_uri", ascii "client_id", ascii "code_verifier"] := by
    decide
  have hrefresh : ([ascii "grant_type", ascii "refresh_token", ascii "client_id"] :
      List Bytes).Nodup ∧ ascii "client_secret" ∉
        [ascii "grant_type", ascii "refresh_token", ascii "client_id"] := by
    decide
  cases h with
  | exchange => exact hexchange
  | refresh => exact hrefresh
  | revokeRefresh tok =>
    rw [revokeForm_eq tok (by decide)]
    exact hrevoke
  | revokeAccess tok =>
    rw [revokeForm_eq tok (by decide)]
    exact hrevoke

/-- Every form names the client. -/
theorem IssuerForm.client_id (h : IssuerForm cfg path form) :
    (ascii "client_id", cfg.clientID) ∈ form := by
  cases h with
  | exchange => simp [exchangeForm]
  | refresh => simp [refreshForm]
  | revokeRefresh tok =>
    rw [revokeForm_eq tok (by decide)]
    simp
  | revokeAccess tok =>
    rw [revokeForm_eq tok (by decide)]
    simp

/-- With the client secret, too, no key is there twice. -/
theorem IssuerForm.distinct_withClientSecret (h : IssuerForm cfg path form) :
    (withClientSecret cfg form).Distinct := by
  unfold withClientSecret
  split
  · exact h.distinct.1.set h.distinct.2 _
  · exact h.distinct.1

/-- The client secret takes no pair away. -/
theorem mem_withClientSecret (h : IssuerForm cfg path form) {kv : Bytes × Bytes} (hkv : kv ∈ form) :
    kv ∈ withClientSecret cfg form := by
  unfold withClientSecret
  split
  · rw [Values.set_of_not_mem h.distinct.2]
    exact List.mem_append_left _ hkv
  · exact hkv

/-- The client secret is in the form. -/
theorem get_client_secret (h : IssuerForm cfg path form) :
    (withClientSecret cfg form).get (ascii "client_secret") = cfg.clientSecret := by
  by_cases hsecret : cfg.clientSecret = []
  · rw [withClientSecret, if_neg (not_not_intro hsecret), Values.get_of_not_mem h.distinct.2,
      hsecret]
  · refine Values.get_of_mem h.distinct_withClientSecret ?_
    rw [withClientSecret, if_pos hsecret, Values.set_of_not_mem h.distinct.2]
    simp

end Forms

/-! ## Calls -/

/-- A post to the issuer: one of the forms, for the browser of the request. -/
def IssuerPost (srv : Server d) (r : Request) (c : Call) : Prop :=
  ∃ path form, IssuerForm srv.cfg path form ∧
    c = issuerCall srv.cfg (Server.attribution d r) d path form

/-- The operation is no post to the issuer, or one that is allowed. -/
def PostsForms (srv : Server d) (r : Request) : Op d → Prop
  | .post .issuer c => IssuerPost srv r c
  | _ => True

section Calls

variable {r : Request}

/-- A call of the token endpoint posts one of the forms. -/
theorem token_posts {path : String} {form : Values} (hform : IssuerForm srv.cfg path form)
    (hpath : path = "/oauth/token") :
    (token srv.cfg (Server.attribution d r) form).Uses (PostsForms srv r) := by
  subst hpath
  have hsat := @token_sat d srv.cfg (Server.attribution d r) (fun _ op => PostsForms srv r op) []
    form ⟨_, form, hform, rfl⟩
  exact hsat.uses

theorem tokenRefresherAdapter_posts (tok : Bytes) :
    (tokenRefresherAdapter srv.cfg (Server.attribution d r) tok).Uses (PostsForms srv r) :=
  (token_posts (.refresh tok) rfl).bind fun _ => trivial

theorem revoke_posts {tok : Bytes} {hint : String}
    (hform : IssuerForm srv.cfg "/oauth/revoke" (revokeForm srv.cfg tok hint)) :
    (revoke srv.cfg (Server.attribution d r) tok hint).Uses (PostsForms srv r) := by
  unfold revoke
  split
  · trivial
  · dsimp only
    split
    · exact ⟨⟨_, _, hform, rfl⟩, fun a => by cases a <;> trivial⟩
    · trivial

/-- An operation that is no post is no post to the issuer. -/
theorem postsForms_of_gatewayOp {op : Op d} (h : GatewayOp op) : PostsForms srv r op := by
  cases op <;> trivial

/-- A callback posts nothing else to the issuer. -/
theorem handleCallback_posts :
    (srv.handleCallback (Server.attribution d r) r).Uses (PostsForms srv r) := by
  unfold Server.handleCallback
  dsimp only
  split
  · trivial
  · refine ⟨trivial, fun taken => ?_⟩
    cases taken with
    | none => trivial
    | some login =>
      dsimp only [Prog.bind]
      split
      · trivial
      · split
        · trivial
        · refine (token_posts (.exchange _ _) rfl).bind fun tr => ?_
          cases tr with
          | error e => trivial
          | ok tr => exact ⟨trivial, fun _ => ⟨trivial, fun _ => ⟨trivial, fun _ => ⟨trivial,
              fun _ => trivial⟩⟩⟩⟩

theorem handleLogout_posts :
    (srv.handleLogout (Server.attribution d r) r).Uses (PostsForms srv r) := by
  refine (Server.currentSession_uses fun op h => ?_).bind fun sess => ?_
  · cases op <;> trivial
  · cases sess with
    | none => trivial
    | some sess =>
      dsimp only
      split
      · trivial
      · refine Uses.bind ?_ fun _ => ?_
        · exact (revoke_posts (.revokeRefresh _)).bind fun _ =>
            (revoke_posts (.revokeAccess _)).bind fun _ => trivial
        · have hdelete : (Server.deleteSession (d.id sess)).Uses (PostsForms srv r) :=
            ⟨trivial, fun _ => ⟨trivial, fun _ => ⟨trivial, fun _ => trivial⟩⟩⟩
          refine hdelete.bind fun done => ?_
          cases done <;> trivial

theorem handleElevate_posts (hgw : srv.gateway.Lawful) :
    (srv.handleElevate (Server.attribution d r) r).Uses (PostsForms srv r) := by
  refine (Server.rateLimited_uses trivial).bind fun limited => ?_
  cases limited with
  | some resp => trivial
  | none =>
    refine (Server.currentSession_uses fun op h => ?_).bind fun sess => ?_
    · cases op <;> trivial
    · cases sess with
      | none => trivial
      | some sess =>
        dsimp only
        split
        · trivial
        · refine (hgw.ensureFresh_uses _ _ _ (fun op h => postsForms_of_gatewayOp h)
            tokenRefresherAdapter_posts).bind fun fresh => ?_
          cases fresh with
          | fresh sess =>
            exact Server.elevateUpstream_uses trivial trivial fun _ => trivial
          | fatal => exact ⟨trivial, fun _ => trivial⟩
          | transient => trivial

/-- Every handler posts the forms only, each for its own browser. -/
theorem handler_posts (hgw : srv.gateway.Lawful) (r : Request) :
    (srv.handler r).Uses (PostsForms srv r) := by
  unfold Server.handler
  cases dispatch srv.cfg r with
  | handler e =>
    cases e with
    | proxyWithSession =>
      refine (hgw.authorize_uses _ _ _ _ (fun op h => postsForms_of_gatewayOp h)
        tokenRefresherAdapter_posts).bind fun verdict => ?_
      cases verdict with
      | refuse resp => trivial
      | forward r' => exact serveProxy_uses fun _ => trivial
    | callback => exact handleCallback_posts
    | logout => exact handleLogout_posts
    | elevate => exact handleElevate_posts hgw
    | health => trivial
    | proxy => exact serveProxy_uses fun _ => trivial
    | login =>
      refine Server.handleLogin_uses.mono fun op h => ?_
      cases op <;> trivial
    | session =>
      refine Server.handleSession_uses.mono fun op h => ?_
      cases op <;> trivial
    | version =>
      simp only [Server.serve]
      cases srv.cfg.oauthURL with
      | none => trivial
      | some base => exact serveProxy_uses fun _ => trivial
  | _ => trivial

end Calls

/-! ## What is read back -/

/-- What the issuer reads in a post for the browser of `r`. -/
structure IssuerReads (srv : Server d) (r : Request) (c : Call) (path : String) (form : Values) :
    Prop where
  endpoint : c.endpoint = trimRight srv.cfg.oauthUpstream slash ++ ascii path
  /-- It reads the fields of the form and the secret, and nothing else. -/
  fields : (parseQuery c.body).Perm (withClientSecret srv.cfg form)
  field : ∀ key value, (key, value) ∈ form → (parseQuery c.body).get key = value
  client_id : (parseQuery c.body).get (ascii "client_id") = srv.cfg.clientID
  client_secret : (parseQuery c.body).get (ascii "client_secret") = srv.cfg.clientSecret
  /-- The call says which browser it is made for, and hands on no other header of it. -/
  attributed : ∃ h : Header, c.header = d.applyClientAttribution (Server.attribution d r) h ∧
    ∀ key, key ≠ ascii "Content-Type" → h key = []

/-- The issuer reads the pairs of the form, each under its key. -/
theorem issuerReads_of_form (r : Request) {path : String} {form : Values}
    (h : IssuerForm srv.cfg path form) :
    IssuerReads srv r (issuerCall srv.cfg (Server.attribution d r) d path form) path form := by
  have hbody : (issuerCall srv.cfg (Server.attribution d r) d path form).body =
      (withClientSecret srv.cfg form).encode := rfl
  have hget : ∀ key value, (key, value) ∈ form →
      (parseQuery (withClientSecret srv.cfg form).encode).get key = value := by
    intro key value hmem
    rw [get_parseQuery_encode h.distinct_withClientSecret]
    exact Values.get_of_mem h.distinct_withClientSecret (mem_withClientSecret h hmem)
  refine ⟨rfl, ?_, ?_, ?_, ?_, _, rfl, fun key hkey => ?_⟩
  · rw [hbody, parseQuery_encode]
    exact sorted_perm _
  · rw [hbody]
    exact hget
  · rw [hbody]
    exact hget _ _ h.client_id
  · rw [hbody, get_parseQuery_encode h.distinct_withClientSecret]
    exact get_client_secret h
  · have hcanonical : canonicalMIMEHeaderKey (ascii "Content-Type") = ascii "Content-Type" := by
      decide
    rw [Header.set_of_ne _ _ (by rwa [hcanonical])]
    rfl

/-- Whatever runs interleaved, and whatever browsers send, each post to the issuer is one of the
BFF's forms, and is read back as it was meant. -/
theorem backChannel_of_run (hgw : srv.gateway.Lawful) {w₀ : World d}
    {P : Pool (World d) Request (@Res d) Response} (hP : srv.Run w₀ P) {newer older : Trace d}
    {e : Entry Request (@Res d)} {c : Call} (htr : P.trace = newer ++ e :: older)
    (hop : e.event.op = .post .issuer c) :
    ∃ path form, IssuerForm srv.cfg path form ∧ IssuerReads srv e.job c path form := by
  have hcode : ∀ r, (srv.handler r).Sat (fun _ op => PostsForms srv r op) (fun _ _ => True) [] :=
    fun r => (handler_posts hgw r).sat fun _ _ h => h
  have hposts : PostsForms srv e.job e.event.op :=
    along_iff.mp (hP.obeys hcode) newer e older htr
  rw [hop] at hposts
  obtain ⟨path, form, hform, rfl⟩ := hposts
  exact ⟨path, form, hform, issuerReads_of_form e.job hform⟩

/-! ## The two halves of a login -/

/-- The redirect of a login and the post of a callback, as the issuer reads them, are the two halves
of one authorization. -/
structure Paired (srv : Server d) (r : Request) (query body : Values) : Prop where
  response_type : query.get (ascii "response_type") = ascii "code"
  grant_type : body.get (ascii "grant_type") = ascii "authorization_code"
  client_id : query.get (ascii "client_id") = srv.cfg.clientID ∧
    body.get (ascii "client_id") = srv.cfg.clientID
  redirect_uri : query.get (ascii "redirect_uri") = srv.cfg.redirectURI ∧
    body.get (ascii "redirect_uri") = srv.cfg.redirectURI
  /-- The state and the code are those the callback presents. -/
  state : query.get (ascii "state") = stateOf r
  code : body.get (ascii "code") = codeOf r
  /-- The challenge is that of the verifier. -/
  challenge : query.get (ascii "code_challenge") =
    d.s256Challenge (body.get (ascii "code_verifier"))
  method : query.get (ascii "code_challenge_method") = ascii "S256"

/-- The query of the authorization redirect. -/
def authorizeQuery (cfg : Config) (state challenge : Bytes) : Values :=
  [(ascii "response_type", ascii "code"), (ascii "client_id", cfg.clientID),
    (ascii "redirect_uri", cfg.redirectURI), (ascii "scope", cfg.scopes), (ascii "state", state),
    (ascii "code_challenge", challenge), (ascii "code_challenge_method", ascii "S256")]

/-- The issuer reads back the pairs of the authorization request. -/
theorem get_authorizeQuery {cfg : Config} {state challenge key value : Bytes}
    (h : (key, value) ∈ authorizeQuery cfg state challenge) :
    (parseQuery (authorizeQuery cfg state challenge).encode).get key = value := by
  have hkeys : ([ascii "response_type", ascii "client_id", ascii "redirect_uri", ascii "scope",
      ascii "state", ascii "code_challenge", ascii "code_challenge_method"] :
        List Bytes).Nodup := by
    decide
  have hdistinct : (authorizeQuery cfg state challenge).Distinct := hkeys
  rw [get_parseQuery_encode hdistinct]
  exact Values.get_of_mem hdistinct h

/-- The redirect of a login that stored `login` under `state`, beside the exchange of a callback
that presents that state. -/
theorem paired_of_exchange {r : Request} {login : PendingLogin} :
    Paired srv r
      (parseQuery
        (authorizeQuery srv.cfg (stateOf r) (d.s256Challenge login.verifier)).encode)
      (parseQuery (exchangeCall srv r login.verifier).body) := by
  have hreads : IssuerReads srv r (exchangeCall srv r login.verifier) _ _ :=
    issuerReads_of_form r (.exchange (codeOf r) login.verifier)
  have hbody := hreads.field
  have hquery := @get_authorizeQuery srv.cfg (stateOf r) (d.s256Challenge login.verifier)
  have hverifier : (parseQuery (exchangeCall srv r login.verifier).body).get
      (ascii "code_verifier") = login.verifier := hbody _ _ (by simp [exchangeForm])
  refine ⟨hquery (by simp [authorizeQuery]), hbody _ _ (by simp [exchangeForm]),
    ⟨hquery (by simp [authorizeQuery]), hbody _ _ (by simp [exchangeForm])⟩,
    ⟨hquery (by simp [authorizeQuery]), hbody _ _ (by simp [exchangeForm])⟩,
    hquery (by simp [authorizeQuery]), hbody _ _ (by simp [exchangeForm]), ?_,
    hquery (by simp [authorizeQuery])⟩
  rw [hverifier]
  exact hquery (by simp [authorizeQuery])

/-- In every run from a start without pending logins, a callback calls the issuer only, and only
with the code of its request and the verifier of an earlier login of the same state and the same
browser: what that login sent the browser to the issuer with and what the callback posts there are
read as the two halves of one authorization. -/
theorem pkce_of_run (hd : d.Lawful) (hgw : srv.gateway.Lawful) {t₀ : ℤ} {st : SessionStore d}
    {P : Pool (World d) Request (@Res d) Response} (hP : srv.Run (World.start srv.cfg t₀ st) P)
    {newer older : Trace d} {e : Entry Request (@Res d)} {up : Upstream} {c : Call}
    (htr : P.trace = newer ++ e :: older) (hcb : dispatch srv.cfg e.job = .handler .callback)
    (hop : e.event.op = .post up c) :
    up = .issuer ∧ ∃ login u th, P.threads[u]? = some th ∧
      dispatch srv.cfg th.job = .handler .login ∧
      stored (stateOf e.job) login ∈ history u older ∧ d.loginCookie e.job = some login.nonce ∧
      ∀ resp, th.prog = .ret resp → SetCookie.login login.nonce ∈ resp.cookies ∧
        ∃ query, resp.location = some (redirectURL th.job.url.path
            (trimRight srv.cfg.oauthPublicURL slash ++ ascii "/oauth/authorize?" ++ query)) ∧
          (∃ front, resp.location = some (front ++ 63 :: query)) ∧
          Paired srv e.job (parseQuery query) (parseQuery c.body) := by
  have hstep := callbackStep_of_run hd hgw hP htr hcb
  rw [hop] at hstep
  obtain ⟨login, hpast, hnonce, rfl, rfl⟩ := hstep
  have htook : took (stateOf e.job) login ∈ history e.tid older := by
    rw [hpast]
    exact List.mem_singleton_self _
  obtain ⟨u, hu⟩ := storedBy_of_took hd hgw hP (htr.trans (List.append_cons newer e older)) htook
  obtain ⟨th, hth, hlogin, -, hresp⟩ := hu.thread
  refine ⟨rfl, login, u, th, hth, hlogin, hu.stored, hnonce, fun resp hret => ?_⟩
  obtain ⟨hloc, hcookie⟩ := hresp resp hret
  -- the query that was written is the query that is sent
  obtain ⟨front, hfront⟩ := exists_redirectURL_query th.job.url.path
    (trimRight srv.cfg.oauthPublicURL slash ++ ascii "/oauth/authorize")
    (encode_ascii (authorizeQuery srv.cfg (stateOf e.job) (d.s256Challenge login.verifier)))
  have hsent : authorizeURL srv.cfg (stateOf e.job) (d.s256Challenge login.verifier) =
      trimRight srv.cfg.oauthPublicURL slash ++ ascii "/oauth/authorize" ++ 63 ::
        (authorizeQuery srv.cfg (stateOf e.job) (d.s256Challenge login.verifier)).encode := by
    have hmark : ascii "/oauth/authorize?" = ascii "/oauth/authorize" ++ [63] := by decide
    rw [authorizeURL, hmark, ← List.append_assoc, List.append_assoc, List.singleton_append]
    rfl
  exact ⟨hcookie, (authorizeQuery srv.cfg (stateOf e.job) (d.s256Challenge login.verifier)).encode,
    hloc, ⟨front, by rw [hloc, hsent, hfront]⟩, paired_of_exchange⟩

namespace Reference

/-- A login and its callback, up to the exchange of the code. -/
theorem exists_exchange : ∃ P newer older resp p, server.Run world P ∧
    P.threads = [⟨loginRequest, .ret resp⟩, ⟨callbackRequest, p⟩] ∧ P.trace = newer ++
      ⟨1, callbackRequest, ⟨.post .issuer (exchangeCall server callbackRequest verifier),
        some tokenAnswer⟩⟩ :: older := by
  obtain ⟨l, rl, hlogin⟩ := loginRequest_run
  obtain ⟨l', sess, w', hcallback, hmem⟩ := callbackRequest_run rl
  have hP : server.Run world _ :=
    (Reachable.start.run loginRequest hlogin).run callbackRequest hcallback
  have hentry : (⟨1, callbackRequest, ⟨.post .issuer (exchangeCall server callbackRequest verifier),
      some tokenAnswer⟩⟩ : Entry Request (@Res deps)) ∈
        l'.reverse.map (fun ev => ⟨1, callbackRequest, ev⟩) ++
          (l.reverse.map (fun ev => ⟨0, loginRequest, ev⟩) ++ []) := by
    simpa using hmem
  obtain ⟨newer, older, htr⟩ := List.append_of_mem hentry
  exact ⟨_, newer, older, _, _, hP, rfl, htr⟩

/-- The form of the sample exchange is read back. -/
theorem exchange_read : ∃ path form, IssuerForm server.cfg path form ∧
    IssuerReads server callbackRequest (exchangeCall server callbackRequest verifier) path
      form := by
  obtain ⟨P, newer, older, -, -, hP, -, htr⟩ := exists_exchange
  exact backChannel_of_run gateway_lawful hP htr rfl

/-- The redirect of the login and the post of the callback belong together. -/
theorem exchange_paired : ∃ (P : Pool (World deps) Request (@Res deps) Response)
    (older : Trace deps) (login : PendingLogin) (resp : Response) (front query : Bytes),
    server.Run world P ∧ P.threads[0]? = some ⟨loginRequest, .ret resp⟩ ∧
      stored (stateOf callbackRequest) login ∈ history 0 older ∧
      deps.loginCookie callbackRequest = some login.nonce ∧
      SetCookie.login login.nonce ∈ resp.cookies ∧
      resp.location = some (front ++ 63 :: query) ∧
      Paired server callbackRequest (parseQuery query)
        (parseQuery (exchangeCall server callbackRequest verifier).body) := by
  obtain ⟨P, newer, older, resp, p, hP, hthreads, htr⟩ := exists_exchange
  obtain ⟨-, login, u, th, hth, hlogin, hstored, hnonce, hresp⟩ :=
    pkce_of_run lawful gateway_lawful hP htr dispatch_callbackRequest rfl
  -- the login is the first of the two requests
  obtain ⟨rfl, rfl⟩ : u = 0 ∧ th = ⟨loginRequest, .ret resp⟩ := by
    rw [hthreads] at hth
    exact eq_of_dispatch_login hth hlogin
  obtain ⟨hcookie, query, -, ⟨front, hfront⟩, hpaired⟩ := hresp resp rfl
  exact ⟨P, older, login, resp, front, query, hP, hth, hstored, hnonce, hcookie, hfront, hpaired⟩

end Reference

end Bff
