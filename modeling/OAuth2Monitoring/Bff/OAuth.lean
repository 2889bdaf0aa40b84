import OAuth2Monitoring.Bff.Gateway

/-!
# The back-channel token calls

The programs of `oauthClient`, and the identity that is read from a token response.
-/

namespace Bff

open GoStd Interleaving Interleaving.Prog

section Client

variable {d : Deps} (cfg : Config) (ctx : Attribution)

/-- The browser-facing authorization redirect. -/
def authorizeURL (state challenge : Bytes) : Bytes :=
  let q : Values :=
    [(ascii "response_type", ascii "code"), (ascii "client_id", cfg.clientID),
      (ascii "redirect_uri", cfg.redirectURI), (ascii "scope", cfg.scopes),
      (ascii "state", state), (ascii "code_challenge", challenge),
      (ascii "code_challenge_method", ascii "S256")]
  trimRight cfg.oauthPublicURL slash ++ ascii "/oauth/authorize?" ++ q.encode

/-- A form posted to the issuer for the browser `ctx`, with the client's secret. -/
def issuerCall (d : Deps) (path : String) (form : Values) : Call :=
  let form := if cfg.clientSecret ≠ [] then form.set (ascii "client_secret") cfg.clientSecret
    else form
  { endpoint := trimRight cfg.oauthUpstream slash ++ ascii path
    header := d.applyClientAttribution ctx
      (Header.empty.set (ascii "Content-Type") (ascii "application/x-www-form-urlencoded"))
    body := form.encode }

/-- The most of an issuer's or step-up answer that is read. -/
def readLimit : ℕ := 1048576

/-- What `token` makes of the issuer's answer. -/
def tokenReply (d : Deps) : Option Answer → Except TokenError TokenResponse
  | none => .error .transport
  | some resp =>
    let body := resp.body.take readLimit
    -- whether the body parses is not looked at
    let tr := d.unmarshalToken body
    if resp.status ≠ 200 then
      .error (.oauth resp.status tr.error (if tr.error = [] then trimSpace body else tr.errorDesc))
    else if tr.accessToken = [] then .error .missingAccessToken
    else .ok tr

/-- `oauthClient.token`. -/
def token (form : Values) : Prog (@Res d) (Except TokenError TokenResponse) :=
  let c := issuerCall cfg ctx d "/oauth/token" form
  if d.validURL c.endpoint then do
    let resp ← post .issuer c
    pure (tokenReply d resp)
  else pure (.error .request)

/-- The form of a code exchange. -/
def exchangeForm (code verifier : Bytes) : Values :=
  [(ascii "grant_type", ascii "authorization_code"), (ascii "code", code),
    (ascii "redirect_uri", cfg.redirectURI), (ascii "client_id", cfg.clientID),
    (ascii "code_verifier", verifier)]

/-- `oauthClient.exchange`. -/
def exchange (code verifier : Bytes) : Prog (@Res d) (Except TokenError TokenResponse) :=
  token cfg ctx (exchangeForm cfg code verifier)

/-- `oauthClient.refresh`. -/
def refresh (refreshToken : Bytes) : Prog (@Res d) (Except TokenError TokenResponse) :=
  token cfg ctx
    [(ascii "grant_type", ascii "refresh_token"), (ascii "refresh_token", refreshToken),
      (ascii "client_id", cfg.clientID)]

/-- `tokenRefresherAdapter.RefreshToken`. -/
def tokenRefresherAdapter : TokenRefresher d := fun refreshToken => do
  let tr ← refresh cfg ctx refreshToken
  pure <| tr.map fun tr =>
    { accessToken := tr.accessToken, refreshToken := tr.refreshToken, idToken := tr.idToken,
      expiresIn := tr.expiresIn, tokenType := tr.tokenType, roles := tr.roles,
      appRoles := tr.appRoles }

/-- Why a revocation failed; the caller logs it and goes on. -/
inductive RevokeError
  | request
  | transport
  | status (code : ℕ)

/-- The form of a revocation; the hint is advisory. -/
def revokeForm (tok : Bytes) (hint : String) : Values :=
  let form : Values := [(ascii "token", tok), (ascii "client_id", cfg.clientID)]
  if ascii hint ≠ [] then form.set (ascii "token_type_hint") (ascii hint) else form

/-- `oauthClient.revoke`: an empty token is a no-op. -/
def revoke (tok : Bytes) (hint : String) : Prog (@Res d) (Option RevokeError) :=
  if tok = [] then pure none
  else
    let c := issuerCall cfg ctx d "/oauth/revoke" (revokeForm cfg tok hint)
    if d.validURL c.endpoint then do
      match ← post .issuer c with
      | none => pure (some .transport)
      | some resp => pure (if resp.status / 100 ≠ 2 then some (.status resp.status) else none)
    else pure (some .request)

end Client

/-! ## The identity in a token response -/

section Identity

variable (d : Deps)

/-- Decode a JWT payload without verifying the signature. -/
def decodeJWTClaims (tok : Bytes) : Option (Bytes → Option Json) :=
  match tok.splitOn 46 with
  | [_, payload, _] => (d.rawURLDecode payload).bind d.unmarshalObject
  | _ => none

/-- A claim that is a string. -/
def stringClaim (claims : Option (Bytes → Option Json)) (name : String) : Option Bytes :=
  match claims.bind (· (ascii name)) with
  | some (.str s) => some s
  | _ => none

/-- The strings of the token's `roles` claim. -/
def jwtRoles (tok : Bytes) : List Bytes :=
  match (decodeJWTClaims d tok).bind (· (ascii "roles")) with
  | some (.arr elems) => elems.filterMap fun
    | .str s => some s
    | _ => none
  | _ => []

/-- Append a role that is neither empty nor there already. -/
def addRole (out : List Bytes) (r : Bytes) : List Bytes :=
  if r = [] ∨ r ∈ out then out else out ++ [r]

/-- The roles of the body, of the token and of this client's entry in `app_roles`. -/
def mergeRoles (clientID : Bytes) (tr : TokenResponse) : List Bytes :=
  (tr.roles ++ jwtRoles d tr.accessToken ++ (tr.appRoles.lookup clientID).toList).foldl addRole []

/-- The session's `UserInfo`. -/
def userFromToken (clientID : Bytes) (tr : TokenResponse) : UserInfo :=
  let claims := decodeJWTClaims d tr.accessToken
  { sub := (stringClaim claims "sub").getD []
    email := (stringClaim claims "email").getD []
    name := ((stringClaim claims "name").or (stringClaim claims "preferred_username")).getD []
    roles := mergeRoles d clientID tr }

end Identity

/-! ## What the calls do -/

section Spec

variable {d : Deps} {cfg : Config} {ctx : Attribution}
  {Φ : List (Event (@Res d)) → Op d → Prop} {h : List (Event (@Res d))} {A : Op d → Prop}

/-- A token request posts its form to the issuer, once at most. -/
theorem token_sat {form : Values}
    (hΦ : Φ h (.post .issuer (issuerCall cfg ctx d "/oauth/token" form))) :
    (token cfg ctx form).Sat Φ
      (fun h' r => h' = h ∧ (∃ e, r = .error e) ∨
        ∃ a, h' = ⟨.post .issuer (issuerCall cfg ctx d "/oauth/token" form), a⟩ :: h ∧
          r = tokenReply d a) h := by
  unfold token
  dsimp only
  split
  · exact ⟨hΦ, fun a => .inr ⟨a, rfl, rfl⟩⟩
  · exact .inl ⟨rfl, _, rfl⟩

/-- Token requests, refreshes and revocations post to the issuer only. -/
theorem token_uses (hA : ∀ c, A (.post .issuer c)) (form : Values) :
    (token cfg ctx form).Uses A := by
  have hsat := @token_sat d cfg ctx (fun _ op => A op) [] form (hA _)
  exact hsat.uses

theorem tokenRefresherAdapter_uses (hA : ∀ c, A (.post .issuer c)) (tok : Bytes) :
    (tokenRefresherAdapter cfg ctx tok).Uses A :=
  (token_uses hA _).bind fun _ => trivial

theorem revoke_uses (hA : ∀ c, A (.post .issuer c)) (tok : Bytes) (hint : String) :
    (revoke cfg ctx tok hint).Uses A := by
  unfold revoke
  split
  · trivial
  · dsimp only
    split
    · exact ⟨hA _, fun a => by cases a <;> trivial⟩
    · trivial

end Spec

end Bff
