import OAuth2Monitoring.Bff.World

/-!
# Reading the configuration

`LoadConfig` reads the `BFF_*` variables and refuses to start on most combinations that would leave
the console open. `RuntimeConfig` is all it reads; `Config` is the part the handlers use.

## Main results

* `loadConfig_eq_ok`: what a configuration that is accepted is, and what has been checked of it.
* `loadConfig_names_variable`: an error names a variable.
* `failClosed_iff`: an accepted configuration is as the security notes say, unless it gives up
  secure cookies on an origin that is neither `http://` nor `https://`.
-/

namespace Bff

open GoStd

/-- The environment: the value of a variable, empty when it is not set. -/
abbrev Environ := String → Bytes

deriving instance DecidableEq for BaseURL

/-- A parsed URL, as far as the BFF reads it. -/
structure ParsedURL where
  scheme : Bytes
  base : BaseURL
  deriving DecidableEq

/-- The parts of the standard library that read and print single values. -/
structure Parsers where
  /-- `url.Parse`. -/
  parseURL : Bytes → Option ParsedURL
  /-- `time.ParseDuration`. -/
  parseDuration : Bytes → Option ℤ
  /-- `strconv.Atoi`. -/
  atoi : Bytes → Option ℤ
  /-- `base64.StdEncoding.DecodeString`. -/
  decodeBase64 : Bytes → Option Bytes
  /-- The verb `%q`. -/
  quoted : Bytes → Bytes
  /-- `Duration.String`. -/
  printDuration : ℤ → Bytes

/-- The BFF's runtime configuration, all of it. -/
structure RuntimeConfig where
  listenAddr : Bytes
  adminUpstream : Bytes
  adminURL : Option ParsedURL := none
  oauthUpstream : Bytes
  oauthURL : Option ParsedURL := none
  oauthPublicURL : Bytes
  publicOrigin : Bytes
  clientID : Bytes
  clientSecret : Bytes
  scopes : Bytes
  sessionIdle : ℤ
  sessionAbsolute : ℤ
  sessionDSN : Bytes
  sessionKey : Bytes := []
  sessionSchema : Bytes
  loginRate : ℤ
  elevateRate : ℤ
  cookieSecure : Bool
  allowPassthrough : Bool
  phase1Passthrough : Bool
  deriving DecidableEq

/-- `AuthEnabled`. -/
def RuntimeConfig.authEnabled (c : RuntimeConfig) : Bool := c.clientID ≠ []

/-- Put the parsed upstreams in. -/
def RuntimeConfig.setUpstreams (c : RuntimeConfig) (u ou : ParsedURL) : RuntimeConfig :=
  { c with adminURL := some u, oauthURL := some ou }

/-- What the handlers read of a configuration whose admin upstream is set. -/
def RuntimeConfig.config (c : RuntimeConfig) : Option Config :=
  c.adminURL.map fun admin =>
    { adminUpstream := c.adminUpstream, adminURL := admin.base
      oauthUpstream := c.oauthUpstream, oauthURL := c.oauthURL.map (·.base)
      oauthPublicURL := c.oauthPublicURL, publicOrigin := c.publicOrigin
      clientID := c.clientID, clientSecret := c.clientSecret, scopes := c.scopes
      sessionIdle := c.sessionIdle, sessionAbsolute := c.sessionAbsolute
      loginRate := c.loginRate, elevateRate := c.elevateRate
      allowPassthrough := c.allowPassthrough }

/-- `strings.ToLower`, as far as texts of ASCII letters are compared with the result. -/
def toLower (s : Bytes) : Bytes := s.map fun c => if 65 ≤ c ∧ c ≤ 90 then c + 32 else c

/-! ## Single variables -/

section Variables

variable (std : Parsers) (env : Environ)

/-- `getenv`. -/
def getenv (key : String) (default : Bytes) : Bytes :=
  if env key ≠ [] then env key else default

/-- `getdur`: a value that does not parse counts as unset. -/
def getdur (key : String) (default : ℤ) : ℤ :=
  if env key ≠ [] then (std.parseDuration (env key)).getD default else default

/-- `getint`: so does a number that is not positive. -/
def getint (key : String) (default : ℤ) : ℤ :=
  if env key ≠ [] then
    match std.atoi (env key) with
    | some n => if n > 0 then n else default
    | none => default
  else default

/-- `getbool`. -/
def getbool (key : String) (default : Bool) : Bool :=
  let v := toLower (env key)
  if v = ascii "1" ∨ v = ascii "true" ∨ v = ascii "yes" ∨ v = ascii "on" then true
  else if v = ascii "0" ∨ v = ascii "false" ∨ v = ascii "no" ∨ v = ascii "off" then false
  else default

variable {std env}

/-- A number is positive if its default is. -/
theorem getint_pos {key : String} {default : ℤ} (h : 0 < default) :
    0 < getint std env key default := by
  unfold getint
  split
  · split
    · split
      · assumption
      · exact h
    · exact h
  · exact h

/-- A variable without a default is read as it is. -/
@[simp]
theorem getenv_nil {key : String} : getenv env key [] = env key := by
  by_cases h : env key = [] <;> simp [getenv, h]

/-- A variable that is not set has its default. -/
theorem getenv_of_unset {key : String} {default : Bytes} (h : env key = []) :
    getenv env key default = default := by
  simp [getenv, h]

theorem getbool_of_unset {key : String} {default : Bool} (h : env key = []) :
    getbool env key default = default := by
  unfold getbool
  rw [h, if_neg (by decide), if_neg (by decide)]

theorem getdur_of_unset {key : String} {default : ℤ} (h : env key = []) :
    getdur std env key default = default := by
  simp [getdur, h]

end Variables

/-! ## The checks -/

/-- The values of `BFF_SESSION_SCHEMA`. -/
def sessionSchemaManaged : Bytes := ascii "managed"

/-- The value that lets the BFF migrate its schema itself. -/
def sessionSchemaAuto : Bytes := ascii "auto"

/-- The AES-256 key size the Postgres stores require. -/
def sessionKeyLen : ℕ := 32

/-- Fail with an error if a condition holds. -/
def refuseIf (p : Prop) [Decidable p] (err : Bytes) : Except Bytes Unit :=
  if p then .error err else .ok ()

section Checks

variable (std : Parsers) (env : Environ)

/-- `parseSessionKey`: the errors never echo the value. -/
def parseSessionKey (v : Bytes) : Except Bytes Bytes := do
  let v := trimSpace v
  refuseIf (v = [])
    (ascii "BFF_SESSION_KEY is required when BFF_SESSION_DSN is set: it encrypts the session " ++
      ascii "rows; generate it with `openssl rand -base64 32`")
  match std.decodeBase64 v with
  | none =>
    .error (ascii "BFF_SESSION_KEY is not valid base64 (standard alphabet, with padding); " ++
      ascii "generate it with `openssl rand -base64 32`")
  | some key =>
    refuseIf (key.length ≠ sessionKeyLen)
      (ascii "BFF_SESSION_KEY must decode to " ++ ascii (toString sessionKeyLen) ++
        ascii " bytes, got " ++ ascii (toString key.length) ++
        ascii "; generate it with `openssl rand -base64 32`")
    .ok key

/-- The URL of an upstream has a scheme and a host. -/
def parseUpstream (key : String) (v : Bytes) : Except Bytes ParsedURL :=
  let err := ascii "invalid " ++ ascii key ++ ascii " " ++ std.quoted v
  match std.parseURL v with
  | none => .error err
  | some u => if u.scheme = [] ∨ u.base.host = [] then .error err else .ok u

/-- The configuration as read, before any check. -/
def readEnviron : RuntimeConfig where
  listenAddr := getenv env "BFF_LISTEN_ADDR" (ascii "127.0.0.1:8090")
  adminUpstream := getenv env "BFF_ADMIN_UPSTREAM" (ascii "http://127.0.0.1:8081")
  oauthUpstream := getenv env "BFF_OAUTH_UPSTREAM" (ascii "http://127.0.0.1:8080")
  oauthPublicURL := getenv env "BFF_OAUTH_PUBLIC_URL" []
  publicOrigin := getenv env "BFF_PUBLIC_ORIGIN" []
  clientID := getenv env "BFF_CLIENT_ID" []
  clientSecret := getenv env "BFF_CLIENT_SECRET" []
  scopes := getenv env "BFF_SCOPES" (ascii "openid profile email")
  sessionIdle := getdur std env "BFF_SESSION_IDLE" (30 * 60 * second)
  sessionAbsolute := getdur std env "BFF_SESSION_ABSOLUTE" (8 * 3600 * second)
  sessionDSN := getenv env "BFF_SESSION_DSN" []
  sessionSchema := getenv env "BFF_SESSION_SCHEMA" sessionSchemaManaged
  cookieSecure := getbool env "BFF_COOKIE_SECURE" true
  allowPassthrough := getbool env "BFF_ALLOW_PASSTHROUGH" false
  phase1Passthrough := getbool env "BFF_PHASE1_PASSTHROUGH" false
  loginRate := getint std env "BFF_LOGIN_RATE" 10
  elevateRate := getint std env "BFF_ELEVATE_RATE" 5

/-- What is checked when server-side sessions are enabled. -/
def checkAuth (c : RuntimeConfig) : Except Bytes RuntimeConfig := do
  refuseIf (c.oauthPublicURL = [] ∨ c.publicOrigin = [])
    (ascii "BFF_OAUTH_PUBLIC_URL and BFF_PUBLIC_ORIGIN are required when BFF_CLIENT_ID is set")
  refuseIf (c.clientSecret = [])
    (ascii "BFF_CLIENT_SECRET is required when BFF_CLIENT_ID is set (the BFF is a " ++
      ascii "confidential client)")
  refuseIf (c.cookieSecure = false ∧ ascii "https://" <+: toLower c.publicOrigin)
    (ascii "BFF_COOKIE_SECURE=false is only allowed with a non-https BFF_PUBLIC_ORIGIN " ++
      ascii "(local development); got " ++ std.quoted c.publicOrigin)
  refuseIf (c.sessionIdle ≤ 0)
    (ascii "BFF_SESSION_IDLE must be positive, got " ++ std.printDuration c.sessionIdle)
  refuseIf (c.sessionAbsolute ≤ 0)
    (ascii "BFF_SESSION_ABSOLUTE must be positive, got " ++ std.printDuration c.sessionAbsolute)
  refuseIf (c.sessionSchema ≠ sessionSchemaManaged ∧ c.sessionSchema ≠ sessionSchemaAuto)
    (ascii "BFF_SESSION_SCHEMA must be " ++ std.quoted sessionSchemaManaged ++ ascii " or " ++
      std.quoted sessionSchemaAuto ++ ascii ", got " ++ std.quoted c.sessionSchema)
  if c.sessionDSN ≠ [] then
    let key ← parseSessionKey std (env "BFF_SESSION_KEY")
    .ok { c with sessionKey := key }
  else .ok c

/-- Without server-side sessions the pass-through must have been chosen. -/
def checkPhase (c : RuntimeConfig) : Except Bytes RuntimeConfig := do
  if ¬ c.authEnabled then
    refuseIf (c.phase1Passthrough = false)
      (ascii "BFF_CLIENT_ID is not set: server-side sessions are disabled and the BFF would be " ++
        ascii "an unauthenticated pass-through to the admin API; set BFF_CLIENT_ID " ++
        ascii "(+ BFF_CLIENT_SECRET) to enable them, or BFF_PHASE1_PASSTHROUGH=true to run " ++
        ascii "Phase 1 deliberately for a migration window")
    .ok c
  else checkAuth std env c

/-- `LoadConfig`. -/
def loadConfig : Except Bytes RuntimeConfig := do
  let c := readEnviron std env
  let u ← parseUpstream std "BFF_ADMIN_UPSTREAM" c.adminUpstream
  let ou ← parseUpstream std "BFF_OAUTH_UPSTREAM" c.oauthUpstream
  checkPhase std env (c.setUpstreams u ou)

end Checks

/-! ## What is accepted -/

section Accepted

variable {std : Parsers} {env : Environ} {c c' : RuntimeConfig}

/-- What comes behind a check succeeds when the check passes and it succeeds itself. -/
theorem refuseIf_bind_eq_ok {α : Type} {p : Prop} [Decidable p] {err : Bytes}
    {f : Unit → Except Bytes α} {a : α} :
    (refuseIf p err >>= f) = .ok a ↔ ¬ p ∧ f () = .ok a := by
  unfold refuseIf
  by_cases h : p
  · rw [if_pos h]
    exact iff_of_false nofun fun hp => hp.1 h
  · rw [if_neg h]
    exact (and_iff_right h).symm

/-- It fails with the error of the check, or with its own when the check passes. -/
theorem refuseIf_bind_eq_error {α : Type} {p : Prop} [Decidable p] {err e : Bytes}
    {f : Unit → Except Bytes α} :
    (refuseIf p err >>= f) = .error e ↔ p ∧ err = e ∨ ¬ p ∧ f () = .error e := by
  unfold refuseIf
  by_cases h : p
  · rw [if_pos h, and_iff_right h, or_iff_left fun hn => hn.1 h]
    exact Except.error.injEq err e ▸ Iff.rfl
  · rw [if_neg h, and_iff_right h, or_iff_right fun hp => h hp.1]
    exact Iff.rfl

theorem bind_eq_ok {α β : Type} {x : Except Bytes α} {f : α → Except Bytes β} {b : β} :
    (x >>= f) = .ok b ↔ ∃ a, x = .ok a ∧ f a = .ok b := by
  cases x with
  | error e => exact iff_of_false nofun fun ⟨_, h, _⟩ => nomatch h
  | ok a => exact ⟨fun h => ⟨a, rfl, h⟩, fun ⟨_, ha, h⟩ => by cases ha; exact h⟩

theorem bind_eq_error {α β : Type} {x : Except Bytes α} {f : α → Except Bytes β} {e : Bytes} :
    (x >>= f) = .error e ↔ x = .error e ∨ ∃ a, x = .ok a ∧ f a = .error e := by
  cases x with
  | error e' =>
    refine ⟨fun h => .inl (congrArg Except.error (Except.error.inj h)), fun h => ?_⟩
    rcases h with h | ⟨_, h, _⟩
    · rw [Except.error.inj h]
      rfl
    · cases h
  | ok a =>
    refine ⟨fun h => .inr ⟨a, rfl, h⟩, fun h => h.elim nofun ?_⟩
    rintro ⟨_, ha, h⟩
    cases ha
    exact h

/-- An upstream is a URL with a scheme and a host. -/
theorem parseUpstream_eq_ok {key : String} {v : Bytes} {u : ParsedURL} :
    parseUpstream std key v = .ok u ↔
      std.parseURL v = some u ∧ u.scheme ≠ [] ∧ u.base.host ≠ [] := by
  unfold parseUpstream
  cases std.parseURL v with
  | none => exact iff_of_false nofun fun h => nomatch h.1
  | some u' =>
    simp only [Option.some.injEq]
    split
    -- a URL without scheme or host is refused after it was parsed
    · next hempty =>
      refine iff_of_false nofun ?_
      rintro ⟨rfl, hscheme, hhost⟩
      exact hempty.elim hscheme hhost
    · next hset =>
      rw [not_or] at hset
      rw [Except.ok.injEq]
      exact ⟨fun h => ⟨h, h ▸ hset⟩, fun h => h.1⟩

/-- A session key is 32 bytes in base64, white space around them apart. -/
theorem parseSessionKey_eq_ok {v key : Bytes} :
    parseSessionKey std v = .ok key ↔
      trimSpace v ≠ [] ∧ std.decodeBase64 (trimSpace v) = some key ∧
        key.length = sessionKeyLen := by
  unfold parseSessionKey
  rw [refuseIf_bind_eq_ok]
  refine and_congr_right fun _ => ?_
  cases std.decodeBase64 (trimSpace v) with
  | none => exact iff_of_false nofun fun h => nomatch h.1
  | some key' =>
    simp only [refuseIf_bind_eq_ok, not_not, Except.ok.injEq, Option.some.injEq]
    exact ⟨fun ⟨hlen, heq⟩ => ⟨heq, heq ▸ hlen⟩, fun ⟨heq, hlen⟩ => ⟨heq ▸ hlen, heq⟩⟩

/-- What has been checked of a configuration with server-side sessions. -/
structure AuthChecked (c : RuntimeConfig) : Prop where
  oauth_public_url : c.oauthPublicURL ≠ []
  public_origin : c.publicOrigin ≠ []
  client_secret : c.clientSecret ≠ []
  cookie : c.cookieSecure = false → ¬ ascii "https://" <+: toLower c.publicOrigin
  session_idle : 0 < c.sessionIdle
  session_absolute : 0 < c.sessionAbsolute
  session_schema : c.sessionSchema = sessionSchemaManaged ∨ c.sessionSchema = sessionSchemaAuto

/-- `checkAuth` accepts what it has checked, with the session key of a durable store put in. -/
theorem checkAuth_eq_ok :
    checkAuth std env c = .ok c' ↔ AuthChecked c ∧
      if c.sessionDSN = [] then c' = c
      else ∃ key, parseSessionKey std (env "BFF_SESSION_KEY") = .ok key ∧
        c' = { c with sessionKey := key } := by
  have hkey : ((if c.sessionDSN ≠ [] then do
        let key ← parseSessionKey std (env "BFF_SESSION_KEY")
        Except.ok { c with sessionKey := key }
      else Except.ok c) = Except.ok c') ↔
      if c.sessionDSN = [] then c' = c
      else ∃ key, parseSessionKey std (env "BFF_SESSION_KEY") = .ok key ∧
        c' = { c with sessionKey := key } := by
    by_cases hdsn : c.sessionDSN = []
    · rw [if_pos hdsn, if_neg (not_not.mpr hdsn), Except.ok.injEq, eq_comm]
    · rw [if_neg hdsn, if_pos hdsn, bind_eq_ok]
      simp only [Except.ok.injEq, eq_comm]
  unfold checkAuth
  -- six checks one after the other, and then the key
  simp only [refuseIf_bind_eq_ok, hkey]
  constructor
  · rintro ⟨hurls, hsecret, hcookie, hidle, habsolute, hschema, hrest⟩
    rw [not_or] at hurls
    refine ⟨⟨hurls.1, hurls.2, hsecret, fun hc hp => hcookie ⟨hc, hp⟩, not_le.mp hidle,
      not_le.mp habsolute, ?_⟩, hrest⟩
    tauto
  · rintro ⟨hc, hrest⟩
    refine ⟨not_or.mpr ⟨hc.oauth_public_url, hc.public_origin⟩, hc.client_secret,
      fun h => hc.cookie h.1 h.2, not_le.mpr hc.session_idle, not_le.mpr hc.session_absolute,
      fun h => ?_, hrest⟩
    exact hc.session_schema.elim h.1 h.2

/-- Sign-in is there when there is a client id. -/
theorem authEnabled_iff : c.authEnabled = true ↔ c.clientID ≠ [] := by
  simp [RuntimeConfig.authEnabled]

/-- Without a client id the start has to be asked for, with one it is checked. -/
theorem checkPhase_eq_ok :
    checkPhase std env c = .ok c' ↔
      if c.clientID = [] then c.phase1Passthrough = true ∧ c' = c
      else checkAuth std env c = .ok c' := by
  unfold checkPhase
  by_cases hid : c.clientID = []
  · rw [if_pos hid, if_pos (mt authEnabled_iff.mp (not_not.mpr hid)), refuseIf_bind_eq_ok,
      Bool.not_eq_false, Except.ok.injEq, eq_comm (a := c)]
  · rw [if_neg hid, if_neg (not_not.mpr (authEnabled_iff.mpr hid))]

/-- What `LoadConfig` accepts: upstreams with a scheme and a host, and either Phase 1 by choice or
server-side sessions with their checks. -/
theorem loadConfig_eq_ok :
    loadConfig std env = .ok c' ↔ ∃ u ou,
      parseUpstream std "BFF_ADMIN_UPSTREAM" (readEnviron std env).adminUpstream = .ok u ∧
      parseUpstream std "BFF_OAUTH_UPSTREAM" (readEnviron std env).oauthUpstream = .ok ou ∧
      checkPhase std env ((readEnviron std env).setUpstreams u ou) = .ok c' := by
  unfold loadConfig
  simp only [bind_eq_ok, exists_and_left]

end Accepted

/-! ## The posture -/

section Posture

variable {std : Parsers} {env : Environ} {c : RuntimeConfig}

/-- What the security notes say of server-side sessions. -/
structure SessionsSecured (c : RuntimeConfig) : Prop where
  client_secret : c.clientSecret ≠ []
  oauth_public_url : c.oauthPublicURL ≠ []
  public_origin : c.publicOrigin ≠ []
  session_idle : 0 < c.sessionIdle
  session_absolute : 0 < c.sessionAbsolute
  login_rate : 0 < c.loginRate
  elevate_rate : 0 < c.elevateRate
  session_schema : c.sessionSchema = ascii "managed" ∨ c.sessionSchema = ascii "auto"
  session_key : c.sessionDSN ≠ [] → c.sessionKey.length = 32
  cookie : c.cookieSecure = false → ascii "http://" <+: toLower c.publicOrigin

/-- What the security notes say of a configuration the BFF starts with. -/
structure FailClosed (c : RuntimeConfig) : Prop where
  admin : ∃ u, c.adminURL = some u ∧ u.scheme ≠ [] ∧ u.base.host ≠ []
  oauth : ∃ u, c.oauthURL = some u ∧ u.scheme ≠ [] ∧ u.base.host ≠ []
  phase : c.clientID = [] ∧ c.phase1Passthrough = true ∨ SessionsSecured c

/-- Accepting sessions changes the session key only, which a durable store has. -/
theorem checkAuth_sessionKey {c' : RuntimeConfig} (h : checkAuth std env c = .ok c') :
    AuthChecked c ∧ ∃ key, c' = { c with sessionKey := key } ∧
      (c.sessionDSN ≠ [] → key.length = sessionKeyLen) := by
  obtain ⟨hchecked, hkey⟩ := checkAuth_eq_ok.mp h
  refine ⟨hchecked, ?_⟩
  split at hkey
  · next hdsn => exact ⟨c.sessionKey, hkey, fun hne => absurd hdsn hne⟩
  · obtain ⟨key, hparsed, heq⟩ := hkey
    exact ⟨key, heq, fun _ => (parseSessionKey_eq_ok.mp hparsed).2.2⟩

/-- Server-side sessions whose checks have passed are secured, but for the cookies. -/
theorem sessionsSecured_iff {u ou : ParsedURL}
    (h : checkAuth std env ((readEnviron std env).setUpstreams u ou) = .ok c) :
    SessionsSecured c ↔ getbool env "BFF_COOKIE_SECURE" true = true ∨
      ascii "http://" <+: toLower (env "BFF_PUBLIC_ORIGIN") := by
  obtain ⟨hchecked, key, rfl, hlen⟩ := checkAuth_sessionKey h
  have hcookie : ((readEnviron std env).cookieSecure = false →
      ascii "http://" <+: toLower (readEnviron std env).publicOrigin) ↔
      getbool env "BFF_COOKIE_SECURE" true = true ∨
        ascii "http://" <+: toLower (env "BFF_PUBLIC_ORIGIN") := by
    rw [← Bool.not_eq_true, imp_iff_not_or, not_not]
    simp only [readEnviron, getenv_nil]
  rw [← hcookie]
  refine ⟨fun hsec => hsec.cookie, fun horigin => ?_⟩
  exact {
    client_secret := hchecked.client_secret
    oauth_public_url := hchecked.oauth_public_url
    public_origin := hchecked.public_origin
    session_idle := hchecked.session_idle
    session_absolute := hchecked.session_absolute
    -- a budget that is not a positive number falls back to a positive default
    login_rate := getint_pos (by decide)
    elevate_rate := getint_pos (by decide)
    session_schema := hchecked.session_schema
    session_key := hlen
    cookie := horigin }

/-- An accepted configuration is one without sessions, and as the security notes say, or one with
sessions, for which the cookie and the origin decide. -/
theorem failClosed_cases (h : loadConfig std env = .ok c) :
    (env "BFF_CLIENT_ID" = [] ∧ FailClosed c) ∨
      (env "BFF_CLIENT_ID" ≠ [] ∧ (FailClosed c ↔ getbool env "BFF_COOKIE_SECURE" true = true ∨
        ascii "http://" <+: toLower (env "BFF_PUBLIC_ORIGIN"))) := by
  obtain ⟨u, ou, hu, hou, hphase⟩ := loadConfig_eq_ok.mp h
  have hclient : ((readEnviron std env).setUpstreams u ou).clientID = env "BFF_CLIENT_ID" :=
    getenv_nil
  have hposture : c.adminURL = some u → c.oauthURL = some ou →
      (FailClosed c ↔ c.clientID = [] ∧ c.phase1Passthrough = true ∨ SessionsSecured c) :=
    fun hadmin hoauth => ⟨fun hc => hc.phase, fun hc =>
      ⟨⟨u, hadmin, (parseUpstream_eq_ok.mp hu).2⟩, ⟨ou, hoauth, (parseUpstream_eq_ok.mp hou).2⟩,
        hc⟩⟩
  rw [checkPhase_eq_ok, hclient] at hphase
  by_cases hid : env "BFF_CLIENT_ID" = []
  · -- Phase 1, chosen: the posture asks for nothing else
    rw [if_pos hid] at hphase
    obtain ⟨hphase1, rfl⟩ := hphase
    exact .inl ⟨hid, (hposture rfl rfl).mpr (.inl ⟨hclient.trans hid, hphase1⟩)⟩
  · rw [if_neg hid] at hphase
    refine .inr ⟨hid, ?_⟩
    rw [← sessionsSecured_iff hphase]
    obtain ⟨-, key, rfl, -⟩ := checkAuth_sessionKey hphase
    rw [hposture rfl rfl, or_iff_right fun hc => hid (hclient.symm.trans hc.1)]

/-- Whether a configuration that is accepted is as the security notes say: secure cookies may be
given up for any origin that does not begin with `https://`, not for `http://` origins only. -/
theorem failClosed_iff (h : loadConfig std env = .ok c) :
    FailClosed c ↔ env "BFF_CLIENT_ID" = [] ∨ getbool env "BFF_COOKIE_SECURE" true = true ∨
      ascii "http://" <+: toLower (env "BFF_PUBLIC_ORIGIN") := by
  rcases failClosed_cases h with ⟨hid, hc⟩ | ⟨hid, hiff⟩
  · exact iff_of_true hc (.inl hid)
  · rw [hiff, or_iff_right hid]

/-- The handlers get a configuration, with auth enabled as read; both budgets are then limited. -/
theorem config_of_loadConfig (h : loadConfig std env = .ok c) :
    ∃ cfg, c.config = some cfg ∧ cfg.authEnabled = c.authEnabled ∧ ∀ b, 0 < cfg.rate b := by
  obtain ⟨u, ou, -, -, hphase⟩ := loadConfig_eq_ok.mp h
  -- the phases of the checks change nothing but the session key
  have hc : ∃ key, c = { (readEnviron std env).setUpstreams u ou with sessionKey := key } := by
    rw [checkPhase_eq_ok] at hphase
    split at hphase
    · exact ⟨_, hphase.2⟩
    · obtain ⟨-, key, rfl, -⟩ := checkAuth_sessionKey hphase
      exact ⟨key, rfl⟩
  obtain ⟨key, rfl⟩ := hc
  refine ⟨_, rfl, rfl, fun b => ?_⟩
  cases b with
  | login => exact getint_pos (by decide)
  | elevate => exact getint_pos (by decide)

end Posture

/-! ## Errors and defaults -/

section Errors

/-- The variables a start can fail on. -/
def checkedVariables : List String :=
  ["BFF_ADMIN_UPSTREAM", "BFF_OAUTH_UPSTREAM", "BFF_CLIENT_ID", "BFF_OAUTH_PUBLIC_URL",
    "BFF_CLIENT_SECRET", "BFF_COOKIE_SECURE", "BFF_SESSION_IDLE", "BFF_SESSION_ABSOLUTE",
    "BFF_SESSION_SCHEMA", "BFF_SESSION_KEY"]

/-- An error names a variable. -/
def Names (err : Bytes) : Prop := ∃ key ∈ checkedVariables, ascii key <:+: err

instance (err : Bytes) : Decidable (Names err) := by unfold Names; infer_instance

/-- All but the errors on an upstream begin with the variable. -/
theorem names_of_prefix {err : Bytes} (key : String) (hkey : key ∈ checkedVariables)
    (h : ascii key <+: err) : Names err :=
  ⟨key, hkey, h.isInfix⟩

theorem Names.append {err rest : Bytes} (h : Names err) : Names (err ++ rest) := by
  obtain ⟨key, hmem, hin⟩ := h
  exact ⟨key, hmem, hin.trans (List.infix_append' [] err rest)⟩

variable {std : Parsers} {env : Environ} {c : RuntimeConfig} {e : Bytes}

/-- The error of an upstream names its variable. -/
theorem parseUpstream_names {key : String} {v : Bytes} (hkey : key ∈ checkedVariables)
    (h : parseUpstream std key v = .error e) : Names e := by
  have herr : e = ascii "invalid " ++ ascii key ++ ascii " " ++ std.quoted v := by
    unfold parseUpstream at h
    split at h
    · exact (Except.error.inj h).symm
    · split at h
      · exact (Except.error.inj h).symm
      · cases h
  refine ⟨key, hkey, ascii "invalid ", ascii " " ++ std.quoted v, ?_⟩
  rw [herr, List.append_assoc _ (ascii " ")]

theorem parseSessionKey_names {v : Bytes} (h : parseSessionKey std v = .error e) : Names e := by
  unfold parseSessionKey at h
  rcases refuseIf_bind_eq_error.mp h with ⟨-, rfl⟩ | ⟨-, h⟩
  · -- no key
    exact names_of_prefix "BFF_SESSION_KEY" (by decide) (by decide +kernel)
  split at h
  · -- not base64
    obtain rfl := Except.error.inj h
    exact names_of_prefix "BFF_SESSION_KEY" (by decide) (by decide +kernel)
  · rcases refuseIf_bind_eq_error.mp h with ⟨-, rfl⟩ | ⟨-, h⟩
    · -- not 32 bytes: the number of bytes stands in the middle of the text
      have hfront : Names (ascii "BFF_SESSION_KEY must decode to ") :=
        names_of_prefix "BFF_SESSION_KEY" (by decide) (by decide +kernel)
      exact ((hfront.append.append).append).append
    · cases h

/-- The errors of the checks of a sign-in name their variables. -/
theorem checkAuth_names (h : checkAuth std env c = .error e) : Names e := by
  unfold checkAuth at h
  simp only [refuseIf_bind_eq_error] at h
  rcases h with ⟨-, rfl⟩ | ⟨-, ⟨-, rfl⟩ | ⟨-, ⟨-, rfl⟩ | ⟨-, ⟨-, rfl⟩ | ⟨-, ⟨-, rfl⟩ |
    ⟨-, ⟨-, rfl⟩ | ⟨-, h⟩⟩⟩⟩⟩⟩
  · -- the two public URLs, required together
    exact names_of_prefix "BFF_OAUTH_PUBLIC_URL" (by decide) (by decide +kernel)
  · -- the client secret
    exact names_of_prefix "BFF_CLIENT_SECRET" (by decide) (by decide +kernel)
  · -- cookies that are not secure
    apply Names.append
    exact names_of_prefix "BFF_COOKIE_SECURE" (by decide) (by decide +kernel)
  · -- the idle time of a session
    apply Names.append
    exact names_of_prefix "BFF_SESSION_IDLE" (by decide) (by decide +kernel)
  · -- its absolute time
    apply Names.append
    exact names_of_prefix "BFF_SESSION_ABSOLUTE" (by decide) (by decide +kernel)
  · -- the schema
    have hfront : Names (ascii "BFF_SESSION_SCHEMA must be ") :=
      names_of_prefix "BFF_SESSION_SCHEMA" (by decide) (by decide +kernel)
    exact hfront.append.append.append.append.append
  · -- the session key of a durable store
    split at h
    · rcases bind_eq_error.mp h with hkey | ⟨key, -, h⟩
      · exact parseSessionKey_names hkey
      · cases h
    · cases h

/-- Whatever `LoadConfig` refuses, the error names a variable. -/
theorem loadConfig_names_variable (h : loadConfig std env = .error e) : Names e := by
  unfold loadConfig at h
  rcases bind_eq_error.mp h with hu | ⟨u, -, h⟩
  · exact parseUpstream_names (by decide) hu
  rcases bind_eq_error.mp h with hou | ⟨ou, -, h⟩
  · exact parseUpstream_names (by decide) hou
  unfold checkPhase at h
  split at h
  · rcases refuseIf_bind_eq_error.mp h with ⟨-, rfl⟩ | ⟨-, h⟩
    · -- Phase 1, but not by choice
      exact names_of_prefix "BFF_CLIENT_ID" (by decide) (by decide +kernel)
    · cases h
  · exact checkAuth_names h

end Errors

section Defaults

variable {std : Parsers} {env : Environ}

/-- The variables server-side sessions cannot do without. -/
def requiredVariables : List String :=
  ["BFF_CLIENT_ID", "BFF_CLIENT_SECRET", "BFF_OAUTH_PUBLIC_URL", "BFF_PUBLIC_ORIGIN"]

/-- A URL `LoadConfig` takes for an upstream. -/
def Parsers.TakesUpstream (std : Parsers) (v : Bytes) : Prop :=
  ∃ u, std.parseURL v = some u ∧ u.scheme ≠ [] ∧ u.base.host ≠ []

/-- The defaults pass their own checks: with the required variables and nothing else in the
environment the BFF starts, and as the security notes say. -/
theorem loadConfig_defaults (hset : ∀ key ∈ requiredVariables, env key ≠ [])
    (hunset : ∀ key, key ∉ requiredVariables → env key = [])
    (hadmin : std.TakesUpstream (ascii "http://127.0.0.1:8081"))
    (hoauth : std.TakesUpstream (ascii "http://127.0.0.1:8080")) :
    ∃ c, loadConfig std env = .ok c ∧ FailClosed c := by
  obtain ⟨u, hu⟩ := hadmin
  obtain ⟨ou, hou⟩ := hoauth
  let c := (readEnviron std env).setUpstreams u ou
  have hclient : c.clientID ≠ [] := getenv_nil.trans_ne (hset _ (by decide))
  have hsecure : getbool env "BFF_COOKIE_SECURE" true = true :=
    getbool_of_unset (hunset _ (by decide))
  have hidle : c.sessionIdle = 30 * 60 * second := getdur_of_unset (hunset _ (by decide))
  have habsolute : c.sessionAbsolute = 8 * 3600 * second :=
    getdur_of_unset (hunset _ (by decide))
  -- what is set is not empty, and what is not set has a default that is accepted
  have hchecked : AuthChecked c := {
    oauth_public_url := getenv_nil.trans_ne (hset _ (by decide))
    public_origin := getenv_nil.trans_ne (hset _ (by decide))
    client_secret := getenv_nil.trans_ne (hset _ (by decide))
    cookie := fun hinsecure => absurd (hsecure.symm.trans hinsecure) (by decide)
    session_idle := by rw [hidle]; decide
    session_absolute := by rw [habsolute]; decide
    session_schema := .inl (getenv_of_unset (hunset _ (by decide))) }
  have hdsn : c.sessionDSN = [] := getenv_nil.trans (hunset _ (by decide))
  have hok : loadConfig std env = .ok c := by
    refine loadConfig_eq_ok.mpr ⟨u, ou, ?_, ?_, checkPhase_eq_ok.mpr ?_⟩
    · rw [show (readEnviron std env).adminUpstream = _ from
        getenv_of_unset (hunset _ (by decide))]
      exact parseUpstream_eq_ok.mpr hu
    · rw [show (readEnviron std env).oauthUpstream = _ from
        getenv_of_unset (hunset _ (by decide))]
      exact parseUpstream_eq_ok.mpr hou
    · rw [if_neg hclient]
      exact checkAuth_eq_ok.mpr ⟨hchecked, by rw [if_pos hdsn]⟩
  rcases failClosed_cases hok with ⟨-, hc⟩ | ⟨-, hiff⟩
  · exact ⟨c, hok, hc⟩
  · exact ⟨c, hok, hiff.mpr (.inl hsecure)⟩

end Defaults

namespace Reference

/-- The value of a variable in a list of settings. -/
def environ (settings : List (String × String)) : Environ :=
  fun key => ((settings.find? (·.1 = key)).map fun kv => ascii kv.2).getD []

/-- A parser of plain URLs and of nothing else, quoting without escapes. -/
def parsers : Parsers where
  parseURL v :=
    let scheme := v.takeWhile (· ≠ 58)
    if scheme ++ ascii "://" <+: v then
      let rest := v.drop (scheme.length + 3)
      some ⟨scheme, rest.takeWhile (· ≠ slash), rest.dropWhile (· ≠ slash), []⟩
    else some ⟨[], [], v, []⟩
  parseDuration _ := none
  atoi _ := none
  decodeBase64 _ := none
  quoted s := 34 :: s ++ [34]
  printDuration _ := []

/-- Sign-in enabled, with secure cookies given up. -/
def insecureEnviron (origin : String) : Environ :=
  environ [("BFF_CLIENT_ID", "socrate-monitor"), ("BFF_CLIENT_SECRET", "s3cret"),
    ("BFF_OAUTH_PUBLIC_URL", "https://socrate.example"), ("BFF_PUBLIC_ORIGIN", origin),
    ("BFF_COOKIE_SECURE", "false")]

/-- The configuration that is read from it. -/
def insecureConfig (origin : String) : RuntimeConfig :=
  (readEnviron parsers (insecureEnviron origin)).setUpstreams
    ⟨ascii "http", ascii "127.0.0.1:8081", [], []⟩ ⟨ascii "http", ascii "127.0.0.1:8080", [], []⟩

/-- For local development over `http://` the configuration is as the security notes say. -/
theorem development_failClosed : ∃ c,
    loadConfig parsers (insecureEnviron "http://localhost:5173") = .ok c ∧ FailClosed c := by
  have hok : loadConfig parsers (insecureEnviron "http://localhost:5173") =
      .ok (insecureConfig "http://localhost:5173") := by decide +kernel
  exact ⟨_, hok, (failClosed_iff hok).mpr (by decide +kernel)⟩

/-- An origin without a scheme is accepted too, and is none that begins with `http://`. -/
theorem schemeless_accepted : ∃ c,
    loadConfig parsers (insecureEnviron "monitoring.example") = .ok c ∧ ¬ FailClosed c := by
  have hok : loadConfig parsers (insecureEnviron "monitoring.example") =
      .ok (insecureConfig "monitoring.example") := by decide +kernel
  refine ⟨_, hok, fun hc => ?_⟩
  rcases hc.phase with ⟨hclient, -⟩ | hsec
  · exact absurd hclient (by decide +kernel)
  · exact absurd (hsec.cookie (by decide +kernel)) (by decide +kernel)

end Reference

end Bff
