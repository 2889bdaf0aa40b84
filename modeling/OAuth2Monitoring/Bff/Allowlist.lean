import OAuth2Monitoring.Bff.Reference

/-!
# The allowlist

Which requests reach an upstream through a proxy, and what the upstream is sent then. The decision
is spread over `canonicalPathOnly`, the mux and the Directors; `AdminProxied` and `VersionProxied`
say what it comes to.

## Main results

* `dispatch_handler`: an endpoint is reached through its pattern, by a canonical path.
* `refusesNonCanonical_iff`: among the rooted paths, the path of two slashes is the one that
  `canonicalPathOnly` lets through although it is not canonical.
* `proxied_of_run`: in every run, whatever a proxy sends is as the allowlist says.
-/

namespace Bff

open GoStd Interleaving Interleaving.Prog

/-! ## The paths let through -/

/-- The rooted paths `canonicalPathOnly` lets through, in their default encoding. -/
theorem canonicalPathOnly_iff {u : Url} {q : Bytes} (hq : u.path = slash :: q) :
    canonicalPathOnly u = true ↔
      escape .path u.path = u.target ∧ (Canonical u.path ∨ u.path = [slash, slash]) := by
  rw [canonicalPathOnly, decide_eq_true_iff, u.rawPath_eq_nil_iff]
  refine and_congr_right fun _ => ?_
  rw [hq, eq_clean_iff]
  simp

section Grammar

variable {d : Deps}

/-- `canonicalPathOnly` around a handler, for any path and raw path of the request. -/
def canonicalPathOnlyHandler (path rawPath : Bytes) (next : Handler d) : Handler d :=
  let clean := clean path
  if rawPath ≠ [] ∨ (path ≠ clean ∧ path ≠ clean ++ [slash]) then pure notFound else next

/-- What the mux answers, once a request is let through. -/
def Server.mux (srv : Server d) (r : Request) : Handler d :=
  match (routes srv.cfg).route r.method r.url with
  | .handler e => srv.serve (Server.attribution d r) r e
  | .redirect path => pure (Server.muxRedirect r path)
  | .methodNotAllowed allow => pure (Server.methodNotAllowed allow)
  | .notFound => pure notFound
  | .badRequest => pure { status := 400 }

/-- The server's handler is the mux behind `canonicalPathOnly`. -/
theorem Server.handler_eq (srv : Server d) (r : Request) :
    srv.handler r = canonicalPathOnlyHandler r.url.path r.url.rawPath (srv.mux r) := by
  have htest : canonicalPathOnly r.url = true ↔ ¬ (r.url.rawPath ≠ [] ∨
      (r.url.path ≠ clean r.url.path ∧ r.url.path ≠ clean r.url.path ++ [slash])) := by
    rw [canonicalPathOnly, decide_eq_true_iff]
    tauto
  unfold Server.handler dispatch canonicalPathOnlyHandler
  by_cases h : canonicalPathOnly r.url = true
  · rw [if_pos h, if_neg (htest.mp h)]
    rfl
  · rw [if_neg h, if_pos (not_not.mp (mt htest.mpr h))]

/-- A request passes exactly when its raw path is empty and its path is canonical, and is answered
404 otherwise. -/
def RefusesNonCanonical (d : Deps) (path rawPath : Bytes) : Prop :=
  ∀ next : Handler d, canonicalPathOnlyHandler path rawPath next =
    if rawPath = [] ∧ Canonical path then next else pure notFound

/-- Which rooted paths pass. -/
theorem canonicalPathOnlyHandler_eq {path rawPath : Bytes} (hroot : [slash] <+: path)
    (next : Handler d) : canonicalPathOnlyHandler path rawPath next =
      if rawPath = [] ∧ (Canonical path ∨ path = [slash, slash]) then next else pure notFound := by
  obtain ⟨q, rfl⟩ := hroot
  have hclean := eq_clean_iff q
  simp only [List.singleton_append] at hclean ⊢
  -- the condition under which the handler refuses, against the one under which it goes on
  have hiff : ¬ (rawPath ≠ [] ∨ (slash :: q ≠ clean (slash :: q) ∧
      slash :: q ≠ clean (slash :: q) ++ [slash])) ↔
      rawPath = [] ∧ (Canonical (slash :: q) ∨ slash :: q = [slash, slash]) := by
    rw [show slash :: q = [slash, slash] ↔ q = [slash] from by simp, ← hclean]
    tauto
  unfold canonicalPathOnlyHandler
  by_cases h : rawPath = [] ∧ (Canonical (slash :: q) ∨ slash :: q = [slash, slash])
  · rw [if_pos h, if_neg (hiff.mpr h)]
  · rw [if_neg h, if_pos (not_not.mp (mt hiff.mp h))]

/-- The path of two slashes has an empty segment that is neither the first nor the last. -/
theorem not_canonical_slashes : ¬ Canonical [slash, slash] := by decide

/-- For a rooted path the middleware keeps to the grammar unless the path is two slashes, in its
default encoding: cleaning leaves one slash of it, and the second passes for a trailing one. -/
theorem refusesNonCanonical_iff {path rawPath : Bytes} (hroot : [slash] <+: path) :
    RefusesNonCanonical d path rawPath ↔ ¬ (rawPath = [] ∧ path = [slash, slash]) := by
  constructor
  · rintro h ⟨rfl, rfl⟩
    -- a handler with another answer shows that the request has passed
    have hpass := h (pure { status := 200 })
    rw [canonicalPathOnlyHandler_eq hroot, if_pos ⟨rfl, .inr rfl⟩,
      if_neg fun hc => not_canonical_slashes hc.2] at hpass
    have hstatus : (200 : ℕ) = 404 := congrArg Response.status (Prog.ret.inj hpass)
    omega
  · intro h next
    rw [canonicalPathOnlyHandler_eq hroot]
    refine if_congr (and_congr_right fun hraw => or_iff_left fun hslashes => ?_) rfl rfl
    exact h ⟨hraw, hslashes⟩

end Grammar

/-! ## Reaching an endpoint -/

/-- A method a pattern admits. -/
def Pattern.Admits (pat : Pattern) (method : Bytes) : Prop :=
  pat.method = none ∨ pat.method = some method ∨
    method = ascii "HEAD" ∧ pat.method = some (ascii "GET")

/-- An endpoint is reached through one of its patterns. -/
theorem dispatch_handler {cfg : Config} {r : Request} {e : Endpoint}
    (h : dispatch cfg r = .handler e) :
    canonicalPathOnly r.url = true ∧ ∃ pat, (pat, e) ∈ routes cfg ∧ Pattern.Admits pat r.method ∧
      (pat.subtree = false ∧ r.url.path = pat.path ∨
        pat.subtree = true ∧ pat.path <+: r.url.path) := by
  unfold dispatch at h
  split at h
  · rename_i hcanon
    obtain ⟨pat, hpat⟩ := ServeMux.route_eq_handler h
    obtain ⟨hmem, hmethod, hpath⟩ := ServeMux.mem_of_matchMethodAndPath hpat
    -- a request that is routed passed the wrapper in front, so its path was sent as it is read
    have hraw : r.url.rawPath = [] := by
      simp only [canonicalPathOnly, decide_eq_true_eq] at hcanon
      exact hcanon.1
    rw [hraw, segments_escapedPath, Pattern.matchesExactly_iff, Pattern.covers_iff] at hpath
    exact ⟨hcanon, pat, hmem, hmethod, hpath⟩
  · cases h

/-- The patterns of the program, and in which phase they are registered. -/
theorem mem_routes {cfg : Config} {pat : Pattern} {e : Endpoint} (h : (pat, e) ∈ routes cfg) :
    match e with
    | .health => pat = ⟨none, ascii "/bff/healthz"⟩
    | .proxyWithSession => cfg.authEnabled = true ∧ pat = ⟨none, adminPrefix⟩
    | .proxy => cfg.authEnabled = false ∧ pat = ⟨none, adminPrefix⟩
    | .login => cfg.authEnabled = true ∧ pat = ⟨none, ascii "/bff/login"⟩
    | .callback => cfg.authEnabled = true ∧ pat = ⟨none, ascii "/bff/callback"⟩
    | .session => cfg.authEnabled = true ∧ pat = ⟨none, ascii "/bff/session"⟩
    | .logout => cfg.authEnabled = true ∧ pat = ⟨none, ascii "/bff/logout"⟩
    | .elevate => cfg.authEnabled = true ∧ pat = ⟨none, ascii "/bff/elevate"⟩
    | .version => cfg.oauthURL.isSome = true ∧ pat = ⟨some (ascii "GET"), versionPath⟩ := by
  unfold routes at h
  rcases List.mem_cons.mp h with h | h
  · cases h
    rfl
  · rcases List.mem_append.mp h with h | h
    · split at h
      · -- with sessions: the handlers of the console and the proxy behind the gateway
        rename_i hauth
        simp only [List.mem_cons, List.not_mem_nil, or_false, Prod.mk.injEq] at h
        rcases h with ⟨rfl, rfl⟩ | ⟨rfl, rfl⟩ | ⟨rfl, rfl⟩ | ⟨rfl, rfl⟩ | ⟨rfl, rfl⟩ |
          ⟨rfl, rfl⟩ <;>
          exact ⟨hauth, rfl⟩
      · -- Phase 1: the proxy alone
        rename_i hauth
        obtain ⟨rfl, rfl⟩ : pat = ⟨none, adminPrefix⟩ ∧ e = .proxy := by simpa using h
        exact ⟨by simpa using hauth, rfl⟩
    · split at h
      · rename_i hsome
        obtain ⟨rfl, rfl⟩ : pat = ⟨some (ascii "GET"), versionPath⟩ ∧ e = .version := by
          simpa using h
        exact ⟨hsome, rfl⟩
      · cases h

/-- A request that reaches an admin proxy has a canonical path below the prefix. -/
theorem admin_of_dispatch {cfg : Config} {r : Request} {e : Endpoint}
    (h : dispatch cfg r = .handler e) (he : e = .proxyWithSession ∨ e = .proxy) :
    escape .path r.url.path = r.url.target ∧ Canonical r.url.path ∧ adminPrefix <+: r.url.path := by
  obtain ⟨hcanon, pat, hmem, -, hpath⟩ := dispatch_handler h
  have hpat : pat = ⟨none, adminPrefix⟩ := by
    rcases he with rfl | rfl
    · exact (mem_routes hmem).2
    · exact (mem_routes hmem).2
  subst hpat
  have hpre : adminPrefix <+: r.url.path := by
    rcases hpath with ⟨hsub, -⟩ | ⟨-, hpre⟩
    · exact absurd hsub (by decide)
    · exact hpre
  obtain ⟨rest, hrest⟩ := hpre
  have hq : r.url.path = slash :: (adminPrefix.tail ++ rest) := by rw [← hrest]; rfl
  obtain ⟨hesc, hpath | hpath⟩ := (canonicalPathOnly_iff hq).mp hcanon
  · exact ⟨hesc, hpath, rest, hrest⟩
  · -- the path of two slashes is not below the prefix
    rw [hpath] at hrest
    exact absurd (congrArg List.length hrest) (by simp [adminPrefix, ascii])

/-- A request that reaches the version proxy asks for the probe's path. -/
theorem version_of_dispatch {cfg : Config} {r : Request} (h : dispatch cfg r = .handler .version) :
    r.url.path = versionPath ∧ r.url.target = versionPath ∧
      (r.method = ascii "GET" ∨ r.method = ascii "HEAD") := by
  obtain ⟨hcanon, pat, hmem, hmethod, hpath⟩ := dispatch_handler h
  obtain ⟨-, rfl⟩ := mem_routes hmem
  -- the version route is an exact pattern
  have hpath : r.url.path = versionPath := by
    rcases hpath with ⟨-, hpath⟩ | ⟨hsub, -⟩
    · exact hpath
    · exact absurd hsub (by decide)
  refine ⟨hpath, ?_, ?_⟩
  · obtain ⟨hesc, -⟩ := (canonicalPathOnly_iff (q := versionPath.tail) hpath).mp hcanon
    rw [← hesc, hpath]
    decide
  · rcases hmethod with hm | hm | ⟨hm, -⟩
    · cases hm
    · exact .inl (Option.some.inj hm).symm
    · exact .inr hm

/-! ## What a proxy sends -/

section

variable {d : Deps} {srv : Server d} {ctx : Attribution} {r : Request}
  {Φ : List (Event (@Res d)) → Op d → Prop} {h : List (Event (@Res d))}

/-- What the admin upstream is sent for the request `r`, whose handler has done `past`: `r` has a
canonical path below the prefix, in its default encoding, and the upstream decodes that path behind
its base path. With auth enabled the gateway has just let `r` through. -/
structure AdminProxied (srv : Server d) (r : Request) (past : List (Event (@Res d)))
    (out : OutRequest) : Prop where
  default_encoding : escape .path r.url.path = r.url.target
  canonical : Canonical r.url.path
  admin_prefix : adminPrefix <+: r.url.path
  method_eq : out.method = r.method
  path_eq : out.path =
    (joinURLPath (srv.cfg.adminURL.path, srv.cfg.adminURL.rawPath) (r.url.path, [])).1
  decoded : ∃ path, out.decodedPath = some path ∧ JoinedAt srv.cfg.adminURL.path r.url.path path
  through_gateway : srv.cfg.authEnabled = true → ∃ l r',
    (srv.gateway.authorize srv.cfg.allowPassthrough
      (tokenRefresherAdapter srv.cfg (Server.attribution d r)) r).Yields l (.forward r') ∧
      past = l.reverse

/-- What the issuer is sent for the version probe `r`. -/
structure VersionProxied (r : Request) (out : OutRequest) : Prop where
  path_eq : r.url.path = versionPath
  target_eq : r.url.target = versionPath
  method : r.method = ascii "GET" ∨ r.method = ascii "HEAD"
  no_cookie : out.header (ascii "Cookie") = []
  no_authorization : out.header (ascii "Authorization") = []

/-- What a proxy may send. -/
def Proxied (srv : Server d) (r : Request) (past : List (Event (@Res d))) : Op d → Prop
  | .proxy .admin out => AdminProxied srv r past out
  | .proxy .issuer out => VersionProxied r out
  | _ => True

/-- A proxy sends what its Director made, if anything. -/
theorem serveProxy_sat {up : Upstream} {p : ReverseProxy}
    (hΦ : ∀ out, p.outgoing r = some out → Φ h (.proxy up out)) :
    (serveProxy up p r).Sat Φ (fun _ _ => True) h := by
  unfold serveProxy
  split
  · trivial
  · rename_i out hout
    exact ⟨hΦ out hout, fun a => by cases a <;> trivial⟩

/-- The method and the path the admin upstream is sent. -/
theorem adminProxy_sent (hd : d.Lawful) {out : OutRequest}
    (hout : (adminProxy d srv.cfg ctx).outgoing r = some out) :
    out.method = r.method ∧
      out.path = (joinURLPath (srv.cfg.adminURL.path, srv.cfg.adminURL.rawPath)
        (r.url.path, r.url.rawPath)).1 := by
  rw [ReverseProxy.outgoing_eq_some hout]
  exact ⟨hd.singleHost_method srv.cfg.adminURL r.clone,
    congrArg Prod.fst (hd.singleHost_path srv.cfg.adminURL r.clone)⟩

/-- What the admin proxy sends for a request that is `r` but for its headers. -/
theorem adminProxied_of_outgoing (hd : d.Lawful) {r r' : Request} {past : List (Event (@Res d))}
    {out : OutRequest} (hmethod : r'.method = r.method) (hurl : r'.url = r.url)
    (hesc : escape .path r.url.path = r.url.target) (hcanon : Canonical r.url.path)
    (hpre : adminPrefix <+: r.url.path)
    (hout : (adminProxy d srv.cfg ctx).outgoing r' = some out)
    (hgate : srv.cfg.authEnabled = true → ∃ l r', (srv.gateway.authorize srv.cfg.allowPassthrough
      (tokenRefresherAdapter srv.cfg (Server.attribution d r)) r).Yields l (.forward r') ∧
        past = l.reverse) : AdminProxied srv r past out := by
  obtain ⟨hm, hp⟩ := adminProxy_sent hd hout
  have hraw : r.url.rawPath = [] := r.url.rawPath_eq_nil_iff.mpr hesc
  rw [hurl, hraw] at hp
  refine ⟨hesc, hcanon, hpre, hm.trans hmethod, hp, ⟨out.path, out.decodedPath_eq, ?_⟩, hgate⟩
  -- the path that is sent is the rooted path behind the base
  obtain ⟨q, hq⟩ := hpre
  have hrooted : r.url.path = slash :: (adminPrefix.tail ++ q) := by rw [← hq]; rfl
  rw [hp, hrooted]
  exact joinURLPath_joinedAt (srv.cfg.adminURL.path, srv.cfg.adminURL.rawPath) _

/-- The version proxy sends no credentials. -/
theorem versionProxy_header (hd : d.Lawful) {base : BaseURL} {out : OutRequest} {key : Bytes}
    (hout : (versionProxy d base ctx).outgoing r = some out)
    (hkey : key = ascii "Cookie" ∨ key = ascii "Authorization") : out.header key = [] := by
  rw [ReverseProxy.outgoing_eq_some hout]
  have hne : key ∉ proxySetKeys ∧ key ≠ ascii "X-Forwarded-For" ∧ key ≠ ascii "User-Agent" := by
    rcases hkey with rfl | rfl <;> decide
  -- what the proxy sets itself is neither of the two, so they would have to come from the director
  refine forwardedHeader_eq_nil ?_ hne.1 _ _
  have hcookie : canonicalMIMEHeaderKey (ascii "Cookie") = ascii "Cookie" := by decide
  have hauth : canonicalMIMEHeaderKey (ascii "Authorization") = ascii "Authorization" := by decide
  refine (hd.attribution_keeps _ _ _ hne.2.1 hne.2.2).trans (Header.del_eq_nil ?_ _)
  let sent := (hostDirector d base r.clone).header
  -- which deletes `Authorization` first, and then `Cookie`
  rcases hkey with rfl | rfl
  · exact (sent.del (ascii "Authorization")).del_canonical hcookie
  · exact Header.del_eq_nil (sent.del_canonical hauth) (ascii "Cookie")

/-- The handler of a request proxies as the allowlist says. -/
theorem handler_proxied (hd : d.Lawful) (hgw : srv.gateway.Lawful) (r : Request) :
    (srv.handler r).Sat (Proxied srv r) (fun _ _ => True) [] := by
  unfold Server.handler
  split
  · rename_i e hdisp
    cases e with
    | proxyWithSession =>
      obtain ⟨hesc, hcanon, hpre⟩ := admin_of_dispatch hdisp (.inl rfl)
      have hrun : (srv.gateway.authorize srv.cfg.allowPassthrough
          (tokenRefresherAdapter srv.cfg (Server.attribution d r)) r).Uses RefreshingOp :=
        Server.authorize_uses hgw fun _ hop => hop
      refine Sat.bind ((hrun.sat_append ?_).mono (fun _ _ hop => hop) ?_)
      · rintro h op (hop | ⟨c, rfl⟩)
        · cases op <;> trivial
        · trivial
      · rintro h v ⟨l, hl, -, rfl⟩
        cases v with
        | refuse resp => trivial
        | forward r' =>
          -- what the gateway lets through is the request but for its headers
          obtain ⟨hmethod, hurl, -⟩ := hgw.authorize_for _ _ _ _ _ hl
          exact serveProxy_sat fun out hout => adminProxied_of_outgoing hd hmethod hurl hesc hcanon
            hpre hout fun _ => ⟨l, r', hl, by simp⟩
    | proxy =>
      obtain ⟨hesc, hcanon, hpre⟩ := admin_of_dispatch hdisp (.inr rfl)
      obtain ⟨-, pat, hmem, -, -⟩ := dispatch_handler hdisp
      refine serveProxy_sat fun out hout =>
        adminProxied_of_outgoing hd rfl rfl hesc hcanon hpre hout
        fun hauth => ?_
      -- this route is registered only where auth is disabled
      rw [(mem_routes hmem).1] at hauth
      cases hauth
    | version =>
      obtain ⟨hpath, htarget, hmethod⟩ := version_of_dispatch hdisp
      simp only [Server.serve]
      cases srv.cfg.oauthURL with
      | none => trivial
      | some base =>
        exact serveProxy_sat fun out hout => ⟨hpath, htarget, hmethod,
          versionProxy_header hd hout (.inl rfl), versionProxy_header hd hout (.inr rfl)⟩
    | health | login | callback | session | logout | elevate =>
      refine (Server.serve_uses hgw _).sat fun h op hop => ?_
      cases op <;> trivial
  all_goals trivial

end

/-- In every run of the server, whatever a proxy sends is as the allowlist says: to the admin
upstream a canonical path below the prefix, decoded there behind the base path, and to the issuer
the version probe without credentials. -/
theorem proxied_of_run {d : Deps} {srv : Server d} (hd : d.Lawful) (hgw : srv.gateway.Lawful)
    {w₀ : World d} {P : Pool (World d) Request (@Res d) Response} (hP : srv.Run w₀ P) :
    Along (fun older e => Proxied srv e.job (history e.tid older) e.event.op) P.trace :=
  hP.obeys fun r => handler_proxied hd hgw r

namespace Reference

/-- A dashboard path that is not canonical is refused. -/
theorem doubled_slash_refused : RefusesNonCanonical deps (ascii "/api/admin//users") [] :=
  (refusesNonCanonical_iff ⟨ascii "api/admin//users", by decide⟩).mpr (by decide)

/-- A request for two slashes passes `canonicalPathOnly`: the mux answers it, with a redirect to the
root instead of the 404. -/
theorem slashes_pass : ¬ RefusesNonCanonical deps (ascii "//") [] ∧
    ∃ resp, server.handler (request "GET" "//" "" []) = pure resp ∧ resp.status = 307 ∧
      resp.location = some (ascii "/") := by
  refine ⟨fun h => ?_, Server.muxRedirect (request "GET" "//" "" []) (ascii "/"), ?_, rfl, ?_⟩
  · have hstatus := congrArg (fun p => match p with | .ret resp => resp.status | _ => 0)
      (h (pure { status := 200 }))
    exact absurd hstatus (by decide)
  · have hdisp : dispatch server.cfg (request "GET" "//" "" []) = .redirect (ascii "/") := by
      decide +kernel
    unfold Server.handler
    rw [hdisp]
  · have hclean : IsClean (escape .path (ascii "/") ++ []) :=
      ⟨by decide +kernel, rfl, by decide⟩
    exact congrArg some (redirectURL_of_isClean hclean _)

/-- A browser probes the version with all its credentials. -/
def versionProbe : Request :=
  request "GET" "/api/version" ""
    [("Cookie", "__Host-mon_session=s1"), ("Authorization", "Bearer at-1")]

theorem dispatch_versionProbe : dispatch server.cfg versionProbe = .handler .version := by
  decide +kernel

/-- The issuer's answer. -/
def versionAnswer : Answer :=
  { status := 200, header := Header.empty, body := ascii "\x7b\"version\":\"1.12.0\"\x7d" }

/-- The probe is proxied to the issuer, and as the allowlist says. -/
theorem versionProbe_proxied : ∃ P out, server.Run world P ∧
    P.trace = [⟨0, versionProbe, ⟨.proxy .issuer out, some versionAnswer⟩⟩] ∧
    Along (fun older e => Proxied server e.job (history e.tid older) e.event.op) P.trace := by
  have hbase : server.cfg.oauthURL = some ⟨ascii "127.0.0.1:8080", [], []⟩ := rfl
  obtain ⟨out, hout⟩ : ∃ out, (versionProxy deps ⟨ascii "127.0.0.1:8080", [], []⟩
      (Server.attribution deps versionProbe)).outgoing versionProbe = some out :=
    Option.isSome_iff_exists.mp (by decide +kernel)
  have hrun : Exec (Answers server.cfg) world (server.handler versionProbe)
      [⟨.proxy .issuer out, some versionAnswer⟩] (.ret (copyAnswer versionAnswer)) world := by
    rw [Server.handler_of_dispatch dispatch_versionProbe]
    simp only [Server.serve, hbase]
    exact serveProxy_run hout versionAnswer
  have hP : server.Run world _ := Reachable.start.run versionProbe hrun
  exact ⟨_, out, hP, rfl, proxied_of_run lawful gateway_lawful hP⟩

end Reference

end Bff
