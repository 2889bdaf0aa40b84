import OAuth2Monitoring.Bff.Allowlist

/-!
# The routing table

Where a request goes is decided by `canonicalPathOnly`, by the patterns registered and by the rules
of the mux: the most specific pattern, redirects to clean paths and to a missing slash, methods.
`table` is what it comes to, for every request.

## Main results

* `dispatch_eq_table`: a request with a rooted path goes where the table says.
-/

namespace Bff

open GoStd

/-- What becomes of a canonical path in its default encoding. -/
def table (cfg : Config) (method path : Bytes) : Routed Endpoint :=
  if adminPrefix <+: path then .handler (if cfg.authEnabled then .proxyWithSession else .proxy)
  else if path = ascii "/api/admin" then .redirect adminPrefix
  else if path = ascii "/bff/healthz" then .handler .health
  else if cfg.authEnabled ∧ path = ascii "/bff/login" then .handler .login
  else if cfg.authEnabled ∧ path = ascii "/bff/callback" then .handler .callback
  else if cfg.authEnabled ∧ path = ascii "/bff/session" then .handler .session
  else if cfg.authEnabled ∧ path = ascii "/bff/logout" then .handler .logout
  else if cfg.authEnabled ∧ path = ascii "/bff/elevate" then .handler .elevate
  else if cfg.oauthURL.isSome ∧ path = versionPath then
    if method = ascii "GET" ∨ method = ascii "HEAD" then .handler .version
    else .methodNotAllowed [ascii "GET", ascii "HEAD"]
  else .notFound

/-! ## Patterns and paths -/

/-- The pattern matches the decoded path. -/
def Pattern.Matches (pat : Pattern) (path : Bytes) : Prop :=
  pat.subtree = false ∧ path = pat.path ∨ pat.subtree = true ∧ pat.path <+: path

instance (pat : Pattern) (path : Bytes) : Decidable (Pattern.Matches pat path) := by
  unfold Pattern.Matches
  infer_instance

section Matching

variable {cfg : Config} {method path : Bytes}

/-- A pattern that was found is registered, admits the method and matches the path. -/
theorem matches_of_found {pat : Pattern} {e : Endpoint}
    (h : (routes cfg).matchMethodAndPath method (escape .path path) = some (pat, e)) :
    (pat, e) ∈ routes cfg ∧ Pattern.Admits pat method ∧ Pattern.Matches pat path := by
  obtain ⟨hmem, hmethod, hpath⟩ := ServeMux.mem_of_matchMethodAndPath h
  rw [segments_escape, Pattern.matchesExactly_iff, Pattern.covers_iff] at hpath
  exact ⟨hmem, hmethod, hpath⟩

/-- When no pattern is found, none that is registered admits the method and matches the path. -/
theorem not_matches_of_not_found
    (h : (routes cfg).matchMethodAndPath method (escape .path path) = none) {pat : Pattern}
    {e : Endpoint} (hmem : (pat, e) ∈ routes cfg) (hmethod : Pattern.Admits pat method) :
    ¬Pattern.Matches pat path := by
  have hnone := ServeMux.matchMethodAndPath_eq_none_iff.mp h (pat, e) hmem hmethod
  rw [segments_escape, ← Bool.not_eq_true, ← Bool.not_eq_true, Pattern.matchesExactly_iff,
    Pattern.covers_iff] at hnone
  rintro (hpath | hpath)
  · exact hnone.1 hpath
  · exact hnone.2 hpath

/-- The registered patterns without a method. -/
theorem mem_routes_admin : (⟨none, adminPrefix⟩, if cfg.authEnabled then Endpoint.proxyWithSession
    else .proxy) ∈ routes cfg := by
  unfold routes
  cases cfg.authEnabled <;> simp

theorem mem_routes_health : (⟨none, ascii "/bff/healthz"⟩, Endpoint.health) ∈ routes cfg :=
  List.mem_cons_self

/-- With sign-in, so have the endpoints of the session. -/
theorem mem_routes_auth (hauth : cfg.authEnabled = true) :
    (⟨none, ascii "/bff/login"⟩, Endpoint.login) ∈ routes cfg ∧
    (⟨none, ascii "/bff/callback"⟩, Endpoint.callback) ∈ routes cfg ∧
    (⟨none, ascii "/bff/session"⟩, Endpoint.session) ∈ routes cfg ∧
    (⟨none, ascii "/bff/logout"⟩, Endpoint.logout) ∈ routes cfg ∧
    (⟨none, ascii "/bff/elevate"⟩, Endpoint.elevate) ∈ routes cfg := by
  simp [routes, hauth]

/-- With an issuer, so has the version. -/
theorem mem_routes_version (hurl : cfg.oauthURL.isSome = true) :
    (⟨some (ascii "GET"), versionPath⟩, Endpoint.version) ∈ routes cfg := by
  simp [routes, hurl]

/-- An exact pattern matches its own path only. -/
theorem eq_of_matches {m : Option Bytes} {p : Bytes} (hsub : (⟨m, p⟩ : Pattern).subtree = false)
    (h : Pattern.Matches ⟨m, p⟩ path) : path = p := by
  rcases h with h | h
  · exact h.2
  · exact absurd (hsub.symm.trans h.1) (by decide)

theorem admin_of_matches (h : Pattern.Matches ⟨none, adminPrefix⟩ path) : adminPrefix <+: path := by
  rcases h with h | h
  · exact absurd h.1 (by decide)
  · exact h.2

/-- A pattern that matches says what the table says. -/
theorem table_of_matches {pat : Pattern} {e : Endpoint} (hmem : (pat, e) ∈ routes cfg)
    (hmethod : Pattern.Admits pat method) (hpath : Pattern.Matches pat path) :
    table cfg method path = .handler e := by
  have hroute := mem_routes hmem
  unfold table
  cases e with
  | proxyWithSession =>
    obtain ⟨hauth, rfl⟩ := hroute
    rw [if_pos (admin_of_matches hpath), if_pos hauth]
  | proxy =>
    obtain ⟨hauth, rfl⟩ := hroute
    rw [if_pos (admin_of_matches hpath), hauth]
    rfl
  | health =>
    obtain rfl : pat = _ := hroute
    obtain rfl := eq_of_matches (by decide) hpath
    rfl
  | login =>
    obtain ⟨hauth, rfl⟩ := hroute
    obtain rfl := eq_of_matches (by decide) hpath
    simp only [hauth]
    rfl
  | callback =>
    obtain ⟨hauth, rfl⟩ := hroute
    obtain rfl := eq_of_matches (by decide) hpath
    simp only [hauth]
    rfl
  | session =>
    obtain ⟨hauth, rfl⟩ := hroute
    obtain rfl := eq_of_matches (by decide) hpath
    simp only [hauth]
    rfl
  | logout =>
    obtain ⟨hauth, rfl⟩ := hroute
    obtain rfl := eq_of_matches (by decide) hpath
    simp only [hauth]
    rfl
  | elevate =>
    obtain ⟨hauth, rfl⟩ := hroute
    obtain rfl := eq_of_matches (by decide) hpath
    simp only [hauth]
    rfl
  | version =>
    obtain ⟨hurl, rfl⟩ := hroute
    obtain rfl := eq_of_matches (by decide) hpath
    have hget : method = ascii "GET" ∨ method = ascii "HEAD" := by
      rcases hmethod with h | h | h
      · cases h
      · exact .inl (Option.some.inj h).symm
      · exact .inr h.1
    simp only [hurl, hget]
    cases cfg.authEnabled <;> rfl

/-- The only pattern that ends in a slash is the one of the admin API. -/
theorem eq_adminPrefix_of_subtree {pat : Pattern} {e : Endpoint} (hmem : (pat, e) ∈ routes cfg)
    (hsub : pat.subtree = true) : pat = ⟨none, adminPrefix⟩ := by
  have hroute := mem_routes hmem
  have hexact : ∀ {m : Option Bytes} {p : Bytes}, pat = ⟨m, p⟩ →
      (⟨m, p⟩ : Pattern).subtree = false → pat = ⟨none, adminPrefix⟩ := by
    rintro m p rfl h
    exact absurd (hsub.symm.trans h) (by decide)
  cases e with
  | proxyWithSession => exact hroute.2
  | proxy => exact hroute.2
  | health => exact hexact hroute (by decide)
  | _ => exact hexact hroute.2 (by decide)

/-- A slash is missing to the path of the admin API only. -/
theorem matchesSlash_iff (hpath : ¬adminPrefix <+: path) :
    (routes cfg).matchesSlash method (escape .path path ++ [slash]) = true ↔
      path = ascii "/api/admin" := by
  have happend : escape .path path ++ [slash] = escape .path (path ++ [slash]) := by
    rw [escape, escape, List.flatMap_append]
    rfl
  rw [happend, ServeMux.matchesSlash]
  cases hfound : (routes cfg).matchMethodAndPath method (escape .path (path ++ [slash])) with
  | none =>
    -- were it the admin API's, a pattern would have been found
    refine iff_of_false Bool.false_ne_true ?_
    rintro rfl
    exact not_matches_of_not_found hfound mem_routes_admin (.inl rfl)
      (.inr ⟨by decide, by decide⟩)
  | some found =>
    obtain ⟨pat, e⟩ := found
    obtain ⟨hmem, -, hmatch⟩ := matches_of_found hfound
    dsimp only
    rw [segments_escape, splitOn_append_slash, decide_eq_true_iff]
    rcases hmatch with ⟨hsub, hpat⟩ | ⟨hsub, hprefix⟩
    · -- an exact pattern does not end in a slash
      rw [Pattern.subtree, ← hpat, List.getLast?_concat] at hsub
      exact absurd hsub (by simp)
    · obtain rfl := eq_adminPrefix_of_subtree hmem hsub
      rcases List.prefix_concat_iff.mp hprefix with heq | hprefix
      · have hadmin : adminPrefix = ascii "/api/admin" ++ [slash] := by decide
        have hpath : path = ascii "/api/admin" :=
          (List.append_cancel_right (hadmin.symm.trans heq)).symm
        subst hpath
        exact iff_of_true (by decide) rfl
      · exact absurd hprefix hpath

/-- The methods the mux names for a path at which no pattern was found. -/
theorem allowedMethods_eq
    (h : (routes cfg).matchMethodAndPath method (escape .path path) = none) :
    (routes cfg).allowedMethods (escape .path path) =
      if cfg.oauthURL.isSome ∧ path = versionPath then [ascii "GET", ascii "HEAD"] else [] := by
  have hfilter : (routes cfg).filter (fun r =>
      r.1.matchesExactly (segments (escape .path path)) ||
        r.1.covers (segments (escape .path path))) =
      (routes cfg).filter fun r => Pattern.Matches r.1 path := by
    refine List.filter_congr fun r _ => ?_
    rw [segments_escape, Bool.eq_iff_iff, Bool.or_eq_true, Pattern.matchesExactly_iff,
      Pattern.covers_iff, decide_eq_true_iff]
    rfl
  rw [ServeMux.allowedMethods, hfilter]
  split
  · rename_i hversion
    obtain ⟨hurl, rfl⟩ := hversion
    rw [routes, hurl]
    cases cfg.authEnabled <;> rfl
  · rename_i hversion
    have hnone : (routes cfg).filter (fun r => Pattern.Matches r.1 path) = [] := by
      refine List.filter_eq_nil_iff.mpr ?_
      rintro ⟨pat, e⟩ hmem hmatch
      rw [decide_eq_true_iff] at hmatch
      -- every pattern but the version's is for all methods
      by_cases he : e = .version
      · subst he
        obtain ⟨hurl, rfl⟩ := mem_routes hmem
        exact hversion ⟨hurl, eq_of_matches (by decide) hmatch⟩
      · refine not_matches_of_not_found h hmem (.inl ?_) hmatch
        have hroute := mem_routes hmem
        cases e with
        | version => exact absurd rfl he
        | health => exact congrArg Pattern.method hroute
        | _ => exact congrArg Pattern.method hroute.2
    rw [hnone]
    rfl

/-- When no pattern is found, the table has no handler either. -/
theorem table_of_not_found
    (h : (routes cfg).matchMethodAndPath method (escape .path path) = none) :
    ¬adminPrefix <+: path ∧ table cfg method path =
      if path = ascii "/api/admin" then .redirect adminPrefix
      else if cfg.oauthURL.isSome ∧ path = versionPath then
        .methodNotAllowed [ascii "GET", ascii "HEAD"]
      else .notFound := by
  have hexact : ∀ {p : Bytes} {e : Endpoint}, (⟨none, p⟩, e) ∈ routes cfg →
      (⟨none, p⟩ : Pattern).subtree = false → path ≠ p := fun hmem hsub heq =>
    not_matches_of_not_found h hmem (.inl rfl) (.inl ⟨hsub, heq⟩)
  have hadmin : ¬adminPrefix <+: path := fun hpre =>
    not_matches_of_not_found h mem_routes_admin (.inl rfl) (.inr ⟨by decide, hpre⟩)
  have hauth : ∀ {p : Bytes}, p ∈ ["/bff/login", "/bff/callback", "/bff/session", "/bff/logout",
      "/bff/elevate"].map ascii → ¬(cfg.authEnabled = true ∧ path = p) := by
    rintro p hp ⟨hauth, hpath⟩
    obtain ⟨hlogin, hcallback, hsession, hlogout, helevate⟩ := mem_routes_auth hauth
    simp only [List.map_cons, List.map_nil, List.mem_cons, List.not_mem_nil, or_false] at hp
    rcases hp with rfl | rfl | rfl | rfl | rfl
    · exact hexact hlogin (by decide) hpath
    · exact hexact hcallback (by decide) hpath
    · exact hexact hsession (by decide) hpath
    · exact hexact hlogout (by decide) hpath
    · exact hexact helevate (by decide) hpath
  have hmethod : cfg.oauthURL.isSome = true ∧ path = versionPath →
      ¬(method = ascii "GET" ∨ method = ascii "HEAD") := by
    rintro ⟨hurl, hpath⟩ hmethod
    refine not_matches_of_not_found h (mem_routes_version hurl) ?_ (.inl ⟨by decide, hpath⟩)
    rcases hmethod with rfl | rfl
    · exact .inr (.inl rfl)
    · exact .inr (.inr ⟨rfl, rfl⟩)
  refine ⟨hadmin, ?_⟩
  rw [table, if_neg hadmin, if_neg (hexact mem_routes_health (by decide)),
    if_neg (hauth (by simp)), if_neg (hauth (by simp)), if_neg (hauth (by simp)),
    if_neg (hauth (by simp)), if_neg (hauth (by simp))]
  by_cases hversion : cfg.oauthURL.isSome = true ∧ path = versionPath
  · rw [if_pos hversion, if_pos hversion, if_neg (hmethod hversion)]
  · rw [if_neg hversion, if_neg hversion]

end Matching

/-! ## The table -/

/-- A canonical path in its default encoding goes where the table says. -/
theorem route_of_canonical {cfg : Config} {r : Request} {q : Bytes} (hq : r.url.path = slash :: q)
    (hescape : escape .path r.url.path = r.url.target) (hcanon : Canonical r.url.path) :
    (routes cfg).route r.method r.url = table cfg r.method r.url.path := by
  have hslash : escape .path (slash :: q) = slash :: escape .path q := by
    rw [escape, List.flatMap_cons]
    rfl
  have hstar : r.url.target ≠ ascii "*" := by
    rw [← hescape, hq, hslash]
    intro h
    exact absurd (List.cons.inj h).1 (by decide)
  have hpathStar : r.url.path ≠ ascii "*" := by
    rw [hq]
    intro h
    exact absurd (List.cons.inj h).1 (by decide)
  have hescaped : escapedPath r.url.path r.url.rawPath = escape .path r.url.path := by
    rw [r.url.rawPath_eq_nil_iff.mpr hescape, escapedPath_of_rawPath_eq_nil hpathStar]
  -- the mux matches the path as it is
  have hmatched : ServeMux.matchedPath r.method (escape .path r.url.path) =
      escape .path r.url.path := by
    rw [ServeMux.matchedPath]
    split
    · rfl
    · have hcanon' := canonical_escape hcanon
      rw [hq, hslash] at hcanon' ⊢
      exact cleanPath_of_canonical hcanon'
  rw [ServeMux.route, if_neg hstar]
  dsimp only
  rw [hescaped, hmatched]
  cases hfound : (routes cfg).matchMethodAndPath r.method (escape .path r.url.path) with
  | some found =>
    obtain ⟨hmem, hmethod, hmatch⟩ := matches_of_found hfound
    exact (if_pos rfl).trans (table_of_matches hmem hmethod hmatch).symm
  | none =>
    obtain ⟨hadmin, htable⟩ := table_of_not_found hfound
    dsimp only
    rw [htable]
    by_cases hpath : r.url.path = ascii "/api/admin"
    · have hlast : (escape .path r.url.path).getLast? ≠ some slash := by
        rw [hpath]
        decide
      rw [if_pos ⟨hlast, (matchesSlash_iff hadmin).mpr hpath⟩, if_pos hpath, hpath]
      rfl
    · rw [if_neg fun h => hpath ((matchesSlash_iff hadmin).mp h.2), if_neg (not_not_intro rfl),
        if_neg hpath, allowedMethods_eq hfound]
      by_cases hversion : cfg.oauthURL.isSome = true ∧ r.url.path = versionPath
      · rw [if_pos hversion, if_pos hversion, if_neg (by simp)]
      · rw [if_neg hversion, if_neg hversion, if_pos rfl]

/-- No pattern matches the root, nor the path of two slashes. -/
theorem not_found_of_slashes {cfg : Config} {method path : Bytes}
    (hpath : path = [slash] ∨ path = [slash, slash]) :
    (routes cfg).matchMethodAndPath method (escape .path path) = none := by
  cases hfound : (routes cfg).matchMethodAndPath method (escape .path path) with
  | none => rfl
  | some found =>
    obtain ⟨pat, e⟩ := found
    obtain ⟨hmem, hmethod, hmatch⟩ := matches_of_found hfound
    have htable := table_of_matches hmem hmethod hmatch
    have hnone : table cfg method path = .notFound := by
      unfold table
      rcases hpath with rfl | rfl <;> cases cfg.authEnabled <;> cases cfg.oauthURL.isSome <;> rfl
    exact absurd (htable.symm.trans hnone) (by simp)

/-- The mux redirects the path of two slashes, unless it is asked to connect. -/
theorem route_of_slashes {cfg : Config} {r : Request} (hpath : r.url.path = [slash, slash])
    (hescape : escape .path r.url.path = r.url.target) :
    (routes cfg).route r.method r.url =
      if r.method ≠ ascii "CONNECT" then .redirect [slash] else .notFound := by
  have hslashes : escape .path [slash, slash] = [slash, slash] := by decide
  have hraw := r.url.rawPath_eq_nil_iff.mpr hescape
  have hescaped : escapedPath r.url.path r.url.rawPath = [slash, slash] := by
    rw [hraw, hpath, escapedPath_of_rawPath_eq_nil (by decide), hslashes]
  have hstar : r.url.target ≠ ascii "*" := by
    rw [← hescape, hpath]
    decide
  rw [ServeMux.route, if_neg hstar]
  dsimp only
  rw [hescaped, ServeMux.matchedPath]
  by_cases hconnect : r.method = ascii "CONNECT"
  · have hnone := @not_found_of_slashes cfg r.method _ (.inr rfl)
    have hallowed := allowedMethods_eq hnone
    rw [if_neg fun h => absurd h.2 (by decide)] at hallowed
    rw [hslashes] at hnone hallowed
    rw [if_pos hconnect, hnone, if_neg (not_not_intro hconnect)]
    dsimp only
    rw [if_neg fun h => absurd h.1 (by decide), if_neg (not_not_intro rfl), if_pos hallowed]
  · -- it is matched on its clean path, which is one slash
    have hclean : cleanPath [slash, slash] = escape .path [slash] := by decide
    rw [if_neg hconnect, hclean, not_found_of_slashes (.inl rfl), if_pos hconnect]
    dsimp only
    rw [if_neg fun h => absurd h.1 (by decide), if_pos (by decide)]
    rfl

section Dispatch

variable {cfg : Config} {r : Request}

/-- A request whose path is canonical and in its default encoding goes where the table says. -/
theorem dispatch_of_canonical (hroot : [slash] <+: r.url.path)
    (hescape : escape .path r.url.path = r.url.target) (hcanon : Canonical r.url.path) :
    dispatch cfg r = table cfg r.method r.url.path := by
  obtain ⟨q, hq⟩ := hroot
  rw [dispatch, if_pos ((canonicalPathOnly_iff hq.symm).mpr ⟨hescape, .inl hcanon⟩),
    route_of_canonical hq.symm hescape hcanon]

/-- A request whose path is not in its default encoding is refused. -/
theorem dispatch_of_reencoded (hroot : [slash] <+: r.url.path)
    (hescape : escape .path r.url.path ≠ r.url.target) : dispatch cfg r = .notFound := by
  obtain ⟨q, hq⟩ := hroot
  rw [dispatch, if_neg fun h => hescape ((canonicalPathOnly_iff hq.symm).mp h).1]

/-- Where a request goes whose path is rooted: to the table if the path is canonical and in its
default encoding. The path of two slashes is let through by `canonicalPathOnly`, and redirected by
the mux. -/
theorem dispatch_eq_table (hroot : [slash] <+: r.url.path) :
    dispatch cfg r =
      if escape .path r.url.path ≠ r.url.target then .notFound
      else if Canonical r.url.path then table cfg r.method r.url.path
      else if r.url.path = [slash, slash] ∧ r.method ≠ ascii "CONNECT" then .redirect [slash]
      else .notFound := by
  by_cases hescape : escape .path r.url.path = r.url.target
  · rw [if_neg (not_not_intro hescape)]
    by_cases hcanon : Canonical r.url.path
    · rw [if_pos hcanon, dispatch_of_canonical hroot hescape hcanon]
    · obtain ⟨q, hq⟩ := hroot
      rw [if_neg hcanon, dispatch]
      by_cases hslashes : r.url.path = [slash, slash]
      · rw [if_pos ((canonicalPathOnly_iff hq.symm).mpr ⟨hescape, .inr hslashes⟩),
          route_of_slashes hslashes hescape]
        exact if_congr (by simp [hslashes]) rfl rfl
      · rw [if_neg fun h => ?_, if_neg fun h => hslashes h.1]
        rcases ((canonicalPathOnly_iff hq.symm).mp h).2 with h | h
        · exact hcanon h
        · exact hslashes h
  · rw [if_pos hescape, dispatch_of_reencoded hroot hescape]

end Dispatch

namespace Reference

/-- A request for the admin API without a slash behind it. -/
def bareRequest : Request := request "POST" "/api/admin" "" []

/-- The prefix without its slash is redirected. -/
theorem bareRequest_redirected : dispatch server.cfg bareRequest = .redirect adminPrefix := by
  rw [dispatch_eq_table (by decide), if_neg (by decide), if_pos (by decide)]
  rfl

end Reference

end Bff
