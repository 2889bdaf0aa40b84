import OAuth2Monitoring.Bff.Login
import OAuth2Monitoring.Bff.Routing
import OAuth2Monitoring.JsStd.Uri

/-!
# Addresses the console writes

What becomes of a text of the console on its way through `encodeURIComponent`, the browser, the
request line and the routes of the BFF.

The page a login is begun from arrives as it is, and is where the login ends, as far as
`http.Redirect` leaves it as it is. An IP address is
looked up by a segment of a path: `encodeURIComponent` and Go's default encoding of a path escape
different bytes, and a request in any other encoding than the default is refused.

## Main results

* `login_of_asks`, `returned_of_run`: where a completed login ends.
* `dispatch_of_asksReputation`: the addresses that can be looked up.
-/

namespace Console

open JsStd GoStd Interleaving

/-- `authStore.login(returnTo)` on the page at `pathname` with `search`: the address the browser is
sent to. Half of a surrogate pair throws. -/
def loginHref (pathname search : Text) (returnTo : Option Text) : Option Bytes :=
  (encodeURIComponent (returnTo.getD (pathname ++ search))).map (ascii "/bff/login?return_to=" ++ ·)

/-- The path of `fetchIPReputation`, up to the address. -/
def reputationPath : Bytes := ascii "/api/admin/security/ip-reputation/"

/-- The address `fetchIPReputation(ip)` fetches. -/
def reputationAddress (ip : Text) : Option Bytes :=
  (encodeURIComponent ip).map (reputationPath ++ ·)

/-- The request that a browser sends for an address of the BFF. -/
structure Asks (address : Bytes) (r : GoStd.Request) : Prop where
  target : r.url.target = sentPath (addressPath address)
  query : r.url.rawQuery = sentQuery (addressQuery address)

/-! ## What is sent -/

/-- The path of an address ends at its query. -/
theorem addressPath_append {path rest : Bytes} (hpath : ∀ c ∈ path, c ≠ 63 ∧ c ≠ 35)
    (hrest : rest = [] ∨ rest.head? = some 63) : addressPath (path ++ rest) = path := by
  have hall : ∀ c ∈ path, decide (c ≠ 63 ∧ c ≠ 35) = true := fun c hc => decide_eq_true (hpath c hc)
  rw [addressPath, List.takeWhile_append_of_pos hall]
  rcases hrest with rfl | hrest
  · simp
  · cases rest with
    | nil => simp
    | cons c rest =>
      obtain rfl : c = 63 := Option.some.inj hrest
      simp

theorem addressQuery_append {path query : Bytes} (hpath : ∀ c ∈ path, c ≠ 63 ∧ c ≠ 35) :
    addressQuery (path ++ 63 :: query) = query := by
  have hall : ∀ c ∈ path, decide (c ≠ 63 ∧ c ≠ 35) = true := fun c hc => decide_eq_true (hpath c hc)
  have hdrop : (path ++ 63 :: query).dropWhile (fun c => c ≠ 63 ∧ c ≠ 35) = 63 :: query := by
    rw [List.dropWhile_append_of_pos hall]
    rfl
  rw [addressQuery, hdrop]
  rfl

/-- The request line says which path was asked for. -/
theorem path_of_target {u : GoStd.Url} {path : Bytes} (h : unescape .path u.target = some path) :
    u.path = path := by
  have hparsed := u.parsed
  rw [setPath, h] at hparsed
  exact (congrArg Prod.fst (Option.some.inj hparsed)).symm

/-! ## Logins -/

section Login

variable {pathname search : Text} {returnTo : Option Text} {href : Bytes}

/-- A login reaches the BFF's login handler, with the page it was begun from. -/
theorem login_of_asks {cfg : Bff.Config} (hauth : cfg.authEnabled = true)
    (hhref : loginHref pathname search returnTo = some href) {r : GoStd.Request}
    (hasks : Asks href r) :
    Bff.dispatch cfg r = .handler .login ∧
      some ((parseQuery r.url.rawQuery).get (ascii "return_to")) =
        utf8 (returnTo.getD (pathname ++ search)) := by
  obtain ⟨encoded, hencoded, rfl⟩ := Option.map_eq_some_iff.mp hhref
  rw [encodeURIComponent_eq] at hencoded
  obtain ⟨page, hpage, rfl⟩ := Option.map_eq_some_iff.mp hencoded
  have hsplit : ascii "/bff/login?return_to=" = ascii "/bff/login" ++ 63 :: (ascii "return_to" ++
      [61]) := by
    decide
  have hplain : ∀ c ∈ ascii "/bff/login", c ≠ 63 ∧ c ≠ 35 := forall_mem_of_all (by decide)
  have htarget := hasks.target
  have hquery := hasks.query
  rw [hsplit, List.append_assoc, List.cons_append] at htarget hquery
  rw [addressPath_append hplain (.inr rfl)] at htarget
  rw [addressQuery_append hplain, List.append_assoc, List.singleton_append] at hquery
  constructor
  · have hsent : sentPath (ascii "/bff/login") = ascii "/bff/login" := by decide
    have hescape : escape .path (ascii "/bff/login") = ascii "/bff/login" := by decide
    have hpath : r.url.path = ascii "/bff/login" := by
      refine path_of_target ?_
      rw [htarget, hsent, ← hescape, unescape_escape, hescape]
    rw [Bff.dispatch_of_canonical (by rw [hpath]; decide) (by rw [hpath, htarget, hsent, hescape])
      (by rw [hpath]; decide), hpath, Bff.table, hauth]
    rfl
  · rw [hquery, parseQuery_sentQuery (forall_mem_of_all (by decide)), hpage]
    rfl

/-- A callback that has signed the browser in sends it to what `http.Redirect` makes of the page its
login was begun from, as far as the BFF takes it for one of its own: to the very page when it is
clean. -/
theorem returned_of_run {d : Bff.Deps} {srv : Bff.Server d} (hd : d.Lawful)
    (hgw : srv.gateway.Lawful) {t₀ : ℤ} {st : Bff.SessionStore d}
    {P : Pool (Bff.World d) GoStd.Request (@Bff.Res d) Bff.Response}
    (hP : srv.Run (Bff.World.start srv.cfg t₀ st) P) {t : ℕ} {r : GoStd.Request}
    {resp : Bff.Response} (ht : P.threads[t]? = some ⟨r, .ret resp⟩)
    (hcb : Bff.dispatch srv.cfg r = .handler .callback) (hloc : resp.location ≠ none) :
    ∃ u th login, P.threads[u]? = some th ∧ Bff.stored (Bff.stateOf r) login ∈ history u P.trace ∧
      ∀ pathname search returnTo href, loginHref pathname search returnTo = some href →
        Asks href th.job → ∃ page, utf8 (returnTo.getD (pathname ++ search)) = some page ∧
          resp.location = some (redirectURL r.url.path (d.sanitizeReturnTo page)) ∧
          (d.sanitizeReturnTo page = page → IsClean page → resp.location = some page) := by
  obtain ⟨-, _, hmem, -, -⟩ := Bff.dispatch_handler hcb
  have hauth : srv.cfg.authEnabled = true := (Bff.mem_routes hmem).1
  rcases Bff.callbackDone_of_run hd hgw hP ht hcb with
    ⟨login, _, _, htook, -, hredirect, -⟩ | ⟨-, hnone, -⟩
  · obtain ⟨u, hu⟩ := Bff.storedBy_of_took hd hgw hP (List.nil_append _).symm htook
    obtain ⟨th, hth, -, hreturn, -⟩ := hu.thread
    refine ⟨u, th, login, hth, hu.stored, fun pathname search returnTo href hhref hasks => ?_⟩
    obtain ⟨-, hpage⟩ := login_of_asks hauth hhref hasks
    refine ⟨_, hpage.symm, by rw [hredirect, hreturn], fun hown hclean => ?_⟩
    rw [hredirect, hreturn, hown, redirectURL_of_isClean hclean]
  · exact absurd hnone hloc

/-- The request of a browser that begins its login on the page of the users. -/
def usersLogin : GoStd.Request :=
  Bff.Reference.request "GET" "/bff/login" "return_to=%2Fusers" []

/-- The browser asks for the login with the page to come back to. -/
theorem usersLogin_asked : ∃ href, loginHref (text "/users") [] none = some href ∧
    Asks href usersLogin := by
  refine ⟨ascii "/bff/login?return_to=%2Fusers", by decide, ?_⟩
  have htarget : usersLogin.url.target = ascii "/bff/login" := by decide
  exact ⟨by rw [htarget]; decide, by decide⟩

/-- The login stores it. -/
theorem usersLogin_run : ∃ l rl q, Prog.Exec (Bff.Answers Bff.Reference.server.cfg)
    Bff.Reference.world (Bff.Reference.server.handler usersLogin) l q
      (Bff.Reference.loginWorld rl) := by
  have hdispatch : Bff.dispatch Bff.Reference.server.cfg usersLogin = .handler .login := by
    obtain ⟨href, hhref, hasks⟩ := usersLogin_asked
    exact (login_of_asks (by decide) hhref hasks).1
  have hsanitized : Bff.Reference.deps.sanitizeReturnTo
      ((GoStd.parseQuery usersLogin.url.rawQuery).get (ascii "return_to")) = ascii "/users" := by
    decide +kernel
  obtain ⟨l, rl, hrun⟩ := Bff.Reference.login_run hdispatch hsanitized
  exact ⟨l, rl, _, hrun⟩

/-- A login that was begun on the page of the users, and completed. -/
theorem login_returned : ∃ (P : Pool (Bff.World Bff.Reference.deps) GoStd.Request
      (@Bff.Res Bff.Reference.deps) Bff.Response) (u : ℕ) (th : Thread GoStd.Request
      (@Bff.Res Bff.Reference.deps) Bff.Response) (login : Bff.PendingLogin) (resp : Bff.Response),
    Bff.Reference.server.Run Bff.Reference.world P ∧ P.threads[u]? = some th ∧
      Bff.stored (Bff.stateOf Bff.Reference.callbackRequest) login ∈ history u P.trace ∧
      resp.location = some (ascii "/users") ∧
      ∀ pathname search returnTo href, loginHref pathname search returnTo = some href →
        Asks href th.job → ∃ page, utf8 (returnTo.getD (pathname ++ search)) = some page ∧
          resp.location = some (redirectURL Bff.Reference.callbackRequest.url.path
            (Bff.Reference.deps.sanitizeReturnTo page)) ∧
          (Bff.Reference.deps.sanitizeReturnTo page = page → IsClean page →
            resp.location = some page) := by
  obtain ⟨l, rl, q, hlogin⟩ := usersLogin_run
  obtain ⟨l', sess, w', hcallback, -⟩ := Bff.Reference.callbackRequest_run rl
  have hP : Bff.Reference.server.Run Bff.Reference.world _ :=
    (Reachable.start.run usersLogin hlogin).run Bff.Reference.callbackRequest hcallback
  obtain ⟨u, th, login, hth, hstored, hreturned⟩ := returned_of_run (t := 1)
    Bff.Reference.lawful Bff.Reference.gateway_lawful hP rfl
    Bff.Reference.dispatch_callbackRequest (by simp [Bff.Response.withCookie, Bff.httpRedirect])
  exact ⟨_, u, th, login, _, hP, hth, hstored,
    congrArg some (redirectURL_of_isClean Bff.Reference.isClean_users _), hreturned⟩

end Login

/-! ## Lookups of IP addresses -/

/-- The bytes that `encodeURIComponent` and the default encoding of a path treat differently: the
path escapes the first five, the component the others. -/
def reencoded : Bytes := ascii "!'()*$&+,/:;=@"

/-- The bytes Go escapes in a path. -/
theorem shouldEscape_path_iff (c : UInt8) : shouldEscape .path c = true ↔
    ¬(97 ≤ c.toNat ∧ c.toNat ≤ 122 ∨ 65 ≤ c.toNat ∧ c.toNat ≤ 90 ∨ 48 ≤ c.toNat ∧ c.toNat ≤ 57) ∧
      c.toNat ∉ [45, 95, 46, 126, 36, 38, 43, 44, 47, 58, 59, 61, 64] := by
  have hmarks : ascii "-_.~" = [45, 95, 46, 126] := by decide
  have hreserved : ascii "$&+,/:;=?@" = [36, 38, 43, 44, 47, 58, 59, 61, 63, 64] := by decide
  simp only [shouldEscape, hmarks, hreserved, UInt8.le_iff_toNat_le, List.mem_cons,
    List.not_mem_nil, or_false, ← UInt8.toNat_inj, UInt8.reduceToNat]
  split_ifs <;> simp <;> omega

/-- The bytes on which Go and the browser agree. -/
theorem shouldEscape_eq_iff (c : UInt8) : shouldEscape .path c = uriEscaped c ↔ c ∉ reencoded := by
  have hbytes : reencoded = [33, 39, 40, 41, 42, 36, 38, 43, 44, 47, 58, 59, 61, 64] := by decide
  rw [uriEscaped, Bool.eq_iff_iff, shouldEscape_path_iff, Bool.not_eq_true', ← Bool.not_eq_true,
    uriUnescaped_iff, hbytes]
  simp only [List.mem_cons, List.not_mem_nil, or_false, ← UInt8.toNat_inj, UInt8.reduceToNat]
  omega

/-- The directories of the lookup. -/
def reputationDirs : List Bytes := ["api", "admin", "security", "ip-reputation"].map ascii

theorem reputationPath_append (s : Bytes) :
    reputationPath ++ s = slash :: [slash].intercalate (reputationDirs ++ [s]) := by
  have hdirs : reputationPath = slash :: ([slash].intercalate reputationDirs ++ [slash]) := by
    decide
  rw [List.intercalate_append slash (by decide) (by simp), List.intercalate_singleton, hdirs]
  simp

/-- The path a lookup is sent to. The browser takes the two names of directories for what they
are. -/
theorem target_of_asks {ip : Text} {address : Bytes}
    (haddress : reputationAddress ip = some address) {r : GoStd.Request}
    (hasks : Asks address r) : ∃ s, utf8 ip = some s ∧ r.url.target =
      if s = [46, 46] then ascii "/api/admin/security/" else if s = [46] then reputationPath
      else reputationPath ++ percentEncode false uriEscaped s := by
  obtain ⟨encoded, hencoded, rfl⟩ := Option.map_eq_some_iff.mp haddress
  rw [encodeURIComponent_eq] at hencoded
  obtain ⟨s, hs, rfl⟩ := Option.map_eq_some_iff.mp hencoded
  refine ⟨s, hs, ?_⟩
  have hplain : ∀ c ∈ reputationPath ++ percentEncode false uriEscaped s, c ≠ 63 ∧ c ≠ 35 := by
    intro c hc
    rcases List.mem_append.mp hc with hc | hc
    · have hfront : ∀ c ∈ reputationPath, c ≠ 63 ∧ c ≠ 35 := forall_mem_of_all (by decide)
      exact hfront c hc
    · rcases mem_uriEncoded hc with rfl | hc
      · decide
      · constructor <;> rintro rfl <;> exact absurd hc (by decide)
  have hdirs : ∀ dir ∈ reputationDirs, PlainSegment dir := by decide
  have htarget := hasks.target
  rw [← List.append_nil (reputationPath ++ _), addressPath_append hplain (.inl rfl),
    reputationPath_append, sentPath_uriEncoded hdirs] at htarget
  rw [htarget]
  split
  · decide
  · split
    · decide
    · rw [reputationPath_append]

/-- The path of an address without slashes that is no name of a directory is canonical. -/
theorem canonical_reputation {s : Bytes} (hslash : slash ∉ s) (hhere : s ≠ [46])
    (habove : s ≠ [46, 46]) : Canonical (reputationPath ++ s) := by
  have hsplit : ([slash].intercalate (reputationDirs ++ [s])).splitOn slash =
      reputationDirs ++ [s] := by
    refine List.splitOn_intercalate slash (fun seg hseg => ?_) (by simp)
    rcases List.mem_append.mp hseg with hseg | hseg
    · have hdirs : ∀ dir ∈ reputationDirs, slash ∉ dir := by decide
      exact hdirs seg hseg
    · rwa [List.mem_singleton.mp hseg]
  rw [reputationPath_append, canonical_cons_iff, hsplit, List.dropLast_concat]
  constructor
  · intro seg hseg
    rcases List.mem_append.mp hseg with hseg | hseg
    · have hdirs : ∀ dir ∈ reputationDirs, dir ≠ dotSegment ∧ dir ≠ dotDotSegment := by decide
      exact hdirs seg hseg
    · rw [List.mem_singleton.mp hseg]
      exact ⟨hhere, habove⟩
  · decide

/-- A directory below the admin API's path, in its default encoding, is proxied. -/
theorem dispatch_of_directory {cfg : Bff.Config} {r : GoStd.Request} {path : Bytes}
    (htarget : r.url.target = path) (hescape : escape .path path = path) (hcanon : Canonical path)
    (hroot : [slash] <+: path) (hadmin : Bff.adminPrefix <+: path) :
    Bff.dispatch cfg r = .handler (if cfg.authEnabled then .proxyWithSession else .proxy) := by
  have hpath : r.url.path = path := by
    refine path_of_target ?_
    rw [htarget, ← hescape, unescape_escape, hescape]
  rw [Bff.dispatch_of_canonical (by rwa [hpath]) (by rw [hpath, htarget, hescape])
    (by rwa [hpath]), hpath, Bff.table, if_pos hadmin]

/-- The segment of a lookup is in its default encoding when no byte of it is encoded in two
ways. -/
theorem escape_reputation_iff {s : Bytes} : escape .path (reputationPath ++ s) =
    reputationPath ++ percentEncode false uriEscaped s ↔ ∀ c ∈ s, c ∉ reencoded := by
  have hfront : escape .path reputationPath = reputationPath := by decide
  have hsplit : escape .path (reputationPath ++ s) =
      escape .path reputationPath ++ escape .path s := List.flatMap_append
  have hmode : escape .path = percentEncode false (shouldEscape .path) :=
    escape_eq_percentEncode .path
  rw [hsplit, hfront, List.append_cancel_left_eq, hmode,
    percentEncode_eq_iff (by decide) (by decide)]
  exact forall₂_congr fun c _ => shouldEscape_eq_iff c

/-- A lookup reaches the admin API when the address holds no byte that is encoded in two ways, and
is refused when it holds one: an address of IPv6 does, by its colons. -/
theorem dispatch_of_asksReputation (cfg : Bff.Config) {ip : Text} {address : Bytes}
    (haddress : reputationAddress ip = some address) {r : GoStd.Request}
    (hasks : Asks address r) : ∃ s, utf8 ip = some s ∧
      ((∀ c ∈ s, c ∉ reencoded) → Bff.dispatch cfg r =
        .handler (if cfg.authEnabled then .proxyWithSession else .proxy)) ∧
      ((∃ c ∈ s, c ∈ reencoded) → Bff.dispatch cfg r = .notFound) ∧
      (s ≠ [46] → s ≠ [46, 46] → r.url.path = reputationPath ++ s) := by
  obtain ⟨s, hs, htarget⟩ := target_of_asks haddress hasks
  refine ⟨s, hs, ?_⟩
  -- the names of directories hold no such byte, and ask for a directory
  have hdots : ∀ n, ¬∃ c ∈ List.replicate n (46 : UInt8), c ∈ reencoded := by
    rintro n ⟨c, hc, hmem⟩
    rw [List.eq_of_mem_replicate hc] at hmem
    exact absurd hmem (by decide)
  by_cases habove : s = [46, 46]
  · subst habove
    rw [if_pos rfl] at htarget
    exact ⟨fun _ => dispatch_of_directory htarget (by decide) (by decide) (by decide) (by decide),
      fun h => absurd h (hdots 2), fun _ h => absurd rfl h⟩
  by_cases hhere : s = [46]
  · subst hhere
    rw [if_neg (by decide), if_pos rfl] at htarget
    exact ⟨fun _ => dispatch_of_directory htarget (by decide) (by decide) (by decide) (by decide),
      fun h => absurd h (hdots 1), fun h => absurd rfl h⟩
  rw [if_neg habove, if_neg hhere] at htarget
  have hpath : r.url.path = reputationPath ++ s := by
    refine path_of_target ?_
    have hdecoded := @unescape_percentEncode .path false uriEscaped (by decide)
      (fun h => absurd h (by decide)) (fun h => absurd h (by decide)) s
    rw [htarget, unescape_append (forall_mem_of_all (by decide)), hdecoded]
    rfl
  have hroot : [slash] <+: r.url.path := by
    rw [hpath]
    exact ⟨reputationPath.tail ++ s, rfl⟩
  have hadmin : Bff.adminPrefix <+: r.url.path := by
    rw [hpath]
    exact ⟨ascii "security/ip-reputation/" ++ s, rfl⟩
  have hescape : escape .path r.url.path = r.url.target ↔ ∀ c ∈ s, c ∉ reencoded := by
    rw [hpath, htarget]
    exact escape_reputation_iff
  refine ⟨fun hplain => ?_, fun ⟨c, hc, hmem⟩ => ?_, fun _ _ => hpath⟩
  · have hcanon : Canonical r.url.path := by
      rw [hpath]
      exact canonical_reputation (fun h => hplain _ h (by decide)) hhere habove
    rw [Bff.dispatch_of_canonical hroot (hescape.mpr hplain) hcanon, Bff.table, if_pos hadmin]
  · exact Bff.dispatch_of_reencoded hroot fun h => hescape.mp h c hc hmem

/-- The request of the lookup of `::1`, whose colons were escaped. -/
def loopbackLookup : GoStd.Request :=
  { Bff.Reference.request "GET" "/" "" [] with
    url :=
      { target := ascii "/api/admin/security/ip-reputation/%3A%3A1"
        path := ascii "/api/admin/security/ip-reputation/::1"
        rawPath := ascii "/api/admin/security/ip-reputation/%3A%3A1"
        rawQuery := []
        parsed := by
          have htarget : ascii "/api/admin/security/ip-reputation/%3A%3A1" =
              reputationPath ++ percentEncode false uriEscaped (ascii "::1") := by
            decide
          have hdecoded := @unescape_percentEncode .path false uriEscaped (by decide)
            (fun h => absurd h (by decide)) (fun h => absurd h (by decide)) (ascii "::1")
          have hescape : ¬escape .path (ascii "/api/admin/security/ip-reputation/::1") =
              ascii "/api/admin/security/ip-reputation/%3A%3A1" := by
            decide
          have hpath : unescape .path (ascii "/api/admin/security/ip-reputation/%3A%3A1") =
              some (ascii "/api/admin/security/ip-reputation/::1") := by
            rw [htarget, unescape_append (forall_mem_of_all (by decide)), hdecoded]
            rfl
          rw [setPath, hpath]
          rw [Option.bind_eq_bind, Option.bind_some, if_neg hescape]
          rfl } }

/-- An address of IPv6 cannot be looked up. -/
theorem loopbackLookup_refused :
    Bff.dispatch Bff.Reference.server.cfg loopbackLookup = .notFound := by
  have haddress : reputationAddress (text "::1") =
      some (ascii "/api/admin/security/ip-reputation/%3A%3A1") := by
    decide
  obtain ⟨s, hs, -, hrefused, -⟩ := dispatch_of_asksReputation Bff.Reference.server.cfg haddress
    (r := loopbackLookup) ⟨by decide, by decide⟩
  obtain rfl : s = ascii "::1" := Option.some.inj (hs.symm.trans (by decide))
  exact hrefused ⟨58, by decide, by decide⟩

end Console
