import OAuth2Monitoring.Bff.Reference
import Mathlib.Data.List.TakeWhile

/-!
# The client an upstream is told about

The Director of a proxy replaces the browser's `X-Forwarded-For` by the address the request is
attributed to, and the reverse proxy appends the peer behind it. In between, the reverse proxy
removes the headers that the `Connection` header names: a request that names `X-Forwarded-For`
there has the attributed address removed, and the upstream reads the peer.

## Main definitions

* `Attributes`: what the packages do with the two headers.
* `leftmost`: the first entry of `X-Forwarded-For`.

## Main results

* `leftmost_eq_clientIP_iff`: the upstream reads the caller's address unless the header is named,
  or the peer is the caller.
-/

namespace Bff

open GoStd Interleaving Interleaving.Prog

/-- The header that names the client. -/
abbrev forwardedFor : Bytes := ascii "X-Forwarded-For"

/-- The first entry of `X-Forwarded-For`. -/
def leftmost (h : Header) : Bytes := (h.get forwardedFor).takeWhile (· ≠ 44)

/-- What the packages do with the headers: attribution records the address, and neither the gateway
nor the Director of a single-host proxy changes the `Connection` header. -/
structure Attributes {d : Deps} (srv : Server d) : Prop where
  applied : ∀ ctx h, d.applyClientAttribution ctx h forwardedFor = [ctx.ip]
  director : ∀ base out,
    (d.singleHostDirector base out).header (ascii "Connection") = out.header (ascii "Connection")
  authorize : ∀ (passthrough : Bool) (refresh : TokenRefresher d) (r r' : Request)
    (l : List (Event (@Res d))),
    (srv.gateway.authorize passthrough refresh r).Yields l (.forward r') →
      r'.header (ascii "Connection") = r.header (ascii "Connection")

/-! ## Addresses -/

theorem mem_of_mem_dropSpace {read : Bytes → Bytes} {c : UInt8} {s : Bytes}
    (h : c ∈ dropSpace read s) : c ∈ s := by
  fun_induction dropSpace read s with
  | case1 => exact h
  | case2 a s hspace ih => exact List.mem_cons_of_mem _ (ih h)
  | case3 a hspace => exact h
  | case4 a hspace b s hspace' ih =>
    exact List.mem_cons_of_mem _ (List.mem_cons_of_mem _ (ih h))
  | case5 a hspace b hspace' => exact h
  | case6 a hspace b hspace' c s hspace'' ih =>
    exact List.mem_cons_of_mem _ (List.mem_cons_of_mem _ (List.mem_cons_of_mem _ (ih h)))
  | case7 a hspace b hspace' c s hspace'' => exact h

theorem mem_of_mem_trimSpace {c : UInt8} {s : Bytes} (h : c ∈ trimSpace s) : c ∈ s := by
  rw [trimSpace, List.mem_reverse] at h
  have h := mem_of_mem_dropSpace h
  rw [List.mem_reverse] at h
  exact mem_of_mem_dropSpace h

/-- The caller's address has no comma when the peer's has none. -/
theorem comma_not_mem_clientIP {d : Deps} {r : Request} {host port : Bytes}
    (hpeer : splitHostPort r.remoteAddr = some (host, port)) (hhost : 44 ∉ host) :
    44 ∉ clientIP d r := by
  unfold clientIP
  simp only [hpeer]
  split
  · exact hhost
  · split
    · split
      -- the entry of the header is cut off in front of the first comma
      · intro hmem
        have hmem := List.mem_takeWhile_imp (mem_of_mem_trimSpace hmem)
        simp at hmem
      · exact hhost
    · exact hhost

/-! ## The two proxies -/

section

variable {d : Deps} {srv : Server d} {ctx : Attribution} {r r' : Request} {out : OutRequest}
  {host port : Bytes}

/-- A proxy whose Director sets the header to the attributed address sends that address first,
unless the `Connection` header names the header. -/
theorem leftmost_of_outgoing {p : ReverseProxy} (hout : p.outgoing r' = some out)
    (hxff : (p.director r'.clone).header forwardedFor = [ctx.ip])
    (hconn : (p.director r'.clone).header (ascii "Connection") = r.header (ascii "Connection"))
    (hpeer : splitHostPort r'.remoteAddr = some (host, port)) (hhost : 44 ∉ host)
    (hip : 44 ∉ ctx.ip) :
    leftmost out.header = if ConnectionNames r.header forwardedFor then host else ctx.ip := by
  have hnames : ConnectionNames (p.director r'.clone).header forwardedFor ↔
      ConnectionNames r.header forwardedFor := by
    unfold ConnectionNames
    rw [hconn]
  have hsent : out.header forwardedFor = [[(44 : UInt8), 32].intercalate
      ((if ConnectionNames r.header forwardedFor then [] else [ctx.ip]) ++ [host])] := by
    rw [ReverseProxy.outgoing_eq_some hout]
    refine (forwardedHeader_forwardedFor hpeer _ _).trans ?_
    rw [hxff]
    simp only [hnames]
  have hcanon : canonicalMIMEHeaderKey forwardedFor = forwardedFor := by decide
  have htake : ∀ {s : Bytes} (t : Bytes), 44 ∉ s → (s ++ 44 :: t).takeWhile (· ≠ 44) = s := by
    intro s t hs
    rw [List.takeWhile_append_of_pos]
    · simp
    · intro c hc
      rw [decide_eq_true_iff]
      rintro rfl
      exact hs hc
  rw [leftmost, Header.get, hcanon, hsent]
  split
  · -- the peer is the only entry
    have hjoin : [(44 : UInt8), 32].intercalate [host] = host := by
      simp [List.intercalate]
    show ([(44 : UInt8), 32].intercalate [host]).takeWhile (· ≠ 44) = host
    rw [hjoin, List.takeWhile_eq_self_iff]
    intro c hc
    rw [decide_eq_true_iff]
    rintro rfl
    exact hhost hc
  · show ([(44 : UInt8), 32].intercalate [ctx.ip, host]).takeWhile (· ≠ 44) = ctx.ip
    have hjoin : [(44 : UInt8), 32].intercalate [ctx.ip, host] = ctx.ip ++ 44 :: 32 :: host := by
      simp [List.intercalate, List.intersperse]
    rw [hjoin]
    exact htake _ hip

variable (ctx) in
/-- What the Director of an attributed proxy leaves of the two headers. -/
theorem attributedDirector_headers (hd : d.Lawful) (ha : Attributes srv) (out : OutRequest) :
    (attributedDirector d ctx out).header forwardedFor = [ctx.ip] ∧
      (attributedDirector d ctx out).header (ascii "Connection") =
        out.header (ascii "Connection") := by
  refine ⟨ha.applied _ _, ?_⟩
  refine (hd.attribution_keeps _ _ _ (by decide) (by decide)).trans ?_
  exact Header.del_of_ne _ (by decide)

/-- What the proxies tell an upstream about a request that is `r` but for its headers. -/
theorem leftmost_of_adminProxy (hd : d.Lawful) (ha : Attributes srv)
    (hout : (adminProxy d srv.cfg ctx).outgoing r' = some out)
    (hconn : r'.header (ascii "Connection") = r.header (ascii "Connection"))
    (hpeer : splitHostPort r'.remoteAddr = some (host, port)) (hhost : 44 ∉ host)
    (hip : 44 ∉ ctx.ip) :
    leftmost out.header = if ConnectionNames r.header forwardedFor then host else ctx.ip := by
  obtain ⟨hxff, hkept⟩ :=
    attributedDirector_headers ctx hd ha (hostDirector d srv.cfg.adminURL r'.clone)
  have hhostDirector : (hostDirector d srv.cfg.adminURL r'.clone).header (ascii "Connection") =
      r'.header (ascii "Connection") := ha.director _ _
  exact leftmost_of_outgoing hout hxff (hkept.trans (hhostDirector.trans hconn)) hpeer hhost hip

/-- The leftmost address the version proxy sends. -/
theorem leftmost_of_versionProxy (hd : d.Lawful) (ha : Attributes srv) {base : BaseURL}
    (hout : (versionProxy d base ctx).outgoing r = some out)
    (hpeer : splitHostPort r.remoteAddr = some (host, port)) (hhost : 44 ∉ host)
    (hip : 44 ∉ ctx.ip) :
    leftmost out.header = if ConnectionNames r.header forwardedFor then host else ctx.ip := by
  let sent := hostDirector d base r.clone
  obtain ⟨hxff, hkept⟩ := attributedDirector_headers ctx hd ha
    { sent with header := (sent.header.del (ascii "Authorization")).del (ascii "Cookie") }
  have hsent : sent.header (ascii "Connection") = r.header (ascii "Connection") := ha.director _ _
  -- deleting the credentials leaves the header that names the hop-by-hop ones
  have hdel : ((sent.header.del (ascii "Authorization")).del (ascii "Cookie"))
      (ascii "Connection") =
      sent.header (ascii "Connection") := by
    rw [Header.del_of_ne _ (by decide), Header.del_of_ne _ (by decide)]
  exact leftmost_of_outgoing hout hxff (hkept.trans (hdel.trans hsent)) hpeer hhost hip

/-- An operation that proxies names, as the client, the peer or the caller. -/
def NamesClient (r : Request) (host : Bytes) (op : Op d) : Prop :=
  ∀ up out, op = .proxy up out →
    leftmost out.header = if ConnectionNames r.header forwardedFor then host else clientIP d r

/-- A proxy whose requests name the client does so in its handler. -/
theorem serveProxy_namesClient {up : Upstream} {p : ReverseProxy} {h : List (Event (@Res d))}
    (hp : ∀ out, p.outgoing r' = some out → leftmost out.header =
      if ConnectionNames r.header forwardedFor then host else clientIP d r) :
    (serveProxy up p r').Sat (fun _ op => NamesClient r host op) (fun _ _ => True) h := by
  unfold serveProxy
  split
  · trivial
  · rename_i out hout
    refine ⟨?_, fun a => by cases a <;> trivial⟩
    rintro up' out' ⟨⟩
    exact hp out hout

/-- Whatever the server proxies for a request names the peer or the caller. -/
theorem handler_namesClient (hd : d.Lawful) (hgw : srv.gateway.Lawful) (ha : Attributes srv)
    (hpeer : splitHostPort r.remoteAddr = some (host, port)) (hhost : 44 ∉ host) :
    (srv.handler r).Uses (NamesClient r host) := by
  have hip : 44 ∉ (Server.attribution d r).ip := comma_not_mem_clientIP hpeer hhost
  have hsat : (srv.handler r).Sat (fun _ op => NamesClient r host op) (fun _ _ => True) [] := by
    cases hdisp : dispatch srv.cfg r with
    | handler e =>
      rw [Server.handler_of_dispatch hdisp]
      cases e with
      | proxyWithSession =>
        have hrun : (srv.gateway.authorize srv.cfg.allowPassthrough
            (tokenRefresherAdapter srv.cfg (Server.attribution d r)) r).Uses RefreshingOp :=
          Server.authorize_uses hgw fun _ hop => hop
        refine Sat.bind ((hrun.sat_append ?_).mono (fun _ _ hop => hop) ?_)
        · -- the gateway does not proxy
          rintro h op hop up out rfl
          rcases hop with hop | ⟨c, hop⟩
          · exact hop.elim
          · cases hop
        · rintro h v ⟨l, hl, -, rfl⟩
          cases v with
          | refuse resp => trivial
          | forward r' =>
            obtain ⟨-, -, hremote⟩ := hgw.authorize_for _ _ _ _ _ hl
            exact serveProxy_namesClient fun out hout =>
              leftmost_of_adminProxy hd ha hout (ha.authorize _ _ _ _ _ hl) (hremote ▸ hpeer)
                hhost hip
      | proxy =>
        exact serveProxy_namesClient fun out hout =>
          leftmost_of_adminProxy hd ha hout rfl hpeer hhost hip
      | version =>
        simp only [Server.serve]
        cases srv.cfg.oauthURL with
        | none => trivial
        | some base =>
          exact serveProxy_namesClient fun out hout =>
            leftmost_of_versionProxy hd ha hout hpeer hhost hip
      | health | login | callback | session | logout | elevate =>
        refine (Server.serve_uses hgw _).sat fun h op hop up out hproxy => ?_
        subst hproxy
        exact hop.elim
    | redirect _ | methodNotAllowed _ | notFound | badRequest =>
      rw [Server.handler, hdisp]
      trivial
  exact hsat.uses

/-- The leftmost address of every request that is forwarded. -/
theorem leftmost_of_yields (hd : d.Lawful) (hgw : srv.gateway.Lawful) (ha : Attributes srv)
    (hpeer : splitHostPort r.remoteAddr = some (host, port)) (hhost : 44 ∉ host)
    {l : List (Event (@Res d))} {resp : Response} (hl : (srv.handler r).Yields l resp)
    {up : Upstream} {out : OutRequest} {answer : Option Answer}
    (hmem : ⟨.proxy up out, answer⟩ ∈ l) :
    leftmost out.header =
      if ConnectionNames r.header forwardedFor then host else clientIP d r :=
  hl.of_uses (handler_namesClient hd hgw ha hpeer hhost) _ hmem up out rfl

/-- What the server proxies for a request names its caller first, in the header the upstream reads
the client from, exactly when the request's `Connection` header does not name that header or the
peer is the caller. -/
theorem leftmost_eq_clientIP_iff (hd : d.Lawful) (hgw : srv.gateway.Lawful) (ha : Attributes srv)
    (hpeer : splitHostPort r.remoteAddr = some (host, port)) (hhost : 44 ∉ host)
    {l : List (Event (@Res d))} {resp : Response} (hl : (srv.handler r).Yields l resp)
    {up : Upstream} {out : OutRequest} {answer : Option Answer}
    (hmem : ⟨.proxy up out, answer⟩ ∈ l) :
    leftmost out.header = clientIP d r ↔
      ¬ConnectionNames r.header forwardedFor ∨ clientIP d r = host := by
  rw [leftmost_of_yields hd hgw ha hpeer hhost hl hmem]
  split
  -- the peer is named in place of the client, and they may be the same
  · rename_i hnames
    simp only [hnames, not_true_eq_false, false_or]
    exact eq_comm
  · rename_i hnames
    simp [hnames]

end

/-! ## Two probes -/

namespace Reference

theorem withBearer_connection (r : Request) (tok : Bytes) :
    (withBearer r tok).header (ascii "Connection") = r.header (ascii "Connection") := by
  unfold withBearer
  dsimp only
  rw [Header.set_of_ne _ _ (by decide), Header.del_of_ne _ (by decide)]

/-- The sample attribution sets the resolved address. -/
theorem attributes : Attributes server where
  applied ctx h := by
    have hagent : forwardedFor ≠ canonicalMIMEHeaderKey (ascii "User-Agent") := by decide
    have hcanon : canonicalMIMEHeaderKey forwardedFor = forwardedFor := by decide
    show ((h.set forwardedFor ctx.ip).set (ascii "User-Agent") ctx.userAgent) forwardedFor =
      [ctx.ip]
    have hself := h.set_self forwardedFor ctx.ip
    rw [hcanon] at hself
    rw [Header.set_of_ne _ _ hagent, hself]
  director _ _ := rfl
  authorize passthrough refresh r r' l h := by
    have hsat : (gateway.authorize passthrough refresh r).Sat (fun _ _ => True)
        (fun _ v => ∀ r', v = .forward r' →
          r'.header (ascii "Connection") = r.header (ascii "Connection")) [] := by
      refine Sat.bind ((sat_true _ _).mono (fun _ _ h => h) fun past sess _ => ?_)
      -- passed through as it is, or with the session's token as bearer
      cases sess with
      | none =>
        intro r' hr'
        change (if passthrough = true then Verdict.forward r else
          refusal "unauthenticated" 401) = .forward r' at hr'
        split at hr' <;> cases hr'
        rfl
      | some sess =>
        intro r' hr'
        change (if _ ∧ _ then refusal "invalid_csrf" 403 else
          Verdict.forward (withBearer r (deps.accessToken sess))) = .forward r' at hr'
        split at hr' <;> cases hr'
        exact withBearer_connection r _
    exact h.sat hsat r' rfl

/-- A version probe through the proxy in front, which names the browser's address. -/
def forwardedProbe (headers : List (String × String)) : Request :=
  { request "GET" "/api/version" "" (("X-Forwarded-For", "203.0.113.7") :: headers) with
    remoteAddr := ascii "127.0.0.1:50000" }

/-- A probe of the version is proxied. -/
theorem probe_yields {r : Request} (hr : dispatch server.cfg r = .handler .version)
    (hup : ((versionProxy deps ⟨ascii "127.0.0.1:8080", [], []⟩
      (Server.attribution deps r)).outgoing r).isSome) :
    ∃ out, (server.handler r).Yields [⟨.proxy .issuer out, none⟩] badGateway := by
  obtain ⟨out, hout⟩ := Option.isSome_iff_exists.mp hup
  have hbase : server.cfg.oauthURL = some ⟨ascii "127.0.0.1:8080", [], []⟩ := rfl
  refine ⟨out, ?_⟩
  rw [Server.handler_of_dispatch hr]
  simp only [Server.serve, hbase]
  unfold serveProxy
  rw [hout]
  exact .call _ (.ret _)

theorem splitHostPort_probe (headers : List (String × String)) :
    splitHostPort (forwardedProbe headers).remoteAddr =
      some (ascii "127.0.0.1", ascii "50000") :=
  (by decide +kernel :
    splitHostPort (ascii "127.0.0.1:50000") = some (ascii "127.0.0.1", ascii "50000"))

theorem dispatch_probe (headers : List (String × String)) :
    dispatch server.cfg (forwardedProbe headers) = .handler .version :=
  (by decide +kernel : dispatch server.cfg (forwardedProbe []) = .handler .version)

/-- The issuer is told the browser's address. -/
theorem probe_attributed : ∃ out,
    (server.handler (forwardedProbe [])).Yields [⟨.proxy .issuer out, none⟩] badGateway ∧
    (leftmost out.header = clientIP deps (forwardedProbe []) ↔
      ¬ConnectionNames (forwardedProbe []).header forwardedFor ∨
        clientIP deps (forwardedProbe []) = ascii "127.0.0.1") := by
  obtain ⟨out, hl⟩ := probe_yields (dispatch_probe []) (by decide +kernel)
  have hhost : 44 ∉ ascii "127.0.0.1" := by decide
  refine ⟨out, hl, ?_⟩
  exact leftmost_eq_clientIP_iff lawful gateway_lawful attributes (splitHostPort_probe []) hhost hl
    List.mem_cons_self

/-- What a browser adds to have the header removed. -/
def naming : List (String × String) := [("Connection", "X-Forwarded-For")]

/-- The issuer is told the address of the proxy in front, the header being named. -/
theorem probe_misattributed : ∃ out,
    (server.handler (forwardedProbe naming)).Yields [⟨.proxy .issuer out, none⟩] badGateway ∧
    clientIP deps (forwardedProbe naming) = ascii "203.0.113.7" ∧
    leftmost out.header = ascii "127.0.0.1" := by
  obtain ⟨out, hl⟩ := probe_yields (dispatch_probe naming) (by decide +kernel)
  have hhost : 44 ∉ ascii "127.0.0.1" := by decide
  have hnames : ConnectionNames (forwardedProbe naming).header forwardedFor := by decide +kernel
  have hclient := leftmost_of_yields lawful gateway_lawful attributes (splitHostPort_probe naming)
    hhost hl List.mem_cons_self
  refine ⟨out, hl, by decide +kernel, ?_⟩
  rw [hclient, if_pos hnames]

end Reference

end Bff
