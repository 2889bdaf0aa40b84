import OAuth2Monitoring.GoStd.Http

/-!
# Go's `httputil.ReverseProxy`

The request a reverse proxy with a `Director` sends: the Director works on a copy of the incoming
request, then the hop-by-hop headers go, those named in the `Connection` header among them, and
the peer's address is appended to `X-Forwarded-For`.
-/

namespace GoStd

/-- The headers that concern one connection only. -/
def hopHeaders : List Bytes :=
  ["Connection", "Proxy-Connection", "Keep-Alive", "Proxy-Authenticate", "Proxy-Authorization",
    "Te", "Trailer", "Transfer-Encoding", "Upgrade"].map ascii

/-- The comma-separated elements of a list of header values, trimmed. -/
def listElements (values : List Bytes) : List Bytes :=
  values.flatMap fun v => (v.splitOn 44).map trimString

/-- `removeHopByHopHeaders`. -/
def removeHopByHopHeaders (h : Header) : Header :=
  hopHeaders.foldl Header.del
    (((listElements (h (ascii "Connection"))).filter (· ≠ [])).foldl Header.del h)

/-- `httpguts.HeaderValuesContainsToken`. -/
def containsToken (values : List Bytes) (token : Bytes) : Bool :=
  (listElements values).any fun v => v.map lower = token.map lower

/-- `upgradeType`: the protocol a client asks to switch to. -/
def upgradeType (h : Header) : Bytes :=
  if containsToken (h (ascii "Connection")) (ascii "Upgrade") then h.get (ascii "Upgrade") else []

/-- Set a header when a condition holds. -/
def Header.setIf (c : Bool) (h : Header) (key value : Bytes) : Header :=
  if c then h.set key value else h

/-- Append the peer's address to `X-Forwarded-For`, which names the client first. -/
def appendPeer (remoteAddr : Bytes) (h : Header) : Header :=
  match splitHostPort remoteAddr with
  | none => h
  | some (peer, _) =>
    h.set (ascii "X-Forwarded-For")
      ([(44 : UInt8), 32].intercalate (h (ascii "X-Forwarded-For") ++ [peer]))

/-- The headers `ReverseProxy.ServeHTTP` leaves after the Director: hop-by-hop headers are
removed, `Te: trailers` and an upgrade are put back, the peer is appended to `X-Forwarded-For`,
and a missing `User-Agent` stays missing. -/
def forwardedHeader (remoteAddr : Bytes) (te : List Bytes) (h : Header) : Header :=
  let up := upgradeType h
  let h := removeHopByHopHeaders h
  let h := h.setIf (containsToken te (ascii "trailers")) (ascii "Te") (ascii "trailers")
  let h := h.setIf (up ≠ []) (ascii "Connection") (ascii "Upgrade")
  let h := h.setIf (up ≠ []) (ascii "Upgrade") up
  let h := appendPeer remoteAddr h
  h.setIf (h (ascii "User-Agent") = []) (ascii "User-Agent") []

/-- A reverse proxy: what its Director makes of the outgoing request. -/
structure ReverseProxy where
  director : OutRequest → OutRequest

/-- The request `ReverseProxy.ServeHTTP` sends for `r`; `none` when it answers 502 by itself, the
protocol to switch to not being printable. -/
def ReverseProxy.outgoing (p : ReverseProxy) (r : Request) : Option OutRequest :=
  let out := p.director r.clone
  if (upgradeType out.header).all fun c => 32 ≤ c ∧ c ≤ 126 then
    some { out with header := forwardedHeader r.remoteAddr (r.header (ascii "Te")) out.header }
  else none

/-- The proxy sends what its Director made, but for the headers. -/
theorem ReverseProxy.outgoing_eq_some {p : ReverseProxy} {r : Request} {out : OutRequest}
    (h : p.outgoing r = some out) :
    out =
      { p.director r.clone with
        header :=
          forwardedHeader r.remoteAddr (r.header (ascii "Te")) (p.director r.clone).header } := by
  simp only [ReverseProxy.outgoing] at h
  split at h
  · exact (Option.some.inj h).symm
  · cases h

/-- The headers a reverse proxy sets by itself. -/
def proxySetKeys : List Bytes :=
  ["Te", "Connection", "Upgrade", "X-Forwarded-For", "User-Agent"].map ascii

theorem canonical_of_mem_proxySetKeys :
    ∀ key ∈ proxySetKeys, canonicalMIMEHeaderKey key = key := by
  decide

theorem Header.setIf_eq_nil {h : Header} {k key : Bytes} (hk : h k = []) (hset : k ∉ proxySetKeys)
    (hkey : key ∈ proxySetKeys) (c : Bool) (value : Bytes) : h.setIf c key value k = [] := by
  have hne : k ≠ canonicalMIMEHeaderKey key := by
    rintro rfl
    exact hset (by rwa [canonical_of_mem_proxySetKeys key hkey])
  cases c with
  | false => exact hk
  | true => rw [setIf, if_pos rfl, set_of_ne h value hne, hk]

theorem appendPeer_eq_nil {h : Header} {k : Bytes} (hk : h k = []) (hset : k ∉ proxySetKeys)
    (remoteAddr : Bytes) : appendPeer remoteAddr h k = [] := by
  unfold appendPeer
  cases splitHostPort remoteAddr with
  | none => exact hk
  | some peer => exact Header.setIf_eq_nil hk hset (by decide) true _

/-- A header that the Director left absent and that the proxy does not set by itself stays
absent. -/
theorem forwardedHeader_eq_nil {h : Header} {k : Bytes} (hk : h k = []) (hset : k ∉ proxySetKeys)
    (remoteAddr : Bytes) (te : List Bytes) : forwardedHeader remoteAddr te h k = [] := by
  have hhop : removeHopByHopHeaders h k = [] :=
    Header.foldl_del_eq_nil (Header.foldl_del_eq_nil hk _) _
  have hte := Header.setIf_eq_nil hhop hset (by decide : ascii "Te" ∈ proxySetKeys)
  have hconn := fun c v c' v' => Header.setIf_eq_nil (hte c v) hset
    (by decide : ascii "Connection" ∈ proxySetKeys) c' v'
  have hup := fun c v c' v' c'' v'' => Header.setIf_eq_nil (hconn c v c' v') hset
    (by decide : ascii "Upgrade" ∈ proxySetKeys) c'' v''
  exact Header.setIf_eq_nil (appendPeer_eq_nil (hup _ _ _ _ _ _) hset _) hset (by decide) _ _

/-! ## Hop-by-hop headers, and the peer -/

/-- The `Connection` header names the key, which makes it a hop-by-hop header. -/
def ConnectionNames (h : Header) (key : Bytes) : Prop :=
  ∃ v ∈ listElements (h (ascii "Connection")), canonicalMIMEHeaderKey v = key

instance (h : Header) (key : Bytes) : Decidable (ConnectionNames h key) :=
  inferInstanceAs (Decidable (∃ v ∈ listElements (h (ascii "Connection")), _))

/-- Deleting several keys. -/
theorem Header.foldl_del_of_forall_ne {h : Header} {k : Bytes} {keys : List Bytes}
    (hne : ∀ key ∈ keys, canonicalMIMEHeaderKey key ≠ k) : keys.foldl del h k = h k := by
  induction keys generalizing h with
  | nil => rfl
  | cons key keys ih =>
    obtain ⟨hkey, hkeys⟩ := List.forall_mem_cons.mp hne
    rw [List.foldl_cons, ih hkeys, del_of_ne h hkey.symm]

/-- A header that is dropped among others is not there. -/
theorem Header.foldl_del_of_mem {h : Header} {k key : Bytes} {keys : List Bytes}
    (hmem : key ∈ keys) (hkey : canonicalMIMEHeaderKey key = k) : keys.foldl del h k = [] := by
  induction keys generalizing h with
  | nil => cases hmem
  | cons key' keys ih =>
    rcases List.mem_cons.mp hmem with rfl | hmem
    · exact foldl_del_eq_nil (hkey ▸ del_self h key) keys
    · exact ih hmem

/-- What becomes of a header that is not hop-by-hop by itself: it goes when the `Connection` header
names it. -/
theorem removeHopByHopHeaders_apply {h : Header} {k : Bytes} (hk : k ≠ [])
    (hhop : ∀ key ∈ hopHeaders, canonicalMIMEHeaderKey key ≠ k) :
    removeHopByHopHeaders h k = if ConnectionNames h k then [] else h k := by
  rw [removeHopByHopHeaders, Header.foldl_del_of_forall_ne hhop]
  split
  · rename_i hnames
    obtain ⟨v, hv, hkey⟩ := hnames
    refine Header.foldl_del_of_mem (List.mem_filter.mpr ⟨hv, ?_⟩) hkey
    -- the empty name is not the key
    rw [decide_eq_true_iff]
    rintro rfl
    exact hk hkey.symm
  · rename_i hnames
    refine Header.foldl_del_of_forall_ne fun v hv hkey => hnames ⟨v, ?_, hkey⟩
    exact (List.mem_filter.mp hv).1

theorem Header.setIf_of_ne {h : Header} {key k : Bytes} (hk : k ≠ canonicalMIMEHeaderKey key)
    (c : Bool) (value : Bytes) : h.setIf c key value k = h k := by
  cases c with
  | false => rfl
  | true => exact set_of_ne h value hk

/-- What the upstream receives as `X-Forwarded-For`: what the Director left, unless the
`Connection` header names it, and then the peer. -/
theorem forwardedHeader_forwardedFor {remoteAddr peer port : Bytes}
    (hpeer : splitHostPort remoteAddr = some (peer, port)) (te : List Bytes) (h : Header) :
    forwardedHeader remoteAddr te h (ascii "X-Forwarded-For") =
      [[(44 : UInt8), 32].intercalate
        ((if ConnectionNames h (ascii "X-Forwarded-For") then []
          else h (ascii "X-Forwarded-For")) ++ [peer])] := by
  have hcanon : canonicalMIMEHeaderKey (ascii "X-Forwarded-For") = ascii "X-Forwarded-For" := by
    decide
  have hset : ∀ (h : Header) (value : Bytes),
      h.set (ascii "X-Forwarded-For") value (ascii "X-Forwarded-For") = [value] := fun h value => by
    have hself := h.set_self (ascii "X-Forwarded-For") value
    rwa [hcanon] at hself
  -- the other headers that are set have names of their own
  simp only [forwardedHeader, appendPeer, hpeer]
  rw [Header.setIf_of_ne (by decide), hset, Header.setIf_of_ne (by decide),
    Header.setIf_of_ne (by decide), Header.setIf_of_ne (by decide),
    removeHopByHopHeaders_apply (by decide) (by decide)]

end GoStd
