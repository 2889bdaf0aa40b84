import OAuth2Monitoring.Bff.RetryAfter

/-!
# What a caller can do to its key

The budgets are kept per client address, and `X-Forwarded-For` is part of the address only for a
peer on the same host. Any other caller has the key of its peer, whatever headers it sends, and gets
the decisions of that key.

## Main results

* `clientIP_of_remote`: the key of a peer on another host is its address.
* `clientIP_of_local`: the key of a peer on the same host is its address or the one it forwards.
* `rateLimited_noninterference`: headers and ports of remote callers do not change a decision.
-/

namespace Bff

open GoStd Interleaving Interleaving.Prog

/-! ## The key -/

/-- The host of the TCP peer, or the whole address where it has no port. -/
def peerHost (r : Request) : Bytes :=
  match splitHostPort r.remoteAddr with
  | none => r.remoteAddr
  | some (host, _) => host

/-- The peer is on the same host as the BFF. -/
def LocalPeer (d : Deps) (r : Request) : Prop :=
  ∃ ip, d.parseIP (peerHost r) = some ip ∧ isLoopback ip = true

/-- Whether the peer is on the same host can be decided. -/
instance (d : Deps) (r : Request) : Decidable (LocalPeer d r) :=
  decidable_of_iff ((d.parseIP (peerHost r)).any isLoopback = true) (by
    rw [Option.any_eq_true]
    rfl)

/-- The left-most entry of the first `X-Forwarded-For` line. -/
def leftmostEntry (r : Request) : Bytes :=
  ((r.header (ascii "X-Forwarded-For")).headD []).takeWhile (· ≠ 44)

section Key

variable {d : Deps} {r r' : Request}

/-- The peer's address, unless it is on the same host and forwards one. -/
theorem clientIP_eq (d : Deps) (r : Request) :
    clientIP d r = match d.parseIP (peerHost r) with
      | none => peerHost r
      | some ip => if isLoopback ip = true ∧ trimSpace (leftmostEntry r) ≠ [] ∧
            d.parseIP (trimSpace (leftmostEntry r)) ≠ none then trimSpace (leftmostEntry r)
          else peerHost r := by
  have hkey : canonicalMIMEHeaderKey (ascii "X-Forwarded-For") = ascii "X-Forwarded-For" := by
    decide
  have hget : (r.header.get (ascii "X-Forwarded-For")).takeWhile (· ≠ 44) = leftmostEntry r := by
    rw [Header.get, hkey, leftmostEntry, List.headD_eq_head?_getD]
  -- an entry that is not empty is one of a line that is not
  have hline : trimSpace (leftmostEntry r) ≠ [] → r.header.get (ascii "X-Forwarded-For") ≠ [] := by
    intro hentry hnil
    rw [hnil] at hget
    exact hentry (by rw [← hget]; rfl)
  have hunfold : clientIP d r = match d.parseIP (peerHost r) with
      | none => peerHost r
      | some ip =>
        if isLoopback ip = true then
          if r.header.get (ascii "X-Forwarded-For") ≠ [] ∧
            trimSpace ((r.header.get (ascii "X-Forwarded-For")).takeWhile (· ≠ 44)) ≠ [] ∧
            d.parseIP (trimSpace ((r.header.get (ascii "X-Forwarded-For")).takeWhile (· ≠ 44))) ≠
              none then
            trimSpace ((r.header.get (ascii "X-Forwarded-For")).takeWhile (· ≠ 44))
          else peerHost r
        else peerHost r := rfl
  rw [hunfold, hget]
  cases d.parseIP (peerHost r) with
  | none => rfl
  | some ip =>
    dsimp only
    by_cases hlocal : isLoopback ip = true
    · -- an entry that is not empty stands in a line that is not empty
      rw [if_pos hlocal]
      exact if_congr ⟨fun h => ⟨hlocal, h.2⟩, fun h => ⟨hline h.2.1, h.2⟩⟩ rfl rfl
    · rw [if_neg hlocal, if_neg fun h => hlocal h.1]

/-- The key of a peer on another host is its address. -/
theorem clientIP_of_remote (h : ¬ LocalPeer d r) : clientIP d r = peerHost r := by
  rw [clientIP_eq]
  split
  · rfl
  · next ip hip => rw [if_neg fun hlocal => h ⟨ip, hip, hlocal.1⟩]

/-- The key of a peer on the same host is its address or a valid one. -/
theorem clientIP_of_local (h : LocalPeer d r) :
    clientIP d r = peerHost r ∨ d.parseIP (clientIP d r) ≠ none := by
  obtain ⟨ip, hip, hlocal⟩ := h
  rw [clientIP_eq]
  simp only [hip, hlocal, true_and]
  split
  · next hentry => exact .inr hentry.2
  · exact .inl rfl

/-- The left-most entry of the first line is all of the headers that goes into the key. -/
theorem clientIP_congr (hpeer : peerHost r = peerHost r')
    (hentry : leftmostEntry r = leftmostEntry r') : clientIP d r = clientIP d r' := by
  rw [clientIP_eq, clientIP_eq, hpeer, hentry]

end Key

/-! ## The decisions -/

/-- Requests with the times at which they reach a budget, one after the other. -/
abbrev Arrivals := List (ℤ × Request)

section Decisions

variable {d : Deps} {cfg : Config} {b : Budget} {w w' w'' : World d} {seq seq' : Arrivals}
  {out out' : List (Option Response)}

/-- `rateLimited` is run for one request after the other, on the state that the one before has left
with the clock set to the time of arrival; `out` is what it answered. -/
inductive Decides (cfg : Config) (b : Budget) :
    World d → Arrivals → List (Option Response) → World d → Prop
  | nil (w : World d) : Decides cfg b w [] [] w
  | cons {w w₁ w₂ : World d} {t : ℤ} {r : Request} {l : List (Event (@Res d))}
      {limited : Option Response} {seq : Arrivals} {out : List (Option Response)}
      (hrun : Exec (Answers cfg) { w with clock := t } (Server.rateLimited d b r) l
        (.ret limited) w₁)
      (hrest : Decides cfg b w₁ seq out w₂) :
      Decides cfg b w ((t, r) :: seq) (limited :: out) w₂

/-- The decisions of a limiter, in terms of the keys only. -/
def decisions (d : Deps) : RateLimiter → Arrivals → List (Option Response)
  | _, [] => []
  | rl, (t, r) :: seq =>
    (rl.allow t (clientIP d r)).1.map Server.tooManyRequests ::
      decisions d (rl.allow t (clientIP d r)).2 seq

/-- The program decides as its limiter does. -/
theorem Decides.eq_decisions (h : Decides cfg b w seq out w') :
    out = decisions d (w.limiter b) seq := by
  induction h with
  | nil => rfl
  | @cons w w₁ w₂ t r l limited seq out hrun _ ih =>
    obtain ⟨hlimited, hw₁⟩ := rateLimited_exec hrun
    have hclock : ({ w with clock := t } : World d).limiter b = w.limiter b := by cases b <;> rfl
    rw [hclock] at hlimited hw₁
    rw [decisions, hlimited, ih, hw₁, World.setLimiter_self]

/-- Every sequence of requests gets its decisions. -/
theorem exists_decides (cfg : Config) (b : Budget) (w : World d) (seq : Arrivals) :
    ∃ out w', Decides cfg b w seq out w' := by
  induction seq generalizing w with
  | nil => exact ⟨[], w, .nil w⟩
  | cons arrival seq ih =>
    obtain ⟨t, r⟩ := arrival
    obtain ⟨l, limited, w₁, hrun⟩ :=
      exists_exec (exists_answers cfg) (Server.rateLimited d b r) { w with clock := t }
    obtain ⟨out, w₂, hrest⟩ := ih w₁
    exact ⟨_, w₂, .cons hrun hrest⟩

/-- Sequences with the same times and the same keys get the same decisions. -/
theorem decisions_congr (h : List.Forall₂ (fun x y : ℤ × Request =>
      x.1 = y.1 ∧ clientIP d x.2 = clientIP d y.2) seq seq') (rl : RateLimiter) :
    decisions d rl seq = decisions d rl seq' := by
  induction h generalizing rl with
  | nil => rfl
  | @cons x y seq seq' hxy _ ih =>
    obtain ⟨t, r⟩ := x
    obtain ⟨t', r'⟩ := y
    obtain ⟨rfl, hkey⟩ : t = t' ∧ clientIP d r = clientIP d r' := hxy
    rw [decisions, decisions, hkey, ih]

/-- Two arrivals at one time from one peer, which is on another host. Their headers and the ports
of the peer may differ. -/
structure AlikeRemote (d : Deps) (x y : ℤ × Request) : Prop where
  time_eq : x.1 = y.1
  peer_eq : peerHost x.2 = peerHost y.2
  remote : ¬ LocalPeer d x.2

/-- What remote callers put into headers and from which ports they call has no part in any
decision. For a peer on the same host the key is its address or a valid one, and depends on the
left-most entry of the first `X-Forwarded-For` line and no other header. -/
theorem rateLimited_noninterference (d : Deps) :
    (∀ (cfg : Config) (b : Budget) (w w' w₁ w₁' : World d) (seq seq' : Arrivals)
      (out out' : List (Option Response)), List.Forall₂ (AlikeRemote d) seq seq' →
      w.limiter b = w'.limiter b → Decides cfg b w seq out w₁ → Decides cfg b w' seq' out' w₁' →
      out = out') ∧
    (∀ r, LocalPeer d r → clientIP d r = peerHost r ∨ d.parseIP (clientIP d r) ≠ none) ∧
    ∀ r r', LocalPeer d r → peerHost r = peerHost r' → leftmostEntry r = leftmostEntry r' →
      clientIP d r = clientIP d r' := by
  refine ⟨?_, fun r => clientIP_of_local, fun r r' _ => clientIP_congr⟩
  intro cfg b w w' w₁ w₁' seq seq' out out' halike hlimiter hout hout'
  -- the headers are not looked at, so the keys are the peers' addresses on both sides
  have hkeys : List.Forall₂ (fun x y : ℤ × Request =>
      x.1 = y.1 ∧ clientIP d x.2 = clientIP d y.2) seq seq' := by
    refine halike.imp fun x y hxy => ⟨hxy.time_eq, ?_⟩
    have hremote : ¬ LocalPeer d y.2 := by
      unfold LocalPeer
      rw [← hxy.peer_eq]
      exact hxy.remote
    rw [clientIP_of_remote hxy.remote, clientIP_of_remote hremote, hxy.peer_eq]
  rw [hout.eq_decisions, hout'.eq_decisions, hlimiter]
  exact decisions_congr hkeys _

end Decisions

namespace Reference

/-- A sign-in from another host, through some port and with some header of its own. -/
def remoteSignIn (port forwarded : String) : Request :=
  { request "GET" "/bff/login" "" [("X-Forwarded-For", forwarded)] with
    remoteAddr := ascii "198.51.100.4:" ++ ascii port }

/-- Two sign-ins under forged addresses, and two without. -/
def forgedSignIns : Arrivals :=
  [(0, remoteSignIn "4000" "10.0.0.1"), (second, remoteSignIn "4001" "10.0.0.2, 10.0.0.3")]

/-- Sign-ins without a forwarded address. -/
def plainSignIns : Arrivals :=
  [(0, remoteSignIn "5000" "198.51.100.4"), (second, remoteSignIn "5000" "198.51.100.4")]

/-- The forged sign-ins get the decisions of the others. -/
theorem forgedSignIns_decided : ∃ out out' w₁ w₁',
    Decides server.cfg .login world forgedSignIns out w₁ ∧
    Decides server.cfg .login world plainSignIns out' w₁' ∧ out = out' := by
  have halike : List.Forall₂ (AlikeRemote deps) forgedSignIns plainSignIns :=
    .cons ⟨rfl, by decide +kernel, by decide +kernel⟩
      (.cons ⟨rfl, by decide +kernel, by decide +kernel⟩ .nil)
  obtain ⟨out, w₁, h⟩ := exists_decides server.cfg .login world forgedSignIns
  obtain ⟨out', w₁', h'⟩ := exists_decides server.cfg .login world plainSignIns
  exact ⟨out, out', w₁, w₁', h, h',
    (rateLimited_noninterference deps).1 _ _ _ _ _ _ _ _ _ _ halike rfl h h'⟩

end Reference

end Bff
