import OAuth2Monitoring.Bff.Logout
import OAuth2Monitoring.Bff.TokenBlind

/-!
# Custody of the secrets

The BFF keeps the client's secret and every session's tokens away from the browser. That nothing of
them leaks is said by two runs: change the secret and the tokens of the sessions, and whatever the
first server did the second one can do as well, with the same answers to every browser, the
upstreams answering the same.

## Main definitions

* `SameWorld`: states whose sessions differ in their tokens only.

## Main results

* `similar_of_run`: the two servers cannot be told apart by their answers.
-/

namespace Bff

open GoStd Interleaving Interleaving.Prog

variable {d : Deps} {srv : Server d} {Alike : d.Session → d.Session → Prop}

/-! ## The state -/

section State

variable {cfg : Config} {w w' w₁ : World d}

/-- The rows of two states that are alike are found alike. -/
theorem SameWorld.find (h : SameWorld Alike w w') (id : Bytes) :
    SameFound Alike (w.sessions.find id) (w'.sessions.find id) := by
  have hrow := h.rows id
  unfold SessionStore.find
  generalize w.sessions.row id = row at hrow
  generalize w'.sessions.row id = row' at hrow
  cases hrow with
  | absent => exact .none
  | live hs => exact .some hs
  | tombstone => exact .none

theorem SameWorld.get (hd : TokenBlind d Alike) (h : SameWorld Alike w w') (id : Bytes) :
    SameFound Alike (w.get cfg id) (w'.get cfg id) := by
  have hfind := h.find id
  unfold World.get
  generalize w.sessions.find id = found at hfind
  generalize w'.sessions.find id = found' at hfind
  cases hfind with
  | none => exact .none
  | some hs =>
    rw [Option.filter_some, Option.filter_some, hd.expired hs, h.clock]
    split
    · exact .some hs
    · exact .none

variable {st st' : SessionStore d}

/-- Stores stay alike when one of their rows is written alike. -/
theorem SameRows.update (h : SameRows Alike st st') (id : Bytes) {row row' : Row d}
    (hrow : SameRow Alike row row') (hid hid') :
    SameRows Alike (st.update id row hid) (st'.update id row' hid') := by
  intro k
  by_cases hk : k = id
  · subst hk
    simpa [SessionStore.update] using hrow
  · simpa [SessionStore.update, hk] using h k

/-- They stay so under a `Put` of sessions that are alike. -/
theorem SameRows.put (hd : TokenBlind d Alike) (h : SameRows Alike st st') {s s' : d.Session}
    (hs : Alike s s') : SameRows Alike (st.put s) (st'.put s') := by
  intro id
  have hrow := h id
  have hid := hd.id hs
  by_cases heq : id = d.id s
  · -- a tombstone stays on both sides, any other row is replaced on both sides
    subst heq
    by_cases htomb : ∃ since, st.row (d.id s) = .tombstone since
    · obtain ⟨since, htomb⟩ := htomb
      have htomb' : st'.row (d.id s') = .tombstone since := by
        rw [htomb] at hrow
        rw [← hid]
        generalize st'.row (d.id s) = row' at hrow
        cases hrow
        rfl
      rwa [SessionStore.put_of_tombstone htomb, SessionStore.put_of_tombstone htomb']
    · have htomb' : ∀ since, st'.row (d.id s') ≠ .tombstone since := by
        intro since hrow'
        rw [hid, hrow'] at hrow
        refine htomb ⟨since, ?_⟩
        rw [hid]
        generalize st.row (d.id s') = row at hrow
        cases hrow
        rfl
      rw [SessionStore.row_put_self fun since hrow' => htomb ⟨since, hrow'⟩, hid,
        SessionStore.row_put_self htomb']
      exact .live hs
  · rwa [SessionStore.row_put_of_ne heq, SessionStore.row_put_of_ne (hid ▸ heq)]

theorem SameRows.delete (h : SameRows Alike st st') (id : Bytes) (now : ℤ) :
    SameRows Alike (st.delete id now) (st'.delete id now) :=
  h.update id (.tombstone now) _ _

theorem SameRows.sweep (hd : TokenBlind d Alike) (h : SameRows Alike st st')
    (idle absolute ttl now : ℤ) :
    SameRows Alike (st.sweep (fun s => d.expired idle absolute s now) ttl now)
      (st'.sweep (fun s => d.expired idle absolute s now) ttl now) := by
  intro id
  have hrow := h id
  unfold SessionStore.sweep
  dsimp only
  generalize st.row id = row at hrow
  generalize st'.row id = row' at hrow
  cases hrow with
  | absent => exact .absent
  | @live s s' hs =>
    cases hexp : d.expired idle absolute s' now with
    | true => simpa [hd.expired hs, hexp] using SameRow.absent
    | false => simpa [hd.expired hs, hexp] using SameRow.live hs
  | tombstone since =>
    dsimp only
    split
    · exact .absent
    · exact .tombstone since

namespace SameWorld

theorem start (h : SameRows Alike st st') (cfg : Config) (t : ℤ) :
    SameWorld Alike (World.start cfg t st) (World.start cfg t st') :=
  ⟨rfl, fun _ => rfl, rfl, rfl, rfl, h⟩

theorem setSessions (h : SameWorld Alike w w') (hst : SameRows Alike st st') :
    SameWorld Alike { w with sessions := st } { w' with sessions := st' } :=
  ⟨h.clock, fun b => by cases b <;> [exact h.limiter .login; exact h.limiter .elevate],
    h.sessionErrors, h.pending, h.issued, hst⟩

theorem countError (h : SameWorld Alike w w') : SameWorld Alike w.countError w'.countError :=
  ⟨h.clock, fun b => by cases b <;> [exact h.limiter .login; exact h.limiter .elevate],
    congrArg (· + 1) h.sessionErrors, h.pending, h.issued, h.rows⟩

theorem setLimiter (h : SameWorld Alike w w') (b : Budget) (rl : RateLimiter) :
    SameWorld Alike (w.setLimiter rl b) (w'.setLimiter rl b) := by
  refine ⟨?_, fun b' => ?_, ?_, ?_, ?_, ?_⟩
  · cases b <;> exact h.clock
  · by_cases hb : b' = b
    · subst hb
      rw [World.setLimiter_self, World.setLimiter_self]
    · rw [World.setLimiter_of_ne hb, World.setLimiter_of_ne hb, h.limiter]
  · cases b <;> exact h.sessionErrors
  · cases b <;> exact h.pending
  · cases b <;> exact h.issued
  · cases b <;> exact h.rows

theorem setPending (h : SameWorld Alike w w') (state : Bytes) (login : Option PendingLogin) :
    SameWorld Alike (w.setPending state login) (w'.setPending state login) := by
  refine ⟨h.clock, fun b => ?_, h.sessionErrors, ?_, h.issued, h.rows⟩
  · cases b <;> [exact h.limiter .login; exact h.limiter .elevate]
  · unfold World.setPending
    rw [h.pending]

theorem issue (h : SameWorld Alike w w') (v : Bytes) :
    SameWorld Alike (w.issue v) (w'.issue v) :=
  ⟨h.clock, fun b => by cases b <;> [exact h.limiter .login; exact h.limiter .elevate],
    h.sessionErrors, h.pending, congrArg (v :: ·) h.issued, h.rows⟩

/-- A `Put` of sessions that are alike. -/
theorem answers_put (hd : TokenBlind d Alike) (h : SameWorld Alike w w') {s s' : d.Session}
    (hs : Alike s s') {res : Stmt Unit} (hres : Answers cfg w (.sessionPut s) res w₁) :
    ∃ w₁', Answers cfg w' (.sessionPut s') res w₁' ∧ SameWorld Alike w₁ w₁' := by
  cases res with
  | done a =>
    obtain rfl : w₁ = _ := hres
    exact ⟨_, rfl, h.setSessions (h.rows.put hd hs)⟩
  | failed =>
    obtain rfl : w₁ = w.countError := hres
    exact ⟨_, rfl, h.countError⟩

/-- The sweeper's statement. -/
theorem answers_sweep {cfg' : Config} (hd : TokenBlind d Alike) (h : SameWorld Alike w w')
    (hidle : cfg'.sessionIdle = cfg.sessionIdle)
    (habsolute : cfg'.sessionAbsolute = cfg.sessionAbsolute) {res : Stmt Unit}
    (hres : Answers cfg w .sessionSweep res w₁) :
    ∃ w₁', Answers cfg' w' .sessionSweep res w₁' ∧ SameWorld Alike w₁ w₁' := by
  cases res with
  | done a =>
    obtain rfl : w₁ = w.sweepSessions cfg := hres
    have hrows := h.rows.sweep hd cfg.sessionIdle cfg.sessionAbsolute d.tombstoneTTL w.clock
    refine ⟨_, rfl, h.setSessions ?_⟩
    rwa [hidle, habsolute, ← h.clock]
  | failed =>
    obtain rfl : w₁ = w.countError := hres
    exact ⟨_, rfl, h.countError⟩

/-- In states that differ in the tokens only, an operation is answered the same. -/
theorem answers (hd : TokenBlind d Alike) (h : SameWorld Alike w w') {op : Op d} {res : Res op}
    (hres : Answers cfg w op res w₁) : ∃ res' w₁', Answers cfg w' op res' w₁' ∧
      SameEvent Alike ⟨op, res⟩ ⟨op, res'⟩ ∧ SameWorld Alike w₁ w₁' := by
  cases op with
  | allow b key =>
    obtain ⟨rfl, rfl⟩ := hres
    refine ⟨_, _, ⟨rfl, rfl⟩, ?_, ?_⟩
    · rw [h.limiter, h.clock]
      exact .other (by rintro _ ⟨⟩) _
    · rw [h.limiter, h.clock]
      exact h.setLimiter b _
  | now =>
    obtain ⟨rfl, rfl⟩ := hres
    exact ⟨w₁.clock, _, ⟨h.clock, rfl⟩, .other (by rintro _ ⟨⟩) _, h⟩
  | randomToken n =>
    obtain ⟨hfresh, rfl⟩ := hres
    exact ⟨res, _, ⟨h.issued ▸ hfresh, rfl⟩, .other (by rintro _ ⟨⟩) _, h.issue res⟩
  | pendingPut state login =>
    cases res with
    | true =>
      obtain rfl : w₁ = _ := hres
      exact ⟨true, _, rfl, .other (by rintro _ ⟨⟩) _, h.setPending state (some login)⟩
    | false =>
      obtain rfl : w₁ = w := hres
      exact ⟨false, _, rfl, .other (by rintro _ ⟨⟩) _, h⟩
  | pendingTake state =>
    cases res with
    | none =>
      obtain rfl : w₁ = w := hres
      exact ⟨none, _, rfl, .other (by rintro _ ⟨⟩) _, h⟩
    | some login =>
      obtain ⟨htaken, rfl⟩ := hres
      exact ⟨some login, _, ⟨h.pending ▸ htaken, rfl⟩, .other (by rintro _ ⟨⟩) _,
        h.setPending state none⟩
  | sessionGet id =>
    -- the session that is found may be another one, but it is alike
    cases res with
    | done found =>
      obtain ⟨rfl, rfl⟩ := hres
      exact ⟨.done (w'.get cfg id), _, ⟨rfl, rfl⟩, .get id (.done (h.get hd id)), h⟩
    | failed =>
      obtain rfl : w₁ = w.countError := hres
      exact ⟨.failed, _, rfl, .get id .failed, h.countError⟩
  | sessionPut s =>
    obtain ⟨w₁', hres', h₁⟩ := h.answers_put hd (hd.refl s) hres
    exact ⟨res, w₁', hres', .put (hd.refl s) res, h₁⟩
  | sessionDelete id =>
    cases res with
    | done a =>
      obtain rfl : w₁ = _ := hres
      have hrows := h.rows.delete id w.clock
      refine ⟨.done a, _, rfl, .other (by rintro _ ⟨⟩) _, h.setSessions ?_⟩
      rwa [← h.clock]
    | failed =>
      obtain rfl : w₁ = w.countError := hres
      exact ⟨.failed, _, rfl, .other (by rintro _ ⟨⟩) _, h.countError⟩
  | sessionSweep =>
    obtain ⟨w₁', hres', h₁⟩ := h.answers_sweep hd rfl rfl hres
    exact ⟨res, w₁', hres', .other (by rintro _ ⟨⟩) _, h₁⟩
  | sessionErrors =>
    obtain ⟨rfl, rfl⟩ := hres
    exact ⟨w₁.sessionErrors, _, ⟨h.sessionErrors, rfl⟩, .other (by rintro _ ⟨⟩) _, h⟩
  | post up c =>
    obtain rfl : w₁ = w := hres
    exact ⟨res, _, rfl, .other (by rintro _ ⟨⟩) res, h⟩
  | proxy up out =>
    obtain rfl : w₁ = w := hres
    exact ⟨res, _, rfl, .proxy up ⟨rfl, rfl, rfl, rfl, rfl, rfl, .refl _⟩ res, h⟩

/-- So does the sweeper, and time passes. -/
theorem env {cfg' : Config} (hd : TokenBlind d Alike) (h : SameWorld Alike w w')
    (henv : Env cfg w w₁) (hidle : cfg'.sessionIdle = cfg.sessionIdle)
    (habsolute : cfg'.sessionAbsolute = cfg.sessionAbsolute) :
    ∃ w₁', Env cfg' w' w₁' ∧ SameWorld Alike w₁ w₁' := by
  cases henv with
  | sweepSessions res hres =>
    obtain ⟨w₁', hres', h₁⟩ := h.answers_sweep hd hidle habsolute hres
    exact ⟨w₁', .sweepSessions res hres', h₁⟩
  | ambient henv =>
    cases henv with
    | @tick t ht =>
      refine ⟨{ w' with clock := t }, .ambient (.tick w' (h.clock ▸ ht)), ⟨rfl, fun b => ?_,
        h.sessionErrors, h.pending, h.issued, h.rows⟩⟩
      cases b <;> [exact h.limiter .login; exact h.limiter .elevate]
    | sweepPending =>
      refine ⟨_, .ambient (.sweepPending w'), ⟨h.clock, fun b => ?_, h.sessionErrors, ?_, h.issued,
        h.rows⟩⟩
      · cases b <;> [exact h.limiter .login; exact h.limiter .elevate]
      · unfold World.sweepPending
        dsimp only
        rw [h.pending, h.clock]
    | sweepLimiter b =>
      refine ⟨_, .ambient (.sweepLimiter w' b), ?_⟩
      rw [h.limiter, h.clock]
      exact h.setLimiter b _

end SameWorld

/-- The state of the other server answers what the state of this one does. -/
theorem simulates (hd : TokenBlind d Alike) (secret : Bytes) :
    Simulates (Answers srv.cfg) (Answers (srv.withSecret secret).cfg) (Env srv.cfg)
      (Env (srv.withSecret secret).cfg) (SameOp Alike) (SameEvent Alike) (SameWorld Alike) where
  exec h hop hres := by
    cases hop with
    | refl op => exact h.answers hd hres
    | put hs =>
      obtain ⟨w₁', hres', h₁⟩ := h.answers_put hd hs hres
      exact ⟨_, w₁', hres', .put hs _, h₁⟩
    | post up hc =>
      obtain rfl := hres
      exact ⟨_, _, rfl, .post up hc _, h⟩
    | proxy up hout =>
      obtain rfl := hres
      exact ⟨_, _, rfl, .proxy up hout _, h⟩
  env h henv := h.env hd henv rfl rfl

end State

/-- In every run the browsers are answered as they are by a server with any other client secret and
any other tokens in its sessions, when the upstreams answer the same; and the two servers perform
the same operations, up to the secret and the tokens. -/
theorem similar_of_run (hd : TokenBlind d Alike) (hgw : Gateway.Blind Alike srv.gateway)
    (secret : Bytes) {w₀ w₀' : World d} (hstart : SameWorld Alike w₀ w₀')
    {P : Pool (World d) Request (@Res d) Response} (hP : srv.Run w₀ P) :
    ∃ P', (srv.withSecret secret).Run w₀' P' ∧
      Pool.Similar (SameOp Alike) (SameEvent Alike) Eq (SameWorld Alike) P P' ∧
      ∀ (t : ℕ) (r : Request) (resp : Response), P.threads[t]? = some ⟨r, .ret resp⟩ →
        P'.threads[t]? = some ⟨r, .ret resp⟩ := by
  obtain ⟨P', hP', h⟩ := Reachable.simulate (simulates hd secret)
    (handler_same hd hgw secret) hstart hP
  refine ⟨P', hP', h, fun t r resp ht => ?_⟩
  obtain ⟨resp', ht', rfl⟩ := h.returned ht
  exact ht'

/-! ## A run -/

namespace Reference

/-- The sessions differ in the text of their tokens only. -/
def SameButTokens (s s' : Session) : Prop :=
  s.id = s'.id ∧ s.csrf = s'.csrf ∧ s.user = s'.user ∧ s.created = s'.created ∧ s.seen = s'.seen ∧
    (s.tokens.accessToken = [] ↔ s'.tokens.accessToken = []) ∧
    (s.tokens.refreshToken = [] ↔ s'.tokens.refreshToken = [])

/-- The sample functions do not look into the tokens. -/
theorem tokenBlind : TokenBlind deps SameButTokens where
  refl _ := ⟨rfl, rfl, rfl, rfl, rfl, .rfl, .rfl⟩
  id h := h.1
  csrf h := h.2.1
  user h := h.2.2.1
  matchCSRF := by
    rintro s s' ⟨-, hcsrf, -⟩ h
    show decide (h ≠ [] ∧ h = s.csrf) = decide (h ≠ [] ∧ h = s'.csrf)
    rw [hcsrf]
  expired := by
    rintro s s' ⟨-, -, -, hcreated, hseen, -⟩ idle absolute now
    show decide (s.seen + idle ≤ now ∨ s.created + absolute ≤ now) =
      decide (s'.seen + idle ≤ now ∨ s'.created + absolute ≤ now)
    rw [hcreated, hseen]
  touch := by
    rintro s s' ⟨hid, hcsrf, huser, hcreated, -, hacc, href⟩ now
    exact ⟨hid, hcsrf, huser, hcreated, rfl, hacc, href⟩
  setTokens := by
    rintro s s' ⟨hid, hcsrf, huser, hcreated, hseen, -, -⟩ ts now
    exact ⟨hid, hcsrf, huser, hcreated, hseen, .rfl, .rfl⟩
  accessToken h := h.2.2.2.2.2.1
  refreshToken h := h.2.2.2.2.2.2
  director := by
    rintro base out out' ⟨hmethod, hpath, hrawPath, hrawQuery, -, hbody, hheader⟩
    refine ⟨hmethod, ?_, ?_, hrawQuery, rfl, hbody, hheader⟩
    · show (joinURLPath _ (out.path, out.rawPath)).1 = (joinURLPath _ (out'.path, out'.rawPath)).1
      rw [hpath, hrawPath]
    · show (joinURLPath _ (out.path, out.rawPath)).2 = (joinURLPath _ (out'.path, out'.rawPath)).2
      rw [hpath, hrawPath]
  attribution ctx _ _ h := (h.set _ _).set _ _

/-- Nor does the sample gateway. -/
theorem gateway_blind : Gateway.Blind SameButTokens gateway where
  ensureFresh _ h := .ret (.fresh h)
  authorize {passthrough refresh refresh' r} _ := by
    refine (currentSession_same tokenBlind).bind fun found found' h => ?_
    cases h with
    | none =>
      cases passthrough with
      | false => exact .ret (.refuse _)
      | true => exact .ret (.forward ⟨rfl, rfl, rfl, rfl, rfl, .refl _⟩)
    | @some s s' h =>
      simp only [h.2.1]
      split
      · exact .ret (.refuse _)
      · -- the two requests have the bearer tokens of the two sessions
        exact .ret (.forward ⟨rfl, rfl, rfl, rfl, rfl, .set_bearer _ _ _⟩)

/-- The session with other tokens. -/
def otherSession : Session :=
  { session with
    tokens := { accessToken := ascii "at-9", refreshToken := ascii "rt-9", idToken := [],
                expiresIn := 300 } }

/-- The state with that session. -/
def otherWorld : World deps := World.start cfg 0 (SessionStore.empty.put otherSession)

/-- The two sample states differ in their tokens only. -/
theorem sameWorld_other : SameWorld SameButTokens world otherWorld := by
  have hempty : @SameRows deps SameButTokens SessionStore.empty SessionStore.empty :=
    fun _ => .absent
  have hsame : SameButTokens session otherSession := by
    refine ⟨rfl, rfl, rfl, rfl, rfl, iff_of_false ?_ ?_, iff_of_false ?_ ?_⟩ <;> decide
  exact SameWorld.start (hempty.put tokenBlind hsame) cfg 0

/-- A step-up and the sign-out after it are answered by a server with another secret, for a session
with other tokens, as they are by this one, and the two perform the same operations: one of them
posts the token of the session to the issuer. -/
theorem elevate_similar : ∃ P P', server.Run world P ∧
    (server.withSecret (ascii "hunter2")).Run otherWorld P' ∧
    P'.threads[0]? = some ⟨elevateRequest, .ret elevated⟩ ∧
    P'.threads[1]? = some ⟨logoutRequest, .ret Server.loggedOut⟩ ∧
    ⟨1, logoutRequest, ⟨.post .issuer (revokeCall (ascii "rt-1") "refresh_token"), none⟩⟩ ∈
      P.trace ∧
    Pool.Similar (SameOp SameButTokens) (SameEvent SameButTokens) Eq (SameWorld SameButTokens)
      P P' := by
  obtain ⟨rl, helevate⟩ := elevateRequest_run
  -- the session is still there, with the token of the step-up
  obtain ⟨l, w', hlogout, hmem, -⟩ := @logoutRequest_run
    { world with elevateLimiter := rl, sessions := (store.put session).put elevatedSession }
    elevatedSession rfl rfl (by decide) (by decide)
  have hP : server.Run world _ :=
    (Reachable.start.run elevateRequest helevate).run logoutRequest hlogout
  obtain ⟨P', hP', hsimilar, hthreads⟩ := similar_of_run tokenBlind gateway_blind (ascii "hunter2")
    sameWorld_other hP
  refine ⟨_, P', hP, hP', hthreads 0 elevateRequest elevated rfl,
    hthreads 1 logoutRequest Server.loggedOut rfl, ?_, hsimilar⟩
  exact List.mem_append_left _ (List.mem_map_of_mem (List.mem_reverse.mpr hmem))

end Reference

end Bff
