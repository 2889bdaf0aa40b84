import OAuth2Monitoring.Bff.Reference

/-!
# Whole-row write-back and the step-up's tokens

Every request outside the proxy looks its session up, slides the idle window and puts the whole
session back. The step-up puts the session a second time, with the tokens it obtained. Over a store
whose `Get` returns a copy, the first kind of put can undo the second: a request that has read the
row before another request's step-up stored its tokens puts the old tokens back.

The runs here are those of `/bff/session` and `/bff/elevate` requests on one live session, with no
failing statement, no expiry and no refresh.

## Main definitions

* `SteadyRun`: those runs.
* `currentTokens`: the tokens stored by the last step-up of a trace.
* `SlidesAlone`: between a request's `Get` and its idle-window put no step-up stores its tokens.

## Main results

* `tokensKept_of_run`: in a steady run whose slides are alone, the row carries the last step-up's
  tokens.
-/

namespace Bff

open GoStd Interleaving Interleaving.Prog

variable {d : Deps} {srv : Server d} {sid : Bytes}

/-! ## Steady runs -/

/-- A session or step-up request on the session `sid`. -/
abbrev SessionRequest (srv : Server d) (sid : Bytes) := { r : Request //
  (dispatch srv.cfg r = .handler .session ∨ dispatch srv.cfg r = .handler .elevate) ∧
    d.sessionCookie r = some sid }

/-- A statement that does its work; the session looked up is there. -/
def Served : Event (@Res d) → Prop
  | ⟨.sessionGet _, .done sess⟩ => sess ≠ none
  | ⟨.sessionGet _, .failed⟩ => False
  | ⟨.sessionPut _, .failed⟩ => False
  | ⟨.sessionDelete _, .failed⟩ => False
  | _ => True

/-- The pools of a run of requests on the session `sid`, all statements being served and the row
never being swept. -/
abbrev SteadyRun (srv : Server d) (sid : Bytes) (w₀ : World d) :
    Pool (World d) (SessionRequest srv sid) (@Res d) Response → Prop :=
  Reachable (fun w op res w' => Answers srv.cfg w op res w' ∧ Served ⟨op, res⟩)
    (fun r => srv.handler r.1)
    (fun w w' => Env srv.cfg w w' ∧ w'.sessions.row sid = w.sessions.row sid) w₀

/-- The trace of such a run. -/
abbrev SteadyTrace (srv : Server d) (sid : Bytes) := List (Entry (SessionRequest srv sid) (@Res d))

/-! ## The two kinds of puts -/

/-- The event puts a session. -/
def IsPut (ev : Event (@Res d)) : Prop := ∃ s, ev.op = .sessionPut s

instance : DecidablePred (@IsPut d) := fun ev =>
  match h : ev.op with
  | .sessionPut s => .isTrue ⟨s, h⟩
  | .allow .. | .now | .randomToken _ | .pendingPut .. | .pendingTake _ | .sessionGet _
  | .sessionDelete _ | .sessionSweep | .sessionErrors | .post .. | .proxy .. =>
    .isFalse fun ⟨s, hs⟩ => by rw [h] at hs; cases hs

/-- A request puts its session first with the idle window slid. -/
def IsIdlePut (older : SteadyTrace srv sid) (e : Entry (SessionRequest srv sid) (@Res d))
    (s : d.Session) : Prop :=
  e.event.op = .sessionPut s ∧ ∀ ev ∈ history e.tid older, ¬IsPut ev

/-- A step-up puts it a second time, with its tokens. -/
def IsTokenPut (older : SteadyTrace srv sid) (e : Entry (SessionRequest srv sid) (@Res d))
    (s : d.Session) : Prop :=
  e.event.op = .sessionPut s ∧ ∃ ev ∈ history e.tid older, IsPut ev

/-- The tokens the last step-up of the trace has stored, `tokens₀` if there is none. -/
def currentTokens (tokens₀ : Bytes × Bytes) : SteadyTrace srv sid → Bytes × Bytes
  | [] => tokens₀
  | e :: older =>
    match e.event.op with
    | .sessionPut s =>
      if ∃ ev ∈ history e.tid older, IsPut ev then tokensOf s else currentTokens tokens₀ older
    | _ => currentTokens tokens₀ older

/-- After a step-up has stored its tokens they are the current ones. -/
theorem currentTokens_tokenPut {tokens₀ : Bytes × Bytes} {older : SteadyTrace srv sid}
    {e : Entry (SessionRequest srv sid) (@Res d)} {s : d.Session} (h : IsTokenPut older e s) :
    currentTokens tokens₀ (e :: older) = tokensOf s := by
  simp only [currentTokens, h.1]
  exact if_pos h.2

theorem currentTokens_of_not {tokens₀ : Bytes × Bytes} {older : SteadyTrace srv sid}
    {e : Entry (SessionRequest srv sid) (@Res d)} (h : ∀ s, ¬IsTokenPut older e s) :
    currentTokens tokens₀ (e :: older) = currentTokens tokens₀ older := by
  rw [currentTokens]
  split
  · rename_i s hs
    exact if_neg fun hput => h s ⟨hs, hput⟩
  · rfl

/-- When a step-up has stored its tokens, the current tokens are its own or those of a step-up
that stored its tokens later. -/
theorem exists_tokenPut {tokens₀ : Bytes × Bytes} {newer older : SteadyTrace srv sid}
    {e : Entry (SessionRequest srv sid) (@Res d)} {s : d.Session} (h : IsTokenPut older e s) :
    ∃ newer' e' older' between s', newer ++ e :: older = newer' ++ e' :: older' ∧
      e' :: older' = between ++ e :: older ∧ IsTokenPut older' e' s' ∧
      currentTokens tokens₀ (newer ++ e :: older) = tokensOf s' := by
  induction newer with
  | nil => exact ⟨[], e, older, [], s, rfl, rfl, h, currentTokens_tokenPut h⟩
  | cons x newer ih =>
    -- the latest step-up among the newer entries, if there is one
    by_cases hx : ∃ s', IsTokenPut (newer ++ e :: older) x s'
    · obtain ⟨s', hx⟩ := hx
      exact ⟨[], x, newer ++ e :: older, x :: newer, s', rfl, rfl, hx, currentTokens_tokenPut hx⟩
    · obtain ⟨newer', e', older', between, s', heq, hbetween, hput, hcur⟩ := ih
      refine ⟨x :: newer', e', older', between, s', by rw [List.cons_append, heq]; rfl, hbetween,
        hput, ?_⟩
      rw [List.cons_append, currentTokens_of_not (not_exists.mp hx), hcur]

/-! ## What one request does -/

/-- A session that a step-up has obtained an access token for: the token is the one in the admin
API's answer. -/
def Obtained (past : List (Event (@Res d))) (s : d.Session) : Prop :=
  ∃ c a lr, (⟨.post .admin c, some a⟩ : Event (@Res d)) ∈ past ∧
    d.unmarshalElevate (a.body.take readLimit) = some lr ∧ d.accessToken s = lr.accessToken

/-- What is put is the session that the request's `Get` answered with: with its idle window slid
the first time, and with the tokens the step-up obtained the second time. -/
def WriteStep (sid : Bytes) (past : List (Event (@Res d))) : Op d → Prop
  | .sessionGet id => id = sid
  | .sessionPut s => ∃ sess now, (⟨.sessionGet sid, .done (some sess)⟩ : Event (@Res d)) ∈ past ∧
      ((∀ ev ∈ past, ¬IsPut ev) ∧ s = d.touch sess now ∨
        (∃ ev ∈ past, IsPut ev) ∧ (∃ ts t, s = d.setTokens (d.touch sess now) ts t) ∧
          Obtained past s)
  | .sessionDelete _ | .sessionSweep => False
  | _ => True

/-- A step-up that answers 204 has just put its tokens. -/
def WriteDone (srv : Server d) (r : Request) (past : List (Event (@Res d)))
    (resp : Response) : Prop :=
  dispatch srv.cfg r = .handler .elevate → resp.status = 204 →
    ∃ s res rest, past = ⟨.sessionPut s, res⟩ :: rest ∧ ∃ ev ∈ rest, IsPut ev

/-- The session lookup, from a past without puts. -/
theorem currentSession_sat {r : Request} {past : List (Event (@Res d))}
    (hcookie : d.sessionCookie r = some sid) (hpast : ∀ ev ∈ past, ¬IsPut ev) :
    (Server.currentSession r).Sat (WriteStep sid)
      (fun past' found => ∀ s, found = some s → ∃ sess now res, s = d.touch sess now ∧
        past' = ⟨.sessionPut s, res⟩ :: ⟨.now, now⟩ :: ⟨.sessionGet sid, .done (some sess)⟩ :: past)
      past := by
  unfold Server.currentSession Server.sessionFromRequest
  rw [hcookie]
  refine ⟨rfl, fun st => ?_⟩
  cases st with
  | failed => exact fun s h => by cases h
  | done found =>
    cases found with
    | none => exact fun s h => by cases h
    | some sess =>
      refine ⟨trivial, fun now => ⟨⟨sess, now, by simp, .inl ⟨?_, rfl⟩⟩, fun res => ?_⟩⟩
      · -- the `Put` is the first one: the lookup itself made a `Get` and asked for the time
        intro ev hev
        rcases List.mem_cons.mp hev with rfl | hev
        · exact fun ⟨s, h⟩ => by cases h
        · rcases List.mem_cons.mp hev with rfl | hev
          · exact fun ⟨s, h⟩ => by cases h
          · exact hpast ev hev
      · intro s h
        cases h
        exact ⟨sess, now, res, rfl, rfl⟩

/-- The end of a step-up: when it answers 204 it has just put its tokens. -/
theorem elevateReply_sat (hd : d.Lawful) {r : Request} {sess : d.Session} {now : ℤ} {c : Call}
    {a : Option Answer} {past : List (Event (@Res d))}
    (hget : (⟨.sessionGet sid, .done (some sess)⟩ : Event (@Res d)) ∈ past)
    (hput : ∃ ev ∈ past, IsPut ev) (hpost : (⟨.post .admin c, a⟩ : Event (@Res d)) ∈ past) :
    (Server.elevateReply (d.touch sess now) a).Sat (WriteStep sid) (WriteDone srv r) past := by
  have hfailed : ∀ past : List (Event (@Res d)),
      WriteDone srv r past (Server.elevationFailed 502) := fun _ _ h => by cases h
  cases a with
  | none => exact hfailed past
  | some ans =>
    unfold Server.elevateReply
    dsimp only
    split
    · -- an answer other than 200 is copied or hidden, and neither is a 204
      split
      · rename_i hstatus
        intro _ h204
        have : ans.status = 204 := h204
        omega
      · exact hfailed past
    · cases hlr : d.unmarshalElevate (ans.body.take readLimit) with
      | none => exact hfailed past
      | some lr =>
        dsimp only
        split
        · exact hfailed past
        · -- the second put of the request, with the tokens of this answer
          refine ⟨trivial, fun t => ⟨⟨sess, now, List.mem_cons_of_mem _ hget, .inr ⟨?_, ⟨_, t, rfl⟩,
            c, ans, lr, List.mem_cons_of_mem _ hpost, hlr, hd.accessToken_setTokens _ _ _⟩⟩,
            fun res => ?_⟩⟩
          · obtain ⟨ev, hev, hput⟩ := hput
            exact ⟨ev, List.mem_cons_of_mem _ hev, hput⟩
          · obtain ⟨ev, hev, hput⟩ := hput
            exact fun _ _ => ⟨_, res, _, rfl, ev, List.mem_cons_of_mem _ hev, hput⟩

/-- The requests of a steady run do what `WriteStep` says. -/
theorem sessionRequest_sat (hd : d.Lawful)
    (hfresh : ∀ refresh sess, srv.gateway.ensureFresh refresh sess = .ret (.fresh sess))
    (r : SessionRequest srv sid) :
    (srv.handler r.1).Sat (WriteStep sid) (WriteDone srv r.1) [] := by
  obtain ⟨r, hr, hcookie⟩ := r
  unfold Server.handler
  dsimp only
  -- `/bff/session` ends after the lookup, a step-up may go on to put its tokens
  rcases hr with hr | hr
  · rw [hr]
    refine Sat.bind (Sat.bind ((currentSession_sat hcookie (by simp)).mono (fun _ _ h => h) ?_))
    intro past found hfound
    have hdone : ∀ resp, WriteDone srv r past resp := fun resp h => by rw [hr] at h; cases h
    cases found <;> exact hdone _
  · rw [hr]
    have hearly : ∀ (past : List (Event (@Res d))) (resp : Response), resp.status ≠ 204 →
        WriteDone srv r past resp := fun _ _ hne _ h => absurd h hne
    refine Sat.bind ((Server.rateLimited_sat trivial).mono (fun _ _ h => h) ?_)
    rintro past limited ⟨a, rfl, rfl⟩
    cases a with
    | some retry => exact hearly _ _ (show 429 ≠ 204 by decide)
    | none =>
      refine Sat.bind ((currentSession_sat hcookie ?_).mono (fun _ _ h => h) ?_)
      · intro ev hev
        rw [List.mem_singleton.mp hev]
        exact fun ⟨s, h⟩ => by cases h
      · intro past found hfound
        cases found with
        | none => exact hearly _ _ (by decide)
        | some s =>
          obtain ⟨sess, now, res, rfl, rfl⟩ := hfound s rfl
          dsimp only
          split
          · exact hearly _ _ (by decide)
          · rw [hfresh]
            show ((srv.elevateUpstream (Server.attribution d r) r (d.touch sess now)) :
              Handler d).Sat _ _ _
            unfold Server.elevateUpstream
            dsimp only
            split
            · refine ⟨trivial, fun a => ?_⟩
              exact elevateReply_sat hd (by simp)
                ⟨⟨.sessionPut (d.touch sess now), res⟩, by simp, _, rfl⟩
                List.mem_cons_self
            · exact hearly _ _ (by decide)

/-! ## The invariant of the row -/

/-- Between a request's `Get` and its idle-window put no step-up stores its tokens. -/
def SlidesAlone (tr : SteadyTrace srv sid) : Prop :=
  ∀ newer e older s, tr = newer ++ e :: older → IsIdlePut older e s →
    ∀ m g o id, older = m ++ g :: o → g.tid = e.tid → g.event.op = .sessionGet id →
      ∀ m' x m'' s', m = m' ++ x :: m'' → ¬IsTokenPut (m'' ++ g :: o) x s'

theorem SlidesAlone.of_cons {e : Entry (SessionRequest srv sid) (@Res d)}
    {tr : SteadyTrace srv sid} (h : SlidesAlone (e :: tr)) : SlidesAlone tr :=
  fun newer e' older s htr => h (e :: newer) e' older s (by rw [htr, List.cons_append])

/-- Without a step-up storing its tokens, the current tokens stay. -/
theorem currentTokens_append {tokens₀ : Bytes × Bytes} {m tr : SteadyTrace srv sid}
    (h : ∀ m' x m'' s, m = m' ++ x :: m'' → ¬IsTokenPut (m'' ++ tr) x s) :
    currentTokens tokens₀ (m ++ tr) = currentTokens tokens₀ tr := by
  induction m with
  | nil => rfl
  | cons x m ih =>
    rw [List.cons_append, currentTokens_of_not (fun s => h [] x m s rfl)]
    exact ih fun m' y m'' s hm => h (x :: m') y m'' s (by rw [hm, List.cons_append])

/-- The row holds the tokens of the last step-up, and so does what every `Get` answered and every
idle-window put stored at its time. -/
structure RowInv (tokens₀ : Bytes × Bytes) (w : World d) (tr : SteadyTrace srv sid) : Prop where
  row : ∃ sess, w.sessions.find sid = some sess ∧ tokensOf sess = currentTokens tokens₀ tr
  got : Along (fun older e => ∀ sess,
    e.event = (⟨.sessionGet sid, .done (some sess)⟩ : Event (@Res d)) →
      d.id sess = sid ∧ tokensOf sess = currentTokens tokens₀ older) tr
  idle : Along (fun older e => ∀ s, IsIdlePut older e s →
    tokensOf s = currentTokens tokens₀ older) tr

/-- A step that neither puts nor gets. -/
theorem RowInv.other {tokens₀ : Bytes × Bytes} {w w' : World d} {tr : SteadyTrace srv sid}
    {e : Entry (SessionRequest srv sid) (@Res d)} (h : RowInv tokens₀ w tr)
    (hsessions : w'.sessions = w.sessions) (hput : ∀ s, e.event.op ≠ .sessionPut s)
    (hget : ∀ id, e.event.op ≠ .sessionGet id) : RowInv tokens₀ w' (e :: tr) where
  row := by
    rw [currentTokens_of_not fun s hs => hput s hs.1, hsessions]
    exact h.row
  got := ⟨fun sess hev => absurd (by rw [hev]) (hget sid), h.got⟩
  idle := ⟨fun s hs => absurd hs.1 (hput s), h.idle⟩

/-- A `Get` answers with the row. -/
theorem RowInv.get {tokens₀ : Bytes × Bytes} {cfg : Config} {w : World d}
    {tr : SteadyTrace srv sid} {t : ℕ} {r : SessionRequest srv sid} {found : Option d.Session}
    (h : RowInv tokens₀ w tr) (hfound : found = w.get cfg sid) :
    RowInv tokens₀ w (⟨t, r, ⟨.sessionGet sid, .done found⟩⟩ :: tr) where
  row := by
    rw [currentTokens_of_not fun s hs => by cases hs.1]
    exact h.row
  got := by
    refine ⟨fun sess hev => ?_, h.got⟩
    obtain rfl : found = some sess := by
      cases hev
      rfl
    obtain ⟨sess', hrow, htokens⟩ := h.row
    -- a row that is answered is the row there is
    have hfind : w.sessions.find sid = some sess := World.find_of_get hfound.symm
    rw [hrow, Option.some.injEq] at hfind
    subst hfind
    exact ⟨SessionStore.id_of_find hrow, htokens⟩
  idle := ⟨fun s hs => (by cases hs.1), h.idle⟩

/-- A put stores the last step-up's tokens: those the request has read when nobody stored others
meanwhile, or its own. -/
theorem RowInv.put (hd : d.Lawful) {tokens₀ : Bytes × Bytes} {w : World d}
    {tr : SteadyTrace srv sid} {t : ℕ} {r : SessionRequest srv sid} {s : d.Session}
    {res : Stmt Unit}
    (h : RowInv tokens₀ w tr) (hstep : WriteStep sid (history t tr) (.sessionPut s))
    (halone : SlidesAlone (⟨t, r, ⟨.sessionPut s, res⟩⟩ :: tr)) :
    RowInv tokens₀ { w with sessions := w.sessions.put s }
      (⟨t, r, ⟨.sessionPut s, res⟩⟩ :: tr) := by
  obtain ⟨sess, now, hget, hkind⟩ := hstep
  obtain ⟨g, hg, ht, hgev⟩ := mem_history.mp hget
  obtain ⟨m, o, htr, hgot⟩ := h.got.of_mem hg
  obtain ⟨hid, htokens⟩ := hgot sess hgev
  have hsid : d.id s = sid := by
    rcases hkind with ⟨-, rfl⟩ | ⟨-, ⟨ts, t', rfl⟩, -⟩
    · rw [hd.id_touch, hid]
    · rw [hd.id_setTokens, hd.id_touch, hid]
  have hrow : ({ w with sessions := w.sessions.put s } : World d).sessions.find sid = some s := by
    obtain ⟨old, hold, -⟩ := h.row
    subst hsid
    exact SessionStore.find_put_self hold
  rcases hkind with ⟨hfirst, rfl⟩ | ⟨hsecond, -, -⟩
  · -- the idle-window put: nobody has stored tokens since its `Get`
    have hidle : IsIdlePut tr ⟨t, r, ⟨.sessionPut (d.touch sess now), res⟩⟩ (d.touch sess now) :=
      ⟨rfl, hfirst⟩
    have hno := halone [] _ tr _ rfl hidle m g o sid htr ht (by rw [hgev])
    have hcur : tokensOf (d.touch sess now) = currentTokens tokens₀ tr := by
      have htouch : tokensOf (d.touch sess now) = tokensOf sess := by
        simp only [tokensOf, hd.accessToken_touch, hd.refreshToken_touch]
      rw [htouch, htokens, htr, currentTokens_append hno,
        currentTokens_of_not fun s hs => by have hop := hs.1; rw [hgev] at hop; cases hop]
    refine ⟨⟨_, hrow, ?_⟩, ⟨fun s' hev => (by cases hev), h.got⟩, ⟨fun s' hs => ?_, h.idle⟩⟩
    · rw [currentTokens_of_not, hcur]
      rintro s' ⟨-, ev, hev, hput⟩
      exact hfirst ev hev hput
    · obtain rfl : d.touch sess now = s' := by simpa using hs.1
      exact hcur
  · -- the put of a step-up: its tokens are the current ones from now on
    refine ⟨⟨_, hrow, ?_⟩, ⟨fun s' hev => (by cases hev), h.got⟩, ⟨fun s' hs => ?_, h.idle⟩⟩
    · exact (currentTokens_tokenPut ⟨rfl, hsecond⟩).symm
    · obtain ⟨ev, hev, hput⟩ := hsecond
      exact absurd hput (hs.2 ev hev)

/-- The invariant of the runs whose slides are alone. -/
def RowInvAlone (tokens₀ : Bytes × Bytes) (w : World d) (tr : SteadyTrace srv sid) : Prop :=
  SlidesAlone tr → RowInv tokens₀ w tr

section Run

variable {w₀ : World d} {sess₀ : d.Session}
  {P : Pool (World d) (SessionRequest srv sid) (@Res d) Response}

/-- In a steady run whose slides are alone, the row holds the last step-up's tokens. -/
theorem rowInvAlone_of_run (hd : d.Lawful)
    (hfresh : ∀ refresh sess, srv.gateway.ensureFresh refresh sess = .ret (.fresh sess))
    (hlive : w₀.sessions.find sid = some sess₀) (hP : SteadyRun srv sid w₀ P) :
    RowInvAlone (tokensOf sess₀) P.shared P.trace := by
  refine Reachable.invariant (sessionRequest_sat hd hfresh) ?_ ?_ ?_ hP
  · exact fun _ => ⟨⟨sess₀, hlive, rfl⟩, trivial, trivial⟩
  · -- an operation: the slides before it are alone too, and its thread keeps to `WriteStep`
    rintro w tr ⟨t, r, op, res⟩ w' ih hstep ⟨hans, hserved⟩ halone
    have h := ih halone.of_cons
    have hkept := hans.kept
    cases op with
    | sessionGet id =>
      obtain rfl : id = sid := hstep
      cases res with
      | failed => exact hserved.elim
      | done found =>
        obtain ⟨hfound, rfl⟩ := hans
        exact h.get hfound
    | sessionPut s =>
      cases res with
      | failed => exact hserved.elim
      | done u =>
        obtain rfl : w' = _ := hans
        exact h.put hd hstep halone
    | sessionDelete id => exact hstep.elim
    | sessionSweep => exact hstep.elim
    | _ => exact h.other (hkept.sessions (by simp) (by simp) (by simp)) (by simp) (by simp)
  · -- between the operations the row stays, as the session is alive
    rintro w tr w' ih ⟨-, hrow⟩ halone
    obtain ⟨⟨sess, hfind, htokens⟩, hgot, hidle⟩ := ih halone
    refine ⟨⟨sess, ?_, htokens⟩, hgot, hidle⟩
    rwa [SessionStore.find, hrow]

/-! ## The guarantee, and when it holds -/

/-- Once a step-up has answered 204, the row carries the access token that this step-up obtained,
or one that stored its tokens later; and no idle-window put stores other tokens than those of the
last step-up. -/
structure TokensKept (tokens₀ : Bytes × Bytes)
    (P : Pool (World d) (SessionRequest srv sid) (@Res d) Response) : Prop where
  kept : ∀ t r resp, P.threads[t]? = some ⟨r, .ret resp⟩ →
    dispatch srv.cfg r.1 = .handler .elevate → resp.status = 204 →
    ∃ newer e older s sess, P.trace = newer ++ e :: older ∧ IsTokenPut older e s ∧
      Obtained (history e.tid older) s ∧
      (∃ between own o s', e :: older = between ++ own :: o ∧ own.tid = t ∧ IsTokenPut o own s') ∧
      P.shared.sessions.find sid = some sess ∧ d.accessToken sess = d.accessToken s
  idle : ∀ newer e older s, P.trace = newer ++ e :: older → IsIdlePut older e s →
    tokensOf s = currentTokens tokens₀ older

/-- In every steady run in which no step-up stores its tokens between another request's `Get` and
its idle-window put, the tokens are kept. -/
theorem tokensKept_of_run (hd : d.Lawful)
    (hfresh : ∀ refresh sess, srv.gateway.ensureFresh refresh sess = .ret (.fresh sess))
    (hlive : w₀.sessions.find sid = some sess₀) (hP : SteadyRun srv sid w₀ P)
    (halone : SlidesAlone P.trace) : TokensKept (tokensOf sess₀) P := by
  have hinv := rowInvAlone_of_run hd hfresh hlive hP halone
  have hcode := @sessionRequest_sat d srv sid hd hfresh
  refine ⟨fun t r resp ht hr h204 => ?_, fun newer e older s htr hs => ?_⟩
  · -- the step-up's own put, and the latest one that stored tokens after it
    obtain ⟨s, res, rest, hhist, hput⟩ := hP.returns hcode ht hr h204
    obtain ⟨newer, own, o, htr, rfl, hev, rfl⟩ := exists_of_history_eq_cons hhist
    have hown : IsTokenPut o own s := ⟨by rw [hev], hput⟩
    obtain ⟨newer', e, older, between, s', heq, hbetween, he, hcur⟩ :=
      @exists_tokenPut d srv sid (tokensOf sess₀) newer o own s hown
    have htr' : P.trace = newer' ++ e :: older := htr.trans heq
    obtain ⟨sess, hfind, htokens⟩ := hinv.row
    refine ⟨newer', e, older, s', sess, htr', he, ?_, ⟨between, own, o, s, hbetween, rfl, hown⟩,
      hfind, ?_⟩
    · have hstep := along_iff.mp (hP.obeys hcode) newer' e older htr'
      rw [he.1] at hstep
      obtain ⟨sess', now, -, ⟨hfirst, -⟩ | ⟨-, -, hobtained⟩⟩ := hstep
      · obtain ⟨ev, hev', hisput⟩ := he.2
        exact absurd hisput (hfirst ev hev')
      · exact hobtained
    · rw [htr, hcur] at htokens
      exact congrArg Prod.fst htokens
  · exact along_iff.mp hinv.idle newer e older htr s hs

end Run

/-! ## Traces whose slides are alone -/

/-- While no request has put its session twice, the idle-window puts are alone. -/
theorem slidesAlone_of_once {tr : SteadyTrace srv sid}
    (h : Along (fun older e => IsPut e.event → ∀ ev ∈ history e.tid older, ¬IsPut ev) tr) :
    SlidesAlone tr := by
  rintro newer e older s rfl - m g o id rfl - - m' x m'' s' rfl ⟨hop, ev, hev, hput⟩
  exact along_iff.mp h (newer ++ e :: m') x (m'' ++ g :: o) (by simp) ⟨s', hop⟩ ev hev hput

/-- They stay so when a step-up stores its tokens. -/
theorem SlidesAlone.tokenPut {e : Entry (SessionRequest srv sid) (@Res d)}
    {tr : SteadyTrace srv sid} {s : d.Session} (h : SlidesAlone tr) (hput : IsTokenPut tr e s) :
    SlidesAlone (e :: tr) := by
  intro newer e' older s' htr hidle
  cases newer with
  | nil =>
    obtain ⟨rfl, rfl⟩ := List.cons.inj htr
    obtain ⟨ev, hev, hisput⟩ := hput.2
    exact absurd hisput (hidle.2 ev hev)
  | cons x newer => exact h newer e' older s' (List.cons.inj htr).2 hidle

/-- They stay so when another request starts and runs by itself. -/
theorem SlidesAlone.append {l tr : SteadyTrace srv sid} {t : ℕ} (h : SlidesAlone tr)
    (hl : ∀ e ∈ l, e.tid = t) (htr : ∀ e ∈ tr, e.tid ≠ t) : SlidesAlone (l ++ tr) := by
  induction l with
  | nil => exact h
  | cons x l ih =>
    have halone := ih fun e he => hl e (List.mem_cons_of_mem _ he)
    intro newer e older s heq hidle
    cases newer with
    | cons y newer => exact halone newer e older s (List.cons.inj heq).2 hidle
    | nil =>
      obtain ⟨rfl, rfl⟩ := List.cons.inj heq
      intro m g o id hold hg _ m' y m'' s' hm hput
      -- what is newer than the request's `Get` is its own, and it has put nothing yet
      have hy : y.tid = t := by
        have hgt : g ∉ tr := fun hmem => htr g hmem (hg.trans (hl x List.mem_cons_self))
        have hcut : l ++ tr = m' ++ y :: (m'' ++ g :: o) := hold.trans (by rw [hm]; simp)
        rcases List.append_eq_append_iff.mp hcut with ⟨c, -, rfl⟩ | ⟨c, rfl, hc⟩
        · exact absurd (by simp) hgt
        · cases c with
          | nil =>
            obtain rfl : y :: (m'' ++ g :: o) = tr := hc
            exact absurd (by simp) hgt
          | cons z c =>
            obtain ⟨rfl, -⟩ := List.cons.inj hc
            exact hl _ (by simp)
      refine hidle.2 y.event (mem_history.mpr ⟨y, ?_, hy.trans (hl x List.mem_cons_self).symm, rfl⟩)
        ⟨s', hput.1⟩
      rw [hold, hm]
      simp

/-! ## Two runs -/

/-- `/bff/session` looks the session up first; when it has found it, it slides the window. -/
theorem handleSession_run {cfg : Config} {r : Request} (hcookie : d.sessionCookie r = some sid) :
    ∃ k, Server.handleSession r = .call (Op.sessionGet sid) k ∧ ∀ (w : World d) sess, ∃ resp,
      Exec (Answers cfg) w (k (.done (some sess)))
        [⟨.now, w.clock⟩, ⟨.sessionPut (d.touch sess w.clock), Stmt.done ()⟩] (.ret resp)
        { w with sessions := w.sessions.put (d.touch sess w.clock) } := by
  simp only [Server.handleSession, Server.currentSession, Server.sessionFromRequest, hcookie]
  refine ⟨_, rfl, fun w sess => ?_⟩
  exact ⟨_, exec_call_iff.mpr ⟨w.clock, _, _, rfl, ⟨rfl, rfl⟩,
    exec_call_iff.mpr ⟨.done (), _, _, rfl, rfl, .refl _ _⟩⟩⟩

namespace Reference

theorem dispatch_whoami :
    dispatch server.cfg (sessionRequest "GET" "/bff/session") = .handler .session := by
  decide +kernel

/-- The session's browser asks who it is. -/
def whoami : SessionRequest server session.id :=
  ⟨sessionRequest "GET" "/bff/session", .inl dispatch_whoami,
    cookie_sessionRequest "GET" "/bff/session"⟩

/-- The session's browser steps up. -/
def stepUp : SessionRequest server session.id :=
  ⟨elevateRequest, .inr dispatch_elevateRequest, cookie_sessionRequest "POST" "/bff/elevate"⟩

theorem world_find : world.sessions.find session.id = some session := rfl

/-- The answers to served statements. -/
abbrev ServedAnswers (w : World deps) (op : Op deps) (res : Res op) (w' : World deps) : Prop :=
  Answers server.cfg w op res w' ∧ Served ⟨op, res⟩

/-- The step-up passes its checks, all its statements being served. -/
theorem stepUp_checked : ∃ rl,
    Exec ServedAnswers world (server.handler stepUp.1) checkEvents elevateRest
      { world with elevateLimiter := rl, sessions := store.put session } := by
  obtain ⟨rl, hrun⟩ := elevateRequest_checked
  exact ⟨rl, hrun.and (by simp [checkEvents, Served])⟩

/-- After its checks it stores its tokens. -/
theorem stepUp_rest {w : World deps} (hclock : w.clock = 0) :
    Exec ServedAnswers w elevateRest tokenEvents (.ret elevated)
      { w with sessions := w.sessions.put elevatedSession } :=
  (elevateRest_run hclock).and (by simp [tokenEvents, Served])

/-- `/bff/session` reads the row and has its window to slide then, whatever happens meanwhile. -/
theorem whoami_run : ∃ k : Session → Handler deps, (∀ (w : World deps) sess,
    w.get server.cfg session.id = some sess → Exec ServedAnswers w (server.handler whoami.1)
      [⟨.sessionGet session.id, Stmt.done (some sess)⟩] (k sess) w) ∧
    ∀ (w : World deps) sess, ∃ resp, Exec ServedAnswers w (k sess)
      [⟨.now, w.clock⟩, ⟨.sessionPut (deps.touch sess w.clock), Stmt.done ()⟩] (.ret resp)
      { w with sessions := w.sessions.put (deps.touch sess w.clock) } := by
  obtain ⟨k, hcode, hslide⟩ := @handleSession_run deps session.id server.cfg whoami.1 whoami.2.2
  have hhandler : server.handler whoami.1 = .call (Op.sessionGet session.id) k :=
    (Server.handler_of_dispatch (r := whoami.1) dispatch_whoami).trans hcode
  refine ⟨fun sess => k (.done (some sess)), fun w sess hget => ?_, fun w sess => ?_⟩
  · rw [hhandler]
    exact .call _ ⟨⟨hget.symm, rfl⟩, by simp [Served]⟩ (.refl _ _)
  · obtain ⟨resp, hrun⟩ := hslide w sess
    exact ⟨resp, hrun.and (by simp [Served])⟩

/-- What `/bff/session` does when it finds the session, its `Get` apart. -/
def slideEvents (sess : Session) : List (Event (@Res deps)) :=
  [⟨.now, (0 : ℤ)⟩, ⟨.sessionPut sess, Stmt.done ()⟩]

/-- A `/bff/session` request reads the row and puts it back while a step-up waits for the admin API,
another one starts after the step-up has stored its tokens. -/
def keptTrace : SteadyTrace server session.id :=
  (⟨.sessionGet session.id, Stmt.done (some elevatedSession)⟩ ::
    slideEvents elevatedSession).reverse.map (fun ev => ⟨2, whoami, ev⟩) ++
  (tokenEvents.reverse.map (fun ev => ⟨1, stepUp, ev⟩) ++
  ((slideEvents session).reverse.map (fun ev => ⟨0, whoami, ev⟩) ++
  (checkEvents.reverse.map (fun ev => ⟨1, stepUp, ev⟩) ++
    [⟨0, whoami, ⟨.sessionGet session.id, Stmt.done (some session)⟩⟩])))

/-- No step-up stores its tokens between a `Get` and the slide that follows it. -/
theorem keptTrace_alone : SlidesAlone keptTrace := by
  refine SlidesAlone.append (t := 2) (SlidesAlone.tokenPut (s := elevatedSession) ?_ ?_) ?_ ?_
  · exact slidesAlone_of_once (by decide +kernel)
  · exact ⟨rfl, by decide +kernel⟩
  · decide +kernel
  · decide +kernel

/-- The three requests may run so. -/
theorem keptTrace_run : ∃ P told told', SteadyRun server session.id world P ∧
    P.threads = [⟨whoami, .ret told⟩, ⟨stepUp, .ret elevated⟩, ⟨whoami, .ret told'⟩] ∧
    P.trace = keptTrace := by
  obtain ⟨k, hget, hslide⟩ := whoami_run
  obtain ⟨rl, hchecked⟩ := stepUp_checked
  have hread : SteadyRun server session.id world _ :=
    Reachable.start.run whoami (hget world session world_get)
  have hwaits := hread.run stepUp hchecked
  obtain ⟨told, hback⟩ :=
    hslide { world with elevateLimiter := rl, sessions := store.put session } session
  have hslid := hwaits.advance (t := 0) rfl hback
  have hstored := hslid.advance (t := 1) rfl (stepUp_rest rfl)
  obtain ⟨told', hback'⟩ := hslide _ elevatedSession
  have hagain := hstored.run whoami ((hget _ elevatedSession rfl).trans hback')
  exact ⟨_, told, told', hagain, rfl, rfl⟩

/-- Two `/bff/session` requests and a step-up, interleaved: its tokens are kept. -/
theorem stepUp_kept : ∃ P told told', SteadyRun server session.id world P ∧
    P.threads = [⟨whoami, .ret told⟩, ⟨stepUp, .ret elevated⟩, ⟨whoami, .ret told'⟩] ∧
    P.trace = keptTrace ∧ SlidesAlone P.trace ∧
    TokensKept (tokensOf (d := deps) session) P := by
  obtain ⟨P, told, told', hP, hthreads, htr⟩ := keptTrace_run
  have halone : SlidesAlone P.trace := htr ▸ keptTrace_alone
  exact ⟨P, told, told', hP, hthreads, htr, halone,
    tokensKept_of_run lawful (fun _ _ => rfl) world_find hP halone⟩

/-- A step-up between the lookup of `/bff/session` and its put. -/
def betweenTrace : SteadyTrace server session.id :=
  ⟨0, whoami, ⟨.now, (0 : ℤ)⟩⟩ :: (elevateEvents.reverse.map (fun ev => ⟨1, stepUp, ev⟩) ++
    [⟨0, whoami, ⟨.sessionGet session.id, Stmt.done (some session)⟩⟩])

/-- A lost update: `/bff/session` reads the row, a step-up stores its tokens and answers 204, and
the slid row is put back with the old access token. -/
theorem stepUp_lost : ∃ P resp, SteadyRun server session.id world P ∧
    P.threads = [⟨whoami, .ret resp⟩, ⟨stepUp, .ret elevated⟩] ∧ elevated.status = 204 ∧
    (∃ sess, P.shared.sessions.find session.id = some sess ∧
      deps.accessToken sess = ascii "at-1") ∧
    ¬TokensKept (tokensOf (d := deps) session) P := by
  obtain ⟨k, hget, hslide⟩ := whoami_run
  obtain ⟨rl, hchecked⟩ := stepUp_checked
  obtain ⟨resp, hput⟩ := hslide { world with
    elevateLimiter := rl, sessions := (store.put session).put elevatedSession } session
  have hP : SteadyRun server session.id world _ :=
    Reachable.overlap (hget world session world_get) (hchecked.trans (stepUp_rest rfl)) hput
  refine ⟨_, resp, hP, rfl, rfl, ⟨session, rfl, rfl⟩, fun h => ?_⟩
  -- the newest entry is the idle-window put, with the tokens read before the step-up
  have hidle := h.idle [] ⟨0, whoami, ⟨.sessionPut session, Stmt.done ()⟩⟩ betweenTrace session rfl
    ⟨rfl, by decide +kernel⟩
  exact absurd hidle (by decide +kernel)

end Reference

end Bff
