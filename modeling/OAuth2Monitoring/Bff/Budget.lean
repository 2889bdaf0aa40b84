import OAuth2Monitoring.Bff.Allowlist
import OAuth2Monitoring.Bff.Reference
import OAuth2Monitoring.ToMathlib.Interleaving.Count

/-!
# The step-up budget

The step-up endpoint of the admin API checks a password, and its answer carries an elevated token.
`handleElevate` spends the caller's budget before it calls it and keeps the token in the session.
The admin proxy forwards the same path as any other below the prefix: a POST of the browser's own
that the gateway lets through spends no budget, and its answer is copied back.

## Main results

* `elevateStep_of_isCheck`: a check is the step-up handler's only one, after it was admitted.
* `budgetInv_of_run`: what a budget admits in a run.
* `elevateGuarded_of_run`: in a run in which the gateway lets no such POST through, every check is
  the step-up handler's, the checks are within the budget, and no token reaches a browser.
-/

namespace Bff

open GoStd Interleaving Interleaving.Prog

variable {d : Deps} {srv : Server d}

/-! ## Password checks -/

/-- The path of the step-up endpoint. -/
def elevatePath : Bytes := ascii "/api/admin/elevate"

/-- A POST that the admin upstream receives on the step-up endpoint. -/
def IsCheck (cfg : Config) : Op d → Prop
  | .post .admin c => c.endpoint = trimRight cfg.adminUpstream slash ++ elevatePath
  | .proxy .admin out => out.method = ascii "POST" ∧
      out.path = (joinURLPath (cfg.adminURL.path, cfg.adminURL.rawPath) (elevatePath, [])).1
  | _ => False

instance (cfg : Config) : DecidablePred (@IsCheck d cfg) := fun op => by
  unfold IsCheck
  split <;> infer_instance

/-- The answer to an operation is a 200 of an upstream. -/
def Answered200 : Event (@Res d) → Prop
  | ⟨.post _ _, some a⟩ => a.status = 200
  | ⟨.proxy _ _, some a⟩ => a.status = 200
  | _ => False

/-- A budget admitted an event of the key. -/
abbrev admitted (b : Budget) (key : Bytes) : Event (@Res d) := ⟨.allow b key, none⟩

/-! ## The step-up handler -/

/-- The step-up handler posts to the admin API once, after its caller was admitted; no other
handler does. -/
def ElevateStep (srv : Server d) (r : Request) (past : List (Event (@Res d))) (op : Op d) : Prop :=
  (∃ c, op = .post .admin c) → dispatch srv.cfg r = .handler .elevate ∧
    admitted .elevate (clientIP d r) ∈ past ∧ ∀ ev ∈ past, ∀ c, ev.op ≠ .post .admin c

/-- A 200 of the step-up endpoint is not copied. -/
def ElevateDone (srv : Server d) (r : Request) (past : List (Event (@Res d)))
    (resp : Response) : Prop :=
  dispatch srv.cfg r = .handler .elevate →
    ∀ c a, (⟨.post .admin c, some a⟩ : Event (@Res d)) ∈ past → a.status = 200 →
      resp.body.copied = none

/-- Events that are no call to the admin API. -/
def NoAdminPost (past : List (Event (@Res d))) : Prop :=
  ∀ ev ∈ past, ∀ c, ev.op ≠ .post .admin c

/-- Of an answer of success no body is copied, and nothing is posted after it. -/
theorem elevateReply_body {sess : d.Session} {a : Option Answer} {past : List (Event (@Res d))}
    {Φ : List (Event (@Res d)) → Op d → Prop} (hnow : ∀ past, Φ past .now)
    (hput : ∀ past s, Φ past (.sessionPut s)) :
    (Server.elevateReply sess a).Sat Φ
      (fun past' resp => (∃ l, past' = l ++ past ∧ NoAdminPost l) ∧
        ∀ ans, a = some ans → ans.status = 200 → resp.body.copied = none) past := by
  have hnil : ∃ l : List (Event (@Res d)), past = l ++ past ∧ NoAdminPost l :=
    ⟨[], rfl, fun _ h => (by cases h)⟩
  cases a with
  | none => exact ⟨hnil, fun _ h => by cases h⟩
  | some ans =>
    unfold Server.elevateReply
    dsimp only
    split
    · rename_i hstatus
      split
      · exact ⟨hnil, fun _ h h200 => absurd (Option.some.inj h ▸ h200) hstatus⟩
      · exact ⟨hnil, fun _ _ _ => rfl⟩
    · split
      · exact ⟨hnil, fun _ _ _ => rfl⟩
      · split
        · exact ⟨hnil, fun _ _ _ => rfl⟩
        · -- the tokens go into the session, and the browser gets a 204
          refine ⟨hnow _, fun now => ⟨hput _ _, fun res => ⟨⟨[_, _], rfl, ?_⟩, fun _ _ _ => rfl⟩⟩⟩
          intro ev hev c
          simp only [List.mem_cons, List.not_mem_nil, or_false] at hev
          rcases hev with rfl | rfl <;> simp

/-- The past of a step-up handler that may call the admin API. -/
structure Ready (r : Request) (past : List (Event (@Res d))) : Prop where
  admitted : admitted .elevate (clientIP d r) ∈ past
  first : NoAdminPost past

theorem Ready.append {r : Request} {past l : List (Event (@Res d))} (h : Ready r past)
    (hl : ∀ ev ∈ l, RefreshingOp ev.op) : Ready r (l.reverse ++ past) := by
  refine ⟨List.mem_append_right _ h.admitted, fun ev hev c hc => ?_⟩
  rcases List.mem_append.mp hev with hev | hev
  · have hop := hl ev (List.mem_reverse.mp hev)
    rw [hc] at hop
    rcases hop with hop | ⟨c', hop⟩
    · exact hop
    · cases hop
  · exact h.first ev hev c hc

/-- A lookup or a refresh posts nothing to the admin API. -/
theorem elevateStep_of_refreshing {r : Request} {past : List (Event (@Res d))} {op : Op d}
    (h : RefreshingOp op) : ElevateStep srv r past op := by
  rintro ⟨c, rfl⟩
  rcases h with h | ⟨c', h⟩
  · exact h.elim
  · cases h

/-- Without a post nothing is said of the answer. -/
theorem elevateDone_of_noAdminPost {r : Request} {past : List (Event (@Res d))} {resp : Response}
    (h : NoAdminPost past) : ElevateDone srv r past resp :=
  fun _ c _ hmem => absurd rfl (h _ hmem c)

/-- The call of the admin API, and what is answered after it. -/
theorem elevateUpstream_sat {ctx : Attribution} {r : Request} {sess : d.Session}
    {past : List (Event (@Res d))} (hr : dispatch srv.cfg r = .handler .elevate)
    (h : Ready r past) :
    (srv.elevateUpstream ctx r sess).Sat (ElevateStep srv r) (ElevateDone srv r) past := by
  unfold Server.elevateUpstream
  dsimp only
  split
  · refine ⟨fun _ => ⟨hr, h.admitted, h.first⟩, fun a => ?_⟩
    refine (elevateReply_body (fun past => ?_) fun past s => ?_).mono (fun _ _ hop => hop) ?_
    · exact elevateStep_of_refreshing (.inl trivial)
    · exact elevateStep_of_refreshing (.inl trivial)
    · rintro past' resp ⟨⟨l, rfl, hl⟩, hbody⟩ - c ans hmem h200
      -- the one call to the admin API is the step-up itself
      refine hbody ans ?_ h200
      rcases List.mem_append.mp hmem with hmem | hmem
      · exact absurd rfl (hl _ hmem c)
      · rcases List.mem_cons.mp hmem with hmem | hmem
        · cases hmem
          rfl
        · exact absurd rfl (h.first _ hmem c)
  · exact elevateDone_of_noAdminPost h.first

/-- The step-up handler calls the admin API once, after it was admitted. -/
theorem handleElevate_sat (hgw : srv.gateway.Lawful) {ctx : Attribution} {r : Request}
    (hr : dispatch srv.cfg r = .handler .elevate) :
    (srv.handleElevate ctx r).Sat (ElevateStep srv r) (ElevateDone srv r) [] := by
  have hfresh : ∀ limited, NoAdminPost
      [(⟨.allow .elevate (clientIP d r), limited⟩ : Event (@Res d))] := by
    intro limited ev hev c
    rw [List.mem_singleton.mp hev]
    simp
  refine Sat.bind ((Server.rateLimited_sat fun ⟨c, hc⟩ => (by cases hc)).mono (fun _ _ h => h) ?_)
  rintro past limited ⟨a, rfl, rfl⟩
  cases a with
  | some retry => exact elevateDone_of_noAdminPost (hfresh _)
  | none =>
    have hready : Ready r [(admitted .elevate (clientIP d r) : Event (@Res d))] :=
      ⟨List.mem_cons_self, hfresh _⟩
    have hlookup : (Server.currentSession r).Uses (@RefreshingOp d) :=
      Server.currentSession_uses fun op h => .inl (by cases op <;> trivial)
    refine Sat.bind ((hlookup.sat_append fun _ _ h => elevateStep_of_refreshing h).mono
      (fun _ _ h => h) ?_)
    rintro past sess ⟨l, -, hl, rfl⟩
    -- neither the lookup nor the refresh calls the admin API
    have hready := hready.append hl
    cases sess with
    | none => exact elevateDone_of_noAdminPost hready.first
    | some sess =>
      dsimp only
      split
      · exact elevateDone_of_noAdminPost hready.first
      · have hrefresh : (srv.gateway.ensureFresh (tokenRefresherAdapter srv.cfg ctx) sess).Uses
            RefreshingOp :=
          hgw.ensureFresh_uses _ _ _ (fun op h => .inl h)
            (tokenRefresherAdapter_uses fun c => .inr ⟨c, rfl⟩)
        refine Sat.bind ((hrefresh.sat_append fun _ _ h => elevateStep_of_refreshing h).mono
          (fun _ _ h => h) ?_)
        rintro past fresh ⟨l', -, hl', rfl⟩
        have hready := hready.append hl'
        cases fresh with
        | fresh sess => exact elevateUpstream_sat hr hready
        | transient => exact elevateDone_of_noAdminPost hready.first
        | fatal =>
          refine ⟨elevateStep_of_refreshing (.inl trivial), fun res => ?_⟩
          refine elevateDone_of_noAdminPost fun ev hev c => ?_
          rcases List.mem_cons.mp hev with rfl | hev
          · simp
          · exact hready.first ev hev c

/-- No other handler posts to the admin API. -/
theorem eq_elevate_of_footprint {r : Request} {e : Endpoint} {c : Call}
    (h : e.Footprint d r (.post .admin c)) : e = .elevate := by
  cases e <;> first | rfl | simp [Endpoint.Footprint, LookupOp, RefreshingOp, GatewayOp] at h

/-- Only an admitted step-up posts to the admin API, and a 200 is not copied. -/
theorem handler_elevateStep (hgw : srv.gateway.Lawful) (r : Request) :
    (srv.handler r).Sat (ElevateStep srv r) (ElevateDone srv r) [] := by
  unfold Server.handler
  cases hdisp : dispatch srv.cfg r with
  | handler e =>
    by_cases he : e = .elevate
    · subst he
      exact handleElevate_sat hgw hdisp
    -- no other endpoint posts to the admin API
    · refine ((Server.serve_uses hgw e).sat fun past op hop => ?_).mono (fun _ _ h => h)
        fun past resp _ h => ?_
      · rintro ⟨c, rfl⟩
        exact absurd (eq_elevate_of_footprint hop) he
      · rw [hdisp] at h
        cases h
        exact absurd rfl he
  | _ => exact fun h => by rw [hdisp] at h; cases h

/-! ## What a budget admits -/

/-- A budget admits an event of the key. -/
def admits (b : Budget) (key : Bytes) (e : Entry Request (@Res d)) : Bool :=
  match e.event with
  | ⟨.allow b' k, none⟩ => b' = b ∧ k = key
  | _ => false

theorem admits_allow {b b' : Budget} {key k : Bytes} {t : ℕ} {r : Request} {a : Option ℤ} :
    admits b key ⟨t, r, (⟨.allow b' k, a⟩ : Event (@Res d))⟩ =
      decide (b' = b ∧ k = key ∧ a = none) := by
  cases a <;> simp [admits]

/-- The limiter of a budget has the configured rate, and its windows account for what it has
admitted since `t₀`. -/
structure BudgetInv (cfg : Config) (t₀ : ℤ) (b : Budget) (key : Bytes) (w : World d)
    (tr : List (Entry Request (@Res d))) : Prop where
  limit : (w.limiter b).limit = cfg.rate b
  window : (w.limiter b).window = rateWindow
  spent : 0 < cfg.rate b → (w.limiter b).Spent t₀ w.clock key (tr.countP (admits b key))

/-- The sweeper and the clock keep the account of the budget. -/
theorem BudgetInv.env {cfg : Config} {t₀ : ℤ} {b : Budget} {key : Bytes} {w w' : World d}
    {tr : List (Entry Request (@Res d))} (h : BudgetInv cfg t₀ b key w tr) (henv : Env cfg w w') :
    BudgetInv cfg t₀ b key w' tr := by
  cases henv with
  | sweepSessions res hsweep =>
    have hkept := hsweep.kept
    have hlimiter := hkept.limiter b (by simp)
    exact ⟨hlimiter ▸ h.limit, hlimiter ▸ h.window, by rw [hlimiter, hkept.clock]; exact h.spent⟩
  | ambient henv =>
    cases henv with
    | tick ht => exact ⟨h.limit, h.window, fun hrate => (h.spent hrate).tick ht⟩
    | sweepPending => exact ⟨h.limit, h.window, h.spent⟩
    | sweepLimiter b' =>
      have hclock : (w.setLimiter ((w.limiter b').sweep w.clock) b').clock = w.clock := by
        cases b' <;> rfl
      by_cases hb : b = b'
      · -- what a sweep drops has expired, so it accounts for nothing any more
        subst hb
        refine ⟨?_, ?_, fun hrate => ?_⟩
        · rw [World.setLimiter_self]
          exact h.limit
        · rw [World.setLimiter_self]
          exact h.window
        · rw [World.setLimiter_self, hclock]
          exact (h.spent hrate).sweep
      · refine ⟨?_, ?_, fun hrate => ?_⟩
        · rw [World.setLimiter_of_ne hb]
          exact h.limit
        · rw [World.setLimiter_of_ne hb]
          exact h.window
        · rw [World.setLimiter_of_ne hb, hclock]
          exact h.spent hrate

/-- Operations that ask another limiter, or none. -/
theorem BudgetInv.other {cfg : Config} {t₀ : ℤ} {b : Budget} {key : Bytes} {w w' : World d}
    {tr : List (Entry Request (@Res d))} {e : Entry Request (@Res d)}
    (h : BudgetInv cfg t₀ b key w tr) (hclock : w'.clock = w.clock)
    (hlimiter : w'.limiter b = w.limiter b) (hadmits : admits b key e = false) :
    BudgetInv cfg t₀ b key w' (e :: tr) := by
  refine ⟨hlimiter ▸ h.limit, hlimiter ▸ h.window, fun hrate => ?_⟩
  rw [List.countP_cons, hadmits, hlimiter, hclock]
  exact h.spent hrate

theorem BudgetInv.step {cfg : Config} {t₀ : ℤ} {b : Budget} {key : Bytes} {w w' : World d}
    {tr : List (Entry Request (@Res d))} {e : Entry Request (@Res d)}
    (h : BudgetInv cfg t₀ b key w tr) (hstep : Answers cfg w e.event.op e.event.res w') :
    BudgetInv cfg t₀ b key w' (e :: tr) := by
  obtain ⟨t, r, op, res⟩ := e
  have hkept := hstep.kept
  cases op with
  | allow b' k =>
    by_cases hb : b' = b
    · subst hb
      obtain ⟨hres, rfl⟩ := hstep
      obtain rfl : res = ((w.limiter b').allow w.clock k).1 := hres
      obtain ⟨hlim, hwin⟩ := (w.limiter b').allow_limit w.clock k
      have hclock : (w.setLimiter ((w.limiter b').allow w.clock k).2 b').clock = w.clock := by
        cases b' <;> rfl
      refine ⟨?_, ?_, fun hrate => ?_⟩
      · rw [World.setLimiter_self, hlim, h.limit]
      · rw [World.setLimiter_self, hwin, h.window]
      · rw [World.setLimiter_self, hclock, List.countP_cons]
        rw [admits_allow]
        -- an admission of the key is one more in its window, another key's leaves it alone
        by_cases hk : key = k
        · subst hk
          simpa using (h.spent hrate).allow (h.limit ▸ hrate)
        · simpa [Ne.symm hk] using (h.spent hrate).allow_of_ne hk
    · refine h.other hkept.clock (hkept.limiter b fun key' heq => ?_) ?_
      · cases heq
        exact hb rfl
      · simp [admits_allow, hb]
  | _ => exact h.other hkept.clock (hkept.limiter b (by simp)) rfl

/-- The windows of a budget account for what it admits, in every run. -/
theorem budgetInv_of_run {t₀ : ℤ} {st : SessionStore d}
    {P : Pool (World d) Request (@Res d) Response} (hP : srv.Run (World.start srv.cfg t₀ st) P)
    (b : Budget) (key : Bytes) : BudgetInv srv.cfg t₀ b key P.shared P.trace := by
  refine Reachable.invariant_of_exec ?_ (fun w tr e w' h hstep => h.step hstep)
    (fun w tr w' h henv => h.env henv) hP
  cases b <;> exact ⟨rfl, rfl, fun _ => RateLimiter.spent_new _ _ _ _⟩

/-! ## The guarantee, and when it holds -/

/-- The gateway has let a POST of the browser's own to the step-up endpoint through: it is what
the thread has done first. -/
def LetThrough (srv : Server d) (P : Pool (World d) Request (@Res d) Response) : Prop :=
  ∃ t th l r', P.threads[t]? = some th ∧ th.job.method = ascii "POST" ∧
    th.job.url.target = elevatePath ∧
    (srv.gateway.authorize srv.cfg.allowPassthrough
      (tokenRefresherAdapter srv.cfg (Server.attribution d th.job)) th.job).Yields l (.forward r') ∧
    ∃ later, history t P.trace = later ++ l.reverse

/-- A password check made for the client `ip`. -/
def checks (srv : Server d) (ip : Bytes) (e : Entry Request (@Res d)) : Bool :=
  IsCheck srv.cfg e.event.op ∧ clientIP d e.job = ip

/-- The step-up budget and the token are kept: every check the admin upstream receives is made by
the step-up handler after its budget admitted the client, so the checks of an address are within
the budget of the windows that have begun, and no answer that carries a token is copied to a
browser. -/
structure ElevateGuarded (srv : Server d) (t₀ : ℤ)
    (P : Pool (World d) Request (@Res d) Response) : Prop where
  admitted : ∀ newer e older, P.trace = newer ++ e :: older → IsCheck srv.cfg e.event.op →
    dispatch srv.cfg e.job = .handler .elevate ∧
      admitted .elevate (clientIP d e.job) ∈ history e.tid older
  bounded : ∀ ip, 0 < srv.cfg.elevateRate → (P.trace.countP (checks srv ip) : ℤ) ≤
    srv.cfg.elevateRate * ((P.shared.clock - t₀) / rateWindow + 1)
  token_kept : ∀ t r resp, P.threads[t]? = some ⟨r, .ret resp⟩ →
    ∀ ev ∈ history t P.trace, IsCheck srv.cfg ev.op → Answered200 ev → resp.body.copied = none

section Run

variable {t₀ : ℤ} {st : SessionStore d} {P : Pool (World d) Request (@Res d) Response}

/-- With auth enabled, a check is a call of the step-up handler, or the gateway has let it
through. -/
theorem post_of_isCheck (hd : d.Lawful) (hgw : srv.gateway.Lawful)
    (hauth : srv.cfg.authEnabled = true) {w₀ : World d} (hP : srv.Run w₀ P)
    {newer older : List (Entry Request (@Res d))} {e : Entry Request (@Res d)}
    (htr : P.trace = newer ++ e :: older) (he : IsCheck srv.cfg e.event.op)
    (hthrough : ¬LetThrough srv P) : ∃ c, e.event.op = .post .admin c := by
  have hobeys := hP.obeys fun r => handler_proxied hd hgw r
  have hproxied := along_iff.mp hobeys newer e older htr
  unfold IsCheck at he
  split at he
  · rename_i c hop
    exact ⟨c, hop⟩
  · -- a proxied check: its thread has done nothing but what let it through
    rename_i out hop
    exfalso
    rw [hop] at hproxied
    obtain ⟨hesc, -, ⟨q, hq⟩, hmethod, hpath, -, hgate⟩ := hproxied
    obtain ⟨l, r', hl, hpast⟩ := hgate hauth
    have hrooted : e.job.url.path = slash :: (adminPrefix.tail ++ q) := by rw [← hq]; rfl
    have hsame : e.job.url.path = elevatePath := by
      rw [hpath, hrooted] at he
      have htail : adminPrefix.tail ++ q = elevatePath.tail := joinURLPath_inj he.2
      rw [hrooted, htail]
      rfl
    have hmem : e ∈ P.trace := htr ▸ List.mem_append_right _ List.mem_cons_self
    obtain ⟨th, hth, hjob⟩ := (hP.coherent (handler_proxied hd hgw)).job e hmem
    refine hthrough ⟨e.tid, th, l, r', hth, ?_, ?_, hjob ▸ hl, history e.tid newer ++ [e.event], ?_⟩
    · rw [hjob, ← hmethod, he.1]
    · rw [hjob, ← hesc, hsame]
      decide
    · rw [htr, history_append, history_cons_self, hpast, List.append_assoc, List.singleton_append]
  · exact he.elim

/-- A password check is the caller's only one, and was admitted. -/
theorem elevateStep_of_isCheck (hd : d.Lawful) (hgw : srv.gateway.Lawful)
    (hauth : srv.cfg.authEnabled = true) {w₀ : World d} (hP : srv.Run w₀ P)
    {newer older : List (Entry Request (@Res d))} {e : Entry Request (@Res d)}
    (htr : P.trace = newer ++ e :: older) (he : IsCheck srv.cfg e.event.op)
    (hthrough : ¬LetThrough srv P) :
    dispatch srv.cfg e.job = .handler .elevate ∧
      admitted .elevate (clientIP d e.job) ∈ history e.tid older ∧
      NoAdminPost (history e.tid older) :=
  along_iff.mp (hP.obeys (handler_elevateStep hgw)) newer e older htr
    (post_of_isCheck hd hgw hauth hP htr he hthrough)

/-- The checks of an address are at most as many as the budget admitted. -/
theorem checks_le_admits (hd : d.Lawful) (hgw : srv.gateway.Lawful)
    (hauth : srv.cfg.authEnabled = true) {w₀ : World d} (hP : srv.Run w₀ P)
    (hthrough : ¬LetThrough srv P) (ip : Bytes) :
    P.trace.countP (checks srv ip) ≤ P.trace.countP (admits .elevate ip) := by
  refine countP_le_of_once (along_iff.mpr fun newer e older htr hchecks => ?_)
  obtain ⟨hcheck, rfl⟩ : IsCheck srv.cfg e.event.op ∧ clientIP d e.job = ip := by
    simpa [checks] using hchecks
  obtain ⟨-, hadm, hfirst⟩ := elevateStep_of_isCheck hd hgw hauth hP htr hcheck hthrough
  constructor
  · -- the thread has made no check before
    intro e' he'
    obtain ⟨he', ht⟩ := mem_entries.mp he'
    by_contra hne
    have hcheck' : IsCheck srv.cfg e'.event.op := by
      simp only [checks, Bool.not_eq_false, decide_eq_true_eq] at hne
      exact hne.1
    obtain ⟨n', o', hold⟩ := List.append_of_mem he'
    have htr' : P.trace = (newer ++ e :: n') ++ e' :: o' := by rw [htr, hold]; simp
    obtain ⟨c, hc⟩ := post_of_isCheck hd hgw hauth hP htr' hcheck' hthrough
    exact hfirst e'.event (mem_history.mpr ⟨e', he', ht, rfl⟩) c hc
  · obtain ⟨e', he', ht, hev⟩ := mem_history.mp hadm
    exact ⟨e', mem_entries.mpr ⟨he', ht⟩, by simp [admits, hev]⟩

/-- In every run in which the gateway lets no POST of a browser's own to the step-up endpoint
through, the step-up budget and the token are kept. -/
theorem elevateGuarded_of_run (hd : d.Lawful) (hgw : srv.gateway.Lawful)
    (hauth : srv.cfg.authEnabled = true) (hP : srv.Run (World.start srv.cfg t₀ st) P)
    (hthrough : ¬LetThrough srv P) : ElevateGuarded srv t₀ P where
  admitted newer e older htr he := by
    obtain ⟨hr, hadm, -⟩ := elevateStep_of_isCheck hd hgw hauth hP htr he hthrough
    exact ⟨hr, hadm⟩
  bounded ip hrate := by
    -- the admissions of the address bound its checks, and the invariant bounds the admissions
    have hinv := budgetInv_of_run hP .elevate ip
    have hle := (hinv.spent hrate).le (by rw [hinv.limit]; exact hrate.le)
      (by rw [hinv.window]; decide)
    rw [hinv.limit, hinv.window] at hle
    exact (Int.ofNat_le.mpr (checks_le_admits hd hgw hauth hP hthrough ip)).trans hle
  token_kept t r resp ht ev hev hcheck h200 := by
    obtain ⟨e, he, rfl, rfl⟩ := mem_history.mp hev
    obtain ⟨newer, older, htr⟩ := List.append_of_mem he
    obtain ⟨hr, -, -⟩ := elevateStep_of_isCheck hd hgw hauth hP htr hcheck hthrough
    obtain ⟨c, hc⟩ := post_of_isCheck hd hgw hauth hP htr hcheck hthrough
    have hjob : e.job = r := hP.job_eq he ht rfl
    -- the thread has returned, so what the handler promises of its past holds
    have hdone := hP.returns (handler_elevateStep hgw) ht (hjob ▸ hr)
    obtain ⟨tid, job, op, res⟩ := e
    obtain rfl : op = .post .admin c := hc
    cases res with
    | none => exact h200.elim
    | some a => exact hdone c a hev h200

end Run

/-! ## Two runs -/

namespace Reference

/-- The session's browser posts to the step-up endpoint through the proxy. -/
def proxiedElevate : Request := sessionRequest "POST" "/api/admin/elevate"

theorem dispatch_proxiedElevate :
    dispatch server.cfg proxiedElevate = .handler .proxyWithSession := by
  decide +kernel

/-- A step-up by itself: nothing is let through, and the one check is within the budget. -/
theorem elevate_guarded : ∃ P, server.Run world P ∧ ¬LetThrough server P ∧
    P.trace.countP (checks server (ascii "192.0.2.7")) = 1 ∧ ElevateGuarded server 0 P := by
  obtain ⟨P, hP, hthreads, hcount⟩ : ∃ P, server.Run world P ∧
      P.threads = [⟨elevateRequest, .ret elevated⟩] ∧
      P.trace.countP (checks server (ascii "192.0.2.7")) = 1 := by
    obtain ⟨rl, hrun⟩ := elevateRequest_run
    refine ⟨_, Reachable.start.run elevateRequest hrun, rfl, ?_⟩
    show (elevateEvents.reverse.map fun ev => (⟨0, elevateRequest, ev⟩ : Entry _ _)).countP
      (checks server (ascii "192.0.2.7")) = 1
    decide +kernel
  have hthrough : ¬LetThrough server P := by
    -- the one thread serves `/bff/elevate`
    rintro ⟨t, th, l, r', ht, -, htarget, -⟩
    rw [hthreads] at ht
    obtain rfl : th = ⟨elevateRequest, .ret elevated⟩ := by
      simpa using List.mem_of_getElem? ht
    exact absurd htarget (by decide +kernel)
  exact ⟨P, hP, hthrough, hcount,
    elevateGuarded_of_run lawful gateway_lawful (by decide) hP hthrough⟩

/-- The same POST through the proxy: the upstream checks the password, no budget was asked, and
the answer with the token goes to the browser. -/
theorem elevate_proxied : ∃ P resp, server.Run world P ∧
    P.threads = [⟨proxiedElevate, .ret resp⟩] ∧ resp.body.copied = some elevateAnswer ∧
    (∀ e ∈ P.trace, ∀ b key, e.event.op ≠ .allow b key) ∧ ¬ElevateGuarded server 0 P := by
  obtain ⟨out, hout⟩ : ∃ out,
      (adminProxy deps server.cfg (Server.attribution deps proxiedElevate)).outgoing
        (withBearer proxiedElevate session.tokens.accessToken) = some out :=
    Option.isSome_iff_exists.mp (by decide +kernel)
  have hcheck : IsCheck server.cfg (Op.proxy (d := deps) .admin out) := by
    obtain ⟨hmethod, hpath⟩ := @adminProxy_sent deps server _ _ lawful out hout
    exact ⟨hmethod, hpath⟩
  obtain ⟨l, w', hrun, hallow⟩ : ∃ l w', Exec (Answers server.cfg) world
      (server.handler proxiedElevate) (l ++ [⟨.proxy .admin out, some elevateAnswer⟩])
      (.ret (copyAnswer elevateAnswer)) w' ∧ ∀ ev ∈ l, ∀ b key, ev.op ≠ .allow b key := by
    rw [Server.handler_of_dispatch dispatch_proxiedElevate]
    exact ⟨_, _, Exec.bind (authorize_run (cookie_sessionRequest "POST" "/api/admin/elevate")
      world_get (matchCSRF_sessionRequest "POST" "/api/admin/elevate") _ _)
      (serveProxy_run hout elevateAnswer), by simp⟩
  refine ⟨_, _, Reachable.start.run proxiedElevate hrun, rfl, rfl, ?_, fun h => ?_⟩
  · intro e he b key hop
    simp only [Pool.start, List.reverse_append, List.append_nil, List.mem_map, List.mem_append,
      List.mem_reverse, List.mem_singleton] at he
    obtain ⟨ev, rfl | hev, rfl⟩ := he
    · cases hop
    · exact hallow ev hev b key hop
  · -- the newest entry is a check that the step-up handler did not make
    have hdisp := (h.admitted [] ⟨0, proxiedElevate, ⟨.proxy .admin out, some elevateAnswer⟩⟩ _
      (by simp [Pool.start]; rfl) hcheck).1
    rw [dispatch_proxiedElevate] at hdisp
    cases hdisp

end Reference

end Bff
