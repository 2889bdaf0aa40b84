import OAuth2Monitoring.Bff.Limiter
import OAuth2Monitoring.Bff.Reference

/-!
# What the `Retry-After` of a 429 is worth

The limiters of a running server are used as `Bff.Limiter` has it: by the handlers' calls and the
sweeper, at times that do not decrease. A refused request is told the rest of its window in whole
seconds, rounded down, and at least one. When the rest is more than a second and no whole number of
seconds, the window is still open after the wait.

## Main definitions

* `Quiet`: the state changes, and the budget is not asked for a key.
* `RetryAdmitted`: a caller that waits some seconds is let through.

## Main results

* `admitted_of_run`: in every run, what a limiter lets through in a minute is bounded.
* `retryAdmitted_iff`: the wait is long enough exactly when nothing was cut off.
-/

namespace Bff

open GoStd Interleaving Interleaving.Prog RateLimiter

section

variable {d : Deps} {cfg : Config} {w w' : World d} {b : Budget} {key : Bytes}

/-! ## The limiters of a run -/

/-- An operation uses the limiter of a budget once, or leaves it alone. -/
theorem Answers.limiter {op : Op d} {res : Res op} (h : Answers cfg w op res w') (b : Budget) :
    (∃ key, op = .allow b key ∧ w'.limiter b = (w.limiter b).perform ⟨w.clock, .allow key⟩) ∨
      (∀ key, op ≠ .allow b key) ∧ w'.limiter b = w.limiter b := by
  by_cases hop : ∃ key, op = .allow b key
  · obtain ⟨key, rfl⟩ := hop
    obtain ⟨-, rfl⟩ := h
    exact .inl ⟨key, rfl, World.setLimiter_self _ _⟩
  · have hop : ∀ key, op ≠ .allow b key := fun key hkey => hop ⟨key, hkey⟩
    exact .inr ⟨hop, h.kept.limiter b hop⟩

/-- Between the operations the clock may advance, and a limiter may be swept. -/
theorem Env.limiter (h : Env cfg w w') (b : Budget) :
    w.clock ≤ w'.clock ∧ (w'.limiter b = w.limiter b ∨
      w'.clock = w.clock ∧ w'.limiter b = (w.limiter b).perform ⟨w.clock, .sweep⟩) := by
  cases h with
  | sweepSessions res h => exact ⟨h.kept.clock.ge, .inl (h.kept.limiter b (by simp))⟩
  | ambient h =>
    cases h with
    | tick ht => exact ⟨ht, .inl (by cases b <;> rfl)⟩
    | sweepPending => exact ⟨le_rfl, .inl (by cases b <;> rfl)⟩
    | sweepLimiter b' =>
      have hclock : (w.setLimiter ((w.limiter b').sweep w.clock) b').clock = w.clock := by
        cases b' <;> rfl
      -- a sweep of the other limiter leaves this one alone
      by_cases hb : b = b'
      · subst hb
        exact ⟨hclock.ge, .inr ⟨hclock, World.setLimiter_self _ _⟩⟩
      · exact ⟨hclock.ge, .inl (World.setLimiter_of_ne hb _)⟩

/-- The answer an operation got from the limiter of `b` for `key`. -/
def answerFor (b : Budget) (key : Bytes) : Event (@Res d) → Option (Option ℤ)
  | ⟨.allow b' k, res⟩ => if b' = b ∧ k = key then some res else none
  | _ => none

theorem answerFor_of_ne {op : Op d} (h : ∀ k, op ≠ .allow b k) (res : Res op) :
    answerFor b key ⟨op, res⟩ = none := by
  cases op with
  | allow b' k =>
    refine if_neg fun hb => h k ?_
    rw [hb.1]
  | _ => rfl

/-- The limiter of a budget has been used as `es` says, up to now, and has answered the operations
of the trace. -/
structure Used (cfg : Config) (b : Budget) (w : World d) (tr : List (Entry Request (@Res d)))
    (es : List Timed) : Prop where
  /-- The uses follow one another in time. -/
  ordered : Ordered es
  /-- None of them is still to come. -/
  past : ∀ e ∈ es, e.time ≤ w.clock
  /-- They have made of a new limiter what it is now. -/
  limiter : w.limiter b = (RateLimiter.new (cfg.rate b) rateWindow).after es
  /-- They were answered what the trace says. -/
  answered : ∀ key, (answers key (RateLimiter.new (cfg.rate b) rateWindow) es).map Prod.snd =
    tr.reverse.filterMap fun e => answerFor b key e.event

section Used

variable {tr tr' : List (Entry Request (@Res d))} {es : List Timed}

/-- The limiter is used once more. -/
theorem Used.snoc (h : Used cfg b w tr es) {a : Action} (hclock : w'.clock = w.clock)
    (hlimiter : w'.limiter b = (w.limiter b).perform ⟨w.clock, a⟩)
    (hans : ∀ key, tr'.reverse.filterMap (fun e => answerFor b key e.event) =
      tr.reverse.filterMap (fun e => answerFor b key e.event) ++
        (answers key (w.limiter b) [⟨w.clock, a⟩]).map Prod.snd) :
    Used cfg b w' tr' (es ++ [⟨w.clock, a⟩]) where
  -- the new action is at the time of the clock, and none of the others is later
  ordered := by
    refine ordered_append.mpr ⟨h.ordered, List.pairwise_singleton _ _, fun e he e' he' => ?_⟩
    obtain rfl := List.mem_singleton.mp he'
    exact h.past e he
  past e he := by
    rw [hclock]
    rcases List.mem_append.mp he with he | he
    · exact h.past e he
    · obtain rfl := List.mem_singleton.mp he
      exact le_rfl
  limiter := by rw [hlimiter, h.limiter, after_append, after_cons, after_nil]
  answered key := by rw [hans, answers_append, List.map_append, h.answered, h.limiter]

/-- Something else happens. -/
theorem Used.later (h : Used cfg b w tr es) (hclock : w.clock ≤ w'.clock)
    (hlimiter : w'.limiter b = w.limiter b)
    (hans : ∀ key, tr'.reverse.filterMap (fun e => answerFor b key e.event) =
      tr.reverse.filterMap fun e => answerFor b key e.event) : Used cfg b w' tr' es :=
  ⟨h.ordered, fun e he => (h.past e he).trans hclock, hlimiter.trans h.limiter,
    fun key => (h.answered key).trans (hans key).symm⟩

/-- An operation is a use of the limiter, or none. -/
theorem Used.exec (h : Used cfg b w tr es) (e : Entry Request (@Res d))
    (hexec : Answers cfg w e.event.op e.event.res w') : ∃ es', Used cfg b w' (e :: tr) es' := by
  obtain ⟨tid, job, op, res⟩ := e
  have hclock : w'.clock = w.clock := hexec.kept.clock
  rcases hexec.limiter b with ⟨k, rfl, hlimiter⟩ | ⟨hop, hlimiter⟩
  · -- the limiter is asked, and its answer is the next one of the trace
    obtain ⟨hres, -⟩ := hexec
    refine ⟨_, h.snoc hclock hlimiter fun key => ?_⟩
    rw [List.reverse_cons, List.filterMap_append]
    congr 1
    by_cases hk : k = key
    · subst hk
      simp only [List.filterMap_cons, answerFor, answers, if_true, and_self, List.filterMap_nil,
        List.map_cons, List.map_nil]
      exact congrArg (fun res => [res]) hres
    · simp [answerFor, answers, hk]
  · refine ⟨es, h.later hclock.ge hlimiter fun key => ?_⟩
    rw [List.reverse_cons, List.filterMap_append]
    simp [answerFor_of_ne hop]

theorem Used.env (h : Used cfg b w tr es) (henv : Env cfg w w') : ∃ es', Used cfg b w' tr es' := by
  obtain ⟨hclock, hlimiter | ⟨hclock', hlimiter⟩⟩ := henv.limiter b
  · exact ⟨es, h.later hclock hlimiter fun _ => rfl⟩
  · exact ⟨_, h.snoc hclock' hlimiter fun key => by simp [answers]⟩

/-- In a run of the server, a budget's limiter is a new limiter that was used in the order of time,
and has answered the handlers as such a limiter does. -/
theorem limiter_of_run {srv : Server d} {t : ℤ} {st : SessionStore d}
    {P : Pool (World d) Request (@Res d) Response}
    (hP : srv.Run (World.start srv.cfg t st) P) (b : Budget) :
    ∃ es, Used srv.cfg b P.shared P.trace es := by
  refine Reachable.invariant_of_exec (I := fun w tr => ∃ es, Used srv.cfg b w tr es) ?_
    (fun w tr e w' ⟨es, h⟩ hexec => h.exec e hexec) (fun w tr w' ⟨es, h⟩ henv => h.env henv) hP
  exact ⟨[], List.Pairwise.nil, by simp, by cases b <;> rfl, fun key => rfl⟩

/-- In every run of the server, of the requests a client makes of a budget fewer than twice the rate
are let through in any span of a window: the answers of the trace are those of a limiter that was
used so. -/
theorem admitted_of_run {srv : Server d} {t : ℤ} {st : SessionStore d}
    {P : Pool (World d) Request (@Res d) Response}
    (hP : srv.Run (World.start srv.cfg t st) P) (b : Budget) (hrate : 1 ≤ srv.cfg.rate b) :
    ∃ es, Used srv.cfg b P.shared P.trace es ∧ ∀ (key : Bytes) (t₁ : ℤ),
      ((RateLimiter.admitted key (RateLimiter.new (srv.cfg.rate b) rateWindow) es).countP
        fun s => t₁ ≤ s ∧ s < t₁ + rateWindow : ℤ) ≤ 2 * srv.cfg.rate b - 1 := by
  have hwindow : (0 : ℤ) < rateWindow := by decide
  obtain ⟨es, hused⟩ := limiter_of_run hP b
  exact ⟨es, hused, fun key t₁ => countP_span_le hrate hwindow hused.ordered t₁⟩

end Used

/-! ## Waiting -/

/-- One step of the system that does not ask the budget for the key. -/
inductive QuietStep (cfg : Config) (b : Budget) (key : Bytes) : World d → World d → Prop
  | exec {w w' : World d} {op : Op d} {res : Res op} (hexec : Answers cfg w op res w')
      (hop : op ≠ .allow b key) : QuietStep cfg b key w w'
  | env {w w' : World d} (henv : Env cfg w w') : QuietStep cfg b key w w'

/-- Any number of such steps. -/
abbrev Quiet (cfg : Config) (b : Budget) (key : Bytes) : World d → World d → Prop :=
  Relation.ReflTransGen (QuietStep cfg b key)

/-- A step that does not ask for the key keeps the limiter like what it was, for the key. -/
theorem QuietStep.alike {rl : RateLimiter} (hstep : QuietStep cfg b key w w')
    (h : Alike key w.clock (w.limiter b) rl) :
    w.clock ≤ w'.clock ∧ Alike key w'.clock (w'.limiter b) rl := by
  cases hstep with
  | @exec op res hexec hop =>
    have hclock : w'.clock = w.clock := hexec.kept.clock
    refine ⟨hclock.ge, ?_⟩
    rw [hclock]
    rcases hexec.limiter b with ⟨k, rfl, hlimiter⟩ | ⟨-, hlimiter⟩
    · rw [hlimiter]
      refine h.perform (e := ⟨w.clock, .allow k⟩) le_rfl fun hk => hop ?_
      rw [Action.allow.inj hk]
    · rwa [hlimiter]
  -- time passes, or the limiter is swept
  | env henv =>
    obtain ⟨hclock, hlimiter | ⟨hclock', hlimiter⟩⟩ := henv.limiter b
    · rw [hlimiter]
      exact ⟨hclock, h.mono hclock⟩
    · rw [hlimiter, hclock']
      exact ⟨le_rfl, h.perform (e := ⟨w.clock, .sweep⟩) le_rfl (by simp)⟩

/-- After quiet steps the limiter answers the key as it did. -/
theorem Quiet.alike (h : Quiet cfg b key w w') :
    w.clock ≤ w'.clock ∧ Alike key w'.clock (w'.limiter b) (w.limiter b) := by
  induction h with
  | refl => exact ⟨le_rfl, rfl, rfl, .inl rfl⟩
  | tail _ hstep ih =>
    obtain ⟨hclock, halike⟩ := hstep.alike ih.2
    exact ⟨ih.1.trans hclock, halike⟩

/-- A caller with this key that waits `secs` seconds, the budget not being asked for the key
meanwhile, and then tries again is let through. -/
def RetryAdmitted (cfg : Config) (w : World d) (b : Budget) (key : Bytes) (secs : ℤ) : Prop :=
  ∀ (w₁ : World d) (r : Request) (l : List (Event (@Res d))) (limited : Option Response)
    (w₂ : World d), Quiet cfg b key w w₁ → w.clock + secs * second ≤ w₁.clock →
    clientIP d r = key → Exec (Answers cfg) w₁ (Server.rateLimited d b r) l (.ret limited) w₂ →
    limited = none

/-- All outcomes of asking a budget. -/
theorem rateLimited_exec {r : Request} {l : List (Event (@Res d))} {limited : Option Response}
    (hrun : Exec (Answers cfg) w (Server.rateLimited d b r) l (.ret limited) w') :
    limited = ((w.limiter b).allow w.clock (clientIP d r)).1.map Server.tooManyRequests ∧
      w' = w.setLimiter ((w.limiter b).allow w.clock (clientIP d r)).2 b := by
  obtain ⟨res, l', w₁, rfl, ⟨hres, rfl⟩, hrest⟩ := exec_call_iff.mp hrun
  rw [← hres]
  -- the request goes on, or is answered here; either way the limiter is as `Allow` left it
  cases res with
  | none =>
    obtain ⟨-, hlimited, rfl⟩ := exec_ret_iff.mp hrest
    cases hlimited
    exact ⟨rfl, rfl⟩
  | some retry =>
    obtain ⟨-, hlimited, rfl⟩ := exec_ret_iff.mp hrest
    cases hlimited
    exact ⟨rfl, rfl⟩

/-- The wait given in whole seconds, and at least one, lasts as long as it has to when nothing was
cut off. -/
theorem le_seconds_iff {retry : ℤ} (hretry : 0 < retry) :
    retry ≤ max 1 (retry / second) * second ↔ retry ≤ second ∨ second ∣ retry := by
  unfold second
  omega

/-- A full window is over for a caller when it has rolled over. -/
theorem allow_eq_none_iff {rl : RateLimiter} {c : Counter} (hc : rl.counts key = some c)
    (hfull : rl.limit ≤ c.n) (hpos : 0 < rl.limit) (now : ℤ) :
    (rl.allow now key).1 = none ↔ c.reset ≤ now := by
  have hcases := rl.allow_cases now key
  generalize rl.allow now key = out at hcases
  -- a counter that is full admits a call by opening a new window only
  cases hcases with
  | disabled hdis => omega
  | counted c' hc' _ hfree =>
    obtain rfl := Option.some.inj (hc.symm.trans hc')
    omega
  | refused c' hc' hnow _ _ =>
    obtain rfl := Option.some.inj (hc.symm.trans hc')
    exact iff_of_false (by simp) (by omega)
  | opened hold _ => exact iff_of_true rfl (hold c hc)

/-- A caller with a full window is let through after `secs` seconds when the window has rolled over
by then. -/
theorem retryAdmitted_iff_le {c : Counter} (hc : (w.limiter b).counts key = some c)
    (hfull : (w.limiter b).limit ≤ c.n) (hpos : 0 < (w.limiter b).limit)
    (hclock : w'.clock = w.clock) (hlimiter : w'.limiter b = w.limiter b) {secs : ℤ}
    (hsecs : 0 ≤ secs) (hkey : ∃ r, clientIP d r = key) :
    RetryAdmitted cfg w' b key secs ↔ c.reset - w.clock ≤ secs * second := by
  have hwait : c.reset - w.clock ≤ secs * second ↔ c.reset ≤ w.clock + secs * second := by omega
  rw [hwait]
  constructor
  · -- try again at the earliest: the limiter is what it was
    intro hadmitted
    obtain ⟨r, rfl⟩ := hkey
    have htick : Env cfg w' { w' with clock := w.clock + secs * second } := by
      refine .ambient (.tick w' ?_)
      rw [hclock]
      have : 0 ≤ secs * second := Int.mul_nonneg hsecs (by decide)
      omega
    generalize hw₁ : ({ w' with clock := w.clock + secs * second } : World d) = w₁ at htick
    obtain ⟨l, limited, w₂, hrun⟩ :=
      exists_exec (exists_answers cfg) (Server.rateLimited d b r) w₁
    have hnone := hadmitted w₁ r l limited w₂ (.single (.env htick))
      (by rw [← hw₁, hclock]) rfl hrun
    rw [(rateLimited_exec hrun).1, Option.map_eq_none_iff] at hnone
    have hlimiter₁ : w₁.limiter b = w.limiter b := by
      rw [← hw₁, ← hlimiter]
      cases b <;> rfl
    have hclock₁ : w₁.clock = w.clock + secs * second := by rw [← hw₁]
    rw [hlimiter₁, hclock₁] at hnone
    exact (allow_eq_none_iff hc hfull hpos _).mp hnone
  · intro hover w₁ r l limited w₂ hquiet hlater hr hrun
    obtain ⟨-, halike⟩ := Quiet.alike hquiet
    rw [(rateLimited_exec hrun).1, hr, halike.allow.1, hlimiter,
      (allow_eq_none_iff hc hfull hpos _).mpr (by rw [hclock] at hlater; omega)]
    rfl

/-- A request over its budget is answered 429 and told to wait for `secs` seconds. A caller that
does is let through exactly when its window ended within one second or after a whole number of
seconds. -/
theorem retryAdmitted_iff {r : Request} {l : List (Event (@Res d))} {resp : Response}
    (hrun : Exec (Answers cfg) w (Server.rateLimited d b r) l (.ret (some resp)) w') :
    ∃ c secs, (w.limiter b).counts (clientIP d r) = some c ∧ resp.status = 429 ∧
      resp.header.get (ascii "Retry-After") = ascii (toString secs) ∧
      (RetryAdmitted cfg w' b (clientIP d r) secs ↔
        c.reset - w.clock ≤ second ∨ second ∣ c.reset - w.clock) := by
  obtain ⟨hresp, rfl⟩ := rateLimited_exec hrun
  have hcases := (w.limiter b).allow_cases w.clock (clientIP d r)
  generalize (w.limiter b).allow w.clock (clientIP d r) = out at hcases hresp
  -- of the four things `allow` can do, only a refusal gives a response
  cases hcases with
  | disabled _ => cases hresp
  | counted _ _ _ _ => cases hresp
  | opened _ _ => cases hresp
  | refused c hc hnow hfull hpos =>
    cases hresp
    have hretry : 0 < c.reset - w.clock := by omega
    refine ⟨c, max 1 ((c.reset - w.clock) / second), hc, rfl, ?_, ?_⟩
    · show Header.get (Header.set _ _ _) _ = _
      rw [Header.get, Header.set_self]
      rfl
    · rw [← le_seconds_iff hretry]
      exact retryAdmitted_iff_le hc hfull hpos (by cases b <;> rfl) (World.setLimiter_self _ _)
        (by omega) ⟨r, rfl⟩

end

/-! ## Two runs -/

namespace Reference

/-- The BFF with a budget of one step-up a minute. -/
def oneElevate : Server deps := ⟨{ cfg with elevateRate := 1 }, gateway⟩

/-- A step-up without a session. -/
def anonymousElevate : Request := request "POST" "/bff/elevate" "" []

theorem dispatch_anonymousElevate :
    dispatch oneElevate.cfg anonymousElevate = .handler .elevate := by
  decide +kernel

/-- The caller's window after its one step-up at time 0. -/
def spent : RateLimiter :=
  (RateLimiter.new 1 rateWindow).setCount (clientIP deps anonymousElevate) ⟨1, 0 + rateWindow⟩

/-- At any time of the first minute the budget is spent. -/
theorem spent_run {t : ℤ} (ht : 0 ≤ t) : ∃ P,
    oneElevate.Run (World.start oneElevate.cfg 0 store) P ∧ P.shared.clock = t ∧
      P.shared.limiter .elevate = spent := by
  have hallow : ((World.start oneElevate.cfg 0 store).limiter .elevate).allow 0
      (clientIP deps anonymousElevate) = (none, spent) :=
    allow_of_opens (fun c hc => by cases hc) (by decide)
  have hfirst : ∃ q, Exec (Answers oneElevate.cfg) (World.start oneElevate.cfg 0 store)
      (oneElevate.handler anonymousElevate)
      [⟨.allow .elevate (clientIP deps anonymousElevate), none⟩]
      q ((World.start oneElevate.cfg 0 store).setLimiter spent .elevate) := by
    rw [Server.handler_of_dispatch dispatch_anonymousElevate]
    exact ⟨_, Exec.bind (rateLimited_run (b := .elevate) hallow) (.refl _ _)⟩
  obtain ⟨q, hfirst⟩ := hfirst
  have hrun : oneElevate.Run (World.start oneElevate.cfg 0 store) _ :=
    Reachable.start.run anonymousElevate hfirst
  exact ⟨_, hrun.step (.env _ (.ambient (.tick _ ht))), rfl, rfl⟩

/-- Another request in the first minute is refused. -/
theorem refused_run {w : World deps} {t : ℤ} (hclock : w.clock = t)
    (hspent : w.limiter .elevate = spent) (ht : t < rateWindow) : ∃ l,
      Exec (Answers oneElevate.cfg) w (Server.rateLimited deps .elevate anonymousElevate) l
        (.ret (some (Server.tooManyRequests (rateWindow - t)))) (w.setLimiter spent .elevate) := by
  have hallow : (w.limiter .elevate).allow w.clock (clientIP deps anonymousElevate) =
      (some (rateWindow - t), spent) := by
    rw [hspent, hclock, RateLimiter.allow, if_neg (by decide)]
    simp only [spent, setCount_self, zero_add, if_pos ht]
    rfl
  refine ⟨[⟨.allow .elevate (clientIP deps anonymousElevate), some (rateWindow - t)⟩],
    exec_call_iff.mpr ⟨some (rateWindow - t), [], _, rfl, ⟨?_, rfl⟩, ?_⟩⟩
  · rw [hallow]
  · rw [hallow]
    exact .refl _ _

/-- Half a minute before its window ends, the caller is told to wait for 30 seconds, and let through
after that. -/
theorem retry_admitted : ∃ P l w' resp, oneElevate.Run (World.start oneElevate.cfg 0 store) P ∧
    Exec (Answers oneElevate.cfg) P.shared (Server.rateLimited deps .elevate anonymousElevate) l
      (.ret (some resp)) w' ∧
    ∃ secs, resp.header.get (ascii "Retry-After") = ascii (toString secs) ∧
      RetryAdmitted oneElevate.cfg w' .elevate (clientIP deps anonymousElevate) secs := by
  obtain ⟨P, hP, hclock, hspent⟩ := spent_run (t := 30 * second) (by decide)
  obtain ⟨l, hrun⟩ := refused_run hclock hspent (by decide)
  refine ⟨P, l, _, _, hP, hrun, ?_⟩
  obtain ⟨c, secs, hc, -, hheader, hiff⟩ := retryAdmitted_iff hrun
  refine ⟨secs, hheader, hiff.mpr (.inr ?_)⟩
  rw [hspent, spent, setCount_self] at hc
  cases hc
  rw [hclock]
  decide

/-- One and a half seconds before its window ends, the caller is told to wait for one second, and
refused after that. -/
theorem retry_refused : ∃ P l w' resp, oneElevate.Run (World.start oneElevate.cfg 0 store) P ∧
    Exec (Answers oneElevate.cfg) P.shared (Server.rateLimited deps .elevate anonymousElevate) l
      (.ret (some resp)) w' ∧
    resp.status = 429 ∧ resp.header.get (ascii "Retry-After") = ascii (toString (1 : ℤ)) ∧
      ¬RetryAdmitted oneElevate.cfg w' .elevate (clientIP deps anonymousElevate) 1 := by
  obtain ⟨P, hP, hclock, hspent⟩ := spent_run (t := 58500000000) (by decide)
  obtain ⟨l, hrun⟩ := refused_run hclock hspent (by decide)
  refine ⟨P, l, _, _, hP, hrun, rfl, by decide +kernel, ?_⟩
  have hc : (P.shared.limiter .elevate).counts (clientIP deps anonymousElevate) =
      some ⟨1, 0 + rateWindow⟩ := by
    rw [hspent, spent, setCount_self]
  have hone : (P.shared.limiter .elevate).limit = 1 := by
    rw [hspent]
    rfl
  have hlimiter : (P.shared.setLimiter spent .elevate).limiter .elevate =
      P.shared.limiter .elevate := by
    rw [World.setLimiter_self, hspent]
  have hkept : (P.shared.setLimiter spent .elevate).clock = P.shared.clock := rfl
  -- the wait ends half a second before the window
  intro hadmitted
  have hle := (retryAdmitted_iff_le hc (by rw [hone]; decide) (by rw [hone]; decide) hkept hlimiter
    (by decide) ⟨anonymousElevate, rfl⟩).mp hadmitted
  rw [hclock] at hle
  exact absurd hle (by decide)

end Reference

end Bff
