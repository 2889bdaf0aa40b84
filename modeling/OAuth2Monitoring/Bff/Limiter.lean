import OAuth2Monitoring.Bff.RateLimit
import Mathlib.Data.List.Induction

/-!
# Runs of a limiter

A limiter is used by `allow` calls for any keys and by sweeps, at times that do not decrease. What
it answers for one key is about that key alone: the key's counter is opened by a call that finds
none or an expired one, counts until the budget is spent, and is then refused until it expires. A
sweep drops what such a call would replace.

## Main definitions

* `Timed`, `perform`, `after`: the uses of a limiter, and the limiter after them.
* `answers`, `admitted`: the answers a key has got, and the times of its admitted calls.
* `Opens`: a call for the key would open a window.

## Main results

* `windowBounds_of_run`: how many calls of a key are admitted, and why a call is refused.
* `answers_eq_of_callTimes`: the answers of a key depend on the calls of that key only.
-/

namespace Bff

open GoStd

namespace RateLimiter

/-! ## Uses of a limiter -/

/-- What a limiter is used for. -/
inductive Action
  | allow (key : Bytes)
  | sweep
  deriving DecidableEq

/-- A use of a limiter, at a time. -/
structure Timed where
  time : ℤ
  action : Action

/-- The limiter after one use. -/
def perform (rl : RateLimiter) (e : Timed) : RateLimiter :=
  match e.action with
  | .allow key => (rl.allow e.time key).2
  | .sweep => rl.sweep e.time

/-- The limiter after several uses. -/
def after (rl : RateLimiter) (es : List Timed) : RateLimiter := es.foldl perform rl

/-- The clock does not go back. -/
def Ordered (es : List Timed) : Prop := es.Pairwise fun e e' => e.time ≤ e'.time

/-- The answers the calls for `key` get, with their times. -/
def answers (key : Bytes) : RateLimiter → List Timed → List (ℤ × Option ℤ)
  | _, [] => []
  | rl, e :: es =>
    if e.action = .allow key then
      (e.time, (rl.allow e.time key).1) :: answers key (rl.perform e) es
    else answers key (rl.perform e) es

/-- The times of the admitted calls for `key`. -/
def admitted (key : Bytes) (rl : RateLimiter) (es : List Timed) : List ℤ :=
  ((answers key rl es).filter fun a => a.2 = none).map Prod.fst

/-- A call for `key` would open a window: there is none, or it has expired. -/
def Opens (rl : RateLimiter) (now : ℤ) (key : Bytes) : Prop :=
  ∀ c, rl.counts key = some c → c.reset ≤ now

@[simp]
theorem after_nil (rl : RateLimiter) : rl.after [] = rl := rfl

@[simp]
theorem after_cons (rl : RateLimiter) (e : Timed) (es : List Timed) :
    rl.after (e :: es) = (rl.perform e).after es := rfl

theorem after_append (rl : RateLimiter) (es es' : List Timed) :
    rl.after (es ++ es') = (rl.after es).after es' := List.foldl_append ..

theorem answers_append (key : Bytes) (rl : RateLimiter) (es es' : List Timed) :
    answers key rl (es ++ es') = answers key rl es ++ answers key (rl.after es) es' := by
  induction es generalizing rl with
  | nil => rfl
  | cons e es ih =>
    simp only [List.cons_append, answers, ih, after_cons]
    split <;> rfl

theorem admitted_append (key : Bytes) (rl : RateLimiter) (es es' : List Timed) :
    admitted key rl (es ++ es') = admitted key rl es ++ admitted key (rl.after es) es' := by
  simp [admitted, answers_append]

/-! ## One use, seen from a key -/

section One

variable {rl : RateLimiter} {e : Timed} {key : Bytes}

@[simp]
theorem perform_limit : (rl.perform e).limit = rl.limit := by
  unfold perform
  cases e.action with
  | sweep => rfl
  | allow k => exact (rl.allow_limit e.time k).1

@[simp]
theorem perform_window : (rl.perform e).window = rl.window := by
  unfold perform
  cases e.action with
  | sweep => rfl
  | allow k => exact (rl.allow_limit e.time k).2

variable (rl) in
/-- A use that is no call for the key leaves the key's counter alone, or drops it because it has
expired. -/
theorem counts_perform_of_ne (h : e.action ≠ .allow key) :
    (rl.perform e).counts key = rl.counts key ∨
      rl.Opens e.time key ∧ (rl.perform e).counts key = none := by
  unfold perform
  cases haction : e.action with
  | allow k =>
    have hk : key ≠ k := by
      rintro rfl
      exact h haction
    exact .inl (rl.allow_counts_of_ne e.time hk)
  | sweep =>
    -- a sweep keeps the counters whose window has not ended
    show (rl.counts key).filter (fun c => e.time < c.reset) = rl.counts key ∨ _ ∧
      (rl.counts key).filter (fun c => e.time < c.reset) = none
    cases hc : rl.counts key with
    | none => exact .inl rfl
    | some c =>
      by_cases hlt : e.time < c.reset
      · exact .inl (by simp [hlt])
      · refine .inr ⟨fun c' hc' => ?_, by simpa using Int.not_lt.mp hlt⟩
        rw [hc] at hc'
        cases hc'
        omega

theorem perform_allow (h : e.action = .allow key) : rl.perform e = (rl.allow e.time key).2 := by
  rw [perform, h]

theorem answers_cons_allow (h : e.action = .allow key) (es : List Timed) :
    answers key rl (e :: es) = (e.time, (rl.allow e.time key).1) ::
      answers key (rl.allow e.time key).2 es := by
  rw [answers, if_pos h, perform_allow h]

theorem answers_cons_of_ne (h : e.action ≠ .allow key) (es : List Timed) :
    answers key rl (e :: es) = answers key (rl.perform e) es := by
  rw [answers, if_neg h]

theorem admitted_cons_of_ne (h : e.action ≠ .allow key) (es : List Timed) :
    admitted key rl (e :: es) = admitted key (rl.perform e) es := by
  rw [admitted, answers_cons_of_ne h, admitted]

theorem admitted_cons_none (h : e.action = .allow key) {rl' : RateLimiter}
    (hans : rl.allow e.time key = (none, rl')) (es : List Timed) :
    admitted key rl (e :: es) = e.time :: admitted key rl' es := by
  rw [admitted, answers_cons_allow h, hans]
  rfl

theorem admitted_cons_some (h : e.action = .allow key) {rl' : RateLimiter} {retry : ℤ}
    (hans : rl.allow e.time key = (some retry, rl')) (es : List Timed) :
    admitted key rl (e :: es) = admitted key rl' es := by
  rw [admitted, answers_cons_allow h, hans]
  rfl

/-- A call is admitted at the time of some use. -/
theorem exists_of_mem_admitted {es : List Timed} {t : ℤ} (h : t ∈ admitted key rl es) :
    ∃ e ∈ es, e.time = t := by
  induction es generalizing rl with
  | nil => cases h
  | cons e es ih =>
    by_cases haction : e.action = .allow key
    -- a call that was let through is one of the admitted times
    · rcases hans : rl.allow e.time key with ⟨_ | retry, rl'⟩
      · rw [admitted_cons_none haction hans, List.mem_cons] at h
        rcases h with rfl | h
        · exact ⟨e, List.mem_cons_self, rfl⟩
        · obtain ⟨e', he', ht⟩ := ih h
          exact ⟨e', List.mem_cons_of_mem _ he', ht⟩
      · rw [admitted_cons_some haction hans] at h
        obtain ⟨e', he', ht⟩ := ih h
        exact ⟨e', List.mem_cons_of_mem _ he', ht⟩
    · rw [admitted_cons_of_ne haction] at h
      obtain ⟨e', he', ht⟩ := ih h
      exact ⟨e', List.mem_cons_of_mem _ he', ht⟩

end One

/-! ## What a window admits -/

section Window

variable {rl : RateLimiter} {key : Bytes} {es : List Timed}

theorem ordered_cons {e : Timed} : Ordered (e :: es) ↔ (∀ e' ∈ es, e.time ≤ e'.time) ∧ Ordered es :=
  List.pairwise_cons

/-- Nothing is admitted before the first use. -/
theorem countP_admitted_eq_zero {t : ℤ} (h : ∀ e ∈ es, t ≤ e.time) :
    (admitted key rl es).countP (· < t) = 0 := by
  rw [List.countP_eq_zero]
  intro s hs
  obtain ⟨e, he, rfl⟩ := exists_of_mem_admitted hs
  have := h e he
  simp only [decide_eq_true_eq]
  omega

/-- In the window of a counter, what has been counted and what is still admitted are within the
limit. -/
theorem countP_admitted_window (hes : Ordered es) {c : Counter} (hc : rl.counts key = some c)
    (hn : (c.n : ℤ) ≤ rl.limit) (hpos : 0 < rl.limit) :
    c.n + ((admitted key rl es).countP (· < c.reset) : ℤ) ≤ rl.limit := by
  induction es generalizing rl c with
  | nil => simpa [admitted, answers] using hn
  | cons e es ih =>
    obtain ⟨hlater, hes⟩ := ordered_cons.mp hes
    by_cases hover : c.reset ≤ e.time
    · -- the window is over: whatever is admitted now is after it
      have hzero : (admitted key rl (e :: es)).countP (· < c.reset) = 0 := by
        refine countP_admitted_eq_zero fun e' he' => ?_
        rcases List.mem_cons.mp he' with rfl | he'
        · exact hover
        · exact hover.trans (hlater e' he')
      rw [hzero]
      simpa using hn
    · have hin : e.time < c.reset := by omega
      by_cases haction : e.action = .allow key
      · generalize hout : rl.allow e.time key = out
        have hcases := hout ▸ rl.allow_cases e.time key
        cases hcases with
        | disabled hdis => omega
        | opened hold _ => exact absurd (hold c hc) hover
        | refused c' hc' _ hfull _ =>
          rw [admitted_cons_some haction hout]
          exact ih hes hc hn hpos
        | counted c' hc' _ hfree =>
          obtain rfl : c = c' := Option.some.inj (hc.symm.trans hc')
          rw [admitted_cons_none haction hout, List.countP_cons, if_pos (by simpa using hin)]
          have hrest := ih hes (setCount_self rl key { c with n := c.n + 1 })
            (by push_cast; exact hfree) hpos
          rw [setCount_limit] at hrest
          push_cast at hrest ⊢
          omega
      · rw [admitted_cons_of_ne haction]
        rcases counts_perform_of_ne rl haction with hsame | ⟨hopens, -⟩
        · have hrest := ih hes (hsame.trans hc) (by rwa [perform_limit]) (by rwa [perform_limit])
          rwa [perform_limit] at hrest
        · exact absurd (hopens c hc) hover

/-- A call that opens a window is admitted, and leaves the key with a counter of one. -/
theorem allow_of_opens {now : ℤ} (hopens : rl.Opens now key) (hpos : 0 < rl.limit) :
    rl.allow now key = (none, rl.setCount key ⟨1, now + rl.window⟩) := by
  have hcases := rl.allow_cases now key
  generalize rl.allow now key = out at hcases ⊢
  cases hcases with
  | disabled hdis => omega
  | opened _ _ => rfl
  | counted c hc hnow _ => exact absurd (hopens c hc) (by omega)
  | refused c hc hnow _ _ => exact absurd (hopens c hc) (by omega)

/-- At most the limit is admitted in a window from its opening on. -/
theorem countP_admitted_opened {e : Timed} (hes : Ordered (e :: es))
    (haction : e.action = .allow key)
    (hopens : rl.Opens e.time key) (hpos : 0 < rl.limit) (hwindow : 0 < rl.window) :
    ((admitted key rl (e :: es)).countP (· < e.time + rl.window) : ℤ) ≤ rl.limit := by
  have hout := allow_of_opens hopens hpos
  have hrest := countP_admitted_window (ordered_cons.mp hes).2
    (setCount_self rl key ⟨1, e.time + rl.window⟩) (by push_cast; exact hpos) hpos
  rw [setCount_limit] at hrest
  rw [admitted_cons_none haction hout, List.countP_cons, if_pos (by simpa using hwindow)]
  push_cast at hrest ⊢
  omega

/-- So it is in a span that begins earlier, as the window outlasts it. -/
theorem countP_admitted_span_opened {e : Timed} {t : ℤ} (hes : Ordered (e :: es)) (ht : t ≤ e.time)
    (haction : e.action = .allow key)
    (hopens : rl.Opens e.time key) (hpos : 0 < rl.limit) (hwindow : 0 < rl.window) :
    ((admitted key rl (e :: es)).countP (· < t + rl.window) : ℤ) ≤ rl.limit := by
  have hopened := countP_admitted_opened hes haction hopens hpos hwindow
  have hmono : (admitted key rl (e :: es)).countP (· < t + rl.window) ≤
      (admitted key rl (e :: es)).countP (· < e.time + rl.window) := by
    refine List.countP_mono_left fun s _ hs => ?_
    simp only [decide_eq_true_eq] at hs ⊢
    omega
  omega

/-- How many more calls a counter lets through, at most, from a time on until one window later:
the rest of its own window and one window more. -/
def spare (limit : ℤ) : Option Counter → ℤ
  | none => limit
  | some c => 2 * limit - c.n

/-- A counter within the limit has as much left as the limit, one window later. -/
theorem limit_le_spare {limit : ℤ} {o : Option Counter} (hn : ∀ c, o = some c → (c.n : ℤ) ≤ limit) :
    limit ≤ spare limit o := by
  cases o with
  | none => exact le_refl limit
  | some c =>
    have := hn c rfl
    show limit ≤ 2 * limit - c.n
    omega

variable (key) in
/-- Two windows meet a span of time that is no longer than a window. -/
theorem countP_admitted_span {l : RateLimiter} (hes : Ordered es) {t : ℤ}
    (hfrom : ∀ e ∈ es, t ≤ e.time)
    (hn : ∀ c, l.counts key = some c → (c.n : ℤ) ≤ l.limit) (hpos : 0 < l.limit)
    (hwindow : 0 < l.window) :
    ((admitted key l es).countP (· < t + l.window) : ℤ) ≤ spare l.limit (l.counts key) := by
  induction es generalizing l with
  | nil =>
    simpa [admitted, answers] using hpos.le.trans (limit_le_spare hn)
  | cons e es ih =>
    have htime : t ≤ e.time := hfrom e List.mem_cons_self
    have hlater : ∀ e' ∈ es, t ≤ e'.time := fun e' he' => hfrom e' (List.mem_cons_of_mem _ he')
    by_cases haction : e.action = .allow key
    · by_cases hopens : l.Opens e.time key
      · have hopened := countP_admitted_span_opened hes htime haction hopens hpos hwindow
        exact hopened.trans (limit_le_spare hn)
      · -- the window is still open
        generalize hout : l.allow e.time key = out
        have hcases := hout ▸ l.allow_cases e.time key
        cases hcases with
        | disabled hdis => omega
        | opened hold _ => exact absurd hold hopens
        | refused c hc _ _ _ =>
          rw [admitted_cons_some haction hout]
          exact ih (ordered_cons.mp hes).2 hlater hn hpos hwindow
        | counted c hc _ hfree =>
          have hrest := ih (ordered_cons.mp hes).2 hlater
            (l := l.setCount key { c with n := c.n + 1 }) (by
              intro c' hc'
              obtain rfl := Option.some.inj ((setCount_self l key _).symm.trans hc')
              show ((c.n + 1 : ℕ) : ℤ) ≤ l.limit
              push_cast
              omega) hpos hwindow
          rw [setCount_self, setCount_limit, setCount_window] at hrest
          have hone : (admitted key l (e :: es)).countP (· < t + l.window) ≤
              (admitted key (l.setCount key { c with n := c.n + 1 }) es).countP
                (· < t + l.window) + 1 := by
            rw [admitted_cons_none haction hout, List.countP_cons]
            split <;> omega
          rw [hc]
          simp only [spare] at hrest ⊢
          push_cast at hrest
          omega
    · rw [admitted_cons_of_ne haction]
      rcases counts_perform_of_ne l haction with hsame | ⟨-, hdropped⟩
      · have hrest := ih (ordered_cons.mp hes).2 hlater (l := l.perform e)
          (by rwa [hsame, perform_limit]) (by rwa [perform_limit]) (by rwa [perform_window])
        rwa [hsame, perform_limit, perform_window] at hrest
      · -- an expired counter has been swept, and let through at least as many
        have hrest := ih (ordered_cons.mp hes).2 hlater (l := l.perform e)
          (by simp [hdropped]) (by rwa [perform_limit]) (by rwa [perform_window])
        rw [hdropped, perform_limit, perform_window] at hrest
        exact le_trans hrest (limit_le_spare hn)

end Window

/-! ## The bounds of a run -/

section Bounds

variable {rl : RateLimiter} {key : Bytes} {es : List Timed}

@[simp]
theorem after_limit : (rl.after es).limit = rl.limit := by
  induction es generalizing rl with
  | nil => rfl
  | cons e es ih => rw [after_cons, ih, perform_limit]

@[simp]
theorem after_window : (rl.after es).window = rl.window := by
  induction es generalizing rl with
  | nil => rfl
  | cons e es ih => rw [after_cons, ih, perform_window]

/-- The calls counted in the current window of `key`: the use that opened it, and those since. -/
structure CountedSince (rl : RateLimiter) (key : Bytes) (pre : List Timed) (c : Counter)
    (before : List Timed) (o : Timed) (inside : List Timed) : Prop where
  split : pre = before ++ o :: inside
  call : o.action = .allow key
  opens : (rl.after before).Opens o.time key
  reset : c.reset = o.time + rl.window
  counted : (admitted key (rl.after before) (o :: inside)).length = c.n

/-- A use that admits nothing for the key stays inside the window. -/
theorem CountedSince.snoc {pre : List Timed} {c c' : Counter} {before : List Timed} {o e : Timed}
    {inside : List Timed} (h : CountedSince rl key pre c before o inside)
    (hreset : c'.reset = c.reset)
    (hn : c'.n = c.n + (admitted key (rl.after pre) [e]).length) :
    CountedSince rl key (pre ++ [e]) c' before o (inside ++ [e]) where
  split := by rw [h.split]; simp
  call := h.call
  opens := h.opens
  reset := hreset.trans h.reset
  counted := by
    rw [← List.cons_append, admitted_append, List.length_append, h.counted, hn, ← after_append,
      ← h.split]

/-- A counter counts the admitted calls since the one that opened its window. -/
theorem exists_countedSince (pre : List Timed) (hpos : 0 < rl.limit)
    (hfresh : rl.counts key = none) {c : Counter} (hc : (rl.after pre).counts key = some c) :
    ∃ before o inside, CountedSince rl key pre c before o inside := by
  induction pre using List.reverseRecOn generalizing c with
  | nil =>
    rw [after_nil, hfresh] at hc
    cases hc
  | append_singleton pre e ih =>
    rw [after_append, after_cons, after_nil] at hc
    by_cases haction : e.action = .allow key
    · rw [perform_allow haction] at hc
      generalize hout : (rl.after pre).allow e.time key = out at hc
      have hcases := hout ▸ (rl.after pre).allow_cases e.time key
      -- only the call that opens a window sets the counter anew, every other one adds to `inside`
      cases hcases with
      | disabled hdis =>
        rw [after_limit] at hdis
        omega
      | refused c' hc' _ _ _ =>
        obtain ⟨before, o, inside, hsince⟩ := ih hc
        refine ⟨before, o, inside ++ [e], hsince.snoc rfl ?_⟩
        rw [admitted_cons_some haction hout]
        rfl
      | counted c' hc' _ _ =>
        obtain rfl := Option.some.inj ((setCount_self _ key _).symm.trans hc)
        obtain ⟨before, o, inside, hsince⟩ := ih hc'
        refine ⟨before, o, inside ++ [e], hsince.snoc rfl ?_⟩
        rw [admitted_cons_none haction hout]
        rfl
      | opened hold _ =>
        obtain rfl := Option.some.inj ((setCount_self _ key _).symm.trans hc)
        refine ⟨pre, e, [], rfl, haction, hold, ?_, ?_⟩
        · rw [after_window]
        · rw [admitted_cons_none haction hout]
          rfl
    · rcases counts_perform_of_ne (rl.after pre) haction with hsame | ⟨-, hdropped⟩
      · obtain ⟨before, o, inside, hsince⟩ := ih (hsame.symm.trans hc)
        refine ⟨before, o, inside ++ [e], hsince.snoc rfl ?_⟩
        rw [admitted_cons_of_ne haction]
        rfl
      · rw [hdropped] at hc
        cases hc

/-- A counter has counted the call that opened it, and no more than the limit. -/
def Within (rl : RateLimiter) : Prop :=
  ∀ key c, rl.counts key = some c → 0 < c.n ∧ (c.n : ℤ) ≤ rl.limit

/-- A use keeps every count within the limit. -/
theorem Within.perform (h : rl.Within) (hpos : 0 < rl.limit) (e : Timed) :
    (rl.perform e).Within := by
  intro key c hc
  rw [perform_limit]
  by_cases haction : e.action = .allow key
  · rw [perform_allow haction] at hc
    have hcases := rl.allow_cases e.time key
    generalize rl.allow e.time key = out at hcases hc
    cases hcases with
    | disabled hdis => omega
    | refused c' hc' _ _ _ => exact h key c hc
    | counted c' hc' _ hfree =>
      -- below the limit before, so at most at the limit now
      obtain rfl := Option.some.inj ((setCount_self _ key _).symm.trans hc)
      exact ⟨Nat.succ_pos _, by push_cast; omega⟩
    | opened _ _ =>
      obtain rfl := Option.some.inj ((setCount_self _ key _).symm.trans hc)
      exact ⟨Nat.one_pos, by push_cast; omega⟩
  · rcases counts_perform_of_ne rl haction with hsame | ⟨-, hdropped⟩
    · exact h key c (hsame.symm.trans hc)
    · rw [hdropped] at hc
      cases hc

/-- So does any number of uses. -/
theorem Within.after (h : rl.Within) (hpos : 0 < rl.limit) (es : List Timed) :
    (rl.after es).Within := by
  induction es generalizing rl with
  | nil => exact h
  | cons e es ih => exact ih (h.perform hpos e) (by rwa [perform_limit])

@[simp]
theorem new_limit (limit window : ℤ) : (new limit window).limit = limit := rfl

@[simp]
theorem new_window (limit window : ℤ) : (new limit window).window = window := rfl

theorem within_new (limit window : ℤ) : (new limit window).Within := by
  intro key c hc
  cases hc

/-- What a limiter with a budget of `limit` calls a `window` guarantees for `key`, over the uses
`es`. -/
structure WindowBounds (limit window : ℤ) (key : Bytes) (es : List Timed) : Prop where
  /-- In any span as long as a window, at most the rest of one window and the next are admitted. -/
  span : ∀ t : ℤ, ((admitted key (new limit window) es).countP
    fun s => t ≤ s ∧ s < t + window : ℤ) ≤ 2 * limit - 1
  /-- In a window the limiter opens, at most the limit is admitted. -/
  opened : ∀ pre o post, es = pre ++ o :: post → o.action = .allow key →
    ((new limit window).after pre).Opens o.time key →
    ((admitted key ((new limit window).after pre) (o :: post)).countP
      (· < o.time + window) : ℤ) ≤ limit
  /-- A call is refused in an open window that has admitted the limit, until the window is over. -/
  refused : ∀ pre e post retry, es = pre ++ e :: post → e.action = .allow key →
    (((new limit window).after pre).allow e.time key).1 = some retry →
    0 < retry ∧ retry ≤ window ∧
      ∃ before o inside, pre = before ++ o :: inside ∧ o.action = .allow key ∧
        ((new limit window).after before).Opens o.time key ∧
        o.time ≤ e.time ∧ e.time + retry = o.time + window ∧
        (admitted key ((new limit window).after before) (o :: inside)).length = limit

theorem ordered_append {es es' : List Timed} :
    Ordered (es ++ es') ↔ Ordered es ∧ Ordered es' ∧ ∀ e ∈ es, ∀ e' ∈ es', e.time ≤ e'.time :=
  List.pairwise_append

/-- A run is cut at a time. -/
theorem exists_cut (hes : Ordered es) (t : ℤ) : ∃ pre post, es = pre ++ post ∧
    (∀ e ∈ pre, e.time < t) ∧ ∀ e ∈ post, t ≤ e.time := by
  induction es with
  | nil => exact ⟨[], [], rfl, by simp, by simp⟩
  | cons e es ih =>
    obtain ⟨hlater, hes⟩ := ordered_cons.mp hes
    by_cases ht : e.time < t
    · obtain ⟨pre, post, rfl, hpre, hpost⟩ := ih hes
      exact ⟨e :: pre, post, rfl, List.forall_mem_cons.mpr ⟨ht, hpre⟩, hpost⟩
    -- in order, so everything behind it is later still
    · refine ⟨[], e :: es, rfl, by simp, List.forall_mem_cons.mpr ⟨by omega, ?_⟩⟩
      intro e' he'
      have := hlater e' he'
      omega

/-- What a new limiter admits in any span as long as a window. -/
theorem countP_span_le {limit window : ℤ} (hlimit : 1 ≤ limit) (hwindow : 0 < window)
    (hes : Ordered es) (t : ℤ) : ((admitted key (new limit window) es).countP
      fun s => t ≤ s ∧ s < t + window : ℤ) ≤ 2 * limit - 1 := by
  have hpos : 0 < (new limit window).limit := hlimit
  obtain ⟨pre, post, rfl, hpre, hpost⟩ := exists_cut hes t
  -- what is admitted before the span does not count
  have hbefore : (admitted key (new limit window) pre).countP
      (fun s => t ≤ s ∧ s < t + window) = 0 := by
    rw [List.countP_eq_zero]
    intro s hs
    obtain ⟨e, he, rfl⟩ := exists_of_mem_admitted hs
    have := hpre e he
    simp only [decide_eq_true_eq]
    omega
  -- the rest is bounded by the counter the key has when the span begins
  have hwithin := (within_new limit window).after hpos pre
  have hrest := countP_admitted_span key (l := (new limit window).after pre)
    (ordered_append.mp hes).2.1 hpost (fun c hc => (hwithin key c hc).2) (by rwa [after_limit])
    (by rwa [after_window])
  have hspan : (admitted key ((new limit window).after pre) post).countP
      (fun s => t ≤ s ∧ s < t + window) ≤
      (admitted key ((new limit window).after pre) post).countP (· < t + window) := by
    refine List.countP_mono_left fun s _ hs => ?_
    simp only [decide_eq_true_eq] at hs ⊢
    exact hs.2
  have hspare : spare limit (((new limit window).after pre).counts key) ≤ 2 * limit - 1 := by
    cases hc : ((new limit window).after pre).counts key with
    | none =>
      show limit ≤ 2 * limit - 1
      omega
    | some c =>
      have := (hwithin key c hc).1
      show 2 * limit - c.n ≤ 2 * limit - 1
      omega
  rw [after_limit, after_window, new_limit, new_window] at hrest
  rw [admitted_append, List.countP_append, hbefore]
  push_cast
  omega

/-- A new limiter, used in the order of time by calls for any keys and by sweeps, keeps the bounds
of its windows for every key: what it lets through in any span and in a window it opens, and what a
refusal says. -/
theorem windowBounds_of_run {limit window : ℤ} (hlimit : 1 ≤ limit) (hwindow : 0 < window)
    (key : Bytes) (es : List Timed) (hes : Ordered es) : WindowBounds limit window key es where
  span := countP_span_le hlimit hwindow hes
  opened := by
    rintro pre o post rfl hcall hopens
    have hbound := countP_admitted_opened (ordered_append.mp hes).2.1 hcall hopens
      (by rw [after_limit]; exact hlimit) (by rw [after_window]; exact hwindow)
    rwa [after_limit, after_window] at hbound
  refused := by
    rintro pre e post retry rfl hcall hans
    have hcases := ((new limit window).after pre).allow_cases e.time key
    generalize ((new limit window).after pre).allow e.time key = out at hcases hans
    cases hcases with
    | disabled _ => cases hans
    | counted _ _ _ _ => cases hans
    | opened _ _ => cases hans
    | refused c hc hnow hfull _ =>
      obtain rfl := Option.some.inj hans
      -- the counter is full, and counts the calls since the one that opened the window
      have hcle := ((within_new limit window).after (show 0 < limit from hlimit) pre key c hc).2
      rw [after_limit] at hcle hfull
      obtain ⟨before, o, inside, hsince⟩ :=
        exists_countedSince pre (show 0 < (new limit window).limit from hlimit) rfl hc
      obtain ⟨rfl, hcallo, hopens, hreset, hcounted⟩ := hsince
      have htime : o.time ≤ e.time :=
        (ordered_append.mp hes).2.2 o (by simp) e List.mem_cons_self
      have hreset : c.reset = o.time + window := hreset
      refine ⟨by omega, by omega, before, o, inside, rfl, hcallo, hopens, htime, by omega, ?_⟩
      rw [hcounted]
      exact le_antisymm hcle hfull

/-- A run in which the budget is spent, the key is refused, and its window rolls over. -/
theorem windowBounds_twoInTen :
    let es : List Timed := [⟨0, .allow [1]⟩, ⟨4, .allow [1]⟩, ⟨5, .allow [2]⟩, ⟨7, .allow [1]⟩,
      ⟨9, .sweep⟩, ⟨10, .allow [1]⟩]
    Ordered es ∧ answers [1] (new 2 10) es = [(0, none), (4, none), (7, some 3), (10, none)] ∧
      WindowBounds 2 10 [1] es := by
  intro es
  have hes : Ordered es := by
    show List.Pairwise _ _
    decide
  exact ⟨hes, by decide, windowBounds_of_run (by decide) (by decide) [1] es hes⟩

end Bounds

/-! ## Other keys and sweeps -/

section Unwinding

variable {rl rl' : RateLimiter} {key : Bytes} {now : ℤ} {es es' : List Timed}

/-- The times of the calls for `key`. -/
def callTimes (key : Bytes) (es : List Timed) : List ℤ :=
  (es.filter fun e => e.action = .allow key).map Timed.time

/-- Two limiters that answer `key` alike from `now` on: they have the same counter for it, or both
would open a window. -/
structure Alike (key : Bytes) (now : ℤ) (rl rl' : RateLimiter) : Prop where
  limit : rl.limit = rl'.limit
  window : rl.window = rl'.window
  counts : rl.counts key = rl'.counts key ∨ rl.Opens now key ∧ rl'.Opens now key

/-- A call that would open a window would open one later too. -/
theorem Opens.mono (h : rl.Opens now key) {now' : ℤ} (hnow : now ≤ now') : rl.Opens now' key :=
  fun c hc => (h c hc).trans hnow

/-- Limiters that are alike stay so while time passes. -/
theorem Alike.mono (h : Alike key now rl rl') {now' : ℤ} (hnow : now ≤ now') :
    Alike key now' rl rl' :=
  ⟨h.limit, h.window, h.counts.imp id fun ⟨h₁, h₂⟩ => ⟨h₁.mono hnow, h₂.mono hnow⟩⟩

/-- Whether a call opens a window is read from the counter of its key. -/
theorem opens_congr (h : rl.counts key = rl'.counts key) :
    rl.Opens now key ↔ rl'.Opens now key := by
  unfold Opens
  rw [h]

/-- What is no call for the key keeps the limiters alike: a swept counter had expired. -/
theorem Alike.perform (h : Alike key now rl rl') {e : Timed} (hnow : now ≤ e.time)
    (haction : e.action ≠ .allow key) : Alike key e.time (rl.perform e) rl' := by
  refine ⟨by rw [perform_limit, h.limit], by rw [perform_window, h.window], ?_⟩
  rcases counts_perform_of_ne rl haction with hsame | ⟨hopens, hdropped⟩
  · rcases h.counts with heq | ⟨h₁, h₂⟩
    · exact .inl (hsame.trans heq)
    · exact .inr ⟨(opens_congr hsame).mpr (h₁.mono hnow), h₂.mono hnow⟩
  -- the sweep has dropped the counter: the next call opens a window on either side
  · have hnone : (rl.perform e).Opens e.time key := by
      intro c hc
      rw [hdropped] at hc
      cases hc
    rcases h.counts with heq | ⟨-, h₂⟩
    · exact .inr ⟨hnone, (opens_congr heq).mp hopens⟩
    · exact .inr ⟨hnone, h₂.mono hnow⟩

variable (now) in
/-- The answer and the counter a call leaves depend on the counter it finds. -/
theorem allow_congr (hlimit : rl.limit = rl'.limit) (hwindow : rl.window = rl'.window)
    (hcounts : rl.counts key = rl'.counts key) :
    (rl.allow now key).1 = (rl'.allow now key).1 ∧
      (rl.allow now key).2.counts key = (rl'.allow now key).2.counts key := by
  unfold RateLimiter.allow
  rw [hlimit, hwindow]
  split
  · exact ⟨rfl, hcounts⟩
  · cases hc : rl'.counts key with
    -- no counter: a window opens, in the same way for both
    | none => simp [hcounts, hc]
    | some c =>
      rw [hc] at hcounts
      simp only [hcounts]
      split
      · split
        · exact ⟨rfl, hcounts.trans hc.symm⟩
        · simp
      · simp

/-- Limiters that are alike give the same answer, and stay alike. -/
theorem Alike.allow (h : Alike key now rl rl') :
    (rl.allow now key).1 = (rl'.allow now key).1 ∧
      Alike key now (rl.allow now key).2 (rl'.allow now key).2 := by
  have hlimit : (rl.allow now key).2.limit = (rl'.allow now key).2.limit := by
    rw [(rl.allow_limit now key).1, (rl'.allow_limit now key).1, h.limit]
  have hwindow : (rl.allow now key).2.window = (rl'.allow now key).2.window := by
    rw [(rl.allow_limit now key).2, (rl'.allow_limit now key).2, h.window]
  rcases h.counts with heq | ⟨hopens, hopens'⟩
  · obtain ⟨hsame, hcounts⟩ := allow_congr now h.limit h.window heq
    exact ⟨hsame, hlimit, hwindow, .inl hcounts⟩
  · by_cases hpos : 0 < rl.limit
    · rw [allow_of_opens hopens hpos, allow_of_opens hopens' (h.limit ▸ hpos)]
      exact ⟨rfl, h.limit, h.window, .inl (by rw [setCount_self, setCount_self, h.window])⟩
    · -- a disabled limiter counts nothing
      have hout : rl.allow now key = (none, rl) := by
        rw [RateLimiter.allow, if_pos (by omega)]
      have hout' : rl'.allow now key = (none, rl') := by
        rw [RateLimiter.allow, if_pos (by rw [← h.limit]; omega)]
      rw [hout, hout']
      exact ⟨rfl, h⟩

/-- A run answers the key as the run of the key's calls alone does. -/
theorem answers_calls (h : Alike key now rl rl') (hes : Ordered es)
    (hnow : ∀ e ∈ es, now ≤ e.time) :
    answers key rl es = answers key rl' (es.filter fun e => e.action = .allow key) := by
  induction es generalizing rl rl' now with
  | nil => rfl
  | cons e es ih =>
    obtain ⟨hlater, hes⟩ := ordered_cons.mp hes
    have htime : now ≤ e.time := hnow e List.mem_cons_self
    by_cases haction : e.action = .allow key
    · obtain ⟨hsame, halike⟩ := (h.mono htime).allow
      rw [List.filter_cons_of_pos (by simpa using haction), answers_cons_allow haction,
        answers_cons_allow haction, hsame, ih halike hes hlater]
    -- a sweep, or a call of another client, keeps the two alike
    · rw [List.filter_cons_of_neg (by simpa using haction), answers_cons_of_ne haction]
      exact ih (h.perform htime haction) hes hlater

/-- The calls of a key are known by their times. -/
theorem filter_calls (key : Bytes) (es : List Timed) :
    es.filter (fun e => e.action = .allow key) =
      (callTimes key es).map fun t => ⟨t, .allow key⟩ := by
  rw [callTimes, List.map_map]
  conv_lhs => rw [← List.map_id (es.filter _)]
  refine List.map_congr_left fun e he => ?_
  have haction : e.action = .allow key := by simpa using (List.mem_filter.mp he).2
  show e = ⟨e.time, .allow key⟩
  rw [← haction]

/-- The answers for a key are those of a limiter that is only asked for that key. -/
theorem answers_eq_calls (hlimit : rl.limit = rl'.limit) (hwindow : rl.window = rl'.window)
    (hcounts : rl.counts key = rl'.counts key) (hes : Ordered es) :
    answers key rl es = answers key rl' ((callTimes key es).map fun t => ⟨t, .allow key⟩) := by
  obtain ⟨now, hnow⟩ : ∃ now, ∀ e ∈ es, now ≤ e.time := by
    cases es with
    | nil => exact ⟨0, by simp⟩
    | cons e es => exact ⟨e.time, List.forall_mem_cons.mpr ⟨le_rfl, (ordered_cons.mp hes).1⟩⟩
  rw [← filter_calls]
  exact answers_calls ⟨hlimit, hwindow, .inl hcounts⟩ hes hnow

/-- Two runs with the same calls for the key at the same times give those calls the same answers,
whatever is called for other keys and swept in between. -/
theorem answers_eq_of_callTimes (hlimit : rl.limit = rl'.limit) (hwindow : rl.window = rl'.window)
    (hcounts : rl.counts key = rl'.counts key) (hes : Ordered es) (hes' : Ordered es')
    (hcalls : callTimes key es = callTimes key es') :
    answers key rl es = answers key rl' es' := by
  rw [answers_eq_calls hlimit hwindow hcounts hes, hcalls]
  exact (answers_eq_calls rfl rfl rfl hes').symm

/-- The run above, and one without the other key's call but with more sweeps. -/
theorem answers_twoInTen_eq :
    let es : List Timed := [⟨0, .allow [1]⟩, ⟨4, .allow [1]⟩, ⟨5, .allow [2]⟩, ⟨7, .allow [1]⟩,
      ⟨9, .sweep⟩, ⟨10, .allow [1]⟩]
    let es' : List Timed := [⟨0, .allow [1]⟩, ⟨4, .allow [1]⟩, ⟨6, .sweep⟩, ⟨7, .allow [1]⟩,
      ⟨10, .sweep⟩, ⟨10, .allow [1]⟩]
    answers [1] (new 2 10) es = answers [1] (new 2 10) es' := by
  intro es es'
  have hes : Ordered es := by
    show List.Pairwise _ _
    decide
  have hes' : Ordered es' := by
    show List.Pairwise _ _
    decide
  exact answers_eq_of_callTimes rfl rfl rfl hes hes' (by decide)

end Unwinding


end RateLimiter

end Bff
