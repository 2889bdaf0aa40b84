import OAuth2Monitoring.Bff.Deps
import Mathlib.Tactic.Ring

/-!
# Per-key request budgets

The fixed-window limiter and the key it is used with, the client's address.
-/

namespace Bff

open GoStd

/-! ## The limiter -/

/-- The window a key is in: the events counted, and when the window rolls over. -/
structure Counter where
  n : ℕ
  reset : ℤ

/-- A fixed-window limiter: each key gets `limit` events per `window`. -/
structure RateLimiter where
  limit : ℤ
  window : ℤ
  counts : Bytes → Option Counter

/-- The window over which the per-IP budgets apply. -/
def rateWindow : ℤ := 60 * second

namespace RateLimiter

/-- A limiter that has seen nothing. -/
def new (limit : ℤ) (window : ℤ) : RateLimiter :=
  { limit := limit, window := window, counts := fun _ => none }

/-- Set the window of one key. -/
def setCount (rl : RateLimiter) (key : Bytes) (c : Counter) : RateLimiter :=
  { rl with counts := Function.update rl.counts key (some c) }

/-- Record an event for `key` at time `now`. The answer is `none` when the event is within the
budget, and how long the window still lasts when it is not. -/
def allow (rl : RateLimiter) (now : ℤ) (key : Bytes) : Option ℤ × RateLimiter :=
  if rl.limit ≤ 0 then (none, rl)
  else
    match rl.counts key with
    | none => (none, rl.setCount key ⟨1, now + rl.window⟩)
    | some c =>
      if now < c.reset then
        -- a refused event is not counted
        if rl.limit ≤ c.n then (some (c.reset - now), rl)
        else (none, rl.setCount key { c with n := c.n + 1 })
      else (none, rl.setCount key ⟨1, now + rl.window⟩)

/-- Drop the windows that have rolled over. -/
def sweep (rl : RateLimiter) (now : ℤ) : RateLimiter :=
  { rl with counts := fun key => (rl.counts key).filter fun c => now < c.reset }

@[simp]
theorem setCount_limit (rl : RateLimiter) (key : Bytes) (c : Counter) :
    (rl.setCount key c).limit = rl.limit := rfl

@[simp]
theorem setCount_window (rl : RateLimiter) (key : Bytes) (c : Counter) :
    (rl.setCount key c).window = rl.window := rfl

@[simp]
theorem setCount_self (rl : RateLimiter) (key : Bytes) (c : Counter) :
    (rl.setCount key c).counts key = some c := Function.update_self ..

theorem setCount_of_ne (rl : RateLimiter) {key k : Bytes} (c : Counter) (h : k ≠ key) :
    (rl.setCount key c).counts k = rl.counts k := Function.update_of_ne h ..

/-- All that `allow` can do with a key: a disabled limiter admits it, an event in the key's window
is counted or refused, and an event outside opens a window. Other keys are left alone. -/
inductive Allows (rl : RateLimiter) (now : ℤ) (key : Bytes) : Option ℤ × RateLimiter → Prop
  | disabled (h : rl.limit ≤ 0) : Allows rl now key (none, rl)
  | counted (c : Counter) (h : rl.counts key = some c) (hnow : now < c.reset)
      (hn : (c.n : ℤ) < rl.limit) :
      Allows rl now key (none, rl.setCount key { c with n := c.n + 1 })
  | refused (c : Counter) (h : rl.counts key = some c) (hnow : now < c.reset)
      (hn : rl.limit ≤ c.n) (hlimit : 0 < rl.limit) : Allows rl now key (some (c.reset - now), rl)
  | opened (h : ∀ c, rl.counts key = some c → c.reset ≤ now) (hlimit : 0 < rl.limit) :
      Allows rl now key (none, rl.setCount key ⟨1, now + rl.window⟩)

/-- What a question does, case by case. -/
theorem allow_cases (rl : RateLimiter) (now : ℤ) (key : Bytes) :
    Allows rl now key (rl.allow now key) := by
  unfold allow
  split
  -- the branches in the order of `Allow`
  · exact .disabled ‹_›
  · rename_i hlimit
    split
    · rename_i hnone
      exact .opened (by simp [hnone]) (by omega)
    · rename_i c hc
      split
      · rename_i hnow
        split
        · exact .refused c hc hnow ‹_› (by omega)
        · exact .counted c hc hnow (by omega)
      · exact .opened (fun c' hc' => by rw [hc] at hc'; cases hc'; omega) (by omega)

theorem allow_limit (rl : RateLimiter) (now : ℤ) (key : Bytes) :
    (rl.allow now key).2.limit = rl.limit ∧ (rl.allow now key).2.window = rl.window := by
  generalize hout : rl.allow now key = out
  have hcases := hout ▸ rl.allow_cases now key
  cases hcases <;> exact ⟨rfl, rfl⟩

theorem allow_counts_of_ne (rl : RateLimiter) (now : ℤ) {key k : Bytes} (hk : key ≠ k) :
    (rl.allow now k).2.counts key = rl.counts key := by
  generalize hout : rl.allow now k = out
  have hcases := hout ▸ rl.allow_cases now k
  cases hcases with
  | disabled h => rfl
  | refused c h hnow hn hlimit => rfl
  | counted c h hnow hn => exact setCount_of_ne _ _ hk
  | opened h hlimit => exact setCount_of_ne _ _ hk

/-! ## What a budget bounds -/

/-- How many events of `key` were admitted since `t₀`, when `k` windows of the key have ended and
the current one, if any, has begun after them. -/
def Spent (rl : RateLimiter) (t₀ now : ℤ) (key : Bytes) (admitted : ℕ) : Prop :=
  ∃ k : ℕ,
    match rl.counts key with
    | none => (admitted : ℤ) ≤ rl.limit * k ∧ t₀ + k * rl.window ≤ now
    | some c => (admitted : ℤ) ≤ rl.limit * k + c.n ∧ (c.n : ℤ) ≤ rl.limit ∧
        t₀ + (k + 1) * rl.window ≤ c.reset ∧ c.reset ≤ now + rl.window

variable {rl : RateLimiter} {t₀ now : ℤ} {key : Bytes} {admitted : ℕ}

/-- A new limiter has admitted nothing. -/
theorem spent_new (limit : ℤ) (window t₀ : ℤ) (key : Bytes) :
    (new limit window).Spent t₀ t₀ key 0 :=
  ⟨0, by simp [new]⟩

/-- Time passes. -/
theorem Spent.tick (h : rl.Spent t₀ now key admitted) {now' : ℤ} (hnow : now ≤ now') :
    rl.Spent t₀ now' key admitted := by
  obtain ⟨k, hk⟩ := h
  refine ⟨k, ?_⟩
  split at hk
  · exact ⟨hk.1, hk.2.trans hnow⟩
  · exact ⟨hk.1, hk.2.1, hk.2.2.1, by omega⟩

/-- The sweep forgets windows that have ended, which counts them. -/
theorem Spent.sweep (h : rl.Spent t₀ now key admitted) :
    (rl.sweep now).Spent t₀ now key admitted := by
  obtain ⟨k, hk⟩ := h
  unfold Spent RateLimiter.sweep
  dsimp only
  cases hc : rl.counts key with
  | none =>
    simp only [hc] at hk
    exact ⟨k, hk⟩
  | some c =>
    simp only [hc] at hk
    obtain ⟨hadm, hn, hopen, hreset⟩ := hk
    by_cases hlt : now < c.reset
    · -- the window runs still, and stays
      refine ⟨k, ?_⟩
      simp only [Option.filter_some, hlt, decide_true, if_true]
      exact ⟨hadm, hn, hopen, hreset⟩
    · refine ⟨k + 1, ?_⟩
      simp only [Option.filter_some, hlt, decide_false, Bool.false_eq_true, if_false]
      constructor
      · push_cast
        rw [mul_add, mul_one]
        omega
      · push_cast
        omega

/-- An event of another key. -/
theorem Spent.allow_of_ne (h : rl.Spent t₀ now key admitted) {k : Bytes} (hk : key ≠ k) :
    (rl.allow now k).2.Spent t₀ now key admitted := by
  obtain ⟨hlimit, hwindow⟩ := rl.allow_limit now k
  unfold Spent at h ⊢
  rwa [rl.allow_counts_of_ne now hk, hlimit, hwindow]

/-- An event of the key itself. -/
theorem Spent.allow (h : rl.Spent t₀ now key admitted) (hlimit : 0 < rl.limit) :
    (rl.allow now key).2.Spent t₀ now key
      (admitted + if (rl.allow now key).1 = none then 1 else 0) := by
  obtain ⟨k, hk⟩ := h
  generalize hout : rl.allow now key = out
  have hcases := hout ▸ allow_cases rl now key
  cases hcases with
  | disabled hdis => omega
  | counted c hc hnow hn =>
    simp only [hc] at hk
    obtain ⟨hadm, -, hopen, hreset⟩ := hk
    refine ⟨k, ?_⟩
    simp only [setCount_self, setCount_limit, setCount_window, if_true]
    exact ⟨by push_cast; omega, by push_cast; omega, hopen, hreset⟩
  | refused c hc hnow hn hpos =>
    simp only [hc] at hk
    exact ⟨k, by simpa [hc] using hk⟩
  | opened hold hpos =>
    cases hc : rl.counts key with
    | none =>
      simp only [hc] at hk
      obtain ⟨hadm, hstart⟩ := hk
      refine ⟨k, ?_⟩
      simp only [setCount_self, setCount_limit, setCount_window, if_true]
      refine ⟨by push_cast; omega, by push_cast; omega, ?_, by omega⟩
      rw [add_mul, one_mul]
      omega
    | some c =>
      simp only [hc] at hk
      obtain ⟨hadm, hn, hopen, -⟩ := hk
      have hended := hold c hc
      -- the old window has ended, and counts as one more
      refine ⟨k + 1, ?_⟩
      simp only [setCount_self, setCount_limit, setCount_window, if_true]
      refine ⟨?_, by push_cast; omega, ?_, by omega⟩
      · push_cast
        rw [mul_add, mul_one]
        omega
      · push_cast
        rw [add_mul, one_mul]
        omega

/-- At most the budget is admitted in every window that has begun since `t₀`. -/
theorem Spent.le (h : rl.Spent t₀ now key admitted) (hlimit : 0 ≤ rl.limit)
    (hwindow : 0 < rl.window) : (admitted : ℤ) ≤ rl.limit * ((now - t₀) / rl.window + 1) := by
  obtain ⟨k, hk⟩ := h
  have hbound : (admitted : ℤ) ≤ rl.limit * (k + 1) ∧ k * rl.window ≤ now - t₀ := by
    rw [mul_add, mul_one]
    split at hk
    · exact ⟨by omega, by omega⟩
    · rename_i c hc
      obtain ⟨hadm, hn, hopen, hreset⟩ := hk
      rw [add_mul, one_mul] at hopen
      exact ⟨by omega, by omega⟩
  -- `k` windows have gone by since `t₀`, and each takes its time
  have hk : (k : ℤ) ≤ (now - t₀) / rl.window := (Int.le_ediv_iff_mul_le hwindow).mpr hbound.2
  calc (admitted : ℤ) ≤ rl.limit * (k + 1) := hbound.1
    _ ≤ rl.limit * ((now - t₀) / rl.window + 1) :=
      Int.mul_le_mul_of_nonneg_left (Int.add_le_add_right hk 1) hlimit

end RateLimiter

/-! ## The key -/

/-- `IP.IsLoopback`: 127.0.0.0/8, mapped or not, and ::1. -/
def isLoopback (ip : Bytes) : Bool :=
  (ip.take 12 = List.replicate 10 0 ++ [255, 255] ∧ ip[12]? = some 127) ∨
    ip = List.replicate 15 0 ++ [1]

/-- The caller's address: the left-most `X-Forwarded-For` entry when the peer is loopback and the
entry is an address, else the peer. -/
def clientIP (d : Deps) (r : Request) : Bytes :=
  let host := match splitHostPort r.remoteAddr with
    | none => r.remoteAddr
    | some (host, _) => host
  match d.parseIP host with
  | none => host
  | some ip =>
    if isLoopback ip then
      let xff := r.header.get (ascii "X-Forwarded-For")
      let fwd := trimSpace (xff.takeWhile (· ≠ 44))
      if xff ≠ [] ∧ fwd ≠ [] ∧ d.parseIP fwd ≠ none then fwd else host
    else host

end Bff
