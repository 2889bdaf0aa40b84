import OAuth2Monitoring.Console.Sse

/-!
# The dashboard and its stream

`DashboardView` connects to the event stream and starts its refresh interval once the initial load
has settled, and cleans up when it is unmounted. What is still to come then is not cancelled: the
rest of `onMounted`, the reconnect timers, and an attempt that has its response already.

## Main definitions

* `Dashboard`, `Dashboard.step`: the component with its instance of `useSSE`.
* `Dashboard.Idle`: the moves after which nothing is started.

## Main results

* `Dashboard.quiet_of_idle`: after such moves an unmounted dashboard has started nothing, and any
  other move starts something.
-/

namespace Console

open Transitions

/-- A mounted component: its instance of `useSSE`, whether it is still mounted and whether the rest
of `onMounted` is still to come, the interval it keeps, those that are active, and how many were
set. -/
structure Dashboard where
  sse : Sse
  mounted : Bool
  loading : Bool
  refreshInterval : Option ℕ
  intervals : List ℕ
  intervalsSet : ℕ

namespace Dashboard

/-- A component that is mounted: the initial load is under way. -/
def init (isAuthenticated : Bool) : Dashboard where
  sse := .init isAuthenticated
  mounted := true
  loading := true
  refreshInterval := none
  intervals := []
  intervalsSet := 0

/-- What `onMounted` does once the initial load has settled. -/
def loaded (d : Dashboard) : Dashboard :=
  { d with
    sse := d.sse.connect
    loading := false
    refreshInterval := some d.intervalsSet
    intervals := d.intervals ++ [d.intervalsSet]
    intervalsSet := d.intervalsSet + 1 }

/-- `clearInterval(refreshInterval.value)`, if there is one. -/
def clearRefresh (d : Dashboard) : Dashboard :=
  match d.refreshInterval with
  | none => d
  | some id => { d with intervals := d.intervals.erase id }

/-- `onUnmounted`, of `useSSE` and then of the component. -/
def unmounted (d : Dashboard) : Dashboard :=
  let d := { d with sse := d.sse.disconnect }
  -- the component clears its interval, and calls `disconnect` once more
  let d := d.clearRefresh
  { d with sse := d.sse.disconnect, mounted := false }

/-- What happens to a component: the initial load settles, it is unmounted, or something happens to
its stream that is no call of the component. -/
inductive Move
  | loaded
  | unmount
  | stream (m : Sse.Move)

/-- One move, if it can be taken. Nothing but the component calls `connect` and `disconnect`. -/
def step (d : Dashboard) : Move → Option Dashboard
  | .loaded => if d.loading then some d.loaded else none
  | .unmount => if d.mounted then some d.unmounted else none
  | .stream .connect | .stream .disconnect => none
  | .stream m => (d.sse.step m).map fun sse => { d with sse := sse }

/-- After the component was unmounted, the move is not the rest of `onMounted`, no timer while the
user is authenticated, and no attempt seeing a success. -/
def Idle (d : Dashboard) : Move → Prop
  | .loaded => False
  | .stream (.fire _) => d.sse.isAuthenticated = false
  | .stream (.resume k) => ∀ a ∈ d.sse.attempts[k]?, a.opens = false
  | _ => True

/-- Nothing was started since `d₀`: no request for the stream, no interval, and the flag is down. -/
structure Quiet (d₀ d : Dashboard) : Prop where
  attempts : d.sse.attempts.length = d₀.sse.attempts.length
  flag : d.sse.isSSEConnected = false
  intervals : d.intervals = []

/-! ## The stream after a cleanup -/

section

variable {s s' : Sse} {m : Sse.Move}

theorem length_disconnect (s : Sse) : s.disconnect.attempts.length = s.attempts.length := by
  change s.abortCurrent.length = s.attempts.length
  unfold Sse.abortCurrent
  cases s.abortController with
  | none => rfl
  | some k => exact List.length_modify _ _ _

/-- The flags are down, and this many requests were sent. -/
structure Down (n : ℕ) (s : Sse) : Prop where
  attempts : s.attempts.length = n
  flag : s.isSSEConnected = false
  connecting : s.isConnecting = false

/-- After disconnecting no attempt made so far is open. -/
theorem down_disconnect (s : Sse) : Down s.attempts.length s.disconnect :=
  ⟨length_disconnect s, rfl, rfl⟩

/-- A timer starts an attempt exactly when the user is authenticated. -/
theorem Down.connect {n : ℕ} (h : Down n s) :
    (s.isAuthenticated = false → Down n s.connect) ∧
      (s.isAuthenticated = true → s.connect.attempts.length = n + 1) := by
  rcases Sse.connect_cases s with ⟨-, hc⟩ | ⟨heq, -, ha⟩ | ⟨-, ha, heq⟩
  · rw [h.connecting] at hc
    cases hc
  · rw [heq, ha]
    exact ⟨fun _ => h.attempts ▸ down_disconnect s, nofun⟩
  · rw [heq, ha]
    refine ⟨nofun, fun _ => ?_⟩
    rw [List.length_append, length_disconnect, h.attempts]
    rfl

/-- An attempt that sees no success starts nothing, and one that does sets the flag. -/
theorem Down.resume {n k : ℕ} {a : Attempt} (h : Down n s)
    (hs : s.resumeAttempt k a = some s') :
    (a.opens = false → Down n s') ∧ (a.opens = true → s'.isSSEConnected = true) := by
  have hlen (phase : Phase) : (s.setPhase k phase).attempts.length = n :=
    (List.length_modify _ _ _).trans h.attempts
  rcases Sse.resumeAttempt_cases hs with
    ⟨hopens, rfl⟩ | ⟨hopens, -, rfl⟩ | ⟨phase, handed, rfl, ⟨hopens, -⟩, -⟩
  -- the response is accepted, and the flag is up
  · refine ⟨fun hnot => ?_, fun _ => rfl⟩
    rw [hopens] at hnot
    cases hnot
  -- the attempt fails, which takes the flag down again
  · refine ⟨fun _ => ⟨?_, Sse.isSSEConnected_caught _, Sse.isConnecting_caught _⟩, fun h' => ?_⟩
    · rw [Sse.attempts_caught, hlen]
    · rw [hopens] at h'
      cases h'
  · refine ⟨fun _ => ⟨hlen phase, h.flag, h.connecting⟩, fun h' => ?_⟩
    rw [hopens] at h'
    cases h'

/-- Idle moves leave a stream that was cleaned up as it is. -/
theorem Down.step {n : ℕ} (h : Down n s) (hcall : m ≠ .connect ∧ m ≠ .disconnect)
    (hfire : ∀ i, m = .fire i → s.isAuthenticated = false)
    (hresume : ∀ k, m = .resume k → ∀ a ∈ s.attempts[k]?, a.opens = false)
    (hs : s.step m = some s') : Down n s' := by
  rcases Sse.step_cases hs with ⟨rfl, -⟩ | ⟨rfl, -⟩ | ⟨k, a, phase, -, rfl, -⟩ |
    ⟨k, a, rfl, ha, hs⟩ | ⟨i, rfl, rfl, -⟩ | ⟨isAuthenticated, -, rfl⟩
  · exact absurd rfl hcall.1
  · exact absurd rfl hcall.2
  · exact ⟨(List.length_modify _ _ _).trans h.attempts, h.flag, h.connecting⟩
  · exact (h.resume hs).1 (hresume k rfl a ha)
  -- a timer calls `connect`, which does nothing while nobody is signed in
  · have hfired : Down n { s with timers := s.timers.eraseIdx i } :=
      ⟨h.attempts, h.flag, h.connecting⟩
    exact hfired.connect.1 (hfire i rfl)
  · exact ⟨h.attempts, h.flag, h.connecting⟩

end

/-! ## Runs -/

section

variable {d d' : Dashboard} {m : Move}

/-- While the component is mounted, the interval it keeps is the only active one. -/
def KeepsInterval (d : Dashboard) : Prop :=
  d.mounted = true → d.intervals = d.refreshInterval.toList ∧ (d.loading = true → d.intervals = [])

theorem step_of_ne {m : Sse.Move} (h : m ≠ .connect ∧ m ≠ .disconnect) :
    d.step (.stream m) = (d.sse.step m).map fun sse => { d with sse := sse } := by
  cases m with
  | connect => exact absurd rfl h.1
  | disconnect => exact absurd rfl h.2
  | _ => rfl

/-- A move of the stream changes nothing but the stream. -/
theorem step_stream {m : Sse.Move} (h : d.step (.stream m) = some d') :
    (m ≠ .connect ∧ m ≠ .disconnect) ∧
      ∃ sse, d.sse.step m = some sse ∧ d' = { d with sse := sse } := by
  have hcall : m ≠ .connect ∧ m ≠ .disconnect := by
    constructor <;> rintro rfl <;> cases h
  rw [step_of_ne hcall] at h
  obtain ⟨sse, hsse, rfl⟩ := Option.map_eq_some_iff.mp h
  exact ⟨hcall, sse, hsse, rfl⟩

/-- Every step keeps what is known of the interval. -/
theorem KeepsInterval.step (h : d.KeepsInterval) (hs : d.step m = some d') : d'.KeepsInterval := by
  cases m with
  | loaded =>
    simp only [Dashboard.step] at hs
    split at hs
    · next hloading =>
      -- the initial load ends once, and none was set before it
      cases hs
      refine fun hmounted => ⟨?_, nofun⟩
      change d.intervals ++ [d.intervalsSet] = [d.intervalsSet]
      rw [(h hmounted).2 hloading, List.nil_append]
    · cases hs
  | unmount =>
    simp only [Dashboard.step] at hs
    split at hs
    · cases hs
      exact nofun
    · cases hs
  | stream m =>
    obtain ⟨-, sse, -, rfl⟩ := step_stream hs
    exact h

/-- It holds in every run. -/
theorem keepsInterval_of_run {isAuthenticated : Bool}
    (h : Reaches Dashboard.step (fun _ _ => True) (init isAuthenticated) d) : d.KeepsInterval :=
  h.invariant (I := KeepsInterval) (fun _ => ⟨rfl, fun _ => rfl⟩) fun _ _ _ hI _ hs => hI.step hs

/-- A component that was unmounted and has started nothing since, when this many requests had been
sent. -/
structure Settled (n : ℕ) (d : Dashboard) : Prop where
  mounted : d.mounted = false
  stream : Down n d.sse
  intervals : d.intervals = []

/-- Unmounting settles the page. -/
theorem settled_unmounted (h : d.KeepsInterval) (hs : d.step .unmount = some d') :
    Settled d'.sse.attempts.length d' := by
  simp only [Dashboard.step] at hs
  split at hs
  · next hmounted =>
    cases hs
    have hkeeps := (h hmounted).1
    refine ⟨rfl, ⟨rfl, rfl, rfl⟩, ?_⟩
    unfold unmounted clearRefresh
    -- the interval that is kept is the active one, and it is cleared
    cases hrefresh : d.refreshInterval with
    | none =>
      rw [hrefresh] at hkeeps
      exact hkeeps
    | some id =>
      rw [hrefresh] at hkeeps
      simp [hkeeps]
  · cases hs

/-- A step that starts nothing keeps it settled. -/
theorem Settled.step {n : ℕ} (h : Settled n d) (hidle : d.Idle m) (hs : d.step m = some d') :
    Settled n d' := by
  cases m with
  | loaded => exact hidle.elim
  -- an unmounted dashboard cannot be unmounted again
  | unmount =>
    simp only [Dashboard.step, h.mounted] at hs
    cases hs
  | stream m =>
    obtain ⟨hcall, sse, hsse, rfl⟩ := step_stream hs
    refine ⟨h.mounted, h.stream.step hcall (fun i heq => ?_) (fun k heq => ?_) hsse, h.intervals⟩
    · subst heq
      exact hidle
    · subst heq
      exact hidle

/-- A move that is not idle starts something. -/
theorem Settled.not_idle {d₀ : Dashboard} (h : Settled d₀.sse.attempts.length d)
    (hidle : ¬d.Idle m) (hs : d.step m = some d') : ¬Quiet d₀ d' := by
  intro hquiet
  cases m with
  | loaded =>
    simp only [Dashboard.step] at hs
    split at hs
    · cases hs
      exact absurd hquiet.intervals (List.append_ne_nil_of_right_ne_nil _ (List.cons_ne_nil _ _))
    · cases hs
  | unmount => exact hidle trivial
  | stream m =>
    obtain ⟨hcall, sse, hsse, rfl⟩ := step_stream hs
    cases m with
    | fire i =>
      -- the timer calls `connect`, and a request is sent
      have hauthenticated : d.sse.isAuthenticated = true := Bool.not_eq_false _ ▸ hidle
      simp only [Sse.step] at hsse
      split at hsse
      · cases hsse
        have hfired : Down d₀.sse.attempts.length
            { d.sse with timers := d.sse.timers.eraseIdx i } :=
          ⟨h.stream.attempts, h.stream.flag, h.stream.connecting⟩
        have hlen := hfired.connect.2 hauthenticated
        rw [hquiet.attempts] at hlen
        omega
      · cases hsse
    | resume k =>
      -- the attempt sees its success, and sets the flag
      obtain ⟨a, ha, hresume⟩ := Option.bind_eq_some_iff.mp hsse
      have hopens : a.opens = true := by
        by_contra hnot
        refine hidle fun a' ha' => ?_
        obtain rfl : a = a' := Option.some.inj (ha.symm.trans ha')
        exact Bool.not_eq_true _ ▸ hnot
      have hflag := (h.stream.resume hresume).2 hopens
      exact absurd (hquiet.flag.symm.trans hflag) Bool.false_ne_true
    | _ => exact hidle trivial

end

/-- In every run of a dashboard: as long as the moves after it was unmounted are idle, no request
for the stream is started, the flag stays down and no interval is active. The first move that is not
idle starts one of these. -/
theorem quiet_of_idle {isAuthenticated : Bool} {d d₀ d₁ : Dashboard}
    (h : Reaches step (fun _ _ => True) (init isAuthenticated) d)
    (hunmount : d.step .unmount = some d₀)
    (hidle : Reaches step Idle d₀ d₁) :
    Quiet d₀ d₁ ∧ ∀ m d₂, d₁.step m = some d₂ → ¬d₁.Idle m → ¬Quiet d₀ d₂ := by
  have hsettled : Settled d₀.sse.attempts.length d₁ :=
    hidle.invariant (I := Settled d₀.sse.attempts.length)
      (settled_unmounted (keepsInterval_of_run h) hunmount) fun _ _ _ hI hm hs => hI.step hm hs
  exact ⟨⟨hsettled.stream.attempts, hsettled.stream.flag, hsettled.intervals⟩,
    fun m d₂ hs hnot => hsettled.not_idle hnot hs⟩

/-! ## Two components -/

/-- A component of an authenticated user, and one whose load has settled. -/
def mountedOne : Dashboard := init true

/-- The page after its first load. -/
def loadedOne : Dashboard := mountedOne.loaded

theorem reaches_loadedOne : Reaches step (fun _ _ => True) mountedOne loadedOne :=
  (Reaches.refl mountedOne).snoc (m := .loaded) trivial rfl

/-- It is unmounted, and then its aborted attempt returns. -/
def returned : Dashboard :=
  { loadedOne.unmounted with sse := loadedOne.unmounted.sse.setPhase 0 .returned }

/-- Nothing was started. -/
theorem returned_quiet : loadedOne.sse.attempts.length = 1 ∧ loadedOne.intervals = [0] ∧
    Quiet loadedOne.unmounted returned := by
  have hidle : loadedOne.unmounted.Idle (.stream (.resume 0)) := by
    rintro a ⟨⟩
    rfl
  have hreturned : Reaches step Idle loadedOne.unmounted returned :=
    (Reaches.refl _).snoc (m := .stream (.resume 0)) hidle rfl
  exact ⟨rfl, rfl, (quiet_of_idle reaches_loadedOne rfl hreturned).1⟩

/-- The component is unmounted during its initial load, and the load settles. -/
def abandoned : Dashboard := mountedOne.unmounted.loaded

/-- A request for the stream is started, and an interval is active that nothing will clear. -/
theorem abandoned_started : mountedOne.unmounted.sse.attempts.length = 0 ∧
    abandoned.sse.attempts.length = 1 ∧ abandoned.mounted = false ∧ abandoned.intervals = [0] ∧
    ¬∀ isAuthenticated d d₀ d₁, Reaches step (fun _ _ => True) (init isAuthenticated) d →
      d.step .unmount = some d₀ → Reaches step (fun _ _ => True) d₀ d₁ → Quiet d₀ d₁ := by
  have habandoned : Reaches step (fun _ _ => True) mountedOne.unmounted abandoned :=
    (Reaches.refl _).snoc (m := .loaded) trivial rfl
  refine ⟨rfl, rfl, rfl, rfl, fun h => ?_⟩
  have hquiet := h true mountedOne _ _ (Reaches.refl _) rfl habandoned
  cases hquiet.intervals

end Dashboard

end Console
