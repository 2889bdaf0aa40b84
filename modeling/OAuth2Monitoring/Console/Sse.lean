import OAuth2Monitoring.Console.Api
import OAuth2Monitoring.Console.EventStream
import OAuth2Monitoring.ToMathlib.Transitions

/-!
# The connection to the event stream

One instance of `useSSE` as a state machine. `connect` starts an attempt, which awaits the response,
then reads chunk after chunk; several attempts can be under way, all but the last of them aborted.
What an attempt awaits is settled by the network, or by an abort while it is not settled, and the
attempt resumes later: in between, everything else can happen.

## Main definitions

* `Sse`, `Sse.step`: the instance with its attempts and timers, and its moves.
* `Sse.Sound`: the moves that do not run into one of the two exits that are not handled.

## Main results

* `Sse.live_of_sound`: with such moves the flag tells whether a stream is open, and a stream that
  ends is connected again.
-/

namespace Console

open JsStd Transitions

/-! ## Attempts -/

/-- The response to the request for the stream: its status, and whether it has a body. -/
structure StreamResponse where
  status : ℕ
  hasBody : Bool

/-- Why something awaited is rejected. -/
inductive Failure
  | abort
  | other

/-- What an attempt awaits: the response, the body of a response that is no success, or the next
chunk, with the unfinished line so far; or it has returned. An outcome that is given is not seen
yet. The outcome of reading an error's body does not matter. -/
inductive Phase
  | fetching (outcome : Option (Except Failure StreamResponse))
  | errorBody
  | reading (buffer : Text) (outcome : Option (Except Failure (Option Text)))
  | returned

/-- A call of `connect` that sent its request: whether its controller was aborted. -/
structure Attempt where
  aborted : Bool
  phase : Phase

namespace Attempt

/-- `controller.abort()`: what is not settled yet is rejected. -/
def abort (a : Attempt) : Attempt where
  aborted := true
  phase :=
    match a.phase with
    | .fetching none => .fetching (some (.error .abort))
    | .reading buffer none => .reading buffer (some (.error .abort))
    | phase => phase

/-- The next `reader.read()`: that of an aborted stream is rejected at once. -/
def nextRead (a : Attempt) : Option (Except Failure (Option Text)) :=
  if a.aborted then some (.error .abort) else none

/-- The attempt reads a stream that was not aborted. -/
def isOpen (a : Attempt) : Bool :=
  !a.aborted &&
    match a.phase with
    | .reading _ _ => true
    | _ => false

/-- The attempt awaits its response, and was not aborted. -/
def isFetching (a : Attempt) : Bool :=
  !a.aborted &&
    match a.phase with
    | .fetching _ => true
    | _ => false

/-- When it resumes, the attempt sees a success with a body, the end of its stream, or an error of
it. -/
def opens (a : Attempt) : Bool :=
  match a.phase with
  | .fetching (some (.ok r)) => okStatus r.status && r.hasBody
  | _ => false

/-- When it resumes, the attempt sees the end of its stream. -/
def closes (a : Attempt) : Bool :=
  match a.phase with
  | .reading _ (some (.ok none)) => true
  | _ => false

/-- When it resumes, the attempt sees an error of its stream. -/
def breaks (a : Attempt) : Bool :=
  match a.phase with
  | .reading _ (some (.error .other)) => true
  | _ => false

/-- The attempt has ended. -/
def isReturned (a : Attempt) : Bool :=
  match a.phase with
  | .returned => true
  | _ => false

/-- When it resumes, the attempt sees that its stream was aborted. -/
def isRejected (a : Attempt) : Bool :=
  match a.phase with
  | .reading _ (some (.error .abort)) => true
  | _ => false

end Attempt

/-! ## The instance -/

/-- An instance of `useSSE`, the flag of the monitor store and whether the user is authenticated,
the requests sent so far, the timers that are set, and what was handed to `processEvent`. The
controller is given by the attempt it belongs to. -/
structure Sse where
  abortController : Option ℕ
  reconnectAttempts : ℕ
  isConnecting : Bool
  isSSEConnected : Bool
  isAuthenticated : Bool
  attempts : List Attempt
  timers : List ℕ
  handed : List (Text × Text)

/-- The failures in a row after which no connection is tried again. -/
def maxReconnectAttempts : ℕ := 5

/-- The wait before another connection, in milliseconds. -/
def reconnectDelay : ℕ := 3000

namespace Sse

/-- An instance that was not used yet. -/
def init (isAuthenticated : Bool) : Sse where
  abortController := none
  reconnectAttempts := 0
  isConnecting := false
  isSSEConnected := false
  isAuthenticated := isAuthenticated
  attempts := []
  timers := []
  handed := []

/-- The `k`-th attempt goes on to this phase. -/
def setPhase (s : Sse) (k : ℕ) (phase : Phase) : Sse :=
  { s with attempts := s.attempts.modify k fun a => { a with phase := phase } }

/-- `abortController.value.abort()`, if there is one. -/
def abortCurrent (s : Sse) : List Attempt :=
  match s.abortController with
  | none => s.attempts
  | some k => s.attempts.modify k Attempt.abort

/-- `disconnect`. -/
def disconnect (s : Sse) : Sse :=
  { s with attempts := s.abortCurrent, abortController := none, isSSEConnected := false,
           isConnecting := false }

/-- `connect`, up to its first await. -/
def connect (s : Sse) : Sse :=
  if s.isConnecting then s
  else if !s.isAuthenticated then { s.disconnect with isConnecting := false }
  else
    -- the attempt before is aborted, and the new one has a controller of its own
    { s.disconnect with
      isConnecting := true
      abortController := some s.disconnect.attempts.length
      attempts := s.disconnect.attempts ++ [{ aborted := false, phase := .fetching none }] }

/-- The `catch` of `connect`, for an error other than an abort. -/
def caught (s : Sse) : Sse :=
  if s.reconnectAttempts < maxReconnectAttempts then
    { s with
      isSSEConnected := false
      isConnecting := false
      reconnectAttempts := s.reconnectAttempts + 1
      -- the delay grows with the attempts
      timers := s.timers ++ [reconnectDelay * (s.reconnectAttempts + 1)] }
  else { s with isSSEConnected := false, isConnecting := false }

/-- The attempt `a`, which is the `k`-th one, goes on with what it awaited, if that is settled. -/
def resumeAttempt (s : Sse) (k : ℕ) (a : Attempt) : Option Sse :=
  match a.phase with
  | .fetching none => none
  -- an abort is not reported, and the flags are left to whoever has aborted
  | .fetching (some (.error .abort)) => some (s.setPhase k .returned)
  | .fetching (some (.error .other)) => some (s.setPhase k .returned).caught
  | .fetching (some (.ok response)) =>
    if !okStatus response.status then some (s.setPhase k .errorBody)
    else if !response.hasBody then some (s.setPhase k .returned).caught
    else
      some
        { s.setPhase k (.reading [] a.nextRead) with
          isSSEConnected := true
          reconnectAttempts := 0
          isConnecting := false }
  -- whether its body could be read or not, the error is thrown
  | .errorBody => some (s.setPhase k .returned).caught
  | .reading _ none => none
  | .reading buffer (some (.ok (some chunk))) =>
    some
      { s.setPhase k (.reading (readChunk buffer chunk).1 a.nextRead) with
        handed := s.handed ++ (readChunk buffer chunk).2 }
  -- the end of the stream leaves the loop, and nothing follows it
  | .reading _ (some (.ok none)) => some (s.setPhase k .returned)
  | .reading _ (some (.error .abort)) => some (s.setPhase k .returned)
  | .reading _ (some (.error .other)) => some (s.setPhase k .returned).caught
  | .returned => none

/-- What happens: a call, an outcome of a request or of a read that was not settled, an attempt
resuming, a timer, a change of the identity. -/
inductive Move
  | connect
  | disconnect
  | fetched (k : ℕ) (o : Except Unit StreamResponse)
  | read (k : ℕ) (o : Except Unit (Option Text))
  | resume (k : ℕ)
  | fire (i : ℕ)
  | identify (isAuthenticated : Bool)

/-- One move, if it can be taken. -/
def step (s : Sse) : Move → Option Sse
  | .connect => some s.connect
  | .disconnect => some s.disconnect
  | .fetched k o =>
    match s.attempts[k]? with
    | some { aborted := _, phase := .fetching none } =>
      some (s.setPhase k (.fetching (some (o.mapError fun _ => .other))))
    | _ => none
  | .read k o =>
    match s.attempts[k]? with
    | some { aborted := _, phase := .reading buffer none } =>
      some (s.setPhase k (.reading buffer (some (o.mapError fun _ => .other))))
    | _ => none
  | .resume k => (s.attempts[k]?).bind (s.resumeAttempt k)
  | .fire i =>
    if i < s.timers.length then some { s with timers := s.timers.eraseIdx i }.connect else none
  | .identify isAuthenticated => some { s with isAuthenticated := isAuthenticated }

/-! ## What moves do -/

section

variable {s s' : Sse} {k : ℕ} {a : Attempt} {phase : Phase}

theorem getElem?_setPhase (s : Sse) (k j : ℕ) (phase : Phase) :
    (s.setPhase k phase).attempts[j]? =
      if k = j then s.attempts[j]?.map fun a => { a with phase := phase } else s.attempts[j]? := by
  rw [setPhase, List.getElem?_modify]
  split <;> simp

/-- An attempt after the `k`-th one went on to a phase. -/
theorem setPhase_cases {j : ℕ} {b : Attempt} (h : (s.setPhase k phase).attempts[j]? = some b) :
    (j = k ∧ ∃ a, s.attempts[k]? = some a ∧ b = { a with phase := phase }) ∨
      j ≠ k ∧ s.attempts[j]? = some b := by
  rw [getElem?_setPhase] at h
  by_cases hj : k = j
  · subst hj
    rw [if_pos rfl] at h
    obtain ⟨a, ha, rfl⟩ := Option.map_eq_some_iff.mp h
    exact .inl ⟨rfl, a, ha, rfl⟩
  · rw [if_neg hj] at h
    exact .inr ⟨Ne.symm hj, h⟩

@[simp]
theorem isSSEConnected_caught (s : Sse) : s.caught.isSSEConnected = false := by
  unfold caught
  split <;> rfl

@[simp]
theorem isConnecting_caught (s : Sse) : s.caught.isConnecting = false := by
  unfold caught
  split <;> rfl

@[simp]
theorem attempts_caught (s : Sse) : s.caught.attempts = s.attempts := by
  unfold caught
  split <;> rfl

@[simp]
theorem abortController_caught (s : Sse) : s.caught.abortController = s.abortController := by
  unfold caught
  split <;> rfl

/-- What an attempt does when it resumes: it opens its stream; it fails, and schedules the next
one; or it goes on without touching the flags. -/
theorem resumeAttempt_cases (h : s.resumeAttempt k a = some s') :
    (a.opens = true ∧ s' =
      { s.setPhase k (.reading [] a.nextRead) with
        isSSEConnected := true
        reconnectAttempts := 0
        isConnecting := false }) ∨
    (a.opens = false ∧ a.closes = false ∧ s' = (s.setPhase k .returned).caught) ∨
    ∃ phase handed, s' = { s.setPhase k phase with handed := handed } ∧
      (a.opens = false ∧ a.breaks = false) ∧ (a.closes = true → phase = .returned) ∧
      (∀ buffer o, phase = .reading buffer o → o = a.nextRead) ∧
      (a.isOpen = true → a.closes = false → a.isRejected = false →
        ∃ buffer, phase = .reading buffer a.nextRead) := by
  unfold resumeAttempt at h
  cases hphase : a.phase with
  | fetching o =>
    rw [hphase] at h
    rcases o with _ | (_ | _) | response
    · cases h
    · -- aborted
      cases h
      exact .inr (.inr ⟨.returned, s.handed, rfl, by simp [Attempt.opens, Attempt.breaks, hphase],
        fun _ => rfl, nofun, by simp [Attempt.isOpen, hphase]⟩)
    · cases h
      exact .inr (.inl (by simp [Attempt.opens, Attempt.closes, hphase]))
    · by_cases hok : okStatus response.status = true
      · by_cases hbody : response.hasBody = true
        · simp only [hok, hbody, Bool.not_true, Bool.false_eq_true, if_false,
            Option.some.injEq] at h
          exact .inl ⟨by simp [Attempt.opens, hphase, hok, hbody], h.symm⟩
        · simp only [hok, hbody, Bool.not_true, Bool.false_eq_true, if_false, Bool.not_false,
            if_true, Option.some.injEq] at h
          exact .inr (.inl ⟨by simp [Attempt.opens, hphase, hbody],
            by simp [Attempt.closes, hphase], h.symm⟩)
      · simp only [hok, Bool.not_false, if_true, Option.some.injEq] at h
        exact .inr (.inr ⟨.errorBody, s.handed, h.symm,
          by simp [Attempt.opens, Attempt.breaks, hphase, hok], by simp [Attempt.closes, hphase],
          nofun, by simp [Attempt.isOpen, hphase]⟩)
  | errorBody =>
    rw [hphase] at h
    cases h
    exact .inr (.inl (by simp [Attempt.opens, Attempt.closes, hphase]))
  | reading buffer o =>
    rw [hphase] at h
    rcases o with _ | (_ | _) | (_ | chunk)
    · cases h
    · -- rejected, the stream was aborted
      cases h
      exact .inr (.inr ⟨.returned, s.handed, rfl, by simp [Attempt.opens, Attempt.breaks, hphase],
        fun _ => rfl, nofun, by simp [Attempt.isRejected, hphase]⟩)
    · cases h
      exact .inr (.inl (by simp [Attempt.opens, Attempt.closes, hphase]))
    · -- the end of the stream
      cases h
      exact .inr (.inr ⟨.returned, s.handed, rfl, by simp [Attempt.opens, Attempt.breaks, hphase],
        fun _ => rfl, nofun, by simp [Attempt.closes, hphase]⟩)
    · cases h
      refine .inr (.inr ⟨.reading (readChunk buffer chunk).1 a.nextRead, _, rfl,
        by simp [Attempt.opens, Attempt.breaks, hphase], by simp [Attempt.closes, hphase],
        fun _ _ heq => by cases heq; rfl, fun _ _ _ => ⟨_, rfl⟩⟩)
  | returned =>
    rw [hphase] at h
    cases h

/-- What a move does: it is a call; it gives an outcome to an attempt that has not returned, which
opens or closes no stream and is no abort; an attempt resumes; a timer calls `connect`; or the
identity changes. -/
theorem step_cases {m : Move} (h : s.step m = some s') :
    (m = .connect ∧ s' = s.connect) ∨
    (m = .disconnect ∧ s' = s.disconnect) ∨
    (∃ k a phase, s.attempts[k]? = some a ∧ s' = s.setPhase k phase ∧
      ({ a with phase := phase } : Attempt).isOpen = a.isOpen ∧
      ({ a with phase := phase } : Attempt).isRejected = false ∧ a.isReturned = false ∧
      ∀ k, m ≠ .resume k) ∨
    (∃ k a, m = .resume k ∧ s.attempts[k]? = some a ∧ s.resumeAttempt k a = some s') ∨
    (∃ i, m = .fire i ∧ s' = { s with timers := s.timers.eraseIdx i }.connect ∧
      i < s.timers.length) ∨
    ∃ isAuthenticated, m = .identify isAuthenticated ∧
      s' = { s with isAuthenticated := isAuthenticated } := by
  cases m with
  | connect =>
    cases h
    exact .inl ⟨rfl, rfl⟩
  | disconnect =>
    cases h
    exact .inr (.inl ⟨rfl, rfl⟩)
  | fetched k o =>
    -- only for an attempt that awaits its response
    simp only [Sse.step] at h
    split at h
    · next aborted ha =>
      cases h
      exact .inr (.inr (.inl ⟨k, _, _, ha, rfl, rfl, rfl, rfl, nofun⟩))
    · cases h
  | read k o =>
    -- only for one that awaits a chunk
    simp only [Sse.step] at h
    split at h
    · next aborted buffer ha =>
      cases h
      exact .inr (.inr (.inl ⟨k, _, _, ha, rfl, rfl, by cases o <;> rfl, rfl, nofun⟩))
    · cases h
  | resume k =>
    obtain ⟨a, ha, hresume⟩ := Option.bind_eq_some_iff.mp h
    exact .inr (.inr (.inr (.inl ⟨k, a, rfl, ha, hresume⟩)))
  | fire i =>
    simp only [Sse.step] at h
    split at h
    · next hi =>
      cases h
      exact .inr (.inr (.inr (.inr (.inl ⟨i, rfl, rfl, hi⟩))))
    · cases h
  | identify isAuthenticated =>
    cases h
    exact .inr (.inr (.inr (.inr (.inr ⟨isAuthenticated, rfl, rfl⟩))))

/-! ## Controllers -/

/-- Every attempt but the one whose controller is kept was aborted, and only an aborted stream is
seen to be. -/
structure WellFormed (s : Sse) : Prop where
  current : ∀ (k : ℕ) a, s.attempts[k]? = some a → a.aborted = false → s.abortController = some k
  rejected : ∀ (k : ℕ) a, s.attempts[k]? = some a → a.isRejected = true → a.aborted = true

theorem wellFormed_init (isAuthenticated : Bool) : (init isAuthenticated).WellFormed :=
  ⟨nofun, nofun⟩

/-- Only attempts and the controller matter. -/
theorem WellFormed.congr (h : s.WellFormed) (ha : s'.attempts = s.attempts)
    (hc : s'.abortController = s.abortController) : s'.WellFormed :=
  ⟨by rw [ha, hc]; exact h.current, by rw [ha]; exact h.rejected⟩

/-- After `disconnect` every attempt is aborted. -/
theorem WellFormed.aborted_disconnect (h : s.WellFormed) {j : ℕ} {b : Attempt}
    (hb : s.disconnect.attempts[j]? = some b) : b.aborted = true := by
  by_contra hopen
  rw [Bool.not_eq_true] at hopen
  change s.abortCurrent[j]? = some b at hb
  unfold abortCurrent at hb
  cases hc : s.abortController with
  | none =>
    -- without a controller nothing is left to abort
    rw [hc] at hb
    have hcurrent := h.current j b hb hopen
    rw [hc] at hcurrent
    cases hcurrent
  | some c =>
    rw [hc] at hb
    simp only [List.getElem?_modify] at hb
    by_cases hj : c = j
    · subst hj
      simp only [if_true] at hb
      obtain ⟨a, -, rfl⟩ := Option.map_eq_some_iff.mp hb
      cases hopen
    · simp only [if_neg hj, id_map'] at hb
      have hcurrent := h.current j b hb hopen
      rw [hc, Option.some.injEq] at hcurrent
      exact hj hcurrent

/-- Disconnecting keeps that. -/
theorem WellFormed.disconnect (h : s.WellFormed) : s.disconnect.WellFormed where
  current j b hb hopen := by
    rw [h.aborted_disconnect hb] at hopen
    cases hopen
  rejected j b hb _ := h.aborted_disconnect hb

/-- `connect` returns at once, or disconnects, or disconnects and starts another attempt. -/
theorem connect_cases (s : Sse) : s.connect = s ∧ s.isConnecting = true ∨
    s.connect = s.disconnect ∧ s.isConnecting = false ∧ s.isAuthenticated = false ∨
    (s.isConnecting = false ∧ s.isAuthenticated = true ∧
      s.connect =
        { s.disconnect with
          isConnecting := true
          abortController := some s.disconnect.attempts.length
          attempts := s.disconnect.attempts ++ [⟨false, .fetching none⟩] }) := by
  unfold connect
  -- the two guards of `connect`, in order
  cases hc : s.isConnecting with
  | true => exact .inl ⟨rfl, rfl⟩
  | false =>
    cases ha : s.isAuthenticated with
    | false => exact .inr (.inl ⟨rfl, rfl, rfl⟩)
    | true => exact .inr (.inr ⟨rfl, rfl, rfl⟩)

/-- Connecting keeps it. -/
theorem WellFormed.connect (h : s.WellFormed) : s.connect.WellFormed := by
  rcases connect_cases s with ⟨heq, -⟩ | ⟨heq, -⟩ | ⟨-, -, heq⟩
  · rwa [heq]
  · rw [heq]
    exact h.disconnect
  · rw [heq]
    -- the attempts before the new one are aborted
    have hold (j : ℕ) (b : Attempt) (hb : (s.disconnect.attempts ++
        [{ aborted := false, phase := .fetching none }])[j]? = some b) :
        b.aborted = true ∨ j = s.disconnect.attempts.length ∧
          b = { aborted := false, phase := .fetching none } := by
      rcases Nat.lt_trichotomy j s.disconnect.attempts.length with hlt | rfl | hgt
      · rw [List.getElem?_append_left hlt] at hb
        exact .inl (h.aborted_disconnect hb)
      · rw [List.getElem?_concat_length, Option.some.injEq] at hb
        exact .inr ⟨rfl, hb.symm⟩
      · rw [List.getElem?_eq_none (by simp; omega)] at hb
        cases hb
    constructor
    · intro j b hb hopen
      rcases hold j b hb with haborted | ⟨rfl, -⟩
      · rw [haborted] at hopen
        cases hopen
      · rfl
    · intro j b hb hrejected
      rcases hold j b hb with haborted | ⟨-, rfl⟩
      · exact haborted
      · cases hrejected

/-- An attempt that goes on keeps it, when it is rejected only if it was aborted. -/
theorem WellFormed.setPhase (h : s.WellFormed) (ha : s.attempts[k]? = some a) (phase : Phase)
    (hphase : ({ a with phase := phase } : Attempt).isRejected = true → a.aborted = true) :
    (s.setPhase k phase).WellFormed := by
  constructor
  -- going on to a phase aborts nothing, and makes nothing current
  · intro j b hb hopen
    rcases setPhase_cases hb with ⟨rfl, a', ha', rfl⟩ | ⟨-, hb⟩
    · exact h.current j a' ha' hopen
    · exact h.current j b hb hopen
  · intro j b hb hrejected
    rcases setPhase_cases hb with ⟨rfl, a', ha', rfl⟩ | ⟨-, hb⟩
    · rw [ha, Option.some.injEq] at ha'
      subst ha'
      exact hphase hrejected
    · exact h.rejected j b hb hrejected

/-- A read is only seen to be rejected where the attempt is aborted. -/
theorem aborted_of_nextRead {buffer : Text}
    (h : ({ a with phase := .reading buffer a.nextRead } : Attempt).isRejected = true) :
    a.aborted = true := by
  cases haborted : a.aborted with
  | true => rfl
  | false => simp [Attempt.isRejected, Attempt.nextRead, haborted] at h

/-- An attempt that is resumed keeps it. -/
theorem WellFormed.resume (h : s.WellFormed) (ha : s.attempts[k]? = some a)
    (hs : s.resumeAttempt k a = some s') : s'.WellFormed := by
  -- a response is accepted, or an error is caught, or neither
  rcases resumeAttempt_cases hs with ⟨-, rfl⟩ | ⟨-, -, rfl⟩ | ⟨phase, handed, rfl, -, -, hread, -⟩
  · exact (h.setPhase ha _ aborted_of_nextRead).congr rfl rfl
  · exact (h.setPhase ha .returned nofun).congr (attempts_caught _) (abortController_caught _)
  · refine (h.setPhase ha phase fun hrejected => ?_).congr rfl rfl
    cases phase with
    | reading buffer o =>
      rw [hread buffer o rfl] at hrejected
      exact aborted_of_nextRead hrejected
    | _ => cases hrejected

/-- Every step keeps it. -/
theorem WellFormed.step {m : Move} (h : s.WellFormed) (hs : s.step m = some s') :
    s'.WellFormed := by
  rcases step_cases hs with ⟨-, rfl⟩ | ⟨-, rfl⟩ | ⟨k, a, phase, ha, rfl, -, hnot, -⟩ |
    ⟨k, a, -, ha, hresume⟩ | ⟨i, -, rfl, -⟩ | ⟨isAuthenticated, -, rfl⟩
  · exact h.connect
  · exact h.disconnect
  · -- no outcome from outside is an abort
    refine h.setPhase ha phase fun hrejected => ?_
    rw [hnot] at hrejected
    cases hrejected
  · exact h.resume ha hresume
  · -- a timer calls `connect`
    have hfired : ({ s with timers := s.timers.eraseIdx i } : Sse).WellFormed := h.congr rfl rfl
    exact hfired.connect
  · exact h.congr rfl rfl

/-! ## The flag and the streams -/

/-- A response stream that the instance opened is open. -/
def Streams (s : Sse) : Prop := ∃ a ∈ s.attempts, a.isOpen = true

/-- A reconnect is scheduled, or in progress. -/
def Reconnects (s : Sse) : Prop := s.timers ≠ [] ∨ ∃ a ∈ s.attempts, a.isFetching = true

/-- With this move a stream ends that was not aborted. -/
def StreamEnds (s : Sse) : Move → Prop
  | .resume k =>
    ∃ a ∈ s.attempts[k]?, a.aborted = false ∧ (a.closes = true ∨ a.breaks = true)
  | _ => False

/-- The move runs into no exit that is not handled: an attempt that was aborted sees a success only
while a stream is open; and one that was not aborted sees the end of its stream only when the flag
is down already and a reconnect scheduled, or the attempts used up. -/
def Sound (s : Sse) : Move → Prop
  | .resume k => ∀ a ∈ s.attempts[k]?,
    (a.opens = true → a.aborted = false ∨ s.Streams) ∧
      (a.closes = true → a.aborted = true ∨ s.isSSEConnected = false ∧
        (s.timers ≠ [] ∨ maxReconnectAttempts ≤ s.reconnectAttempts))
  | _ => True

instance : DecidablePred Streams := fun s =>
  inferInstanceAs (Decidable (∃ a ∈ s.attempts, a.isOpen = true))

instance : DecidablePred Reconnects := fun s =>
  inferInstanceAs (Decidable (_ ∨ ∃ a ∈ s.attempts, a.isFetching = true))

instance decidableSound (s : Sse) (m : Move) : Decidable (s.Sound m) :=
  match m with
  | .resume k =>
    inferInstanceAs (Decidable (∀ a ∈ s.attempts[k]?,
      (a.opens = true → a.aborted = false ∨ s.Streams) ∧
        (a.closes = true → a.aborted = true ∨ s.isSSEConnected = false ∧
          (s.timers ≠ [] ∨ maxReconnectAttempts ≤ s.reconnectAttempts))))
  | .connect | .disconnect | .fetched _ _ | .read _ _ | .fire _ | .identify _ => .isTrue trivial

/-- A stream stays open when an attempt goes on, unless it was the stream of this attempt. -/
theorem streams_setPhase (h : s.Streams) (ha : s.attempts[k]? = some a)
    (hopen : a.isOpen = true → ({ a with phase := phase } : Attempt).isOpen = true) :
    (s.setPhase k phase).Streams := by
  obtain ⟨b, hb, hbopen⟩ := h
  obtain ⟨j, hj⟩ := List.mem_iff_getElem?.mp hb
  have hget := getElem?_setPhase s k j phase
  by_cases hkj : k = j
  · subst hkj
    rw [ha, Option.some.injEq] at hj
    subst hj
    rw [if_pos rfl, ha] at hget
    exact ⟨_, List.mem_of_getElem? hget, hopen hbopen⟩
  · rw [if_neg hkj, hj] at hget
    exact ⟨b, List.mem_of_getElem? hget, hbopen⟩

/-- When an attempt that was not aborted has returned, nothing is open or being fetched. -/
theorem WellFormed.quiet_returned (h : s.WellFormed) (ha : s.attempts[k]? = some a)
    (haborted : a.aborted = false) :
    ∀ b ∈ (s.setPhase k .returned).attempts, b.isOpen = false ∧ b.isFetching = false := by
  intro b hb
  obtain ⟨j, hj⟩ := List.mem_iff_getElem?.mp hb
  rcases setPhase_cases hj with ⟨rfl, a', -, rfl⟩ | ⟨hne, hj⟩
  · exact ⟨Bool.and_false _, Bool.and_false _⟩
  · cases hb : b.aborted with
    | true => simp [Attempt.isOpen, Attempt.isFetching, hb]
    | false =>
      -- two attempts that were not aborted both have the controller, so they are one
      have hj := h.current j b hj hb
      rw [h.current k a ha haborted, Option.some.injEq] at hj
      exact absurd hj.symm hne

theorem opens_of_closes (h : a.closes = true) : a.opens = false ∧ a.breaks = false := by
  unfold Attempt.closes at h
  split at h
  · next hphase => simp [Attempt.opens, Attempt.breaks, hphase]
  · cases h

theorem opens_of_breaks (h : a.breaks = true) : a.opens = false := by
  unfold Attempt.breaks at h
  split at h
  · next hphase => simp [Attempt.opens, hphase]
  · cases h

theorem isOpen_of_opens (h : a.opens = true) : a.isOpen = false := by
  unfold Attempt.opens at h
  split at h
  · next hphase => simp [Attempt.isOpen, hphase]
  · cases h

/-- The flag is only set while a stream is open. -/
def Live (s : Sse) : Prop := s.isSSEConnected = true → s.Streams

/-- Without the flag nothing has to be open. -/
theorem live_of_down (h : s.isSSEConnected = false) : s.Live := by
  intro hup
  rw [h] at hup
  cases hup

/-- Connecting keeps the flag and the stream together. -/
theorem Live.connect (h : s.Live) : s.connect.Live := by
  rcases connect_cases s with ⟨heq, -⟩ | ⟨heq, -⟩ | ⟨-, -, heq⟩
  · rwa [heq]
  · rw [heq]
    exact live_of_down rfl
  · rw [heq]
    exact live_of_down rfl

/-- So does resuming an attempt that does not end its stream by itself. -/
theorem Live.resume (h : s.Live) (hs : s.WellFormed) (ha : s.attempts[k]? = some a)
    (hsound : s.Sound (.resume k)) (hresume : s.resumeAttempt k a = some s') : s'.Live := by
  obtain ⟨hopens, hcloses⟩ := hsound a ha
  rcases resumeAttempt_cases hresume with
    ⟨hsuccess, rfl⟩ | ⟨-, -, rfl⟩ | ⟨phase, handed, rfl, -, -, -, hstays⟩
  · -- the flag is set: the move is sound, so some stream is open to justify it
    intro _
    rcases hopens hsuccess with hmine | hstreams
    · -- its own stream is open
      refine ⟨{ a with phase := .reading [] a.nextRead }, List.mem_of_getElem? (i := k) ?_, ?_⟩
      · have hget := getElem?_setPhase s k k (.reading [] a.nextRead)
        rw [if_pos rfl, ha] at hget
        exact hget
      · simp [Attempt.isOpen, hmine]
    · refine streams_setPhase hstreams ha fun hopen => ?_
      rw [isOpen_of_opens hsuccess] at hopen
      cases hopen
  · exact live_of_down (isSSEConnected_caught _)
  · -- the flag stays: an open stream that is read on is open still
    intro hup
    refine streams_setPhase (h hup) ha fun hopen => ?_
    have haborted : a.aborted = false := by
      rw [Attempt.isOpen, Bool.and_eq_true, Bool.not_eq_true'] at hopen
      exact hopen.1
    have hnotCloses : a.closes = false := by
      by_contra hc
      rcases hcloses (Bool.not_eq_false _ ▸ hc) with h' | ⟨hdown, -⟩
      · rw [haborted] at h'
        cases h'
      · exact absurd (hdown.symm.trans hup) Bool.false_ne_true
    have hnotRejected : a.isRejected = false := by
      by_contra hr
      have h' := hs.rejected k a ha (Bool.not_eq_false _ ▸ hr)
      rw [haborted] at h'
      cases h'
    obtain ⟨buffer, rfl⟩ := hstays hopen hnotCloses hnotRejected
    simp [Attempt.isOpen, haborted]

/-- So does every step of which this is true. -/
theorem Live.step {m : Move} (h : s.Live) (hs : s.WellFormed) (hsound : s.Sound m)
    (hstep : s.step m = some s') : s'.Live := by
  rcases step_cases hstep with ⟨-, rfl⟩ | ⟨-, rfl⟩ | ⟨k, a, phase, ha, rfl, hsame, -⟩ |
    ⟨k, a, rfl, ha, hresume⟩ | ⟨i, -, rfl, -⟩ | ⟨isAuthenticated, -, rfl⟩
  · exact h.connect
  · exact live_of_down rfl
  · exact fun hup => streams_setPhase (h hup) ha fun hopen => hsame.trans hopen
  · exact h.resume hs ha hsound hresume
  · have hfired : ({ s with timers := s.timers.eraseIdx i } : Sse).Live := h
    exact hfired.connect
  · exact h

/-- An error of a stream schedules a reconnect, unless the attempts are used up. -/
theorem reconnects_of_breaks (ha : s.resumeAttempt k a = some s') (hbreaks : a.breaks = true)
    (hmax : s.reconnectAttempts < maxReconnectAttempts) : s'.Reconnects := by
  rcases resumeAttempt_cases ha with ⟨hopens, -⟩ | ⟨-, -, rfl⟩ | ⟨phase, handed, -, ⟨-, hnot⟩, -⟩
  · rw [opens_of_breaks hbreaks] at hopens
    cases hopens
  · refine .inl ?_
    have hmax' : (s.setPhase k .returned).reconnectAttempts < maxReconnectAttempts := hmax
    simp [caught, hmax']
  · rw [hbreaks] at hnot
    cases hnot

/-- The end of a stream leaves the flag and the timers as they are. -/
theorem resume_of_closes (ha : s.resumeAttempt k a = some s') (hcloses : a.closes = true) :
    ∃ handed, s' = { s.setPhase k .returned with handed := handed } := by
  rcases resumeAttempt_cases ha with ⟨hopens, -⟩ | ⟨-, hnot, -⟩ | ⟨phase, handed, rfl, -, hphase, -⟩
  · rw [(opens_of_closes hcloses).1] at hopens
    cases hopens
  · rw [hcloses] at hnot
    cases hnot
  · rw [hphase hcloses]
    exact ⟨handed, rfl⟩

/-- A stream that ends is connected again, in a move that runs into no unhandled exit. -/
theorem reconnects_of_sound {m : Move} (hstep : s.step m = some s') (hsound : s.Sound m)
    (hends : s.StreamEnds m) (hmax : s.reconnectAttempts < maxReconnectAttempts) :
    s'.Reconnects := by
  cases m with
  | resume k =>
    obtain ⟨a, ha, haborted, hends⟩ := hends
    obtain ⟨a', ha', hresume⟩ := Option.bind_eq_some_iff.mp hstep
    obtain rfl : a = a' := Option.some.inj (ha.symm.trans ha')
    rcases hends with hcloses | hbreaks
    -- the stream has closed by itself, which is sound with a timer set or no attempt left
    · obtain ⟨handed, rfl⟩ := resume_of_closes hresume hcloses
      rcases (hsound a ha).2 hcloses with h | ⟨-, htimers | hused⟩
      · rw [haborted] at h
        cases h
      · exact .inl htimers
      · exact absurd hmax (Nat.not_lt.mpr hused)
    · exact reconnects_of_breaks hresume hbreaks hmax
  | _ => exact hends.elim

/-- A move that runs into one leaves the flag up without a stream, or a stream that is not connected
again. -/
theorem stale_of_not_sound {m : Move} (h : s.WellFormed) (hstep : s.step m = some s')
    (hsound : ¬s.Sound m) : s'.isSSEConnected = true ∧ ¬s'.Streams ∨
      s.StreamEnds m ∧ s.reconnectAttempts < maxReconnectAttempts ∧ ¬s'.Reconnects := by
  cases m with
  | resume k =>
    obtain ⟨a, ha, hresume⟩ := Option.bind_eq_some_iff.mp hstep
    have hbad : ¬((a.opens = true → a.aborted = false ∨ s.Streams) ∧
        (a.closes = true → a.aborted = true ∨ s.isSSEConnected = false ∧
          (s.timers ≠ [] ∨ maxReconnectAttempts ≤ s.reconnectAttempts))) := by
      intro hgood
      refine hsound fun a' ha' => ?_
      obtain rfl : a = a' := Option.some.inj (ha.symm.trans ha')
      exact hgood
    rw [not_and_or, Classical.not_imp, Classical.not_imp, not_or, not_or, not_and_or, not_or,
      not_not, Nat.not_le, Bool.not_eq_false, Bool.not_eq_false, Bool.not_eq_true] at hbad
    rcases hbad with ⟨hopens, haborted, hnone⟩ | ⟨hcloses, haborted, hstale⟩
    · -- the success of an aborted attempt
      rcases resumeAttempt_cases hresume with
        ⟨-, rfl⟩ | ⟨hnot, -⟩ | ⟨phase, handed, -, ⟨hnot, -⟩, -⟩
      · refine .inl ⟨rfl, ?_⟩
        rintro ⟨b, hb, hbopen⟩
        obtain ⟨j, hj⟩ := List.mem_iff_getElem?.mp hb
        rcases setPhase_cases hj with ⟨rfl, a', ha', rfl⟩ | ⟨-, hj⟩
        · obtain rfl : a = a' := Option.some.inj (ha.symm.trans ha')
          rw [Attempt.isOpen, haborted] at hbopen
          cases hbopen
        · exact hnone ⟨b, List.mem_of_getElem? hj, hbopen⟩
      · rw [hopens] at hnot
        cases hnot
      · rw [hopens] at hnot
        cases hnot
    · -- the end of the stream of the attempt that is under way
      obtain ⟨handed, rfl⟩ := resume_of_closes hresume hcloses
      have hquiet := h.quiet_returned ha haborted
      rcases hstale with hup | ⟨htimers, hmax⟩
      · refine .inl ⟨hup, ?_⟩
        rintro ⟨b, hb, hbopen⟩
        rw [(hquiet b hb).1] at hbopen
        cases hbopen
      · refine .inr ⟨⟨a, ha, haborted, .inl hcloses⟩, hmax, ?_⟩
        rintro (hne | ⟨b, hb, hbfetching⟩)
        · exact hne htimers
        · rw [(hquiet b hb).2] at hbfetching
          cases hbfetching
  | _ => exact absurd trivial hsound

end

/-- In every run whose moves run into no unhandled exit, the flag is only set while a stream is
open, and a stream that ends is connected again, as long as attempts are left. A move that runs into
one breaks that. -/
theorem live_of_sound {isAuthenticated : Bool} {s : Sse}
    (h : Reaches step Sound (init isAuthenticated) s) :
    (s.isSSEConnected = true → s.Streams) ∧
      (∀ m s', s.step m = some s' → s.Sound m → s.StreamEnds m →
        s.reconnectAttempts < maxReconnectAttempts → s'.Reconnects) ∧
      ∀ m s', s.step m = some s' → ¬s.Sound m → s'.isSSEConnected = true ∧ ¬s'.Streams ∨
        s.StreamEnds m ∧ s.reconnectAttempts < maxReconnectAttempts ∧ ¬s'.Reconnects := by
  -- the two invariants are kept together
  have hinv : s.WellFormed ∧ s.Live := by
    refine h.invariant (I := fun s => s.WellFormed ∧ s.Live)
      ⟨wellFormed_init isAuthenticated, live_of_down rfl⟩ fun s m s' hI hsound hstep => ?_
    exact ⟨hI.1.step hstep, hI.2.step hI.1 hsound hstep⟩
  exact ⟨hinv.2, fun m s' hstep => reconnects_of_sound hstep,
    fun m s' hstep => stale_of_not_sound hinv.1 hstep⟩

/-! ## Two streams -/

/-- A stream is opened. -/
def opened : List Move :=
  [.connect, .fetched 0 (.ok ⟨200, true⟩), .resume 0]

/-- Then it breaks. -/
def broken : List Move := opened ++ [.read 0 (.error ())]

/-- The instance after these moves. -/
def after (ms : List Move) : Sse := (play step (init true) ms).getD (init true)

theorem reaches_after {C : Sse → Move → Prop} {ms : List Move}
    (hplay : (play step (init true) ms).isSome = true) (hms : Meets step C (init true) ms) :
    Reaches step C (init true) (after ms) := by
  obtain ⟨s, hs⟩ := Option.isSome_iff_exists.mp hplay
  rw [after, hs]
  exact reaches_of_play hs hms

/-- The flag is set while the stream is open, and when it breaks a reconnect is scheduled. -/
theorem broken_reconnects : (after broken).isSSEConnected = true ∧ (after broken).Streams ∧
    ∃ s', (after broken).step (.resume 0) = some s' ∧ s'.isSSEConnected = false ∧
      s'.Reconnects := by
  have hrun : Reaches step Sound (init true) (after broken) :=
    reaches_after (by decide) (by decide)
  have hlive := live_of_sound hrun
  have hup : (after broken).isSSEConnected = true := by decide
  refine ⟨hup, hlive.1 hup, _, rfl, rfl, hlive.2.1 (.resume 0) _ rfl (by decide) ?_ (by decide)⟩
  exact ⟨_, rfl, rfl, .inr rfl⟩

/-- The server closes the stream, and the attempt sees that. -/
def closed : List Move := opened ++ [.read 0 (.ok none), .resume 0]

/-- The flag is left set, no stream is open, and no reconnect is scheduled. -/
theorem closed_stale : (after closed).isSSEConnected = true ∧ ¬(after closed).Streams ∧
    ¬(after closed).Reconnects ∧
    ¬∀ isAuthenticated s, Reaches step (fun _ _ => True) (init isAuthenticated) s →
      (s.isSSEConnected = true → s.Streams) ∧
        ∀ m s', s.step m = some s' → s.StreamEnds m →
          s.reconnectAttempts < maxReconnectAttempts → s'.Reconnects := by
  have hup : (after closed).isSSEConnected = true := by decide
  have hnone : ¬(after closed).Streams := by decide
  have hrun : Reaches step (fun _ _ => True) (init true) (after closed) :=
    reaches_after (by decide) (by decide)
  exact ⟨hup, hnone, by decide, fun h => hnone ((h true _ hrun).1 hup)⟩

end Sse

end Console
