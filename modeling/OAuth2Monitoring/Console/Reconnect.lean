import OAuth2Monitoring.Console.Sse
import OAuth2Monitoring.ToMathlib.Modify

/-!
# How many requests an instance makes

Every call of `connect` aborts the attempt before it, so that one stream is live at most, whatever
the order of calls, outcomes and timers. Left to itself after its first call, an instance has one
thing to do at a time, an attempt or a reconnect timer, and gives up after a bounded number of
attempts without an accepted response.

## Main definitions

* `Sse.SingleStream`: one stream at most is live, that of the current controller.
* `Sse.Autonomous`: the moves other than calls from outside.

## Main results

* `Sse.underway_le_one`: an instance left to itself does one thing at a time.
* `Sse.reconnects_bounded`: the bounds on streams, timers and requests.
-/

namespace Console

open JsStd Transitions

namespace Sse

/-! ## Streams -/

/-- Every attempt but the one of the current controller is aborted or has returned, so that one at
most is neither. -/
structure SingleStream (s : Sse) : Prop where
  /-- The others are aborted or have returned. -/
  others : ∀ (k : ℕ) a, s.attempts[k]? = some a → s.abortController ≠ some k →
    a.aborted = true ∨ a.isReturned = true
  /-- Those that are neither are one and the same. -/
  unique : ∀ (j k : ℕ) a b, s.attempts[j]? = some a → s.attempts[k]? = some b →
    ¬ (a.aborted = true ∨ a.isReturned = true) → ¬ (b.aborted = true ∨ b.isReturned = true) →
    j = k

/-- A well-formed composable has one stream at most. -/
theorem WellFormed.singleStream {s : Sse} (h : s.WellFormed) : s.SingleStream := by
  have hothers : ∀ (k : ℕ) a, s.attempts[k]? = some a → s.abortController ≠ some k →
      a.aborted = true ∨ a.isReturned = true := by
    intro k a ha hk
    cases haborted : a.aborted with
    | true => exact .inl rfl
    | false => exact absurd (h.current k a ha haborted) hk
  refine ⟨hothers, fun j k a b ha hb hlive hlive' => ?_⟩
  -- both live attempts belong to the current controller
  have hj := not_imp_comm.mp (hothers j a ha) hlive
  have hk := not_imp_comm.mp (hothers k b hb) hlive'
  exact Option.some.inj (hj.symm.trans hk)

/-! ## What is under way -/

/-- The attempts that have not returned. -/
def underway (s : Sse) : ℕ := s.attempts.countP fun a => !a.isReturned

/-- The move is no call from outside. -/
def Autonomous (_ : Sse) : Move → Prop
  | .connect | .disconnect => False
  | _ => True

/-- The move accepts a response: a success with a body. -/
def Accepts (s : Sse) : Move → Prop
  | .resume k => ∃ a ∈ s.attempts[k]?, a.opens = true
  | _ => False

instance decidableAutonomous (s : Sse) (m : Move) : Decidable (s.Autonomous m) :=
  match m with
  | .connect | .disconnect => .isFalse id
  | .fetched _ _ | .read _ _ | .resume _ | .fire _ | .identify _ => .isTrue trivial

instance decidableAccepts (s : Sse) (m : Move) : Decidable (s.Accepts m) :=
  match m with
  | .resume k => inferInstanceAs (Decidable (∃ a ∈ s.attempts[k]?, a.opens = true))
  | .connect | .disconnect | .fetched _ _ | .read _ _ | .fire _ | .identify _ => .isFalse id

section

variable {s s' : Sse} {k : ℕ} {a : Attempt} {phase : Phase}

theorem isReturned_abort (a : Attempt) : a.abort.isReturned = a.isReturned := by
  unfold Attempt.abort Attempt.isReturned
  rcases a.phase with (_ | _) | _ | ⟨_, _ | _⟩ | _ <;> rfl

@[simp]
theorem underway_disconnect (s : Sse) : s.disconnect.underway = s.underway := by
  change s.abortCurrent.countP _ = _
  unfold abortCurrent
  split
  · rfl
  · exact List.countP_modify_of_same (fun a => by rw [isReturned_abort]) _ _

@[simp]
theorem length_attempts_disconnect (s : Sse) :
    s.disconnect.attempts.length = s.attempts.length := by
  change s.abortCurrent.length = _
  unfold abortCurrent
  split
  · rfl
  · exact List.length_modify ..

/-- `connect` starts one attempt at most. -/
theorem underway_connect (s : Sse) :
    s.connect.timers = s.timers ∧ s.connect.reconnectAttempts = s.reconnectAttempts ∧
      s.connect.underway ≤ s.underway + 1 ∧
      s.connect.attempts.length ≤ s.attempts.length + 1 := by
  rcases connect_cases s with ⟨heq, -⟩ | ⟨heq, -⟩ | ⟨-, -, heq⟩
  · rw [heq]
    exact ⟨rfl, rfl, Nat.le_succ _, Nat.le_succ _⟩
  · rw [heq, underway_disconnect, length_attempts_disconnect]
    exact ⟨rfl, rfl, Nat.le_succ _, Nat.le_succ _⟩
  · -- the attempt is started after the one before it was aborted, which ends none
    rw [heq]
    refine ⟨rfl, rfl, ?_, ?_⟩
    · have hold : s.disconnect.attempts.countP (fun a => !a.isReturned) = s.underway :=
        underway_disconnect s
      rw [underway, List.countP_append, hold]
      exact Nat.add_le_add_left (by decide) _
    · simp

/-- An attempt that goes on from a phase it has not returned in. -/
theorem underway_setPhase (ha : s.attempts[k]? = some a) (hnot : a.isReturned = false)
    (phase : Phase) :
    (s.setPhase k phase).underway + (if Attempt.isReturned ⟨a.aborted, phase⟩ then 1 else 0) =
      s.underway := by
  have hcount := List.countP_modify (fun a => !a.isReturned) (fun a => { a with phase := phase }) ha
  change (s.setPhase k phase).underway + _ = s.underway + _ at hcount
  rw [hnot] at hcount
  cases hret : Attempt.isReturned ⟨a.aborted, phase⟩ <;> simp_all

theorem isReturned_of_resume (h : s.resumeAttempt k a = some s') : a.isReturned = false := by
  unfold resumeAttempt at h
  unfold Attempt.isReturned
  split
  · next hphase =>
    rw [hphase] at h
    cases h
  · rfl

/-- The `catch` of an attempt: a timer is set and counted, unless the attempts are used up. -/
theorem caught_cases (s : Sse) :
    (s.reconnectAttempts < maxReconnectAttempts ∧
      s.caught.reconnectAttempts = s.reconnectAttempts + 1 ∧
      s.caught.timers.length = s.timers.length + 1) ∨
    (s.caught.reconnectAttempts = s.reconnectAttempts ∧
      s.caught.timers.length = s.timers.length) := by
  unfold caught
  split
  · next hlt => exact .inl ⟨hlt, rfl, by simp⟩
  · exact .inr ⟨rfl, rfl⟩

/-! ## One thing at a time -/

/-- What an attempt that goes on does to the counts: it is accepted and resets the counter, fails
and may set a timer in its place, or leaves the counter and the timers alone. -/
theorem counts_resumeAttempt (ha : s.attempts[k]? = some a)
    (h : s.resumeAttempt k a = some s') :
    s'.underway + s'.timers.length ≤ s.underway + s.timers.length ∧
      ((a.opens = true ∧ s'.reconnectAttempts = 0 ∧ 0 < s'.underway) ∨
        (a.opens = false ∧
          s'.attempts.length + s'.timers.length + s.reconnectAttempts ≤
            s.attempts.length + s.timers.length + s'.reconnectAttempts ∧
          (s.reconnectAttempts ≤ maxReconnectAttempts →
            s'.reconnectAttempts ≤ maxReconnectAttempts))) := by
  have hlength (phase : Phase) :
      (s.setPhase k phase).attempts.length = s.attempts.length := List.length_modify ..
  have hnot := isReturned_of_resume h
  rcases resumeAttempt_cases h with
    ⟨hopens, rfl⟩ | ⟨hopens, -, rfl⟩ | ⟨phase, handed, rfl, ⟨hopens, -⟩, -⟩
  · -- the response is accepted, and its stream under way
    have hcount := underway_setPhase ha hnot (.reading [] a.nextRead)
    rw [if_neg (by simp [Attempt.isReturned])] at hcount
    have hpos : 0 < s.underway :=
      List.countP_pos_iff.mpr ⟨a, List.mem_of_getElem? ha, by simp [hnot]⟩
    rw [Nat.add_zero] at hcount
    exact ⟨Nat.add_le_add_right hcount.le _, .inl ⟨hopens, rfl, hpos.trans_eq hcount.symm⟩⟩
  · -- the attempt fails, and may set a timer in its place
    have hcount := underway_setPhase ha hnot .returned
    rw [if_pos (show Attempt.isReturned ⟨a.aborted, .returned⟩ = true from rfl)] at hcount
    have hunderway : (s.setPhase k .returned).caught.underway =
        (s.setPhase k .returned).underway := by rw [underway, attempts_caught, underway]
    have hold : (s.setPhase k .returned).reconnectAttempts = s.reconnectAttempts ∧
        (s.setPhase k .returned).timers = s.timers := ⟨rfl, rfl⟩
    have hcaught := caught_cases (s.setPhase k .returned)
    rw [hold.1, hold.2] at hcaught
    refine ⟨by omega, .inr ⟨hopens, ?_, fun hmax => by omega⟩⟩
    rw [attempts_caught, hlength]
    omega
  · -- neither: the counter and the timers are untouched
    have hcount := underway_setPhase ha hnot phase
    refine ⟨Nat.add_le_add_right (?_ : (s.setPhase k phase).underway ≤ _) _,
      .inr ⟨hopens, ?_, id⟩⟩
    · omega
    · exact (congrArg (· + s.timers.length + s.reconnectAttempts) (hlength phase)).le

/-- What a move of an instance left to itself does to its counts. The attempts under way and the
timers never grow in number; and requests and timers together grow with the counter of reconnects
only, unless a response is accepted, which resets the counter. -/
theorem counts_step {m : Move} (hm : s.Autonomous m) (h : s.step m = some s') :
    s'.underway + s'.timers.length ≤ s.underway + s.timers.length ∧
      ((s.Accepts m ∧ s'.reconnectAttempts = 0 ∧ 0 < s'.underway) ∨
        (¬ s.Accepts m ∧
          s'.attempts.length + s'.timers.length + s.reconnectAttempts ≤
            s.attempts.length + s.timers.length + s'.reconnectAttempts ∧
          (s.reconnectAttempts ≤ maxReconnectAttempts →
            s'.reconnectAttempts ≤ maxReconnectAttempts))) := by
  have hlength (k : ℕ) (phase : Phase) :
      (s.setPhase k phase).attempts.length = s.attempts.length := List.length_modify ..
  rcases step_cases h with ⟨rfl, -⟩ | ⟨rfl, -⟩ | ⟨k, a, phase, ha, rfl, -, -, hnot, hresume⟩ |
    ⟨k, a, rfl, ha, hresume⟩ | ⟨i, rfl, rfl, hi⟩ | ⟨isAuthenticated, rfl, rfl⟩
  · exact hm.elim
  · exact hm.elim
  · -- an outcome is given
    have hcount := underway_setPhase ha hnot phase
    refine ⟨Nat.add_le_add_right (by omega) _, .inr ⟨fun haccepts => ?_, ?_, id⟩⟩
    · cases m with
      | resume j => exact hresume j rfl
      | _ => exact haccepts
    · rw [hlength]
      exact le_rfl
  · -- an attempt goes on
    have haccepts : s.Accepts (.resume k) ↔ a.opens = true :=
      ⟨fun ⟨b, hb, hopens⟩ => Option.some.inj (ha.symm.trans hb) ▸ hopens, fun h => ⟨a, ha, h⟩⟩
    obtain ⟨hunderway, ⟨hopens, hreset⟩ | ⟨hopens, hgrows⟩⟩ := counts_resumeAttempt ha hresume
    · exact ⟨hunderway, .inl ⟨haccepts.mpr hopens, hreset⟩⟩
    · refine ⟨hunderway, .inr ⟨fun h => ?_, hgrows⟩⟩
      rw [haccepts, hopens] at h
      cases h
  · -- a timer is traded for an attempt
    obtain ⟨htimers, hattempts, hunderway, hconnect⟩ :=
      underway_connect { s with timers := s.timers.eraseIdx i }
    have hold : ({ s with timers := s.timers.eraseIdx i } : Sse).underway = s.underway := rfl
    have herase : (s.timers.eraseIdx i).length + 1 = s.timers.length := by
      rw [List.length_eraseIdx_of_lt hi]
      omega
    rw [htimers, hattempts]
    rw [hold] at hunderway
    dsimp only at hconnect ⊢
    exact ⟨by omega, .inr ⟨id, by omega, id⟩⟩
  · exact ⟨le_rfl, .inr ⟨nofun, le_rfl, id⟩⟩

end

/-! ## Runs -/

section

variable {s s' : Sse} {isAuthenticated : Bool}

/-- In a run by itself the attempts under way and the timers do not become more. -/
theorem underway_run (h : Reaches step Autonomous s s') :
    s'.underway + s'.timers.length ≤ s.underway + s.timers.length := by
  refine h.invariant (I := fun s' => s'.underway + s'.timers.length ≤ _) le_rfl
    fun s₁ m s₂ hI hm hstep => ?_
  exact (counts_step hm hstep).1.trans hI

/-- An instance left to itself after its first call does one thing at a time. -/
theorem underway_le_one (h₀ : Reaches step Autonomous (init isAuthenticated) s)
    (h : Reaches step Autonomous s.connect s') : s'.underway + s'.timers.length ≤ 1 := by
  have hbefore : s.underway + s.timers.length ≤ 0 := underway_run h₀
  obtain ⟨htimers, -, hunderway, -⟩ := underway_connect s
  have hafter := underway_run h
  rw [htimers] at hafter
  omega

/-- While no response is accepted, requests and timers grow with the counter only, which is
bounded. -/
theorem requests_run
    (h : Reaches step (fun s m => s.Autonomous m ∧ ¬ s.Accepts m) s s')
    (hmax : s.reconnectAttempts ≤ maxReconnectAttempts) :
    s'.attempts.length + s'.timers.length + s.reconnectAttempts ≤
        s.attempts.length + s.timers.length + s'.reconnectAttempts ∧
      s'.reconnectAttempts ≤ maxReconnectAttempts := by
  refine h.invariant (I := fun s' => s'.attempts.length + s'.timers.length +
      s.reconnectAttempts ≤ s.attempts.length + s.timers.length + s'.reconnectAttempts ∧
    s'.reconnectAttempts ≤ maxReconnectAttempts) ⟨le_rfl, hmax⟩ fun s₁ m s₂ hI hm hstep => ?_
  rcases (counts_step hm.1 hstep).2 with ⟨haccepts, -⟩ | ⟨-, hgrows, hbound⟩
  · exact absurd haccepts hm.2
  · exact ⟨by omega, hbound hI.2⟩

/-- An accepted response leaves no timer, and the counter at zero. -/
theorem accepted {m : Move} (hone : s.underway + s.timers.length ≤ 1) (hm : s.Autonomous m)
    (haccepts : s.Accepts m) (hstep : s.step m = some s') :
    s'.timers.length = 0 ∧ s'.reconnectAttempts = 0 := by
  obtain ⟨hcount, ⟨-, hreset, hpos⟩ | ⟨hnot, -⟩⟩ := counts_step hm hstep
  · exact ⟨by omega, hreset⟩
  · exact absurd haccepts hnot

end

/-- In every reachable state one stream at most is live, that of the current controller. In a run
whose only call is the first `connect`, one reconnect timer at most is set at a time, and once a
response was accepted, the requests that follow without another one are bounded. -/
theorem reconnects_bounded (isAuthenticated : Bool) :
    (∀ s, Reaches step (fun _ _ => True) (init isAuthenticated) s → s.SingleStream) ∧
    (∀ s₀ s, Reaches step Autonomous (init isAuthenticated) s₀ →
      Reaches step Autonomous s₀.connect s → s.timers.length ≤ 1) ∧
    ∀ s₀ s₁ s₂ s m, Reaches step Autonomous (init isAuthenticated) s₀ →
      Reaches step Autonomous s₀.connect s₁ → s₁.Autonomous m → s₁.Accepts m →
      s₁.step m = some s₂ →
      Reaches step (fun s m => s.Autonomous m ∧ ¬ s.Accepts m) s₂ s →
      s.attempts.length ≤ s₂.attempts.length + maxReconnectAttempts := by
  refine ⟨fun s hs => ?_, fun s₀ s h₀ hs => ?_, fun s₀ s₁ s₂ s m h₀ h₁ hm haccepts hstep hs => ?_⟩
  · exact (hs.invariant (wellFormed_init isAuthenticated)
      fun _ _ _ hI _ hstep => hI.step hstep).singleStream
  · have hone := underway_le_one h₀ hs
    omega
  -- the counter begins at zero there, and each request that is not accepted costs one of it
  · obtain ⟨htimers, hreset⟩ := accepted (underway_le_one h₀ h₁) hm haccepts hstep
    have hrun := requests_run hs (hreset.trans_le (Nat.zero_le _))
    rw [hreset] at hrun
    omega

/-- The stream that was accepted breaks, and the reconnect that follows is refused. -/
def refused : List Move :=
  [.read 0 (.error ()), .resume 0, .fire 0, .fetched 1 (.ok ⟨503, true⟩), .resume 1, .resume 1]

/-- One stream at most is live then, one timer is set, and one request has followed. -/
theorem refused_bounded : (after (opened ++ refused)).SingleStream ∧
    (after (opened ++ refused)).timers.length ≤ 1 ∧
    (after (opened ++ refused)).attempts.length ≤
      (after opened).attempts.length + maxReconnectAttempts := by
  obtain ⟨hstream, htimers, hrequests⟩ := reconnects_bounded true
  refine ⟨hstream _ (reaches_after (by decide) (by decide)), htimers (init true) _ (.refl _) ?_,
    hrequests (init true) (after [.connect, .fetched 0 (.ok ⟨200, true⟩)]) _ _ (.resume 0)
      (.refl _) ?_ trivial (by decide) (show _ = some (after opened) from rfl) ?_⟩
  · have hplay : play step (init true).connect (opened ++ refused).tail = some _ := rfl
    exact reaches_of_play hplay (by decide)
  · have hplay : play step (init true).connect [.fetched 0 (.ok ⟨200, true⟩)] = some _ := rfl
    exact reaches_of_play hplay (by decide)
  · have hplay : play step (after opened) refused = some _ := rfl
    exact reaches_of_play hplay (by decide)

end Sse

end Console
