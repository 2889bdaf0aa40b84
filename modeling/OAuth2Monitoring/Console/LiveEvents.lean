import OAuth2Monitoring.Console.EventStream

/-!
# The live events of the monitor store

`addLiveEvent` puts an event in front of the others and cuts the list when it has become too long;
`clearLiveEvents` empties it. Next to the list stands a log that is never cut, `Call.log`. What the
store holds is what is newest in that log.

## Main definitions

* `Call`, `run`: the calls, and what a sequence of them makes of the list.
* `sinceClear`: the events added since the last clear.

## Main results

* `run_take`: the list that is cut follows the log that is not.
* `run_nil_eq`: the store holds the newest 100 of the events since the last clear.
* `length_liveEvents_le`: whatever a stream sends, no more than 100 events are held.
-/

namespace Console.LiveEvents

open JsStd

variable {ε : Type}

/-! ## The store's functions -/

/-- `clearLiveEvents`. -/
def clearLiveEvents (_liveEvents : List ε) : List ε := []

/-- A call of one of the two functions. -/
inductive Call (ε : Type)
  | addLiveEvent (event : ε)
  | clearLiveEvents

namespace Call

/-- What the call does to the list. -/
def apply : Call ε → List ε → List ε
  | .addLiveEvent event => Console.addLiveEvent event
  | .clearLiveEvents => LiveEvents.clearLiveEvents

/-- What it would do if nothing was ever cut. -/
def log : Call ε → List ε → List ε
  | .addLiveEvent event, events => event :: events
  | .clearLiveEvents, _ => []

/-- The event the call adds. -/
def event? : Call ε → Option ε
  | .addLiveEvent event => some event
  | .clearLiveEvents => none

end Call

/-- The list after these calls. -/
def run (calls : List (Call ε)) (liveEvents : List ε) : List ε :=
  calls.foldl (fun events call => call.apply events) liveEvents

/-- The log after these calls, newest first. -/
def logged (calls : List (Call ε)) (events : List ε) : List ε :=
  calls.foldl (fun events call => call.log events) events

/-- The events that were added since the last clear, in the order of their calls. -/
def sinceClear (calls : List (Call ε)) : List ε :=
  (calls.rtakeWhile fun call => call.event?.isSome).filterMap Call.event?

/-! ## The list and the log -/

/-- The cut is a `take`. -/
theorem addLiveEvent_eq_take (event : ε) (events : List ε) :
    addLiveEvent event events = (event :: events).take 100 := by
  unfold addLiveEvent
  dsimp only
  split
  · rfl
  · next hshort => rw [List.take_of_length_le (Nat.le_of_not_lt hshort)]

/-- One call keeps the list a front of the log. -/
theorem apply_take (call : Call ε) (events : List ε) :
    call.apply (events.take 100) = (call.log events).take 100 := by
  cases call with
  | addLiveEvent event =>
    -- the event that falls off the end was the 100th, or there was none
    rw [Call.apply, Call.log, addLiveEvent_eq_take, List.take_succ_cons, List.take_succ_cons,
      List.take_take]
    rfl
  | clearLiveEvents => rfl

/-- So does every sequence of calls. -/
theorem run_take (calls : List (Call ε)) (events : List ε) :
    run calls (events.take 100) = (logged calls events).take 100 := by
  induction calls generalizing events with
  | nil => rfl
  | cons call calls ih =>
    have hrest := ih (call.log events)
    rw [← apply_take] at hrest
    exact hrest

/-- Without the cut the store would hold all events since the last clear. -/
theorem logged_nil_eq (calls : List (Call ε)) : logged calls [] = (sinceClear calls).reverse := by
  -- the last call decides, so the induction is on the end of the sequence
  induction calls using List.reverseRecOn with
  | nil => rfl
  | append_singleton calls call ih =>
    have hlast : logged (calls ++ [call]) [] = call.log (logged calls []) := List.foldl_append
    rw [hlast, ih]
    unfold sinceClear
    cases call with
    | addLiveEvent event =>
      rw [List.rtakeWhile_concat_pos _ _ _ rfl, List.filterMap_append, List.reverse_append]
      rfl
    | clearLiveEvents =>
      rw [List.rtakeWhile_concat_neg _ _ _ Bool.false_ne_true]
      rfl

/-- The store that was empty holds a front of the events since the last clear. -/
theorem run_nil_eq_take (calls : List (Call ε)) :
    run calls [] = (sinceClear calls).reverse.take 100 := by
  rw [← logged_nil_eq]
  exact run_take calls []

/-- The store of a new page never holds more than 100 events. -/
theorem length_run_nil_le (calls : List (Call ε)) : (run calls []).length ≤ 100 := by
  rw [run_nil_eq_take]
  exact List.length_take_le _ _

/-- After any calls the store holds the events added since the last clear, newest first, up to the
100th: never more than 100, and all of them as long as there are no more. -/
theorem run_nil_eq (calls : List (Call ε)) :
    run calls [] = (sinceClear calls).reverse.take 100 ∧
      (run calls []).length ≤ 100 ∧
      ((sinceClear calls).length ≤ 100 → run calls [] = (sinceClear calls).reverse) := by
  refine ⟨run_nil_eq_take calls, length_run_nil_le calls, fun hfew => ?_⟩
  rw [run_nil_eq_take, List.take_of_length_le]
  rwa [List.length_reverse]

/-! ## Streams -/

/-- What a stream hands over reaches the store through calls of `addLiveEvent`. -/
theorem processEvent_eq_run (parse : Text → Option Json) (now eventType data : Text)
    (events : List LiveEvent) :
    ∃ calls, processEvent parse now eventType data events = run calls events := by
  have hadd (ev : LiveEvent) : ∃ calls, Console.addLiveEvent ev events = run calls events :=
    ⟨[.addLiveEvent ev], rfl⟩
  have hnone : ∃ calls, events = run calls events := ⟨[], rfl⟩
  unfold processEvent
  split
  · exact hnone
  · exact hnone
  · split
    · exact hadd _
    · split
      · exact hadd _
      · split
        · -- a heartbeat
          exact hnone
        · split
          · exact hadd _
          · exact hnone

/-- So do all the events a stream hands over. -/
theorem liveEvents_eq_run (parse : Text → Option Json) (now : ℕ → Text)
    (pairs : List (Text × Text)) (events : List LiveEvent) :
    ∃ calls, liveEvents parse now pairs events = run calls events := by
  unfold liveEvents
  generalize pairs.zipIdx = l
  induction l generalizing events with
  | nil => exact ⟨[], rfl⟩
  | cons p l ih =>
    obtain ⟨first, hfirst⟩ := processEvent_eq_run parse (now p.2) p.1.1 p.1.2 events
    obtain ⟨rest, hrest⟩ := ih (run first events)
    refine ⟨first ++ rest, ?_⟩
    rw [List.foldl_cons, hfirst, hrest, run, run, run, List.foldl_append]

/-- Whatever a stream sends, no more than 100 events are held. -/
theorem length_liveEvents_le (parse : Text → Option Json) (now : ℕ → Text)
    (pairs : List (Text × Text)) : (liveEvents parse now pairs []).length ≤ 100 := by
  obtain ⟨calls, hcalls⟩ := liveEvents_eq_run parse now pairs []
  rw [hcalls]
  exact length_run_nil_le calls

end Console.LiveEvents
