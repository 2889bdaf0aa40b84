import OAuth2Monitoring.JsStd.Basic

/-!
# The live event stream

The read loop of `useSSE.connect` cuts the decoded text into lines, collects an event from them and
hands it to `processEvent` at a blank line. The unfinished line is kept from one chunk to the next;
the event collected so far is not. So what is handed over depends on where the chunks end:
`handed_eq_iff` says exactly when it does not.

## Main definitions

* `handed`: what `processEvent` is given for a stream that arrives in these chunks.
* `EventsIntact`: no chunk ends inside an event, after its data or its type is complete.

## Main results

* `handed_eq_iff`: chunking does not matter exactly when the events are intact.
-/

namespace Console

open JsStd List

/-! ## Live events -/

/-- A security event as `processEvent` builds it. `none` is `undefined`. -/
structure SecurityEvent where
  id : Option Json
  eventType : Option Json
  severity : Option Json
  ipAddress : Json
  success : Json
  createdAt : Json
  userId : Option Json := none
  userEmail : Option Json := none
  appId : Option Json := none
  appName : Option Json := none
  userAgent : Option Json := none
  correlationId : Option Json := none
  details : Option Json

/-- A live event: built by `processEvent`, or a value taken as it is. -/
inductive LiveEvent
  | built (ev : SecurityEvent)
  | raw (v : Json)

/-- `addLiveEvent`, for events of any kind. -/
def addLiveEvent {ε : Type} (event : ε) (liveEvents : List ε) : List ε :=
  let unshifted := event :: liveEvents
  -- keep only the last 100 events
  if unshifted.length > 100 then unshifted.take 100 else unshifted

/-- The event of a `security_event`. -/
def securityEvent (now : Text) (parsed : Json) : SecurityEvent where
  id := parsed.prop "id"
  eventType := parsed.prop "event_type"
  severity := parsed.prop "severity"
  ipAddress := Json.orElse (parsed.prop "ip_address") (.str [])
  success := Json.orElse (parsed.prop "success") (.bool false)
  createdAt := Json.orElse (parsed.prop "created_at") (.str now)
  userId := parsed.prop "user_id"
  userEmail := parsed.prop "user_email"
  appId := parsed.prop "app_id"
  appName := parsed.prop "app_name"
  userAgent := parsed.prop "user_agent"
  correlationId := parsed.prop "correlation_id"
  details := parsed.prop "details"

/-- The event of an `alert`. -/
def alertEvent (now : Text) (parsed : Json) : SecurityEvent where
  id := parsed.prop "id"
  eventType := some (.str (text "suspicious_activity"))
  severity := parsed.prop "severity"
  ipAddress := Json.orElse (Json.optionalGet (parsed.prop "details") "ip_address") (.str [])
  success := .bool false
  createdAt := Json.orElse (parsed.prop "triggered_at") (.str now)
  -- an undefined message is left out
  details := some (.obj ((parsed.prop "message").toList.map fun v => (text "alert", v)))

/-- `processEvent`, at the time `now`. Whatever throws in it is caught. -/
def processEvent (parse : Text → Option Json) (now eventType data : Text)
    (events : List LiveEvent) : List LiveEvent :=
  match parse data with
  | none => events
  -- no property of `null` can be read
  | some .null => events
  | some parsed =>
    if eventType = text "security_event" then
      addLiveEvent (.built (securityEvent now parsed)) events
    else if eventType = text "alert" then addLiveEvent (.built (alertEvent now parsed)) events
    else if eventType = text "heartbeat" then events
    else if Json.isText (text "security_event") (parsed.prop "type") ∧
        Json.truthy (parsed.prop "data") then
      addLiveEvent (.raw (Json.orElse (parsed.prop "data") .null)) events
    else events

/-- The live events after these pairs were handed over, the `n`-th one at the time `now n`. -/
def liveEvents (parse : Text → Option Json) (now : ℕ → Text) (pairs : List (Text × Text))
    (events : List LiveEvent) : List LiveEvent :=
  pairs.zipIdx.foldl (fun events p => processEvent parse (now p.2) p.1.1 p.1.2 events) events

/-! ## The read loop -/

/-- The event collected from the lines so far. -/
structure Collected where
  currentEvent : Text
  currentData : Text

namespace Collected

/-- Nothing is collected. -/
def empty : Collected := { currentEvent := [], currentData := [] }

end Collected

/-- The code unit of a line feed. -/
def newline : UInt16 := 10

/-- The type and the data a line carries. A line that carries a type carries no data. -/
def lineEvent (line : Text) : Option Text := fieldText (text "event:") line

/-- The data of a line, when it is one of data. -/
def lineData (line : Text) : Option Text :=
  if startsWith line (text "event:") then none else fieldText (text "data:") line

/-- One line of the loop: what is collected then, and what is handed to `processEvent`. -/
def readLine (c : Collected) (line : Text) : Collected × List (Text × Text) :=
  if startsWith line (text "event:") then
    ({ c with currentEvent := trim (line.drop (text "event:").length) }, [])
  else if startsWith line (text "data:") then
    ({ c with currentData := trim (line.drop (text "data:").length) }, [])
  else if line = [] ∧ c.currentData ≠ [] then (.empty, [(c.currentEvent, c.currentData)])
  else (c, [])

/-- The lines of one chunk. -/
def readLines (c : Collected) : List Text → List (Text × Text)
  | [] => []
  | line :: lines => (readLine c line).2 ++ readLines (readLine c line).1 lines

/-- One round of the loop: the lines the chunk completes are read, with nothing collected before,
and the unfinished line is kept. -/
def readChunk (buffer chunk : Text) : Text × List (Text × Text) :=
  let t := buffer ++ chunk
  (t.lastPiece newline, readLines .empty (t.fullPieces newline))

/-- What is handed to `processEvent` for these chunks, `buffer` being the unfinished line. -/
def handed (buffer : Text) : List Text → List (Text × Text)
  | [] => []
  | chunk :: chunks => (readChunk buffer chunk).2 ++ handed (readChunk buffer chunk).1 chunks

/-! ## Chunk boundaries -/

/-- What the loop sees of a stream: the lines in order, and where a chunk ended between them. -/
inductive Mark
  | line (s : Text)
  | cut

/-- The lines that the chunks complete, a cut after those of each chunk. -/
def marks (chunks : List Text) : List Mark :=
  (assemble newline [] chunks).flatMap fun lines => lines.map .line ++ [.cut]

/-- The value the last line of the block gives that has one, `[]` if there is none. The block is
listed from its end. -/
def valueOf (read : Text → Option Text) : List Mark → Text
  | [] => []
  | .line s :: block => (read s).getD (valueOf read block)
  | .cut :: block => valueOf read block

/-- No chunk ends after the line that gives the block its value. -/
def Unbroken (read : Text → Option Text) : List Mark → Prop
  | [] => True
  | .line s :: block => read s = none → Unbroken read block
  | .cut :: block => valueOf read block = []

/-- No chunk ends inside an event after the line with its data, nor after the line with its type.
An event ends at a blank line before which there are data; `block` is what has been read of the
current one, from its end. -/
def EventsIntact (block : List Mark) : List Mark → Prop
  | [] => True
  | .cut :: rest => EventsIntact (.cut :: block) rest
  | .line s :: rest =>
    if s = [] ∧ valueOf lineData block ≠ [] then
      Unbroken lineData block ∧ Unbroken lineEvent block ∧ EventsIntact [] rest
    else EventsIntact (.line s :: block) rest

/-- Both conditions can be evaluated. -/
instance decidableUnbroken (read : Text → Option Text) :
    (block : List Mark) → Decidable (Unbroken read block)
  | [] => .isTrue trivial
  | .line s :: block =>
    have := decidableUnbroken read block
    inferInstanceAs (Decidable (read s = none → Unbroken read block))
  | .cut :: block => inferInstanceAs (Decidable (valueOf read block = []))

instance decidableEventsIntact : (block rest : List Mark) → Decidable (EventsIntact block rest)
  | _, [] => .isTrue trivial
  | block, .cut :: rest => decidableEventsIntact (.cut :: block) rest
  | block, .line s :: rest =>
    have := decidableEventsIntact [] rest
    have := decidableEventsIntact (.line s :: block) rest
    inferInstanceAs (Decidable (if s = [] ∧ valueOf lineData block ≠ [] then
      Unbroken lineData block ∧ Unbroken lineEvent block ∧ EventsIntact [] rest
      else EventsIntact (.line s :: block) rest))

/-! ## Reading marks -/

/-- Read the lines of a marked stream, `onCut` being what becomes of the event collected so far
when a chunk ends. -/
def readMarks (onCut : Collected → Collected) (c : Collected) : List Mark → List (Text × Text)
  | [] => []
  | .line s :: rest => (readLine c s).2 ++ readMarks onCut (readLine c s).1 rest
  | .cut :: rest => readMarks onCut (onCut c) rest

/-- The event collected after these lines. -/
def collect (c : Collected) (lines : List Text) : Collected :=
  lines.foldl (fun c line => (readLine c line).1) c

/-- Lines without a cut are read as they are. -/
theorem readMarks_lines (onCut : Collected → Collected) (c : Collected) (lines : List Text)
    (rest : List Mark) : readMarks onCut c (lines.map .line ++ rest) =
      readLines c lines ++ readMarks onCut (collect c lines) rest := by
  induction lines generalizing c with
  | nil => rfl
  | cons line lines ih =>
    rw [List.map_cons, List.cons_append, readMarks, ih, readLines, List.append_assoc]
    rfl

theorem readLines_append (c : Collected) (lines lines' : List Text) :
    readLines c (lines ++ lines') = readLines c lines ++ readLines (collect c lines) lines' := by
  induction lines generalizing c with
  | nil => rfl
  | cons line lines ih =>
    rw [List.cons_append, readLines, ih, readLines, List.append_assoc]
    rfl

/-- The loop forgets the event collected so far when a chunk ends. -/
theorem handed_eq_readMarks (buffer : Text) (chunks : List Text) :
    handed buffer chunks = readMarks (fun _ => .empty) .empty
      ((assemble newline buffer chunks).flatMap fun lines => lines.map .line ++ [.cut]) := by
  induction chunks generalizing buffer with
  | nil => rfl
  | cons chunk chunks ih =>
    rw [assemble, List.flatMap_cons, List.append_assoc, readMarks_lines, List.singleton_append,
      readMarks, ← ih]
    rfl

/-- Without forgetting, the cuts do not matter. -/
theorem readMarks_id (c : Collected) (groups : List (List Text)) :
    readMarks id c (groups.flatMap fun lines => lines.map .line ++ [.cut]) =
      readLines c groups.flatten := by
  induction groups generalizing c with
  | nil => rfl
  | cons lines groups ih =>
    rw [List.flatMap_cons, List.append_assoc, readMarks_lines, List.singleton_append, readMarks,
      ih, List.flatten_cons, readLines_append]
    rfl

/-- In one chunk, the whole text is read without forgetting. -/
theorem handed_whole (chunks : List Text) :
    handed [] [chunks.flatten] = readMarks id .empty (marks chunks) := by
  rw [marks, readMarks_id, flatten_assemble newline [] chunks List.not_mem_nil]
  exact List.append_nil _

/-! ## What is forgotten -/

/-- The value of a block for a loop that forgets it when a chunk ends. -/
def keptOf (read : Text → Option Text) : List Mark → Text
  | [] => []
  | .line s :: block => (read s).getD (keptOf read block)
  | .cut :: _ => []

/-- A value is kept whole, or a cut has lost it. -/
theorem keptOf_eq (read : Text → Option Text) (block : List Mark) :
    keptOf read block = [] ∨ keptOf read block = valueOf read block := by
  induction block with
  | nil => exact .inr rfl
  | cons m block ih =>
    cases m with
    | cut => exact .inl rfl
    | line s =>
      simp only [keptOf, valueOf]
      cases read s with
      | none => exact ih
      | some v => exact .inr rfl

/-- What is kept is the value exactly when no chunk ends after the line that gives it. -/
theorem unbroken_iff (read : Text → Option Text) (block : List Mark) :
    Unbroken read block ↔ keptOf read block = valueOf read block := by
  induction block with
  | nil => simp [Unbroken, keptOf, valueOf]
  | cons m block ih =>
    cases m with
    | cut => exact eq_comm
    | line s =>
      simp only [Unbroken, keptOf, valueOf]
      cases read s with
      | none => simpa using ih
      | some v => simp

/-- What the loop has collected of a block, when a chunk's end makes it forget, and when not. -/
def keptEvent (block : List Mark) : Collected :=
  { currentEvent := keptOf lineEvent block, currentData := keptOf lineData block }

/-- What a block holds without its cuts. -/
def wholeEvent (block : List Mark) : Collected :=
  { currentEvent := valueOf lineEvent block, currentData := valueOf lineData block }

/-- The event collected after a line that does not end it. -/
def carried (c : Collected) (line : Text) : Collected :=
  { currentEvent := (lineEvent line).getD c.currentEvent
    currentData := (lineData line).getD c.currentData }

/-- The line ends the event. -/
def Ends (c : Collected) (line : Text) : Prop := line = [] ∧ c.currentData ≠ []

/-- A blank line behind data hands the event out. -/
theorem readLine_of_ends {c : Collected} {line : Text} (h : Ends c line) :
    readLine c line = (.empty, [(c.currentEvent, c.currentData)]) := by
  obtain ⟨rfl, hdata⟩ := h
  have hevent : startsWith [] (text "event:") = false := by decide
  have hdatum : startsWith [] (text "data:") = false := by decide
  simp [readLine, hevent, hdatum, hdata]

/-- Any other line is taken into what is kept. -/
theorem readLine_of_not_ends {c : Collected} {line : Text} (h : ¬Ends c line) :
    readLine c line = (carried c line, []) := by
  unfold readLine carried lineEvent lineData fieldText
  by_cases hevent : startsWith line (text "event:") = true
  · simp [hevent]
  · by_cases hdata : startsWith line (text "data:") = true
    · simp [hevent, hdata]
    · have hopen : ¬(line = [] ∧ c.currentData ≠ []) := h
      simp [hevent, hdata, hopen]

section

variable {onCut : Collected → Collected} {c : Collected} {line : Text} {ms : List Mark}

theorem readMarks_of_ends (h : Ends c line) : readMarks onCut c (.line line :: ms) =
    (c.currentEvent, c.currentData) :: readMarks onCut .empty ms := by
  rw [readMarks, readLine_of_ends h]
  rfl

theorem readMarks_of_not_ends (h : ¬Ends c line) :
    readMarks onCut c (.line line :: ms) = readMarks onCut (carried c line) ms := by
  rw [readMarks, readLine_of_not_ends h]
  rfl

end

/-- An event that was collected with fewer data hands over no more. -/
theorem length_readMarks_le (ms : List Mark) {c c' : Collected}
    (h : c.currentData = [] ∨ c.currentData = c'.currentData) :
    (readMarks (fun _ => .empty) c ms).length ≤ (readMarks id c' ms).length := by
  induction ms generalizing c c' with
  | nil => exact Nat.le_refl _
  | cons m ms ih =>
    cases m with
    | cut => exact ih (.inl rfl)
    | line s =>
      by_cases hends : Ends c' s
      · rw [readMarks_of_ends hends, List.length_cons]
        -- the kept event ends here too, or it has no data
        rcases h with h | h
        · obtain ⟨rfl, -⟩ := hends
          rw [readMarks_of_not_ends fun hc => hc.2 h]
          exact Nat.le_succ_of_le (ih (.inl h))
        · rw [readMarks_of_ends ⟨hends.1, h ▸ hends.2⟩, List.length_cons]
          exact Nat.succ_le_succ (ih (.inl rfl))
      · have hopen : ¬Ends c s := by
          rintro ⟨hs, hdata⟩
          rcases h with h | h
          · exact hdata h
          · exact hends ⟨hs, h ▸ hdata⟩
        rw [readMarks_of_not_ends hends, readMarks_of_not_ends hopen]
        refine ih ?_
        unfold carried
        cases lineData s with
        | none => exact h
        | some v => exact .inr rfl

/-! ## When chunking does not matter -/

/-- From a block on, the loop hands over what it would without forgetting exactly when the events
that end are intact. -/
theorem readMarks_eq_iff (ms block : List Mark) :
    readMarks (fun _ => .empty) (keptEvent block) ms = readMarks id (wholeEvent block) ms ↔
      EventsIntact block ms := by
  induction ms generalizing block with
  | nil => simp [readMarks, EventsIntact]
  | cons m ms ih =>
    cases m with
    | cut => exact ih (.cut :: block)
    | line s =>
      rw [EventsIntact]
      by_cases hends : s = [] ∧ valueOf lineData block ≠ []
      · have hwhole : Ends (wholeEvent block) s := hends
        rw [if_pos hends, readMarks_of_ends hwhole, unbroken_iff, unbroken_iff]
        by_cases hdata : keptOf lineData block = valueOf lineData block
        · -- both hand an event over, with the same data
          have hkept : Ends (keptEvent block) s := ⟨hends.1, fun h => hends.2 (hdata ▸ h)⟩
          rw [readMarks_of_ends hkept, List.cons.injEq, Prod.mk.injEq]
          exact ⟨fun h => ⟨hdata, h.1.1, (ih []).mp h.2⟩,
            fun h => ⟨⟨h.2.1, hdata⟩, (ih []).mpr h.2.2⟩⟩
        · -- the data were forgotten, and fewer events are handed over
          have hnone : keptOf lineData block = [] :=
            (keptOf_eq lineData block).resolve_right hdata
          have hkept : ¬Ends (keptEvent block) s := fun h => h.2 hnone
          refine iff_of_false (fun heq => ?_) fun h => hdata h.1
          rw [readMarks_of_not_ends hkept] at heq
          have hlen := congrArg List.length heq
          have hle : (readMarks (fun _ => .empty) (carried (keptEvent block) s) ms).length ≤
              (readMarks id .empty ms).length := by
            obtain ⟨rfl, -⟩ := hends
            exact length_readMarks_le ms (.inl hnone)
          rw [List.length_cons] at hlen
          omega
      · have hwhole : ¬Ends (wholeEvent block) s := hends
        have hkept : ¬Ends (keptEvent block) s := by
          rintro ⟨hs, hdata⟩
          rcases keptOf_eq lineData block with h | h
          · exact hdata h
          · exact hends ⟨hs, fun h' => hdata (h.trans h')⟩
        rw [if_neg hends, readMarks_of_not_ends hwhole, readMarks_of_not_ends hkept]
        exact ih (.line s :: block)

/-- What is handed to `processEvent` is what would be if the whole text arrived in one chunk
exactly when no chunk ends inside an event after its data or its type; and then the live events are
the same too. -/
theorem handed_eq_iff (chunks : List Text) :
    (handed [] chunks = handed [] [chunks.flatten] ↔ EventsIntact [] (marks chunks)) ∧
      (EventsIntact [] (marks chunks) → ∀ parse now events,
        liveEvents parse now (handed [] chunks) events =
          liveEvents parse now (handed [] [chunks.flatten]) events) := by
  have hiff : handed [] chunks = handed [] [chunks.flatten] ↔ EventsIntact [] (marks chunks) := by
    rw [handed_whole, handed_eq_readMarks]
    exact readMarks_eq_iff (marks chunks) []
  exact ⟨hiff, fun h parse now events => by rw [hiff.mpr h]⟩

/-! ## Two streams -/

/-- An event in two chunks, the first of which ends inside the line with its type. -/
def cutInsideLine : List Text :=
  [text "event: security_", text "event\ndata: \x7b\"id\":1\x7d\n\n"]

/-- The event is handed over as if it had arrived in one chunk. -/
theorem cutInsideLine_handed :
    handed [] cutInsideLine = [(text "security_event", text "\x7b\"id\":1\x7d")] ∧
      handed [] cutInsideLine = handed [] [cutInsideLine.flatten] := by
  have hintact : EventsIntact [] (marks cutInsideLine) := by decide +kernel
  exact ⟨by decide +kernel, (handed_eq_iff cutInsideLine).1.mpr hintact⟩

/-- The same event, the first chunk ending before the blank line. -/
def cutBeforeBlank : List Text :=
  [text "event: security_event\ndata: \x7b\"id\":1\x7d\n", text "\n"]

/-- The event is lost. -/
theorem cutBeforeBlank_handed : handed [] cutBeforeBlank = [] ∧
    handed [] [cutBeforeBlank.flatten] = [(text "security_event", text "\x7b\"id\":1\x7d")] ∧
    ¬∀ chunks, handed [] chunks = handed [] [chunks.flatten] := by
  have hcut : handed [] cutBeforeBlank = [] := by decide +kernel
  have hwhole : handed [] [cutBeforeBlank.flatten] =
      [(text "security_event", text "\x7b\"id\":1\x7d")] := by
    decide +kernel
  refine ⟨hcut, hwhole, fun h => ?_⟩
  have heq := h cutBeforeBlank
  rw [hcut, hwhole] at heq
  cases heq

end Console
