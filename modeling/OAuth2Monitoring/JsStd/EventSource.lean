import OAuth2Monitoring.JsStd.Basic

/-!
# Event streams

How the standard reads an event stream once it is decoded: lines end with LF, CRLF or CR, the
fields of a line go to two buffers, and a blank line dispatches them.

## Main definitions

* `EventSource.dispatched`: the events the standard dispatches for a text.

## Main results

* `EventSource.events_eq_groups`: they are the groups of lines between blank lines that have a
  data field.
-/

namespace JsStd

open List

namespace EventSource

/-! ## Lines -/

/-- A line feed. -/
def lf : UInt16 := 10
/-- A carriage return. -/
def cr : UInt16 := 13
/-- A colon. -/
def colon : UInt16 := 58
/-- A blank. -/
def space : UInt16 := 32

/-- Every line end as LF. The CR of a CRLF pair is left out. -/
def normalizeNewlines : Text → Text
  | [] => []
  | c :: t =>
    if c = cr then
      if t.head? = some lf then normalizeNewlines t else lf :: normalizeNewlines t
    else c :: normalizeNewlines t

/-- The lines of a text that are ended. What stands behind the last line end is discarded. -/
def lines (t : Text) : List Text := (normalizeNewlines t).fullPieces lf

/-- An LF ends a line whatever stands in front of it, and the next line starts afresh. -/
theorem normalizeNewlines_append_lf (t u : Text) :
    normalizeNewlines (t ++ lf :: u) = normalizeNewlines (t ++ [lf]) ++ normalizeNewlines u := by
  have hlf : lf ≠ cr := by decide
  induction t with
  | nil => simp [normalizeNewlines, hlf]
  | cons c t ih =>
    -- the code unit behind `c` is the same on both sides
    have hhead : (t ++ lf :: u).head? = (t ++ [lf]).head? := by cases t <;> rfl
    simp only [cons_append, normalizeNewlines, hhead, ih]
    split_ifs <;> rfl

theorem normalizeNewlines_lf_ends (t : Text) :
    ∃ u, normalizeNewlines (t ++ [lf]) = u ++ [lf] := by
  induction t with
  | nil => exact ⟨[], rfl⟩
  | cons c t ih =>
    obtain ⟨u, hu⟩ := ih
    simp only [cons_append, normalizeNewlines, hu]
    split_ifs
    · exact ⟨u, rfl⟩
    · exact ⟨lf :: u, rfl⟩
    · exact ⟨c :: u, rfl⟩

/-- The lines up to a line feed and those behind it. -/
theorem lines_append_lf (t u : Text) : lines (t ++ lf :: u) = lines (t ++ [lf]) ++ lines u := by
  obtain ⟨v, hv⟩ := normalizeNewlines_lf_ends t
  rw [lines, normalizeNewlines_append_lf, hv, append_assoc, singleton_append,
    fullPieces_append_cons_self, lines, hv, fullPieces_append_cons_self, lines]
  simp [fullPieces]

/-- What stands in front of the first line end goes to the first line. -/
theorem lines_append_of_not_mem {t : Text} (hlf : lf ∉ t) (hcr : cr ∉ t) (u : Text) :
    lines (t ++ u) = (lines u).modifyHead (t ++ ·) := by
  have hfront : normalizeNewlines (t ++ u) = t ++ normalizeNewlines u := by
    induction t with
    | nil => rfl
    | cons c t ih =>
      rw [mem_cons, not_or] at hlf hcr
      rw [cons_append, normalizeNewlines, if_neg (Ne.symm hcr.1), ih hlf.2 hcr.2, cons_append]
  rw [lines, lines, hfront, fullPieces_append_of_not_mem hlf]

theorem lines_lf_ne_nil (t : Text) : lines (t ++ [lf]) ≠ [] := by
  obtain ⟨v, hv⟩ := normalizeNewlines_lf_ends t
  rw [lines, hv, fullPieces_append_cons_self]
  exact append_ne_nil_of_left_ne_nil (splitOn_ne_nil lf v) _

/-! ## Fields -/

/-- The name and the value of a line: what stands before its first colon, and behind it without one
leading space. A line without a colon is a name. A comment has the empty name. -/
def nameValue (line : Text) : Text × Text :=
  (line.takeWhile (· ≠ colon),
    match line.dropWhile (· ≠ colon) with
    | [] => []
    | _ :: value => if value.head? = some space then value.tail else value)

/-- The event type buffer and the data buffer. An empty event type is the one of a message. -/
structure Buffers where
  eventType : Text
  data : Text

namespace Buffers

def empty : Buffers := { eventType := [], data := [] }

/-- Process the field of a line. The fields `id` and `retry` do not show in the events. -/
def field (b : Buffers) (line : Text) : Buffers :=
  if (nameValue line).1 = text "event" then { b with eventType := (nameValue line).2 }
  else if (nameValue line).1 = text "data" then
    { b with data := b.data ++ (nameValue line).2 ++ [lf] }
  else b

/-- Dispatch the event, if there are data. The last LF of the data is removed. -/
def dispatch (b : Buffers) : List (Text × Text) :=
  if b.data = [] then [] else [(b.eventType, b.data.dropLast)]

end Buffers

/-- The events these lines dispatch. -/
def events (b : Buffers) : List Text → List (Text × Text)
  | [] => []
  | [] :: rest => b.dispatch ++ events .empty rest
  | line :: rest => events (b.field line) rest

/-- The type and the data of every event that the standard dispatches for a text. -/
def dispatched (t : Text) : List (Text × Text) := events .empty (lines t)

/-! ## Groups of lines -/

/-- The values of the fields with this name. -/
def values (name : Text) (group : List Text) : List Text :=
  group.filterMap fun line => if (nameValue line).1 = name then some (nameValue line).2 else none

/-- Does the group have a data field? -/
def HasData (group : List Text) : Prop := values (text "data") group ≠ []

instance : DecidablePred HasData := fun _ => inferInstanceAs (Decidable (_ ≠ []))

/-- The event of a group: the value of its last `event` field, and those of its data fields joined
with LF. -/
def eventType (group : List Text) : Text := (values (text "event") group).getLast?.getD []

/-- The data of a group: its values, a line feed between them. -/
def dataText (group : List Text) : Text := [lf].intercalate (values (text "data") group)

/-- The buffers after the lines of a group. -/
theorem foldl_field (b : Buffers) (group : List Text) : group.foldl Buffers.field b =
    { eventType := (values (text "event") group).getLast?.getD b.eventType
      data := b.data ++ (values (text "data") group).flatMap (· ++ [lf]) } := by
  induction group generalizing b with
  | nil => simp [values]
  | cons line group ih =>
    rw [foldl_cons, ih]
    -- a line sets the type of the event, adds to its data, or does neither
    have hne : text "event" ≠ text "data" := by decide
    by_cases hevent : (nameValue line).1 = text "event"
    · have hdata : (nameValue line).1 ≠ text "data" := fun h => hne (hevent.symm.trans h)
      simp [Buffers.field, values, hevent, hne, getLast?_cons]
    · by_cases hdata : (nameValue line).1 = text "data"
      · simp [Buffers.field, values, hdata, Ne.symm hne]
      · simp [Buffers.field, values, hevent, hdata]

/-- A blank line behind a group of other lines dispatches the event of the group. -/
theorem events_group (b : Buffers) {group : List Text} (h : [] ∉ group) (rest : List Text) :
    events b (group ++ [] :: rest) =
      (group.foldl Buffers.field b).dispatch ++ events .empty rest := by
  induction group generalizing b with
  | nil => rfl
  | cons line group ih =>
    rw [mem_cons, not_or] at h
    rw [cons_append, events, ih _ h.2, foldl_cons]
    exact fun hline => h.1 hline.symm

/-- Without a blank line nothing is dispatched. -/
theorem events_of_not_mem (b : Buffers) {group : List Text} (h : [] ∉ group) :
    events b group = [] := by
  induction group generalizing b with
  | nil => rfl
  | cons line group ih =>
    rw [mem_cons, not_or] at h
    rw [events, ih _ h.2]
    exact fun hline => h.1 hline.symm

/-- A group is dispatched when it has data. -/
theorem dispatch_foldl (group : List Text) : (group.foldl Buffers.field .empty).dispatch =
    if HasData group then [(eventType group, dataText group)] else [] := by
  rw [foldl_field, Buffers.dispatch]
  by_cases h : values (text "data") group = []
  · simp [HasData, h, Buffers.empty]
  · have hdata : (values (text "data") group).flatMap (· ++ [lf]) ≠ [] := by
      obtain ⟨v, vs, hv⟩ := exists_cons_of_ne_nil h
      simp [hv]
    rw [Buffers.empty, nil_append, if_neg hdata, dropLast_flatMap_append lf h]
    exact (if_pos (show HasData group from h)).symm

/-- The event of a group, as the standard dispatches it. -/
def eventOf (group : List Text) : Text × Text := (eventType group, dataText group)

/-- The groups of a stream are dispatched one after the other. -/
theorem events_groups {groups : List (List Text)} (h : ∀ group ∈ groups, [] ∉ group)
    (rest : List Text) : events .empty (groups.flatMap (· ++ [[]]) ++ rest) =
      (groups.filter (HasData ·)).map eventOf ++ events .empty rest := by
  induction groups with
  | nil => rfl
  | cons group groups ih =>
    rw [forall_mem_cons] at h
    rw [flatMap_cons, append_assoc, append_assoc, singleton_append, events_group _ h.1, ih h.2,
      dispatch_foldl, filter_cons]
    by_cases hdata : HasData group <;> simp [hdata, eventOf]

/-- The events of a list of lines are those of the groups that a blank line ends and that have a
data field. -/
theorem events_eq_groups (ls : List Text) :
    events .empty ls = ((ls.fullPieces []).filter (HasData ·)).map eventOf := by
  have hfull : ∀ group ∈ ls.fullPieces [], [] ∉ group := fun group => not_mem_of_mem_fullPieces
  have hrest : events .empty (ls.lastPiece []) = [] := events_of_not_mem _ (not_mem_lastPiece [] ls)
  conv_lhs => rw [← flatMap_fullPieces_append [] ls]
  rw [events_groups hfull, hrest, append_nil]

end EventSource

end JsStd
