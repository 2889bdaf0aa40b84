import OAuth2Monitoring.Console.EventStream
import OAuth2Monitoring.JsStd.EventSource

/-!
# The format of the event stream

The line parser of `useSSE.connect` against the event-stream algorithm of the standard, for a text
that arrives in one chunk. The parser cuts lines at LF only, keeps the last `data:` line of an
event instead of joining them, and keeps the type until an event with data was handed over. So the
two agree on texts whose events do not show any of that: `handed_eq_dispatched_iff` says which.

## Main definitions

* `PlainText`: every event of the text is one that both read alike.

## Main results

* `handed_eq_dispatched_iff`: the parser hands over what the standard dispatches exactly for the
  plain texts.
-/

namespace Console

open JsStd List EventSource

/-! ## Blocks -/

/-- The value of the last line of the block that has one, `init` if there is none. -/
def lastValue (read : Text → Option Text) (init : Text) (block : List Text) : Text :=
  block.foldl (fun v line => (read line).getD v) init

/-- The lines of these LF-ended lines, as the standard cuts them. -/
def standardLines (block : List Text) : List Text := lines (block.flatMap (· ++ [newline]))

/-- The groups of a block: its lines between two that are blank for the standard. -/
def groups (block : List Text) : List (List Text) := (standardLines block).splitOn []

/-- Blocks of LF-ended lines, a blank line behind each, that both read alike. A block has no group
with a data field; or it has one, with the data of the last `data:` line, which are not blank, and
the type of the last `event:` line since the last event, `ty` being the one from before. -/
def PlainBlocks (ty : Text) : List (List Text) → Prop
  | [] => True
  | block :: blocks =>
    match (groups block).filter (HasData ·) with
    | [] => PlainBlocks (lastValue lineEvent ty block) blocks
    | [group] =>
      (trim (dataText group) = lastValue lineData [] block ∧ lastValue lineData [] block ≠ [] ∧
        trim (eventType group) = lastValue lineEvent ty block) ∧ PlainBlocks [] blocks
    | _ :: _ :: _ => False

/-- The condition can be evaluated. -/
instance decidablePlainBlocks : (ty : Text) → (blocks : List (List Text)) →
    Decidable (PlainBlocks ty blocks)
  | _, [] => .isTrue trivial
  | ty, block :: blocks =>
    match h : (groups block).filter (HasData ·) with
    | [] =>
      have := decidablePlainBlocks (lastValue lineEvent ty block) blocks
      decidable_of_iff (PlainBlocks (lastValue lineEvent ty block) blocks)
        (by rw [PlainBlocks, h])
    | [group] =>
      have := decidablePlainBlocks [] blocks
      decidable_of_iff ((trim (dataText group) = lastValue lineData [] block ∧
        lastValue lineData [] block ≠ [] ∧
          trim (eventType group) = lastValue lineEvent ty block) ∧ PlainBlocks [] blocks)
        (by rw [PlainBlocks, h])
    | _ :: _ :: _ => .isFalse (by rw [PlainBlocks, h]; exact id)

/-- The blocks of the text up to its last blank line, and the lines behind it. -/
def blocks (t : Text) : List (List Text) := (t.fullPieces newline).fullPieces []

/-- What is behind the last blank line, in the standard's lines. -/
def tailLines (t : Text) : List Text :=
  lines (((t.fullPieces newline).lastPiece []).flatMap (· ++ [newline]) ++ t.lastPiece newline)

/-- The blocks are plain, and behind the last of them the standard ends no group with a data
field. -/
def PlainText (t : Text) : Prop :=
  PlainBlocks [] (blocks t) ∧ ∀ group ∈ (tailLines t).fullPieces [], ¬HasData group

/-! ## What is handed over for a block -/

/-- A block without an empty line hands out nothing and keeps its last values. -/
theorem collect_of_not_mem (c : Collected) {block : List Text} (h : [] ∉ block) :
    readLines c block = [] ∧ collect c block =
      { currentEvent := lastValue lineEvent c.currentEvent block
        currentData := lastValue lineData c.currentData block } := by
  induction block generalizing c with
  | nil => exact ⟨rfl, rfl⟩
  | cons line block ih =>
    rw [mem_cons, not_or] at h
    -- a line that is not empty ends no event
    have hopen : ¬Ends c line := fun hends => h.1 hends.1.symm
    obtain ⟨hnone, hcollect⟩ := ih (carried c line) h.2
    constructor
    · rw [readLines, readLine_of_not_ends hopen, hnone]
      rfl
    · rw [collect, foldl_cons, readLine_of_not_ends hopen]
      exact hcollect

/-- What the block hands over at its end, and what is collected then. -/
def blockHanded (ty : Text) (block : List Text) : List (Text × Text) :=
  if lastValue lineData [] block = [] then []
  else [(lastValue lineEvent ty block, lastValue lineData [] block)]

/-- The type that is left for the next block. -/
def typeAfter (ty : Text) (block : List Text) : Text :=
  if lastValue lineData [] block = [] then lastValue lineEvent ty block else []

/-- A block and the empty line behind it hand out one event at most. -/
theorem readLines_block (ty : Text) {block : List Text} (h : [] ∉ block) (rest : List Text) :
    readLines { currentEvent := ty, currentData := [] } (block ++ [] :: rest) =
      blockHanded ty block ++
        readLines { currentEvent := typeAfter ty block, currentData := [] } rest := by
  obtain ⟨hnone, hcollect⟩ := collect_of_not_mem { currentEvent := ty, currentData := [] } h
  rw [readLines_append, hnone, hcollect, nil_append, readLines]
  unfold blockHanded typeAfter
  by_cases hdata : lastValue lineData [] block = []
  · rw [readLine_of_not_ends fun hends => hends.2 hdata, if_pos hdata, if_pos hdata]
    simp [carried, hdata, lineEvent, lineData, fieldText, startsWith, text]
  · rw [readLine_of_ends ⟨rfl, hdata⟩, if_neg hdata, if_neg hdata]
    rfl

/-- What is handed over for these blocks, `ty` being the type from before. -/
def handedBlocks (ty : Text) : List (List Text) → List (Text × Text)
  | [] => []
  | block :: blocks => blockHanded ty block ++ handedBlocks (typeAfter ty block) blocks

/-- The events of the blocks of a text, one after the other. -/
theorem readLines_blocks (ty : Text) {blocks : List (List Text)}
    (h : ∀ block ∈ blocks, [] ∉ block) {rest : List Text} (hrest : [] ∉ rest) :
    readLines { currentEvent := ty, currentData := [] } (blocks.flatMap (· ++ [[]]) ++ rest) =
      handedBlocks ty blocks := by
  induction blocks generalizing ty with
  | nil => exact (collect_of_not_mem _ hrest).1
  | cons block blocks ih =>
    rw [forall_mem_cons] at h
    rw [flatMap_cons, append_assoc, append_assoc, singleton_append, readLines_block ty h.1,
      ih _ h.2, handedBlocks]

/-- A text that comes in one piece is read block by block. -/
theorem handed_eq_blocks (t : Text) : handed [] [t] = handedBlocks [] (blocks t) := by
  have hblocks : ∀ block ∈ blocks t, [] ∉ block := fun block => not_mem_of_mem_fullPieces
  have hread := readLines_blocks [] hblocks (not_mem_lastPiece [] (t.fullPieces newline))
  rw [blocks, flatMap_fullPieces_append] at hread
  rw [handed, handed, append_nil]
  exact hread

/-! ## What is dispatched for a block -/

/-- The lines of a block in the standard's reading, line by line. -/
theorem standardLines_cons (line : Text) (block : List Text) :
    standardLines (line :: block) = lines (line ++ [newline]) ++ standardLines block := by
  rw [standardLines, flatMap_cons, append_assoc]
  exact lines_append_lf line _

/-- A block and what is behind it are split into lines apart from each other. -/
theorem lines_block (block : List Text) (t : Text) :
    lines (block.flatMap (· ++ [newline]) ++ t) = standardLines block ++ lines t := by
  induction block with
  | nil => rfl
  | cons line block ih =>
    rw [standardLines_cons, flatMap_cons, append_assoc, append_assoc, append_assoc, ← ih]
    exact lines_append_lf line _

/-- A blank line behind a block ends its last group. -/
theorem fullPieces_blocks (blocks : List (List Text)) (t : Text) :
    (lines ((blocks.flatMap (· ++ [[]])).flatMap (· ++ [newline]) ++ t)).fullPieces [] =
      blocks.flatMap groups ++ (lines t).fullPieces [] := by
  induction blocks with
  | nil => rfl
  | cons block blocks ih =>
    have hblank (u : Text) : lines (newline :: u) = [] :: lines u := lines_append_lf [] u
    rw [flatMap_cons, append_assoc, flatMap_append, append_assoc, lines_block, singleton_append,
      flatMap_cons, nil_append, append_assoc, singleton_append, hblank,
      fullPieces_append_cons_self, ih, flatMap_cons, append_assoc]
    rfl

/-- The groups of a text are those of its blocks and of the lines behind them. -/
theorem fullPieces_lines (t : Text) : (lines t).fullPieces [] =
    (blocks t).flatMap groups ++ (tailLines t).fullPieces [] := by
  -- the text cut at LF, and what that gives cut at blank lines
  have hlines := flatMap_fullPieces_append newline t
  have hblocks := flatMap_fullPieces_append [] (t.fullPieces newline)
  rw [← hblocks, flatMap_append, append_assoc] at hlines
  conv_lhs => rw [← hlines]
  exact fullPieces_blocks (blocks t) _

/-! ## Data -/

/-- A value that has changed was read from a line of the block. -/
theorem exists_of_lastValue_ne {read : Text → Option Text} {init : Text} {block : List Text}
    (h : lastValue read init block ≠ init) : ∃ line ∈ block, (read line).isSome := by
  induction block generalizing init with
  | nil => exact absurd rfl h
  | cons line block ih =>
    cases hread : read line with
    | some v => exact ⟨line, mem_cons_self, by rw [hread]; rfl⟩
    | none =>
      rw [lastValue, foldl_cons, hread] at h
      obtain ⟨line', hmem, hsome⟩ := ih h
      exact ⟨line', mem_cons_of_mem _ hmem, hsome⟩

/-- The first line that the standard sees in a `data:` line is a data field. -/
theorem exists_data_of_lineData {line : Text} (h : (lineData line).isSome) :
    ∃ l ∈ lines (line ++ [newline]), (nameValue l).1 = text "data" := by
  have hstarts : startsWith line (text "data:") = true := by
    unfold lineData fieldText at h
    split_ifs at h with _ hdata
    · cases h
    · exact hdata
    · cases h
  obtain ⟨value, rfl⟩ := isPrefixOf_iff_prefix.mp hstarts
  have hlf : lf ∉ text "data:" := by decide
  have hcr : cr ∉ text "data:" := by decide
  -- the field name has no line end in it, so it begins the first line
  obtain ⟨l, ls, hl⟩ := exists_cons_of_ne_nil (lines_lf_ne_nil value)
  have hfirst : lines (text "data:" ++ value ++ [newline]) = (text "data:" ++ l) :: ls := by
    rw [append_assoc, lines_append_of_not_mem hlf hcr]
    exact congrArg (modifyHead (text "data:" ++ ·)) hl
  refine ⟨text "data:" ++ l, by rw [hfirst]; exact mem_cons_self, ?_⟩
  simp [nameValue, text, colon]

theorem mem_standardLines {block : List Text} {line l : Text} (hline : line ∈ block)
    (hl : l ∈ lines (line ++ [newline])) : l ∈ standardLines block := by
  induction block with
  | nil => cases hline
  | cons first block ih =>
    rw [standardLines_cons]
    rcases mem_cons.mp hline with rfl | hline
    · exact mem_append_left _ hl
    · exact mem_append_right _ (ih hline)

/-- A block that hands something over has a group with a data field. -/
theorem exists_group_of_data {block : List Text} (h : lastValue lineData [] block ≠ []) :
    (groups block).filter (HasData ·) ≠ [] := by
  obtain ⟨line, hline, hsome⟩ := exists_of_lastValue_ne h
  obtain ⟨l, hl, hname⟩ := exists_data_of_lineData hsome
  have hne : l ≠ [] := by
    rintro rfl
    cases hname
  obtain ⟨group, hgroup, hmem⟩ := exists_mem_splitOn (mem_standardLines hline hl) hne
  have hdata : HasData group := by
    refine ne_nil_of_mem (a := (nameValue l).2) (mem_filterMap.mpr ⟨l, hmem, ?_⟩)
    rw [if_pos hname]
  exact ne_nil_of_mem (mem_filter.mpr ⟨hgroup, decide_eq_true hdata⟩)

/-! ## Agreement -/

/-- A pair without the white space around its values. -/
def trimPair : Text × Text → Text × Text := Prod.map trim trim

/-- The last of trimmed values is trimmed. -/
theorem trim_lastValue {read : Text → Option Text}
    (hread : ∀ line v, read line = some v → trim v = v)
    {init : Text} (hinit : trim init = init) (block : List Text) :
    trim (lastValue read init block) = lastValue read init block := by
  induction block generalizing init with
  | nil => exact hinit
  | cons line block ih =>
    refine ih ?_
    beta_reduce
    cases hline : read line with
    | none => exact hinit
    | some v => exact hread line v hline

/-- No more is handed over than the standard dispatches. -/
theorem length_handedBlocks_le (ty : Text) (blocks : List (List Text)) :
    (handedBlocks ty blocks).length ≤ ((blocks.flatMap groups).filter (HasData ·)).length := by
  induction blocks generalizing ty with
  | nil => exact Nat.le_refl _
  | cons block blocks ih =>
    rw [handedBlocks, flatMap_cons, filter_append, length_append, length_append]
    refine Nat.add_le_add ?_ (ih _)
    unfold blockHanded
    split_ifs with hdata
    · exact Nat.zero_le _
    · exact length_pos_of_ne_nil (exists_group_of_data hdata)

theorem trim_of_fieldText {name line v : Text} (h : fieldText name line = some v) : trim v = v := by
  unfold fieldText at h
  split_ifs at h
  cases h
  exact trim_trim _

theorem trim_lastEvent {ty : Text} (hty : trim ty = ty) (block : List Text) :
    trim (lastValue lineEvent ty block) = lastValue lineEvent ty block :=
  trim_lastValue (fun _ _ h => trim_of_fieldText h) hty block

theorem trim_lastData (block : List Text) :
    trim (lastValue lineData [] block) = lastValue lineData [] block := by
  refine trim_lastValue (fun line v h => ?_) rfl block
  unfold lineData at h
  split_ifs at h
  exact trim_of_fieldText h

/-- From a type on, what is handed over for these blocks is what the standard dispatches for their
groups and those of `tail` exactly when the blocks are plain and `tail` has no data. -/
theorem handedBlocks_eq_iff {ty : Text} (hty : trim ty = ty) (blocks tail : List (List Text)) :
    (handedBlocks ty blocks).map trimPair =
        (((blocks.flatMap groups ++ tail).filter (HasData ·)).map eventOf).map trimPair ↔
      PlainBlocks ty blocks ∧ ∀ group ∈ tail, ¬HasData group := by
  induction blocks generalizing ty with
  | nil => simp [handedBlocks, PlainBlocks, filter_eq_nil_iff]
  | cons block blocks ih =>
    rw [handedBlocks, flatMap_cons, append_assoc, filter_append, map_append, map_append, map_append,
      PlainBlocks]
    have hlen (ty : Text) := length_handedBlocks_le ty blocks
    have hfilter : ((blocks.flatMap groups ++ tail).filter (HasData ·)).length =
        ((blocks.flatMap groups).filter (HasData ·)).length + (tail.filter (HasData ·)).length := by
      rw [filter_append, length_append]
    match hgroups : (groups block).filter (HasData ·) with
    | [] =>
      -- neither gives an event, and the type is kept
      have hdata : lastValue lineData [] block = [] :=
        not_imp_comm.mp exists_group_of_data (not_not_intro hgroups)
      rw [blockHanded, if_pos hdata, typeAfter, if_pos hdata]
      exact ih (trim_lastEvent hty block)
    | [group] =>
      by_cases hdata : lastValue lineData [] block = []
      · -- nothing is handed over for the event, so there are too few
        refine iff_of_false (fun heq => ?_) fun h => h.1.1.2.1 hdata
        have heq := congrArg List.length heq
        have hle := hlen (typeAfter ty block)
        rw [blockHanded, if_pos hdata] at heq
        simp only [map_nil, nil_append, map_cons, length_append, length_map, length_cons,
          length_nil, hfilter] at heq
        omega
      · rw [blockHanded, if_neg hdata, typeAfter, if_neg hdata, map_cons, map_cons, map_cons,
          map_nil, map_nil, map_nil, singleton_append, singleton_append, cons.injEq, ih rfl,
          trimPair, Prod.map_apply, eventOf, Prod.map_apply, Prod.mk.injEq,
          trim_lastEvent hty, trim_lastData]
        constructor
        · rintro ⟨⟨htype, htext⟩, hrest, htail⟩
          exact ⟨⟨⟨htext.symm, hdata, htype.symm⟩, hrest⟩, htail⟩
        · rintro ⟨⟨⟨htext, -, htype⟩, hrest⟩, htail⟩
          exact ⟨⟨htype.symm, htext.symm⟩, hrest, htail⟩
    | _ :: _ :: _ =>
      -- a block hands over one event at most
      refine iff_of_false (fun heq => ?_) fun h => h.1
      have heq := congrArg List.length heq
      have hle := hlen (typeAfter ty block)
      have hone : (blockHanded ty block).length ≤ 1 := by
        unfold blockHanded
        split_ifs <;> simp
      simp only [map_cons, length_append, length_map, length_cons, hfilter] at heq
      omega

/-- For every text that arrives in one chunk, what is handed to `processEvent` is what the standard
dispatches, up to white space around the types and the data, exactly when the text is plain. -/
theorem handed_eq_dispatched_iff (t : Text) :
    (handed [] [t]).map trimPair = (dispatched t).map trimPair ↔ PlainText t := by
  rw [handed_eq_blocks, dispatched, events_eq_groups, fullPieces_lines]
  exact handedBlocks_eq_iff rfl (blocks t) _

instance : DecidablePred PlainText := fun _ => inferInstanceAs (Decidable (_ ∧ _))

example : PlainText (text ": hi\nevent: alert\nid: 1\ndata: \x7b\x7d\n\n\ndata:x\n\n") := by
  decide +kernel

/-! ## A text -/

/-- An event with two data lines. -/
def twoDataLines : Text := text "data: a\ndata: b\n\n"

/-- Only the second line is handed over. -/
theorem twoDataLines_handed : handed [] [twoDataLines] = [([], text "b")] ∧
    dispatched twoDataLines = [([], text "a\nb")] ∧
    ¬∀ t, (handed [] [t]).map trimPair = (dispatched t).map trimPair := by
  have hhanded : handed [] [twoDataLines] = [([], text "b")] := by decide +kernel
  have hdispatched : dispatched twoDataLines = [([], text "a\nb")] := by decide +kernel
  refine ⟨hhanded, hdispatched, fun h => ?_⟩
  have heq := h twoDataLines
  rw [hhanded, hdispatched] at heq
  revert heq
  decide +kernel

end Console
