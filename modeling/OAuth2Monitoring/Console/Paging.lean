import OAuth2Monitoring.Console.PolicyDecisions
import OAuth2Monitoring.ToMathlib.Transitions

/-!
# Paging through the decision log

Calls of `load` and `loadOlder` that succeed one after the other, with filters that are left alone,
against a server that answers the newest rows of a query. Between the calls newer rows may be added
and time passes, so the period of a query may begin later than the one of the query before.

A page may end with the row whose id is zero. Then `loadOlder` sends no cursor, and is answered with
the newest rows again.

## Main definitions

* `Paging`, `Paging.step`: the composable with the server.
* `Shown`: what should hold of the rows that are shown.
* `Paging.CursorSent`: the condition on a step.

## Main results

* `shown_iff_cursorSent`: the rows are as they should be in every state of a run exactly when all
  its steps meet the condition.
-/

namespace Console

open JsStd EventLoop Transitions

/-- A table of decisions: the id and the time of a row, and whether a query asks for it, its start
apart. -/
structure DecisionTable (R : Type) where
  id : R → ℕ
  createdAt : R → ℤ
  fits : Query → R → Bool

/-! ## The server -/

namespace DecisionTable

variable {R : Type} (T : DecisionTable R)

/-- Does the row match the query? -/
def isMatch (q : Query) (r : R) : Bool :=
  T.fits { q with since := none } r && q.since.all fun t => t ≤ T.createdAt r

/-- Is the row older than the cursor? -/
def isBelow (before : Option ℕ) (r : R) : Bool := before.all fun b => T.id r < b

/-- What the server answers from its rows, which are kept newest first: the newest rows that match
the query, `pageSize` at most. -/
def newest (rows : List R) (q : Query) (before : Option ℕ) : List R :=
  (rows.filter fun r => T.isMatch q r && T.isBelow before r).take pageSize

/-- The rows stand in strictly decreasing order of their ids. -/
def Descending (rows : List R) : Prop := rows.Pairwise fun r r' => T.id r' < T.id r

instance (rows : List R) : Decidable (T.Descending rows) :=
  inferInstanceAs (Decidable (rows.Pairwise fun r r' => T.id r' < T.id r))

section

variable {T} {rows : List R} {q : Query} {before : Option ℕ} {r r' : R}

/-- A row of a page is one of the table that the query finds below the cursor. -/
theorem mem_newest (h : r ∈ T.newest rows q before) :
    r ∈ rows ∧ T.isMatch q r = true ∧ T.isBelow before r = true := by
  have hfilter := List.mem_filter.mp (List.mem_of_mem_take h)
  rw [Bool.and_eq_true] at hfilter
  exact hfilter

/-- The rows of a page come newest first. -/
theorem descending_newest (h : T.Descending rows) (q : Query) (before : Option ℕ) :
    T.Descending (T.newest rows q before) :=
  List.Pairwise.sublist ((List.take_sublist _ _).trans List.filter_sublist) h

/-- No row is left out above one that is answered. -/
theorem mem_newest_of_le (h : T.Descending rows) (hr : r ∈ rows) (hq : T.isMatch q r = true)
    (hbelow : T.isBelow before r = true) (hr' : r' ∈ T.newest rows q before)
    (hle : T.id r' ≤ T.id r) : r ∈ T.newest rows q before := by
  have hmem : r ∈ rows.filter fun r => T.isMatch q r && T.isBelow before r :=
    List.mem_filter.mpr ⟨hr, by rw [hq, hbelow]; rfl⟩
  have hsorted := List.Pairwise.filter (fun r => T.isMatch q r && T.isBelow before r) h
  rw [← List.take_append_drop pageSize (rows.filter _)] at hmem hsorted
  rcases List.mem_append.mp hmem with hmem | hmem
  · exact hmem
  · -- what the page leaves out is older than all of it
    have hlt := (List.pairwise_append.mp hsorted).2.2 r' hr' r hmem
    omega

/-- A short page leaves no row out. -/
theorem mem_newest_of_short (hshort : (T.newest rows q before).length < pageSize) (hr : r ∈ rows)
    (hq : T.isMatch q r = true) (hbelow : T.isBelow before r = true) :
    r ∈ T.newest rows q before := by
  have hmem : r ∈ rows.filter fun r => T.isMatch q r && T.isBelow before r :=
    List.mem_filter.mpr ⟨hr, by rw [hq, hbelow]; rfl⟩
  unfold newest at hshort ⊢
  rw [List.length_take] at hshort
  rwa [List.take_of_length_le (by omega)]

/-- No row of a list that comes newest first has a smaller id than the last. -/
theorem last_le {last : R} (h : T.Descending rows) (hlast : rows.getLast? = some last)
    (hr : r ∈ rows) : T.id last ≤ T.id r := by
  obtain ⟨front, rfl⟩ := List.getLast?_eq_some_iff.mp hlast
  rcases List.mem_append.mp hr with hr | hr
  · have hlt := (List.pairwise_append.mp h).2.2 r hr last (List.mem_singleton_self _)
    omega
  · obtain rfl := List.mem_singleton.mp hr
    exact Nat.le_refl _

/-- A row that matches the query of a later time matches the one of an earlier time. -/
theorem isMatch_of_later {f : DecisionFilters} {t now : ℤ} (ht : t ≤ now)
    (h : T.isMatch (toQuery f now) r = true) : T.isMatch (toQuery f t) r = true := by
  unfold isMatch at h ⊢
  rw [Bool.and_eq_true] at h ⊢
  refine ⟨h.1, ?_⟩
  have hsince := h.2
  unfold toQuery at hsince ⊢
  by_cases hid : trimmed f.correlationId = none
  · -- the period begins no earlier at the later time
    simp only [hid, if_true] at hsince ⊢
    cases hperiod : f.period with
    | all => rfl
    | _ =>
      simp only [hperiod, sinceFromPeriod, Option.all_some, decide_eq_true_eq] at hsince ⊢
      omega
  · -- a correlation id is looked up in the whole log
    simp only [hid, if_false]
    rfl

end

/-! ### What is shown of the rows -/

/-- No row that matches the query is missing between the first and the last one that are shown. -/
def Gapless (rows shown : List R) (q : Query) : Prop :=
  ∀ r ∈ rows, T.isMatch q r = true → ∀ first last, shown.head? = some first →
    shown.getLast? = some last → T.id last ≤ T.id r → T.id r ≤ T.id first → r ∈ shown

/-- No row that matches the query is missing after the last one that is shown. -/
def Exhausts (rows shown : List R) (q : Query) : Prop :=
  ∀ r ∈ rows, T.isMatch q r = true → ∀ last, shown.getLast? = some last →
    T.id r < T.id last → r ∈ shown

section

variable {T} {rows shown new : List R} {q q₀ : Query} {before : Option ℕ} {last : R}

/-- The first page. -/
theorem gapless_newest (h : T.Descending rows) : T.Gapless rows (T.newest rows q none) q :=
  fun _ hr hq _ _ _ hlast hle _ =>
    mem_newest_of_le h hr hq rfl (List.mem_of_getLast? hlast) hle

/-- A first page that is short leaves nothing out. -/
theorem exhausts_newest (hshort : (T.newest rows q none).length < pageSize) :
    T.Exhausts rows (T.newest rows q none) q :=
  fun _ hr hq _ _ _ => mem_newest_of_short hshort hr hq rfl

/-- A page of rows that match and are older than the last one is added. -/
structure Extends (rows shown : List R) (q : Query) (before : Option ℕ) (last : R) : Prop where
  rows_descending : T.Descending rows
  shown_descending : T.Descending shown
  last_eq : shown.getLast? = some last
  below : ∀ r ∈ rows, T.isMatch q r = true → (T.isBelow before r = true ↔ T.id r < T.id last)

/-- What the next page holds is older than what is shown. -/
theorem Extends.lt (h : T.Extends rows shown q before last) {r : R}
    (hr : r ∈ T.newest rows q before) : T.id r < T.id last := by
  obtain ⟨hmem, hq, hbelow⟩ := mem_newest hr
  exact (h.below r hmem hq).mp hbelow

/-- The last row is the one of the page, or still the last one. -/
theorem Extends.last_cases (h : T.Extends rows shown q before last) {last' : R}
    (hlast' : (shown ++ T.newest rows q before).getLast? = some last') :
    last' ∈ T.newest rows q before ∨ last' = last := by
  rw [List.getLast?_append, h.last_eq] at hlast'
  cases hpage : (T.newest rows q before).getLast? with
  | none =>
    rw [hpage] at hlast'
    exact .inr (Option.some.inj hlast').symm
  | some r =>
    rw [hpage] at hlast'
    obtain rfl : r = last' := Option.some.inj hlast'
    exact .inl (List.mem_of_getLast? hpage)

/-- With the next page behind them, the rows come newest first. -/
theorem Extends.append (h : T.Extends rows shown q before last) :
    T.Descending (shown ++ T.newest rows q before) := by
  refine List.pairwise_append.mpr
    ⟨h.shown_descending, descending_newest h.rows_descending q before, ?_⟩
  intro r hr r' hr'
  have hlt := h.lt hr'
  have hle := last_le h.shown_descending h.last_eq hr
  omega

/-- With the next page behind them, no row between the shown ones is left out. -/
theorem Extends.gapless (h : T.Extends rows shown q before last)
    (hlater : ∀ r, T.isMatch q r = true → T.isMatch q₀ r = true)
    (hgapless : T.Gapless rows shown q₀) :
    T.Gapless rows (shown ++ T.newest rows q before) q := by
  intro r hr hq first last' hfirst hlast' hle hge
  rw [List.mem_append]
  have hhead : shown.head? = some first := by
    have hne : shown ≠ [] := List.ne_nil_of_mem (List.mem_of_getLast? h.last_eq)
    rwa [List.head?_append_of_ne_nil _ hne] at hfirst
  by_cases hold : T.id last ≤ T.id r
  · -- between the rows that were shown already, where the query before asked for more
    exact .inl (hgapless r hr (hlater r hq) first last hhead h.last_eq hold hge)
  · -- the row is older than the last one that was shown, so the page goes as far down
    have hbelow := (h.below r hr hq).mpr (Nat.lt_of_not_le hold)
    rcases h.last_cases hlast' with hpage | rfl
    · exact .inr (mem_newest_of_le h.rows_descending hr hq hbelow hpage hle)
    · exact absurd hle hold

/-- When the next page is short, nothing is left out behind it. -/
theorem Extends.exhausts (h : T.Extends rows shown q before last)
    (hshort : (T.newest rows q before).length < pageSize) :
    T.Exhausts rows (shown ++ T.newest rows q before) q := by
  intro r hr hq last' hlast' hlt
  have hold : T.id r < T.id last := by
    rcases h.last_cases hlast' with hpage | rfl
    · have hle := h.lt hpage
      omega
    · exact hlt
  exact List.mem_append_right _
    (mem_newest_of_short hshort hr hq ((h.below r hr hq).mpr hold))

/-- Rows that are newer than all others are neither between the shown ones nor older. -/
theorem gapless_insert (h : T.Descending (new ++ rows)) (hsubset : ∀ r ∈ shown, r ∈ rows)
    (hgapless : T.Gapless rows shown q) : T.Gapless (new ++ rows) shown q := by
  intro r hr hq first last hfirst hlast hle hge
  rcases List.mem_append.mp hr with hnew | hr
  · have hlt := (List.pairwise_append.mp h).2.2 r hnew first
      (hsubset first (List.mem_of_head? hfirst))
    omega
  · exact hgapless r hr hq first last hfirst hlast hle hge

/-- A row that is inserted later is newer, so nothing is left out behind the shown ones. -/
theorem exhausts_insert (h : T.Descending (new ++ rows)) (hsubset : ∀ r ∈ shown, r ∈ rows)
    (hexhausts : T.Exhausts rows shown q) : T.Exhausts (new ++ rows) shown q := by
  intro r hr hq last hlast hlt
  rcases List.mem_append.mp hr with hnew | hr
  · have hgt := (List.pairwise_append.mp h).2.2 r hnew last
      (hsubset last (List.mem_of_getLast? hlast))
    omega
  · exact hexhausts r hr hq last hlast hlt

end

end DecisionTable

/-! ## Calls -/

section

variable {R V : Type} (T : DecisionTable R)

/-- The composable, the rows of the server, and the last query that was sent. -/
structure Paging (R V : Type) where
  log : Log R V
  rows : List R
  asked : Option Query := none

/-- What happens: a call, the server answering with this mode and summary; newer rows are added;
time passes. -/
inductive PagingMove (R V : Type)
  | call (j : Log.Job) (mode : Text) (summary : V)
  | insert (rows : List R)
  | clock (now : ℤ)

namespace Paging

/-- The server's answers. -/
def answers (s : Paging R V) (mode : Text) (summary : V) :
    (q : LogWait) → Except String (q.Value R V)
  | .first q _ => .ok (⟨T.newest s.rows q none, mode⟩, summary)
  | .older q before => .ok ⟨T.newest s.rows q (cursor before), mode⟩

/-- The query a call sends, if it sends one. -/
def sends (s : Paging R V) (j : Log.Job) : Option Query :=
  ((j.body T.id).run s.log).2.asks.map fun
    | .first q _ => q
    | .older q _ => q

/-- A call that is answered. -/
def call (s : Paging R V) (j : Log.Job) (mode : Text) (summary : V) : Paging R V where
  log := ((j.body T.id).eval (s.answers T mode summary) s.log).1
  rows := s.rows
  asked := (s.sends T j).or s.asked

/-- One step. Rows that are added are newer than those that are there. -/
def step (s : Paging R V) : PagingMove R V → Option (Paging R V)
  | .call j mode summary => some (s.call T j mode summary)
  | .insert rows =>
    if T.Descending (rows ++ s.rows) then some { s with rows := rows ++ s.rows } else none
  | .clock now => if s.log.now ≤ now then some { s with log := { s.log with now } } else none

/-- The composable with these filters, before anything is loaded. -/
def start (f : DecisionFilters) (now : ℤ) (rows : List R) : Paging R V where
  log := { Log.init now with filters := f }
  rows := rows

/-- The query a call would send now. -/
def query (s : Paging R V) : Query := toQuery s.log.filters s.log.now

section

variable {T} {s : Paging R V} {mode : Text} {summary : V}

/-- `load` replaces the rows. -/
theorem call_load : s.call T .load mode summary =
    { s with
      log := { s.log with
        decisions := T.newest s.rows s.query none
        mode := mode
        summary := some summary
        exhausted := (T.newest s.rows s.query none).length < pageSize
        shown := some s.query
        loading := false
        error := none }
      asked := some s.query } := rfl

/-- `loadOlder` adds the rows before the last one. -/
theorem call_loadOlder {last : R} (hlast : s.log.decisions.getLast? = some last)
    (hmore : s.log.exhausted = false) : s.call T .loadOlder mode summary =
      { s with
        log := { s.log with
          decisions := s.log.decisions ++ T.newest s.rows s.query (cursor (T.id last))
          exhausted := (T.newest s.rows s.query (cursor (T.id last))).length < pageSize
          loading := false
          error := none }
        asked := some s.query } := by
  have hbody : Log.Job.body T.id .loadOlder = (Log.loadOlder T.id : Log.Fun R V Unit) := rfl
  -- both guards let it pass, and what is left is the guarded request
  have hrun : (Log.loadOlder T.id : Log.Fun R V Unit).run s.log = ((Log.guarded do
      let s ← Async.read
      let page ← Log.awaitOlder (toQuery s.filters s.now) (T.id last)
      Async.modify fun s =>
        { s with
          decisions := s.decisions ++ page.decisions
          exhausted := page.decisions.length < pageSize } : Log.Fun R V Unit)).run s.log := by
    unfold Log.loadOlder
    simp only [Async.bind_eq, Async.read, Async.andThen_get, Async.andThen_ret, Async.onOk_ok,
      Async.run, hlast, hmore]
    rfl
  unfold call sends
  rw [Async.eval_eq_run, hbody, hrun]
  rfl

/-- `loadOlder` ends at once when there is no last row, or no older one. -/
theorem run_loadOlder_idle (h : s.log.decisions = [] ∨ s.log.exhausted = true) :
    (Log.Job.loadOlder.body T.id : Log.Fun R V Unit).run s.log = (s.log, .settled (.ok ())) := by
  show (Log.loadOlder T.id : Log.Fun R V Unit).run s.log = _
  unfold Log.loadOlder
  simp only [Async.bind_eq, Async.read, Async.andThen_get, Async.andThen_ret, Async.onOk_ok,
    Async.run]
  cases hlast : s.log.decisions.getLast? with
  | none => rfl
  | some last =>
    -- so it is exhausted, and the second guard returns
    rcases h with hnil | hexhausted
    · rw [hnil] at hlast
      cases hlast
    · simp only [hexhausted, if_true]
      rfl

/-- Without rows, or with no older ones left, `loadOlder` sends nothing. -/
theorem sends_loadOlder_idle (h : s.log.decisions = [] ∨ s.log.exhausted = true) :
    s.sends T .loadOlder = none := by
  rw [sends, run_loadOlder_idle h]
  rfl

theorem call_loadOlder_idle (h : s.log.decisions = [] ∨ s.log.exhausted = true) :
    s.call T .loadOlder mode summary = s := by
  rw [call, sends_loadOlder_idle h, Async.eval_eq_run, run_loadOlder_idle h]
  rfl

end

/-! ## The rows that are shown -/

/-- What should hold of the rows. -/
structure Shown (s : Paging R V) : Prop where
  /-- They stand in strictly decreasing order of their ids. -/
  descending : T.Descending s.log.decisions
  /-- None that matches the last query is missing between the first and the last one. -/
  gapless : ∀ q, s.asked = some q → T.Gapless s.rows s.log.decisions q
  /-- When they are exhausted none is missing after the last one. -/
  exhausts : s.log.exhausted = true → ∀ q, s.asked = some q → T.Exhausts s.rows s.log.decisions q
  /-- No call asks for more then. -/
  silent : s.log.exhausted = true → s.sends T .loadOlder = none

/-- What a run keeps besides: the shown rows are rows of the server, and the last query was made
from the filters, at a time that is past. -/
structure Kept (s : Paging R V) : Prop where
  shown : s.Shown T
  rows : T.Descending s.rows
  subset : ∀ r ∈ s.log.decisions, r ∈ s.rows
  asked : ∀ q, s.asked = some q → ∃ t ≤ s.log.now, q = toQuery s.log.filters t
  unasked : s.asked = none → s.log.decisions = []

/-- Older rows are not asked for below the id zero, for which no cursor is sent, unless the server
has no row that matches. -/
def CursorSent (s : Paging R V) : PagingMove R V → Prop
  | .call .loadOlder _ _ => s.log.exhausted = false →
      ∀ last, s.log.decisions.getLast? = some last → T.id last = 0 →
        ∀ r ∈ s.rows, T.isMatch s.query r = false
  | _ => True

section

variable {T} {s s' : Paging R V} {mode : Text} {summary : V}

theorem kept_start (f : DecisionFilters) (now : ℤ) {rows : List R} (h : T.Descending rows) :
    (start f now rows : Paging R V).Kept T where
  shown :=
    { descending := List.Pairwise.nil
      gapless := nofun
      exhausts := nofun
      silent := nofun }
  rows := h
  subset := nofun
  asked := nofun
  unasked := fun _ => rfl

/-- A load keeps it. -/
theorem Kept.load (h : s.Kept T) : (s.call T .load mode summary).Kept T := by
  rw [call_load]
  refine ⟨⟨DecisionTable.descending_newest h.rows _ _, ?_, ?_, ?_⟩, h.rows, ?_, ?_, nofun⟩
  · intro q hq
    obtain rfl := Option.some.inj hq
    exact DecisionTable.gapless_newest h.rows
  -- a page that is not full was the last one
  · intro hshort q hq
    obtain rfl := Option.some.inj hq
    exact DecisionTable.exhausts_newest (of_decide_eq_true hshort)
  · exact fun hexhausted => sends_loadOlder_idle (.inr hexhausted)
  · exact fun r hr => (DecisionTable.mem_newest hr).1
  · intro q hq
    obtain rfl := Option.some.inj hq
    exact ⟨s.log.now, Int.le_refl _, rfl⟩

/-- The page that is asked for extends the list. -/
theorem Kept.extends (h : s.Kept T) (hC : s.CursorSent T (.call .loadOlder mode summary))
    (hmore : s.log.exhausted = false) {last : R} (hlast : s.log.decisions.getLast? = some last) :
    T.Extends s.rows s.log.decisions s.query (cursor (T.id last)) last := by
  refine ⟨h.rows, h.shown.descending, hlast, fun r hr hmatch => ?_⟩
  have hzero : T.id last ≠ 0 := by
    intro hzero
    have hnone := hC hmore last hlast hzero r hr
    rw [hmatch] at hnone
    cases hnone
  rw [cursor, if_neg hzero]
  exact decide_eq_true_iff

/-- So does an older page, when the cursor is the id of the last row. -/
theorem Kept.loadOlder (h : s.Kept T) (hC : s.CursorSent T (.call .loadOlder mode summary)) :
    (s.call T .loadOlder mode summary).Kept T := by
  by_cases hidle : s.log.decisions = [] ∨ s.log.exhausted = true
  · rw [call_loadOlder_idle hidle]
    exact h
  · rw [not_or, Bool.not_eq_true] at hidle
    obtain ⟨hne, hmore⟩ := hidle
    obtain ⟨last, hlast⟩ : ∃ last, s.log.decisions.getLast? = some last :=
      ⟨_, List.getLast?_eq_some_getLast hne⟩
    have hextends := h.extends hC hmore hlast
    -- the last query was made earlier with the same filters
    obtain ⟨q₀, hasked⟩ : ∃ q₀, s.asked = some q₀ :=
      Option.ne_none_iff_exists'.mp fun hnone => hne (h.unasked hnone)
    obtain ⟨t, ht, rfl⟩ := h.asked q₀ hasked
    rw [call_loadOlder hlast hmore]
    refine ⟨⟨hextends.append, ?_, ?_, ?_⟩, h.rows, ?_, ?_, nofun⟩
    · -- what the new query asks for, the last one asked for too
      intro q hq
      obtain rfl := Option.some.inj hq
      exact hextends.gapless (fun r => DecisionTable.isMatch_of_later ht)
        (h.shown.gapless _ hasked)
    · intro hshort q hq
      obtain rfl := Option.some.inj hq
      exact hextends.exhausts (of_decide_eq_true hshort)
    · exact fun hexhausted => sends_loadOlder_idle (.inr hexhausted)
    · intro r hr
      rcases List.mem_append.mp hr with hr | hr
      · exact h.subset r hr
      · exact (DecisionTable.mem_newest hr).1
    · intro q hq
      obtain rfl := Option.some.inj hq
      exact ⟨s.log.now, Int.le_refl _, rfl⟩

/-- A step that meets the condition. -/
theorem Kept.step {m : PagingMove R V} (h : s.Kept T) (hC : s.CursorSent T m)
    (hstep : s.step T m = some s') : s'.Kept T := by
  cases m with
  | call j mode summary =>
    cases hstep
    cases j with
    | load => exact h.load
    | loadOlder => exact h.loadOlder hC
  | insert rows =>
    -- the shown rows are rows of the server, so the new ones are newer than all of them
    rw [Paging.step] at hstep
    split at hstep
    · next hrows =>
      cases hstep
      exact ⟨⟨h.shown.descending,
        fun q hq => DecisionTable.gapless_insert hrows h.subset (h.shown.gapless q hq),
        fun hexhausted q hq =>
          DecisionTable.exhausts_insert hrows h.subset (h.shown.exhausts hexhausted q hq),
        h.shown.silent⟩, hrows, fun r hr => List.mem_append_right _ (h.subset r hr), h.asked,
        h.unasked⟩
    · cases hstep
  | clock now =>
    -- only the time of the last query moves further into the past
    rw [Paging.step] at hstep
    split at hstep
    · next hnow =>
      cases hstep
      refine ⟨⟨h.shown.descending, h.shown.gapless, h.shown.exhausts,
        fun hexhausted => sends_loadOlder_idle (.inr hexhausted)⟩, h.rows, h.subset, ?_, h.unasked⟩
      intro q hq
      obtain ⟨t, ht, heq⟩ := h.asked q hq
      exact ⟨t, Int.le_trans ht hnow, heq⟩
    · cases hstep

/-- Below the id zero the newest rows are added again. -/
theorem not_shown_of_zero {m : PagingMove R V} (hC : ¬s.CursorSent T m)
    (hstep : s.step T m = some s') : ¬s'.Shown T := by
  cases m with
  | insert rows => exact absurd trivial hC
  | clock now => exact absurd trivial hC
  | call j mode summary =>
    cases j with
    | load => exact absurd trivial hC
    | loadOlder =>
      simp only [CursorSent, Classical.not_imp, not_forall, Bool.not_eq_false] at hC
      obtain ⟨hmore, last, hlast, hzero, r, hr, hmatch⟩ := hC
      cases hstep
      rw [call_loadOlder hlast hmore, hzero]
      intro hshown
      -- the newest row is added behind the last one, whose id is zero
      have hmem : r ∈ s.rows.filter fun r => T.isMatch s.query r && T.isBelow none r :=
        List.mem_filter.mpr ⟨hr, by rw [hmatch]; rfl⟩
      obtain ⟨r', rest, hfilter⟩ := List.exists_cons_of_ne_nil (List.ne_nil_of_mem hmem)
      have hpage : r' ∈ T.newest s.rows s.query (cursor 0) := by
        show r' ∈ (s.rows.filter fun r => T.isMatch s.query r && T.isBelow none r).take pageSize
        rw [hfilter]
        exact List.mem_cons_self
      have hlt := (List.pairwise_append.mp hshown.descending).2.2 last
        (List.mem_of_getLast? hlast) r' hpage
      omega

end

end Paging

/-- In every run of calls that are answered, from the first one on, with filters that stay as they
are: the rows are in every state as `Shown` says exactly when `loadOlder` is not called below the id
zero, where the list is not exhausted and some row of the server matches. -/
theorem shown_iff_cursorSent (f : DecisionFilters) (now : ℤ) {rows : List R}
    (hrows : T.Descending rows) {moves : List (PagingMove R V)} {s' : Paging R V}
    (hplay : play (Paging.step T) (Paging.start f now rows) moves = some s') :
    (∀ n s, play (Paging.step T) (Paging.start f now rows) (moves.take n) = some s →
        s.Shown T) ↔
      Meets (Paging.step T) (Paging.CursorSent T) (Paging.start f now rows) moves :=
  forall_play_iff (I := Paging.Kept T) (fun _ h => h.shown) (fun _ _ _ h hC => h.step hC)
    (fun _ _ _ _ hC => Paging.not_shown_of_zero hC) (Paging.kept_start f now hrows) hplay

end

/-! ## Two tables -/

/-- The table of decisions. -/
def decisionTable : DecisionTable Decision where
  id := Decision.id
  createdAt := Decision.createdAt
  fits q d := q.allow = none ∨ q.allow = some d.allow

/-- As many rows, the oldest one with this id. -/
def numbered (count oldest : ℕ) : List Decision :=
  (List.range count).map fun n => { id := oldest + (count - 1 - n), createdAt := 0, allow := false }

/-- The rows are loaded, and then the older ones. -/
def loadTwice : List (PagingMove Decision Unit) :=
  [.call .load (text "enforce") (), .call .loadOlder (text "enforce") ()]

/-- One row more than a page, from the id one on: all are shown in the end, and no more are asked
for. -/
theorem numbered_one_shown :
    (∃ s', play (Paging.step decisionTable) (Paging.start defaultFilters 0 (numbered 101 1))
        loadTwice = some s' ∧ s'.log.decisions = numbered 101 1 ∧ s'.log.exhausted = true) ∧
      ∀ n s, play (Paging.step decisionTable) (Paging.start defaultFilters 0 (numbered 101 1))
        (loadTwice.take n) = some s → s.Shown decisionTable := by
  refine ⟨⟨_, rfl, by decide +kernel, by decide +kernel⟩, ?_⟩
  have hrows : decisionTable.Descending (numbered 101 1) := by decide +kernel
  refine (shown_iff_cursorSent decisionTable defaultFilters 0 hrows rfl).mpr
    ⟨trivial, fun _ last hlast hzero => ?_, trivial⟩
  -- the last row of the first page has the id two
  have hrow : last = { id := 2, createdAt := 0, allow := false } :=
    Option.some.inj (hlast.symm.trans (by decide +kernel))
  rw [hrow] at hzero
  cases hzero

/-- A page that ends with the id zero: the newest rows are added again. -/
theorem numbered_zero_repeated : decisionTable.Descending (numbered 100 0) ∧
    ∃ s', play (Paging.step decisionTable) (Paging.start defaultFilters 0 (numbered 100 0))
        loadTwice = some s' ∧
      s'.log.decisions = numbered 100 0 ++ numbered 100 0 ∧ ¬s'.Shown decisionTable := by
  have hrepeated : ¬decisionTable.Descending (numbered 100 0 ++ numbered 100 0) := by decide +kernel
  obtain ⟨s', hplay, hdecisions⟩ : ∃ s',
      play (Paging.step decisionTable) (Paging.start defaultFilters 0 (numbered 100 0))
        loadTwice = some s' ∧ s'.log.decisions = numbered 100 0 ++ numbered 100 0 :=
    ⟨_, rfl, by decide +kernel⟩
  refine ⟨by decide +kernel, s', hplay, hdecisions, fun hshown => hrepeated ?_⟩
  rw [← hdecisions]
  exact hshown.descending

end Console
