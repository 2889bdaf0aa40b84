import OAuth2Monitoring.JsStd.Basic
import OAuth2Monitoring.ToMathlib.EventLoop.Loop
import Mathlib.Data.Int.Notation
import Mathlib.Data.List.Basic

/-!
# The access-policy decision log

`usePolicyDecisions` keeps a list that `load` replaces and `loadOlder` extends at its end, with the
id of the last row as the cursor. Both read the filters when they are called and write the list when
they are answered, so an answer to `loadOlder` may meet a list that it was not asked for.

The rows, and when a row matches a query, are parameters; what is known of the server is `Serves`.

## Main definitions

* `toQuery`, `Log.load`, `Log.loadOlder`: the composable.
* `Refines`: one query asks for no more than another one.
* `Fits`: the condition on a step.

## Main results

* `decisions_of_fits`: the rows that are shown match the query of the load they belong to, and their
  ids decrease strictly.
-/

namespace Console

open JsStd EventLoop

/-! ## Filters and queries -/

/-- The rows of a page, as many as the console asks for. -/
def pageSize : ℕ := 100

/-- The values of the filter on the outcome. -/
inductive OutcomeFilter
  | all
  | denied
  | allowed
  deriving DecidableEq

/-- The values of the filter on the source. -/
inductive SourceFilter
  | any
  | adminPep
  | decideApi
  deriving DecidableEq

/-- The values of the filter on the period. -/
inductive Period
  | hour
  | day
  | week
  | month
  | all
  deriving DecidableEq

/-- What the filters of the page are set to. -/
structure DecisionFilters where
  correlationId : Text
  outcome : OutcomeFilter
  divergenceOnly : Bool
  source : SourceFilter
  clientId : Text
  period : Period

/-- What they are set to at first. -/
def defaultFilters : DecisionFilters where
  correlationId := []
  outcome := .all
  divergenceOnly := false
  source := .any
  clientId := []
  period := .day

/-- The filters of a request. An instant is given in milliseconds. The cursor of a page is not part
of it, and the limit is always `pageSize`. -/
structure Query where
  correlationId : Option Text
  allow : Option Bool
  divergence : Bool
  source : SourceFilter
  clientId : Option Text
  since : Option ℤ
  deriving DecidableEq

/-- `sinceFromPeriod`: the start of a period, none for all time. -/
def sinceFromPeriod (period : Period) (now : ℤ) : Option ℤ :=
  let start (hours : ℤ) : Option ℤ := some (now - hours * 3600 * 1000)
  match period with
  | .hour => start 1
  | .day => start 24
  | .week => start (24 * 7)
  | .month => start (24 * 30)
  | .all => none

/-- A text without the spaces around it, unless nothing is left. -/
def trimmed (s : Text) : Option Text := if trim s = [] then none else some (trim s)

/-- `toQuery`. -/
def toQuery (f : DecisionFilters) (now : ℤ) : Query where
  correlationId := trimmed f.correlationId
  allow := if f.outcome = .all then none else some (f.outcome = .allowed)
  divergence := f.divergenceOnly
  source := f.source
  clientId := trimmed f.clientId
  -- a correlation id names one request, which may be older than the period
  since := if trimmed f.correlationId = none then sinceFromPeriod f.period now else none

/-- The query asks for no more than `q'`: it is the same, but may begin later. -/
def Query.Refines (q q' : Query) : Prop :=
  { q with since := q'.since } = q' ∧ ∀ t, q'.since = some t → ∃ t', q.since = some t' ∧ t ≤ t'

/-! ## The composable -/

/-- A page of rows, and the mode of the policy. -/
structure DecisionsPage (R : Type) where
  decisions : List R
  mode : Text

/-- The state of the composable. `now` is the clock of the browser. No function reads `shown`: it
records the query of the load whose rows are shown. -/
structure Log (R V : Type) where
  filters : DecisionFilters
  decisions : List R
  mode : Text
  summary : Option V
  loading : Bool
  error : Option String
  exhausted : Bool
  now : ℤ
  shown : Option Query

/-- What the composable awaits: the first page with the summary of a period, or the page of rows
before an id. -/
inductive LogWait
  | first (q : Query) (since : Option ℤ)
  | older (q : Query) (before : ℕ)

/-- What each request is answered with. -/
@[reducible]
def LogWait.Value (R V : Type) : LogWait → Type
  | first _ _ => DecisionsPage R × V
  | older _ _ => DecisionsPage R

namespace Log

variable {R V : Type}

/-- The state before anything is loaded. -/
def init (now : ℤ) : Log R V where
  filters := defaultFilters
  decisions := []
  mode := text "off"
  summary := none
  loading := false
  error := none
  exhausted := false
  now := now
  shown := none

/-- An asynchronous function of the composable. -/
abbrev Fun (R V α : Type) := Async (Log R V) (LogWait.Value R V) String α

/-- The first page and the summary are awaited together. -/
def awaitFirst (q : Query) (since : Option ℤ) : Fun R V (DecisionsPage R × V) :=
  Async.ask (LogWait.first q since)

/-- An older page is awaited. -/
def awaitOlder (q : Query) (before : ℕ) : Fun R V (DecisionsPage R) :=
  Async.ask (LogWait.older q before)

/-- The catch and the finally block that `load` and `loadOlder` share. -/
def guarded (t : Fun R V Unit) : Fun R V Unit := do
  Async.modify fun s => { s with loading := true, error := none }
  Async.tryFinally
    (Async.tryCatch t fun e => Async.modify fun s => { s with error := some e })
    (Async.modify fun s => { s with loading := false })

/-- `load`. -/
def load : Fun R V Unit :=
  guarded do
    let s ← Async.read
    let q := toQuery s.filters s.now
    -- there is no summary of all time
    let period := if s.filters.period = .all then .month else s.filters.period
    let answer ← awaitFirst q (sinceFromPeriod period s.now)
    Async.modify fun s =>
      { s with
        decisions := answer.1.decisions
        mode := answer.1.mode
        summary := some answer.2
        exhausted := answer.1.decisions.length < pageSize
        shown := some q }

/-- `loadOlder`, the id of a row being given by `id`. -/
def loadOlder (id : R → ℕ) : Fun R V Unit := do
  let s ← Async.read
  match s.decisions.getLast? with
  | none => return ()
  | some last =>
    if s.exhausted then return ()
    -- the filters are read anew, not those of the load that is shown
    else guarded do
      let s ← Async.read
      let page ← awaitOlder (toQuery s.filters s.now) (id last)
      Async.modify fun s =>
        { s with
          decisions := s.decisions ++ page.decisions
          exhausted := page.decisions.length < pageSize }

/-- The calls of the composable. -/
inductive Job
  | load
  | loadOlder

/-- What each job of the page runs. -/
def Job.body (id : R → ℕ) : Job → Fun R V Unit
  | load => Log.load
  | loadOlder => Log.loadOlder id

/-- What happens apart from the calls: the filters are edited, or reset, and time passes. -/
inductive Edit
  | filters (f : DecisionFilters)
  | reset
  | clock (now : ℤ)

/-- The user edits a filter, at any time. -/
def happens (s : Log R V) : Edit → Log R V → Prop
  | .filters f, s' => s' = { s with filters := f }
  | .reset, s' => s' = { s with filters := defaultFilters }
  | .clock now, s' => s' = { s with now := now }

end Log

/-! ## The server -/

section

variable {R V : Type} (id : R → ℕ) (Matches : Query → R → Prop)

/-- The cursor as it is sent: `fetchPolicyDecisions` leaves out a zero. -/
def cursor (before : ℕ) : Option ℕ := if before = 0 then none else some before

/-- The rows match the query, are older than the cursor, and come newest first. -/
def Serves (q : Query) (before : Option ℕ) (rows : List R) : Prop :=
  (∀ r ∈ rows, Matches q r ∧ ∀ b, before = some b → id r < b) ∧
    rows.Pairwise fun r r' => id r' < id r

/-- The server's answers. A request may fail in any way. -/
def Log.settles (_ : Log R V) : (q : LogWait) → Except String (q.Value R V) → Prop
  | .first q _, a => ∀ page v, a = .ok (page, v) → Serves id Matches q none page.decisions
  | .older q before, a => ∀ page, a = .ok page → Serves id Matches q (cursor before) page.decisions

/-- The states of the composable with its calls. -/
abbrev LogState (R V : Type) := Loop (Log R V) Log.Job (LogWait.Value R V) String Unit

/-- The states a run passes through, each step meeting `C`. -/
abbrev LogRun (C : LogState R V → Label Log.Job Log.Edit (LogWait.Value R V) String → Prop)
    (now : ℤ) : LogState R V → Prop :=
  Reachable (Log.Job.body id) (Log.settles id Matches) Log.happens C (.init now)

/-- A page of older rows is added only to a list that it extends: it was asked for with filters that
give the query of the load that is shown, or begin later, and with a cursor that is not above the
last row. An empty page extends every list. -/
def Fits (L : LogState R V) : Label Log.Job Log.Edit (LogWait.Value R V) String → Prop
  | .resume _ ⟨.older q before, .ok page⟩ => page.decisions = [] ∨
      (∃ q', L.shared.shown = some q' ∧ q.Refines q') ∧
        before ≠ 0 ∧ ∀ last, L.shared.decisions.getLast? = some last → before ≤ id last
  | _ => True

end

/-! ## What the calls do -/

section

variable {R V : Type} {id : R → ℕ} {Matches : Query → R → Prop}

/-- The rows that are shown, and the query of their load. -/
def Log.rows (s : Log R V) : List R × Option Query := (s.decisions, s.shown)

/-- The rows after an answer: a first page replaces the list, an older page is added to it, and a
failure leaves it. -/
def rowsAfter : List (Answered (LogWait.Value R V) String) → Log R V → List R × Option Query
  | ⟨.first q _, .ok (page, _)⟩ :: _, _ => (page.decisions, some q)
  | ⟨.older _ _, .ok page⟩ :: _, s => (s.decisions ++ page.decisions, s.shown)
  | _, s => s.rows

/-- The specification of both calls. -/
def logSpec : Spec (Log R V) (LogWait.Value R V) String Unit where
  wait _ s₀ s _ := s.rows = s₀.rows
  done h s₀ s _ := s.rows = rowsAfter h s₀

section

variable {settles : Log R V → (q : LogWait) → Except String (q.Value R V) → Prop} {s : Log R V}

/-- The catch and the finally block do not change the rows. -/
theorem sat_guarded {t : Log.Fun R V Unit}
    (ht : t.Sat settles logSpec [] s { s with loading := true, error := none }) :
    (Log.guarded t).Sat settles logSpec [] s s := by
  show Async.Sat settles logSpec (Async.tryFinally _ _) [] s _
  refine Async.Sat.andThen (Async.Sat.andThen (ht.mono (fun _ _ _ _ hw => hw)
    fun h s₀ s r hr => ?_))
  cases r with
  | ok _ => exact hr
  | error e => exact hr

/-- `load` does what `logSpec` says. -/
theorem sat_load : Log.load.Sat settles logSpec [] s s := by
  refine sat_guarded ⟨rfl, fun a s₁ _ => ?_⟩
  cases a with
  | ok answer => rfl
  | error e => rfl

theorem sat_loadOlder : (Log.loadOlder id).Sat settles logSpec [] s s := by
  show Async.Sat settles logSpec (match s.decisions.getLast? with
    | none => _
    | some last => if s.exhausted then _ else _) [] s s
  cases s.decisions.getLast? with
  | none => rfl
  | some last =>
    dsimp only
    split
    · rfl
    -- past both guards one page is awaited, and nothing else
    · refine sat_guarded ⟨rfl, fun a s₁ _ => ?_⟩
      cases a with
      | ok page => rfl
      | error e => rfl

/-- Every job of the page does what `logSpec` says. -/
theorem Log.Job.sat (j : Log.Job) : (j.body id).Sat settles logSpec [] s s := by
  cases j with
  | load => exact sat_load
  | loadOlder => exact sat_loadOlder

end

/-! ## Runs -/

/-- The rows belong to one load, whose query they match, and their ids decrease strictly. -/
def GoodRows (id : R → ℕ) (Matches : Query → R → Prop) (rows : List R × Option Query) : Prop :=
  (∀ r ∈ rows.1, ∃ q, rows.2 = some q ∧ Matches q r) ∧ rows.1.Pairwise fun r r' => id r' < id r

/-- A page that extends the list leaves good rows. -/
theorem GoodRows.append {rows page : List R} {q q' : Query} {before : ℕ}
    (hrefines : ∀ q q' r, q.Refines q' → Matches q r → Matches q' r)
    (hrows : GoodRows id Matches (rows, some q'))
    (hserves : Serves id Matches q (cursor before) page)
    (hq : q.Refines q') (hbefore : before ≠ 0)
    (hlast : ∀ last, rows.getLast? = some last → before ≤ id last) :
    GoodRows id Matches (rows ++ page, some q') := by
  obtain ⟨hmatch, hsorted⟩ := hrows
  obtain ⟨hpage, hpageSorted⟩ := hserves
  refine ⟨fun r hr => ?_, ?_⟩
  · rcases List.mem_append.mp hr with hr | hr
    · exact hmatch r hr
    · exact ⟨q', rfl, hrefines q q' r hq (hpage r hr).1⟩
  · rw [List.pairwise_append]
    refine ⟨hsorted, hpageSorted, fun r hr r' hr' => ?_⟩
    have hlt : id r' < before := (hpage r' hr').2 before (if_neg hbefore)
    -- the row is the last one, or stands above it
    obtain ⟨front, last, rfl⟩ : ∃ front last, rows = front ++ [last] :=
      ⟨_, _, (List.dropLast_append_getLast (List.ne_nil_of_mem hr)).symm⟩
    have hle : before ≤ id last := hlast last (by simp)
    rcases List.mem_append.mp hr with hr | hr
    · have := (List.pairwise_append.mp hsorted).2.2 r hr last (List.mem_singleton_self _)
      omega
    · obtain rfl := List.mem_singleton.mp hr
      omega

variable {now : ℤ} {L : LogState R V}

/-- An answer of the server that fits leaves good rows. -/
theorem GoodRows.after {h : List (Answered (LogWait.Value R V) String)} {q : LogWait}
    {a : Except String (q.Value R V)} {i : ℕ} (hL : GoodRows id Matches L.shared.rows)
    (hrefines : ∀ q q' r, q.Refines q' → Matches q r → Matches q' r)
    (ha : Log.settles id Matches L.shared q a) (hfits : Fits id L (.resume i ⟨q, a⟩)) :
    GoodRows id Matches (rowsAfter (⟨q, a⟩ :: h) L.shared) := by
  cases a with
  | error e => cases q <;> exact hL
  | ok answer =>
    cases q with
    | first q since =>
      obtain ⟨page, v⟩ := answer
      have hserves := ha page v rfl
      exact ⟨fun r hr => ⟨q, rfl, (hserves.1 r hr).1⟩, hserves.2⟩
    | older q before =>
      show GoodRows id Matches (L.shared.decisions ++ answer.decisions, L.shared.shown)
      -- an empty page changes nothing, any other one extends the list
      rcases hfits with hempty | ⟨⟨q', hshown, hq⟩, hbefore, hlast⟩
      · rw [hempty, List.append_nil]
        exact hL
      · rw [hshown]
        have hrows : GoodRows id Matches (L.shared.decisions, some q') := hshown ▸ hL
        exact hrows.append hrefines (ha answer rfl) hq hbefore hlast

/-- In every run in which each page of older rows that is added extends the list: every row that is
shown matches the query of the load it belongs to, the rows stand in strictly decreasing order of
their ids, and no id appears twice. -/
theorem decisions_of_fits (hrefines : ∀ q q' r, q.Refines q' → Matches q r → Matches q' r)
    (hL : LogRun id Matches (Fits id) now L) :
    (∀ r ∈ L.shared.decisions, ∃ q, L.shared.shown = some q ∧ Matches q r) ∧
      (L.shared.decisions.Pairwise fun r r' => id r' < id r) ∧
      (L.shared.decisions.map id).Nodup := by
  have hgood : GoodRows id Matches L.shared.rows := by
    refine Reachable.invariant (I := fun L => GoodRows id Matches L.shared.rows)
      (S := fun _ _ => logSpec) (fun j _ => j.sat) ⟨fun r hr => absurd hr List.not_mem_nil,
        List.Pairwise.nil⟩ ?_ ?_ ?_ hL
    · -- the first segment of a call changes no rows
      intro L j s p ih _ _ hp
      have hrows : s.rows = L.shared.rows := by
        cases p with
        | settled r => exact hp
        | waiting q k => exact hp
      show GoodRows id Matches s.rows
      rw [hrows]
      exact ih
    · -- the one after an answer stores it
      intro L i j c h q k a s p ih hC hact ha _ hp
      show GoodRows id Matches s.rows
      cases p with
      | waiting q' k' =>
        have hrows : s.rows = L.shared.rows := hp
        rw [hrows]
        exact ih
      | settled r =>
        have hrows : s.rows = rowsAfter (⟨q, a⟩ :: h) L.shared := hp
        rw [hrows]
        exact ih.after hrefines ha hC
    · -- the filters and the clock are no part of the rows
      intro L e s ih _ he
      have hrows : s.rows = L.shared.rows := by
        cases e <;>
          · obtain rfl := he
            rfl
      show GoodRows id Matches s.rows
      rw [hrows]
      exact ih
  refine ⟨hgood.1, hgood.2, ?_⟩
  rw [List.Nodup, List.pairwise_map]
  exact hgood.2.imp fun h heq => by omega

end

/-! ## Two logs -/

/-- A decision with its time and its outcome. -/
structure Decision where
  id : ℕ
  createdAt : ℤ
  allow : Bool
  deriving DecidableEq

/-- The decision has the outcome the query asks for, and is not older than its start. -/
def Decision.Matches (q : Query) (d : Decision) : Prop :=
  (q.allow = none ∨ q.allow = some d.allow) ∧ ∀ t ∈ q.since, t ≤ d.createdAt

/-- A decision that a query finds is found by every query it refines. -/
theorem Decision.matches_of_refines (q q' : Query) (d : Decision) (hq : q.Refines q')
    (hd : d.Matches q) : d.Matches q' := by
  have hallow : ({ q with since := q'.since } : Query).allow = q'.allow := congrArg Query.allow hq.1
  refine ⟨hallow ▸ hd.1, fun t ht => ?_⟩
  obtain ⟨t', ht', hle⟩ := hq.2 t ht
  exact Int.le_trans hle (hd.2 t' ht')

/-- The filters for one outcome. -/
def outcomeFilters (outcome : OutcomeFilter) : DecisionFilters :=
  { defaultFilters with outcome := outcome }

/-- A page of one hundred denials. -/
def denials : List Decision :=
  (List.range 100).map fun n => { id := 200 - n, createdAt := 0, allow := false }

/-- The answers to the calls: the denials, and then an older row with this outcome. -/
def answers (allow : Bool) : (q : LogWait) → Except String (q.Value Decision Unit)
  | .first _ _ => .ok (⟨denials, text "enforce"⟩, ())
  | .older _ _ => .ok ⟨[{ id := 50, createdAt := 0, allow := allow }], text "enforce"⟩

/-- Edit the filters. -/
def LogState.edited (L : LogState Decision Unit) (outcome : OutcomeFilter) :
    LogState Decision Unit :=
  { L with shared := { L.shared with filters := outcomeFilters outcome } }

/-- The denials are loaded. -/
def denialsLoaded (allow : Bool) : LogState Decision Unit :=
  ((LogState.edited (.start (.init 0)) .denied).called (Log.Job.body Decision.id) .load).answered 0
    (answers allow)

/-- The filters are edited, and older rows are asked for. -/
def olderAsked (outcome : OutcomeFilter) (allow : Bool) : LogState Decision Unit :=
  ((denialsLoaded allow).edited outcome).called (Log.Job.body Decision.id) .loadOlder

/-- They are added. -/
def olderAdded (outcome : OutcomeFilter) (allow : Bool) : LogState Decision Unit :=
  (olderAsked outcome allow).answered 1 (answers allow)

/-- The answer to the first page of the denials is one the server may give. -/
theorem serves_denials : Serves Decision.id (fun q d => d.Matches q)
    (toQuery (outcomeFilters .denied) 0) none denials := by
  refine ⟨fun d hd => ⟨?_, nofun⟩, by decide +kernel⟩
  obtain ⟨n, -, rfl⟩ := List.mem_map.mp hd
  refine ⟨.inr rfl, fun t ht => ?_⟩
  obtain rfl := Option.some.inj ht
  show (0 - 24 * 3600 * 1000 : ℤ) ≤ 0
  decide

theorem serves_older {outcome : OutcomeFilter} {allow : Bool}
    (h : (toQuery (outcomeFilters outcome) 0).allow = some allow) :
    Serves Decision.id (fun q d => d.Matches q) (toQuery (outcomeFilters outcome) 0) (some 101)
      [{ id := 50, createdAt := 0, allow := allow }] := by
  refine ⟨fun d hd => ?_, List.pairwise_singleton _ _⟩
  obtain rfl := List.mem_singleton.mp hd
  refine ⟨⟨.inr h, fun t ht => ?_⟩, fun b hb => ?_⟩
  · obtain rfl := Option.some.inj ht
    show (0 - 24 * 3600 * 1000 : ℤ) ≤ 0
    decide
  · obtain rfl := Option.some.inj hb
    show 50 < 101
    decide

section

variable {C : LogState Decision Unit →
  Label Log.Job Log.Edit (LogWait.Value Decision Unit) String → Prop}

/-- The run up to the answer to `loadOlder`. -/
theorem run_olderAsked (outcome : OutcomeFilter) (allow : Bool) (hcall : ∀ L j, C L (.call j))
    (henv : ∀ L e, C L (.env e)) (hfirst : ∀ L i q since a, C L (.resume i ⟨.first q since, a⟩)) :
    LogRun Decision.id (fun q d => d.Matches q) C 0 (olderAsked outcome allow) := by
  -- the filters are set and a page of denials is loaded; they are changed, and older rows asked for
  have h₁ : LogRun Decision.id (fun q d => d.Matches q) C 0
      (LogState.edited (.start (.init 0)) .denied) :=
    Reachable.start.happened (Log.Edit.filters (outcomeFilters .denied)) rfl (henv _ _)
  have h₂ := h₁.called .load (hcall _ _)
  have h₃ := h₂.answered 0 (answers allow) rfl
    (fun page v h => by cases h; exact serves_denials) (hfirst _ _ _ _ _)
  have h₄ : LogRun Decision.id (fun q d => d.Matches q) C 0
      ((denialsLoaded allow).edited outcome) :=
    h₃.happened (Log.Edit.filters (outcomeFilters outcome)) rfl (henv _ _)
  exact h₄.called .loadOlder (hcall _ _)

/-- The run with the answer to `loadOlder`. -/
theorem run_olderAdded {outcome : OutcomeFilter} {allow : Bool} (hcall : ∀ L j, C L (.call j))
    (henv : ∀ L e, C L (.env e)) (hfirst : ∀ L i q since a, C L (.resume i ⟨.first q since, a⟩))
    (hq : (olderAsked outcome allow).question 1 =
      some (.older (toQuery (outcomeFilters outcome) 0) 101))
    (hallow : (toQuery (outcomeFilters outcome) 0).allow = some allow)
    (holder : C (olderAsked outcome allow)
      (.resume 1 ⟨.older (toQuery (outcomeFilters outcome) 0) 101, answers allow _⟩)) :
    LogRun Decision.id (fun q d => d.Matches q) C 0 (olderAdded outcome allow) :=
  (run_olderAsked outcome allow hcall henv hfirst).answered 1 (answers allow) hq
    (fun page h => by cases h; exact serves_older hallow) holder

end

/-- With the filters left alone, the older row belongs to the list. -/
theorem olderAdded_denied : (olderAdded .denied false).shared.decisions.length = 101 ∧
    (∀ d ∈ (olderAdded .denied false).shared.decisions,
      ∃ q, (olderAdded .denied false).shared.shown = some q ∧ d.Matches q) ∧
    ((olderAdded .denied false).shared.decisions.Pairwise fun d d' => d'.id < d.id) ∧
    ((olderAdded .denied false).shared.decisions.map Decision.id).Nodup := by
  have hfits : Fits Decision.id (olderAsked .denied false)
      (.resume 1 ⟨.older (toQuery (outcomeFilters .denied) 0) 101, answers false _⟩) := by
    refine .inr ⟨⟨_, rfl, rfl, fun t ht => ⟨t, ht, Int.le_refl t⟩⟩, by decide, fun last hlast => ?_⟩
    have hrow : last = { id := 101, createdAt := 0, allow := false } :=
      Option.some.inj (hlast.symm.trans (by decide +kernel))
    subst hrow
    exact Nat.le_refl 101
  have hrun : LogRun Decision.id (fun q d => d.Matches q) (Fits Decision.id) 0
      (olderAdded .denied false) :=
    run_olderAdded (fun _ _ => trivial) (fun _ _ => trivial) (fun _ _ _ _ _ => trivial) rfl rfl
      hfits
  exact ⟨by decide +kernel, decisions_of_fits Decision.matches_of_refines hrun⟩

/-- With the filters edited in between, a row is shown that the shown load did not ask for. -/
theorem olderAdded_allowed :
    ({ id := 50, createdAt := 0, allow := true } : Decision) ∈
        (olderAdded .allowed true).shared.decisions ∧
      (olderAdded .allowed true).shared.shown = some (toQuery (outcomeFilters .denied) 0) ∧
      ¬Decision.Matches (toQuery (outcomeFilters .denied) 0)
        { id := 50, createdAt := 0, allow := true } ∧
      ¬∀ (R V : Type) (id : R → ℕ) (Matches : Query → R → Prop) (now : ℤ) (L : LogState R V),
        (∀ q q' r, q.Refines q' → Matches q r → Matches q' r) →
        LogRun id Matches (fun _ _ => True) now L →
        (∀ r ∈ L.shared.decisions, ∃ q, L.shared.shown = some q ∧ Matches q r) ∧
          (L.shared.decisions.Pairwise fun r r' => id r' < id r) ∧
          (L.shared.decisions.map id).Nodup := by
  have hmem : ({ id := 50, createdAt := 0, allow := true } : Decision) ∈
      (olderAdded .allowed true).shared.decisions := by decide +kernel
  have hshown : (olderAdded .allowed true).shared.shown =
      some (toQuery (outcomeFilters .denied) 0) := rfl
  have hnot : ¬Decision.Matches (toQuery (outcomeFilters .denied) 0)
      { id := 50, createdAt := 0, allow := true } := by
    rintro ⟨h | h, -⟩ <;> cases h
  refine ⟨hmem, hshown, hnot, fun hall => ?_⟩
  have hrun : LogRun Decision.id (fun q d => d.Matches q) (fun _ _ => True) 0
      (olderAdded .allowed true) :=
    run_olderAdded (fun _ _ => trivial) (fun _ _ => trivial) (fun _ _ _ _ _ => trivial) rfl rfl
      trivial
  -- the first of the three parts is refuted by the row
  obtain ⟨q, hq, hmatches⟩ := (hall _ _ _ _ _ _ Decision.matches_of_refines hrun).1 _ hmem
  rw [hshown, Option.some.injEq] at hq
  subst hq
  exact hnot hmatches

end Console
