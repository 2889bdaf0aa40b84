import OAuth2Monitoring.Console.Operations
import OAuth2Monitoring.Console.VersionCheck
import OAuth2Monitoring.ToMathlib.EventLoop.Lift
import OAuth2Monitoring.ToMathlib.Modify

/-!
# The reports

The view that asks for a report and then asks for its status every two seconds, until it is there
or has failed. Any number of reports can be under way; whatever else happens to the page happens in
between.

## Main definitions

* `ReportsUi`, `Reports`: the state of the view, and the page around it.
* `ReportKey`: what a report is kept under.
* `generateReport`, `poll`: the functions of the view, and `Segment` what their segments do.

## Main results

* `oneLoop_of_run`: a report is polled by one loop, exactly as long as it is marked as polled, and
  no more reports are announced than were asked for.
-/

namespace Console

open JsStd EventLoop

variable {S : Type}

/-! ## The view -/

/-- What a report is kept under: the value of its `report_id`. No two arrays or objects that were
parsed apart are the same, so they are told apart by a number. -/
inductive ReportKey
  | undefined
  | null
  | bool (b : Bool)
  | num (printed : Text)
  | str (s : Text)
  | parsed (n : ℕ) (printed : Text)
  deriving DecidableEq

namespace ReportKey

/-- The key of a value, the `n`-th one that is kept. -/
def ofValue (n : ℕ) : Option Json → ReportKey
  | none => undefined
  | some .null => null
  | some (.bool b) => bool b
  | some (.num printed) => num printed
  | some (.str s) => str s
  | some v => parsed n v.toText

/-- The key as it is put into an address. -/
def toText : ReportKey → Text
  | undefined => text "undefined"
  | null => text "null"
  | bool b => (Json.bool b).toText
  | num printed => printed
  | str s => s
  | parsed _ printed => printed

end ReportKey

/-- What the view keeps. -/
structure ReportsUi where
  /-- The reports that are marked as polled. -/
  pollingReports : List ReportKey
  /-- The polls `setTimeout` has been asked for, and that are not over. -/
  timeouts : List ReportKey
  /-- The toasts, newest first. -/
  toasts : List Toast
  /-- A report is being asked for. -/
  isGenerating : Bool
  /-- The dialog that asks for a report is open. -/
  showGenerateDialog : Bool

/-- The view and the page. -/
structure Reports (S : Type) where
  /-- The page around the view. -/
  page : Page S
  /-- The state of the view. -/
  ui : ReportsUi

/-- The page is a part of it. -/
def Reports.pagePart : Part (Reports S) (Page S) where
  get := Reports.page
  put p t := { t with page := p }
  get_put _ _ := rfl
  put_put _ _ _ := rfl
  put_get _ := rfl

/-- What a call is made for: `generateReport`, or the poll of a report. -/
abbrev ReportTag := Option ReportKey

/-- An asynchronous function of the view. -/
abbrev ReportsTask (S α : Type) := Async (Reports S) (Tagged ReportTag Wait.Value) String α

/-- The answer to what a function of the view awaits is the page's. -/
def viewSettles (t : Reports S) (q : ReportTag × Wait) : Except String q.2.Value → Prop :=
  settles t.page q.2

namespace ReportsUi

/-- `toast.add`. -/
def toast (ui : ReportsUi) (toast : Toast) : ReportsUi := { ui with toasts := toast :: ui.toasts }

/-- `pollingReports.add`. -/
def add (ui : ReportsUi) (id : ReportKey) : ReportsUi :=
  { ui with pollingReports := id :: ui.pollingReports }

/-- `pollingReports.delete`. -/
def delete (ui : ReportsUi) (id : ReportKey) : ReportsUi :=
  { ui with pollingReports := ui.pollingReports.erase id }

/-- `setTimeout(poll, 2000)`. -/
def setTimeout (ui : ReportsUi) (id : ReportKey) : ReportsUi :=
  { ui with timeouts := id :: ui.timeouts }

/-- A timeout is over. -/
def timedOut (ui : ReportsUi) (id : ReportKey) : ReportsUi :=
  { ui with timeouts := ui.timeouts.erase id }

/-- `isGenerating.value = value`. -/
def generating (ui : ReportsUi) (value : Bool) : ReportsUi := { ui with isGenerating := value }

/-- `showGenerateDialog.value = value`. -/
def setDialog (ui : ReportsUi) (value : Bool) : ReportsUi :=
  { ui with showGenerateDialog := value }

end ReportsUi

namespace ReportsView

/-! ## The functions -/

/-- No range of dates is chosen. -/
def rangeMissing : Toast :=
  { severity := text "warn", summary := text "Validation",
    detail := text "Please select a date range", life := 3000 }

/-- The report is asked for. -/
def queued : Toast :=
  { severity := text "success", summary := text "Report Queued",
    detail := text "Your report is being generated", life := 3000 }

/-- It could not be asked for. -/
def notGenerated : Toast :=
  { severity := text "error", summary := text "Error",
    detail := text "Failed to generate report", life := 3000 }

/-- It is there. -/
def ready : Toast :=
  { severity := text "success", summary := text "Report Ready",
    detail := text "Your report is ready for download", life := 5000 }

/-- It has failed. -/
def failed (detail : Text) : Toast :=
  { severity := text "error", summary := text "Report Failed", detail := detail, life := 5000 }

/-- Change the state of the view. -/
def modifyUi (f : ReportsUi → ReportsUi) : ReportsTask S Unit :=
  Async.modify fun t => { t with ui := f t.ui }

/-- What `poll` does with the status of a report. -/
def polled (id : ReportKey) (status : Json) : ReportsTask S Unit :=
  match status.get "status" with
  | .error _ => modifyUi fun ui => ui.delete id
  | .ok state =>
    if Json.isText (text "completed") state then
      modifyUi fun ui => (ui.delete id).toast ready
    else if Json.isText (text "failed") state then
      modifyUi fun ui => (ui.delete id).toast (failed (Json.orFalsy (status.prop "error")
        (.str (text "Report generation failed"))).toText)
    else modifyUi fun ui => ui.setTimeout id

/-- `poll()` of the report. -/
def poll (id : ReportKey) : ReportsTask S Unit :=
  Async.andThen ((fetchReportStatus id.toText).on Reports.pagePart (some id)) fun
    | .error _ => modifyUi fun ui => ui.delete id
    | .ok status => polled id status

/-- The form of the dialog. -/
structure Form where
  /-- The dates of the range as `toISOString` prints them, of which one is missing while only the
  other is chosen. -/
  dateRange : Option (List (Option Text))
  /-- The format of the report. -/
  format : Text
  /-- The sections of the report. -/
  sections : List Text

/-- The request for a report. -/
def Form.request (form : Form) : Option Text → Option Text → Except String Json
  | some start, some stop => .ok (.obj [(text "type", .str (text "security_summary")),
      (text "period", .obj [(text "from", .str start), (text "to", .str stop)]),
      (text "format", .str form.format), (text "sections", .arr (form.sections.map .str))])
  | _, _ => .error Json.typeError

/-- `isGenerating.value = false`. -/
def ended (t : Reports S) : Reports S := { t with ui := t.ui.generating false }

/-- `pollReportStatus(report_id)`, which is not awaited, and the end of `generateReport`. -/
def pollReportStatus (reportId : Option Json) : ReportsTask S Unit := do
  let t ← Async.read
  -- a toast is added for each report, so their number is a new one
  let id := ReportKey.ofValue t.ui.toasts.length reportId
  if id ∈ t.ui.pollingReports then Async.modify ended
  else
    modifyUi fun ui => ui.add id
    Async.unawaited ended (poll id)

/-- The end of `generateReport` when something has failed. -/
def reportFailed : ReportsTask S Unit := modifyUi fun ui => (ui.toast notGenerated).generating false

/-- What `generateReport` does with the report it was given. -/
def reportQueued (report : Json) : ReportsTask S Unit := do
  modifyUi fun ui => (ui.toast queued).setDialog false
  match report.get "report_id" with
  | .error _ => reportFailed
  | .ok reportId => pollReportStatus reportId

/-- `generateReport()`. -/
def generateReport (form : Form) : ReportsTask S Unit :=
  match form.dateRange with
  | some [start, stop] => do
    modifyUi fun ui => ui.generating true
    match form.request start stop with
    | .error _ => reportFailed
    | .ok request =>
      Async.andThen ((Console.generateReport request).on Reports.pagePart none) fun
        | .error _ => reportFailed
        | .ok report => reportQueued report
  | _ => modifyUi fun ui => ui.toast rangeMissing

/-! ## Their segments -/

/-- What is called: `generateReport`, or a poll whose timeout is over. -/
inductive Job
  | generate (form : Form)
  | poll (id : ReportKey)

/-- The function that is called. -/
def Job.body : Job → ReportsTask S Unit
  | generate form => generateReport form
  | poll id => do
    modifyUi fun ui => ui.timedOut id
    ReportsView.poll id

/-- How a loop that polls a report goes on: it ends, or asks for another timeout. -/
inductive Turn (id : ReportKey) (ui : ReportsUi) : ReportsUi → Prop
  | lost : Turn id ui (ui.delete id)
  | announced (toast : Toast) : Turn id ui ((ui.delete id).toast toast)
  | again : Turn id ui (ui.setTimeout id)

/-- What a segment does to the state of the view, by the tag of what it was answered and the tag of
what it awaits then. -/
inductive Segment (ui : ReportsUi) : Job → Option ReportTag → ReportsUi → Option ReportTag → Prop
  | missing {form : Form} : Segment ui (.generate form) none (ui.toast rangeMissing) none
  | refused {form : Form} : Segment ui (.generate form) none
      (((ui.generating true).toast notGenerated).generating false) none
  | asks {form : Form} : Segment ui (.generate form) none (ui.generating true) (some none)
  | waits {j : Job} : Segment ui j (some none) ui (some none)
  | fails {j : Job} :
      Segment ui j (some none) ((ui.toast notGenerated).generating false) none
  | unnamed {j : Job} : Segment ui j (some none)
      ((((ui.toast queued).setDialog false).toast notGenerated).generating false) none
  | known {j : Job} {id : ReportKey} (h : id ∈ ui.pollingReports) : Segment ui j (some none)
      (((ui.toast queued).setDialog false).generating false) none
  | polls {j : Job} {id : ReportKey} (h : id ∉ ui.pollingReports) : Segment ui j (some none)
      ((((ui.toast queued).setDialog false).add id).generating false) (some (some id))
  | fires {id : ReportKey} : Segment ui (.poll id) none (ui.timedOut id) (some (some id))
  | pollWaits {j : Job} {id : ReportKey} : Segment ui j (some (some id)) ui (some (some id))
  | turns {j : Job} {id : ReportKey} {ui' : ReportsUi} (h : Turn id ui ui') :
      Segment ui j (some (some id)) ui' none

/-- The tag of the answer a segment begins with. -/
def tagOf (h : List (Answered (Tagged ReportTag Wait.Value) String)) : Option ReportTag :=
  h.head?.map fun x => x.asked.1

/-- The specification of the functions. -/
def spec (j : Job) (_ : Reports S) :
    Spec (Reports S) (Tagged ReportTag Wait.Value) String Unit where
  wait h t₀ t q := Segment t₀.ui j (tagOf h) t.ui (some q.1)
  done h t₀ t _ := Segment t₀.ui j (tagOf h) t.ui none

/-- A request is asked for first. -/
theorem asks_fetchThen {url : Url} {options : RequestInit} {failure : String}
    {store : Json → MonitorStore → Except String MonitorStore} :
    (fetchThen url options failure store : Api S Json).Asks := fun _ _ => trivial

section

variable {j : Job} {c t : Reports S} {p : Page S}
  {h : List (Answered (Tagged ReportTag Wait.Value) String)} {id : ReportKey}

/-- The end of a poll. -/
theorem sat_polled {q : Wait} {a : Except String q.Value} (status : Json) :
    (polled id status : ReportsTask S Unit).Sat viewSettles (spec j c) (⟨(some id, q), a⟩ :: h) t
      (Reports.pagePart.put p t) := by
  unfold polled
  split
  · exact .turns .lost
  · split
    · exact .turns (.announced _)
    · split
      · exact .turns (.announced _)
      · exact .turns .again

/-- What follows an answer to a poll. -/
theorem sat_pollEnd {q : Wait} {a : Except String q.Value} (r : Except String Json) :
    (match r with
      | .error _ => modifyUi fun ui => ui.delete id
      | .ok status => polled id status : ReportsTask S Unit).Sat viewSettles (spec j c)
        (⟨(some id, q), a⟩ :: h) t (Reports.pagePart.put p t) := by
  cases r with
  | error e => exact .turns .lost
  | ok status => exact sat_polled status

/-- The report that is queued is polled, unless it is already. -/
theorem sat_pollReportStatus {q : Wait} {a : Except String q.Value} (reportId : Option Json) :
    (do modifyUi fun ui => (ui.toast queued).setDialog false
        pollReportStatus reportId : ReportsTask S Unit).Sat viewSettles (spec j c)
      (⟨(none, q), a⟩ :: h) t (Reports.pagePart.put p t) := by
  show Async.Sat _ _ (if ReportKey.ofValue (t.ui.toasts.length + 1) reportId ∈
    t.ui.pollingReports then _ else _) _ _ _
  by_cases hid : ReportKey.ofValue (t.ui.toasts.length + 1) reportId ∈ t.ui.pollingReports
  · rw [if_pos hid]
    exact .known hid
  · rw [if_neg hid]
    exact Async.sat_call_unawaited asks_fetchThen (fun _ _ => .polls hid)
      (fun _ _ _ _ _ _ => .pollWaits) fun _ _ _ _ _ r => sat_pollEnd r

/-- What follows the answer to `generateReport`. -/
theorem sat_reportQueued {q : Wait} {a : Except String q.Value} (report : Json) :
    (reportQueued report : ReportsTask S Unit).Sat viewSettles (spec j c) (⟨(none, q), a⟩ :: h) t
      (Reports.pagePart.put p t) := by
  unfold reportQueued
  cases report.get "report_id" with
  | error e => exact .unnamed
  | ok reportId => exact sat_pollReportStatus reportId

end

/-- The functions do what their specification says. -/
theorem sat_body (j : Job) (t : Reports S) :
    j.body.Sat viewSettles (spec j t) [] t t := by
  cases j with
  | poll id =>
    exact Async.sat_call asks_fetchThen (fun _ _ => .fires) (fun _ _ _ _ _ _ => .pollWaits)
      fun _ _ _ _ _ r => sat_pollEnd r
  | generate form =>
    show Async.Sat _ _ (generateReport form) _ _ _
    unfold generateReport
    split
    · next start stop hdates =>
      show Async.Sat _ _ (match form.request start stop with
        | .error _ => reportFailed
        | .ok request => _ : ReportsTask S Unit) _ _ _
      cases form.request start stop with
      | error e => exact .refused
      | ok request =>
        refine Async.sat_call asks_fetchThen (fun _ _ => .asks) (fun _ _ _ _ _ _ => .waits)
          fun _ _ _ _ _ r => ?_
        cases r with
        | error e => exact .fails
        | ok report => exact sat_reportQueued report
    · exact .missing

/-! ## Runs -/

/-- What happens to the view apart from its functions: anything to the page, and the dialog is
opened or closed. -/
inductive Event (S : Type)
  | page (p : Page S)
  | dialog (value : Bool)

/-- What happens to the page happens beneath the reports. -/
def happens (t : Reports S) : Event S → Reports S → Prop
  | .page p, t' => t' = { t with page := p }
  | .dialog value, t' => t' = { t with ui := t.ui.setDialog value }

/-- The loop of a page with reports. -/
abbrev Screen (S : Type) := Loop (Reports S) Job (Tagged ReportTag Wait.Value) String Unit

/-- The labels of its steps. -/
abbrev Move (S : Type) := Label Job (Event S) (Tagged ReportTag Wait.Value) String

/-- A poll is called when a timeout is over. -/
def Fires (L : Screen S) (l : Move S) : Prop :=
  ∀ id, l = .call (.poll id) → id ∈ L.shared.ui.timeouts

/-- A view that has just been opened. -/
def init (page : Page S) : Reports S where
  page := page
  ui := { pollingReports := [], timeouts := [], toasts := [], isGenerating := false,
          showGenerateDialog := false }

/-- The screens of a run. -/
abbrev Run (page : Page S) : Screen S → Prop :=
  Reachable Job.body viewSettles happens Fires (init page)

/-- The activation asks for the status of the report. -/
def asksFor (id : ReportKey)
    (act : Act (Reports S) Job (Tagged ReportTag Wait.Value) String Unit) : Bool :=
  act.pause.asks.map Prod.fst = some (some id)

/-- The requests for the status of a report that are under way. -/
def underway (L : Screen S) (id : ReportKey) : ℕ := L.acts.countP (asksFor id)

/-- Does the toast say that a report was asked for? -/
def isQueued (toast : Toast) : Bool := toast = queued

/-- Does the toast announce a report, or say that it has failed? -/
def announces (toast : Toast) : Bool := toast.summary = ready.summary ∨
  toast.summary = (failed []).summary

/-- What holds of a view. -/
structure OneLoop (L : Screen S) : Prop where
  /-- A report that is marked as polled has one request or one timeout, any other none. -/
  single : ∀ id, underway L id + L.shared.ui.timeouts.count id =
    if id ∈ L.shared.ui.pollingReports then 1 else 0
  /-- Each report that is announced, or polled, was asked for. -/
  announced : L.shared.ui.toasts.countP announces + L.shared.ui.pollingReports.length ≤
    L.shared.ui.toasts.countP isQueued

/-- What is kept: the marks are those of the loops. -/
structure Balanced (n : ReportKey → ℕ) (ui : ReportsUi) : Prop where
  /-- No report is marked twice. -/
  nodup : ui.pollingReports.Nodup
  /-- A report has as many loops as marks. -/
  loops : ∀ id, n id + ui.timeouts.count id = ui.pollingReports.count id
  /-- What is announced or marked was asked for. -/
  announced : ui.toasts.countP announces + ui.pollingReports.length ≤ ui.toasts.countP isQueued

/-- One for the poll of the report, none for anything else. -/
def weight (tag : Option ReportTag) (id : ReportKey) : ℕ := if tag = some (some id) then 1 else 0

/-- The weight of a poll. -/
theorem weight_some (id id' : ReportKey) :
    weight (some (some id)) id' = if id = id' then 1 else 0 :=
  if_congr (by rw [Option.some.injEq, Option.some.injEq]) rfl rfl

/-- A report that is added counts for one more. -/
theorem count_cons_weight (id id' : ReportKey) (l : List ReportKey) :
    (id :: l).count id' = l.count id' + weight (some (some id)) id' := by
  rw [weight_some, List.count_cons]
  exact congrArg _ (if_congr beq_iff_eq rfl rfl)

/-- One that is taken out counts for one less. -/
theorem count_erase_weight {id : ReportKey} {l : List ReportKey} (h : id ∈ l) (id' : ReportKey) :
    (l.erase id).count id' + weight (some (some id)) id' = l.count id' := by
  rw [← count_cons_weight, (List.perm_cons_erase h).count_eq]

theorem weight_none (id : ReportKey) : weight none id = 0 := rfl

theorem weight_generate (id : ReportKey) : weight (some none) id = 0 := rfl

theorem announces_rangeMissing : announces rangeMissing = false := by decide

theorem announces_notGenerated : announces notGenerated = false := by decide

theorem announces_queued : announces queued = false := by decide

/-- A toast that announces nothing. -/
theorem countP_announces {toast : Toast} (h : announces toast = false) (toasts : List Toast) :
    (toast :: toasts).countP announces = toasts.countP announces :=
  List.countP_cons_of_neg (by simp [h])

/-- The toast that says so counts. -/
theorem countP_isQueued (toasts : List Toast) :
    (queued :: toasts).countP isQueued = toasts.countP isQueued + 1 :=
  List.countP_cons_of_pos (by simp [isQueued])

theorem countP_isQueued_le (toast : Toast) (toasts : List Toast) :
    toasts.countP isQueued ≤ (toast :: toasts).countP isQueued := by
  rw [List.countP_cons]
  exact Nat.le_add_right _ _

section

variable {ui ui' : ReportsUi} {n n' : ReportKey → ℕ} {j : Job} {before after : Option ReportTag}
  {id : ReportKey}

/-- A loop that ends was one. -/
theorem Balanced.delete (h : Balanced n ui) (hid : id ∈ ui.pollingReports)
    (hn : ∀ id', n' id' + weight (some (some id)) id' = n id') (toasts : List Toast)
    (htoasts : toasts.countP announces + ui.toasts.countP isQueued ≤
      ui.toasts.countP announces + 1 + toasts.countP isQueued) :
    Balanced n' { ui.delete id with toasts := toasts } where
  nodup := h.nodup.erase id
  loops id' := by
    have hloops := h.loops id'
    have hn' := hn id'
    have herase := count_erase_weight hid id'
    show n' id' + ui.timeouts.count id' = (ui.pollingReports.erase id).count id'
    omega
  announced := by
    have hann := h.announced
    have hlen := List.length_erase_of_mem hid
    have hpos := List.length_pos_of_mem hid
    show toasts.countP announces + (ui.pollingReports.erase id).length ≤ toasts.countP isQueued
    omega

/-- As much is polled, and nothing was announced. -/
theorem Balanced.of_same (h : Balanced n ui) (hn : ∀ id, n' id = n id)
    (hpolling : ui'.pollingReports = ui.pollingReports) (htimeouts : ui'.timeouts = ui.timeouts)
    (hannounced : ui'.toasts.countP announces = ui.toasts.countP announces)
    (hqueued : ui.toasts.countP isQueued ≤ ui'.toasts.countP isQueued) : Balanced n' ui' where
  nodup := hpolling ▸ h.nodup
  loops id := by rw [hpolling, htimeouts, hn, h.loops]
  announced := by
    have hann := h.announced
    rw [hpolling, hannounced]
    omega

/-- Each segment keeps the balance. -/
theorem Balanced.segment (h : Balanced n ui) (hseg : Segment ui j before ui' after)
    (hn : ∀ id, n' id + weight before id = n id + weight after id)
    (hpolls : ∀ id, before = some (some id) → id ∈ ui.pollingReports)
    (hfires : ∀ id, j = .poll id → before = none → id ∈ ui.timeouts) : Balanced n' ui' := by
  have hsame : weight before = weight after → ∀ id, n' id = n id := fun hweight id => by
    have hid := hn id
    rw [hweight] at hid
    exact Nat.add_right_cancel hid
  cases hseg with
  | missing =>
    exact h.of_same (hsame rfl) rfl rfl (countP_announces announces_rangeMissing _)
      (countP_isQueued_le _ _)
  | refused =>
    exact h.of_same (hsame rfl) rfl rfl (countP_announces announces_notGenerated _)
      (countP_isQueued_le _ _)
  | asks => exact h.of_same (hsame rfl) rfl rfl rfl (Nat.le_refl _)
  | waits => exact h.of_same (hsame rfl) rfl rfl rfl (Nat.le_refl _)
  | fails =>
    exact h.of_same (hsame rfl) rfl rfl (countP_announces announces_notGenerated _)
      (countP_isQueued_le _ _)
  | unnamed =>
    exact h.of_same (hsame rfl) rfl rfl
      ((countP_announces announces_notGenerated _).trans (countP_announces announces_queued _))
      ((countP_isQueued_le _ _).trans (countP_isQueued_le _ _))
  | known hid =>
    exact h.of_same (hsame rfl) rfl rfl (countP_announces announces_queued _)
      (countP_isQueued_le _ _)
  | pollWaits => exact h.of_same (hsame rfl) rfl rfl rfl (Nat.le_refl _)
  | @polls j id hid =>
    -- a loop begins, for a report that was not polled
    refine ⟨List.nodup_cons.mpr ⟨hid, h.nodup⟩, fun id' => ?_, ?_⟩
    · have hid' := h.loops id'
      have hn' := hn id'
      rw [weight_generate] at hn'
      show n' id' + ui.timeouts.count id' = (id :: ui.pollingReports).count id'
      rw [count_cons_weight]
      omega
    · have hann := h.announced
      show (queued :: ui.toasts).countP announces + (id :: ui.pollingReports).length ≤
        (queued :: ui.toasts).countP isQueued
      rw [countP_announces announces_queued, countP_isQueued, List.length_cons]
      omega
  | @fires id =>
    have hmem := hfires id rfl rfl
    refine ⟨h.nodup, fun id' => ?_, h.announced⟩
    have hid' := h.loops id'
    have hn' := hn id'
    have herase := count_erase_weight hmem id'
    rw [weight_none] at hn'
    show n' id' + (ui.timeouts.erase id).count id' = ui.pollingReports.count id'
    omega
  | @turns j id ui' hturn =>
    have hmem := hpolls id rfl
    have hbefore : ∀ id', n' id' + weight (some (some id)) id' = n id' := fun id' => hn id'
    cases hturn with
    | lost => exact h.delete hmem hbefore ui.toasts (by omega)
    | announced toast =>
      refine h.delete hmem hbefore (toast :: ui.toasts) ?_
      have hcount := List.countP_cons (p := announces) (a := toast) (l := ui.toasts)
      have hcount' := List.countP_cons (p := isQueued) (a := toast) (l := ui.toasts)
      split at hcount <;> split at hcount' <;> omega
    | again =>
      refine ⟨h.nodup, fun id' => ?_, h.announced⟩
      have hid' := h.loops id'
      have hn' := hbefore id'
      show n' id' + (id :: ui.timeouts).count id' = ui.pollingReports.count id'
      rw [count_cons_weight]
      omega

end

/-- What an activation counts for. -/
theorem asksFor_eq {id : ReportKey}
    (act : Act (Reports S) Job (Tagged ReportTag Wait.Value) String Unit) :
    (if asksFor id act then 1 else 0) = weight (act.pause.asks.map Prod.fst) id :=
  if_congr decide_eq_true_iff rfl rfl

/-- What a segment does, from the specification. -/
theorem segment_of_admits {j : Job} {c t₀ t : Reports S}
    {h : List (Answered (Tagged ReportTag Wait.Value) String)}
    {p : Pause (Reports S) (Tagged ReportTag Wait.Value) String Unit}
    (hp : p.Admits (spec j c) h t₀ t) :
    Segment t₀.ui j (tagOf h) t.ui (p.asks.map Prod.fst) := by
  cases p with
  | settled r => exact hp
  | waiting q k => exact hp

/-- Nothing is polled in a view that has just been opened. -/
theorem balanced_init (page : Page S) :
    Balanced (underway (Loop.start (init page))) (init page).ui where
  nodup := List.nodup_nil
  loops _ := rfl
  announced := Nat.le_refl _

/-- Every run keeps the balance. -/
theorem balanced_of_run {page : Page S} {L : Screen S} (hL : Run page L) :
    Balanced (underway L) L.shared.ui := by
  refine Reachable.invariant (I := fun L => Balanced (underway L) L.shared.ui) sat_body
    (balanced_init page) ?_ ?_ ?_ hL
  · intro L j t p hI hfires _ hp
    refine hI.segment (segment_of_admits hp) (fun id => ?_) (fun id h => (by cases h))
      fun id hj _ => hfires id (by rw [hj])
    show (L.acts ++ [_]).countP (asksFor id) + 0 = _
    rw [List.countP_append, List.countP_singleton, asksFor_eq]
    rfl
  · intro L i j c h q k a t p hI _ hact _ _ hp
    have hcount (id : ReportKey) : (L.acts.set i ⟨j, c, ⟨q, a⟩ :: h, p⟩).countP (asksFor id) +
        weight (some q.1) id = L.acts.countP (asksFor id) + weight (p.asks.map Prod.fst) id := by
      have hset := List.countP_set_add (asksFor id) hact ⟨j, c, ⟨q, a⟩ :: h, p⟩
      rwa [asksFor_eq, asksFor_eq] at hset
    refine hI.segment (segment_of_admits hp) hcount (fun id hq => ?_) fun id _ h => (by cases h)
    -- a poll that is answered was under way, so its report is marked
    have hwait : asksFor id ⟨j, c, h, .waiting q k⟩ = true := decide_eq_true hq
    have hpos : 0 < L.acts.countP (asksFor id) :=
      List.countP_pos_iff.mpr ⟨_, List.mem_of_getElem? hact, hwait⟩
    have hloops := hI.loops id
    rw [underway] at hloops
    exact List.count_pos_iff.mp (by omega)
  · intro L e t hI _ he
    cases e with
    | page p =>
      obtain rfl := he
      exact hI
    | dialog value =>
      obtain rfl := he
      exact ⟨hI.nodup, hI.loops, hI.announced⟩

/-- In every run each report is polled by one loop, as long as it is marked. -/
theorem oneLoop_of_run {page : Page S} {L : Screen S} (hL : Run page L) : OneLoop L := by
  have hbalanced := balanced_of_run hL
  refine ⟨fun id => ?_, hbalanced.announced⟩
  rw [hbalanced.loops, hbalanced.nodup.count]

/-! ## A report -/

/-- The `i`-th activation is answered with what there is. -/
def resumed (L : Screen S) (i : ℕ) : Screen S := L.answered i fun q => answerOf L.shared.page q.2

/-- The server replies to the `r`-th request. -/
def replied (L : Screen Unit) (r : ℕ) (body : Json) : Screen Unit :=
  let page := L.shared.page.served r () (.ok ⟨200, some body⟩)
  { L with shared := { L.shared with page := page } }

/-- An answer that is there is given. -/
theorem Run.resumed {page : Page S} {L : Screen S} (hL : Run page L) (i : ℕ)
    (hq : (L.question i).any (fun q => hasAnswer L.shared.page q.2) = true) :
    Run page (resumed L i) := by
  cases h : L.question i with
  | none =>
    rw [h] at hq
    cases hq
  | some q =>
    rw [h] at hq
    exact hL.answered i _ h (settles_answerOf hq) nofun

/-- The server may reply at any time. -/
theorem Run.replied {page : Page Unit} {L : Screen Unit} (hL : Run page L) (r : ℕ) (body : Json) :
    Run page (replied L r body) :=
  hL.happened (.page _) rfl nofun

/-- A report in a state. -/
def reportIn (status : Text) : Json :=
  .obj [(text "report_id", .str (text "r1")), (text "status", .str status)]

/-- A form that is filled in. -/
def lastWeek : Form where
  dateRange := some [some (text "2025-01-01T00:00:00.000Z"), some (text "2025-01-08T00:00:00.000Z")]
  format := text "json"
  sections := [text "overview"]

/-- A report is asked for and polled, and is not there yet. -/
def notYet : Screen Unit :=
  let asked := (Loop.start (init (.fresh ()))).called Job.body (.generate lastWeek)
  let polls := resumed (resumed (replied asked 0 (reportIn (text "generating"))) 0) 0
  resumed (resumed (replied polls 1 (reportIn (text "generating"))) 0) 0

/-- Two seconds later it is. -/
def reportReady : Screen Unit :=
  let polls := notYet.called Job.body (.poll (.str (text "r1")))
  resumed (resumed (replied polls 2 (reportIn (text "completed"))) 1) 1

theorem run_notYet : Run (.fresh ()) notYet := by
  have h₁ : Run (.fresh ()) _ := Reachable.start.called (.generate lastWeek) nofun
  have h₂ := (h₁.replied 0 (reportIn (text "generating"))).resumed 0 (by decide +kernel)
  have h₃ := (h₂.resumed 0 (by decide +kernel)).replied 1 (reportIn (text "generating"))
  exact (h₃.resumed 0 (by decide +kernel)).resumed 0 (by decide +kernel)

theorem run_reportReady : Run (.fresh ()) reportReady := by
  have h₁ : Run (.fresh ()) _ := run_notYet.called (.poll (.str (text "r1"))) fun id h => by
    cases h
    decide +kernel
  have h₂ := (h₁.replied 2 (reportIn (text "completed"))).resumed 1 (by decide +kernel)
  exact h₂.resumed 1 (by decide +kernel)

/-- The report that was asked for is announced, and its loop is over. -/
theorem reportReady_announced : OneLoop reportReady ∧
    reportReady.shared.ui.toasts = [ready, queued] ∧ underway reportReady (.str (text "r1")) = 0 :=
  ⟨oneLoop_of_run run_reportReady, by decide +kernel, by decide +kernel⟩

end ReportsView

end Console
