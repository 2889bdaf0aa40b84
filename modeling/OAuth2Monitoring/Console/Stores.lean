import OAuth2Monitoring.JsStd.Basic
import Mathlib.Logic.Function.Basic

/-!
# The stores of the console

What the API layer reads and writes of the auth store, the step-up store and the monitor store.

The step-up store keeps a promise in three cells: the promise that callers get, and the functions
that resolve and reject it. A promise is a number here, its outcome stands in `promises`.

## Main definitions

* `AuthStore`, `StepUpStore`, `MonitorStore`: the stores with their actions.
* `StepUpStore.WellFormed`: the three cells agree, and only the pending promise is open.
-/

namespace Console

open JsStd

/-! ## The auth store -/

/-- The identity `/bff/session` gave, and the token of the double submit. -/
structure AuthStore where
  authenticated : Bool
  user : Option Json
  csrf : Option Text

namespace AuthStore

/-- `isAuthenticated`. -/
def isAuthenticated (s : AuthStore) : Bool := s.authenticated && Json.truthy s.user

/-- `csrfHeaders`: the header for a request that changes state. -/
def csrfHeaders (s : AuthStore) : List (Text × Text) :=
  match s.csrf with
  | none | some [] => []
  | some token => [(text "X-CSRF-Token", token)]

/-- `setUnauthenticated`. -/
def setUnauthenticated (_ : AuthStore) : AuthStore :=
  { authenticated := false, user := none, csrf := none }

end AuthStore

/-! ## The step-up store -/

/-- The dialog, the promise its callers wait for and the functions that settle it, and the outcomes
of all promises made so far; `none` is not settled yet. -/
structure StepUpStore where
  visible : Bool
  pending : Option ℕ
  resolvePending : Option ℕ
  rejectPending : Option ℕ
  promises : List (Option (Except String Unit))

namespace StepUpStore

/-- The store before any request. -/
def init : StepUpStore :=
  { visible := false, pending := none, resolvePending := none, rejectPending := none,
    promises := [] }

/-- `request`: the pending promise, or a new one, for which the dialog opens. -/
def request (s : StepUpStore) : StepUpStore :=
  match s.pending with
  | some _ => s
  | none =>
    { visible := true, pending := some s.promises.length,
      resolvePending := some s.promises.length, rejectPending := some s.promises.length,
      promises := s.promises ++ [none] }

/-- Settle promise `p`; a settled promise stays as it is. -/
def settle (promises : List (Option (Except String Unit))) (p : ℕ) (r : Except String Unit) :
    List (Option (Except String Unit)) :=
  promises.modify p fun outcome => some (outcome.getD r)

/-- Call the function of a cell, if there is one. -/
def settleCell (cell : Option ℕ) (r : Except String Unit) (s : StepUpStore) : StepUpStore :=
  match cell with
  | none => s
  | some p => { s with promises := settle s.promises p r }

/-- `reset`. -/
def reset (s : StepUpStore) : StepUpStore :=
  { s with pending := none, resolvePending := none, rejectPending := none }

/-- `complete`: the user has authenticated again. -/
def complete (s : StepUpStore) : StepUpStore :=
  (settleCell s.resolvePending (.ok ()) { s with visible := false }).reset

/-- `cancel`: the user dismissed the dialog. -/
def cancel (s : StepUpStore) : StepUpStore :=
  (settleCell s.rejectPending (.error "step-up cancelled") { s with visible := false }).reset

/-- The three cells hold one promise, the dialog is visible when they do, and no other promise is
open. -/
structure WellFormed (s : StepUpStore) : Prop where
  visible : s.visible = s.pending.isSome
  resolve : s.resolvePending = s.pending
  reject : s.rejectPending = s.pending
  open_iff : ∀ p, s.promises[p]? = some none ↔ s.pending = some p

theorem wellFormed_init : init.WellFormed := by
  constructor <;> simp [init]

section

variable {s : StepUpStore} {p q : ℕ} {r : Except String Unit}

/-- While a dialog is open, a request joins it. -/
theorem request_of_pending (h : s.pending = some p) : s.request = s := by
  simp [request, h]

theorem getElem?_settle (promises : List (Option (Except String Unit))) (p q : ℕ)
    (r : Except String Unit) : (settle promises p r)[q]? =
      if p = q then promises[q]?.map fun outcome => some (outcome.getD r) else promises[q]? := by
  rw [settle, List.getElem?_modify]
  split <;> simp

/-- A settled promise stays as it is, and none is made, when a cell is settled. -/
theorem settleCell_promises (cell : Option ℕ) (r : Except String Unit) (s : StepUpStore) :
    (settleCell cell r s).promises.length = s.promises.length ∧
      ∀ (q : ℕ) a, s.promises[q]? = some (some a) →
        (settleCell cell r s).promises[q]? = some (some a) := by
  cases cell with
  | none => exact ⟨rfl, fun _ _ h => h⟩
  | some p =>
    refine ⟨List.length_modify _ _ _, fun q a h => ?_⟩
    rw [settleCell, getElem?_settle, h]
    split <;> rfl

/-- `request` leaves a promise pending. -/
theorem pending_request (s : StepUpStore) : s.request.pending.isSome := by
  unfold request
  split
  · next h => simp [h]
  · rfl

/-- `request` makes a promise exactly when none is pending. -/
theorem length_promises_request (s : StepUpStore) : s.request.promises.length =
    if s.pending.isSome then s.promises.length else s.promises.length + 1 := by
  unfold request
  split
  · next h => simp [h]
  · next h => simp [h]

/-- No promise that is there changes by a request. -/
theorem getElem?_promises_request (hq : q < s.promises.length) :
    s.request.promises[q]? = s.promises[q]? := by
  unfold request
  split
  · rfl
  · exact List.getElem?_append_left hq

/-- A request keeps the store well formed. -/
theorem WellFormed.request (h : s.WellFormed) : s.request.WellFormed := by
  cases hp : s.pending with
  | some p => rwa [request_of_pending hp]
  | none =>
    -- nothing is pending, so no promise is open, and the new one is the first that is
    have hnone : ∀ p, s.promises[p]? ≠ some none := fun p hopen => by
      have := (h.open_iff p).mp hopen
      rw [hp] at this
      cases this
    refine ⟨?_, ?_, ?_, fun p => ?_⟩ <;> simp only [StepUpStore.request, hp]
    · rfl
    · rcases Nat.lt_trichotomy p s.promises.length with hlt | rfl | hgt
      · rw [List.getElem?_append_left hlt]
        exact iff_of_false (hnone p) (by simp; omega)
      · simp
      · rw [List.getElem?_eq_none (by simp; omega)]
        exact iff_of_false (by simp) (by simp; omega)

/-- What `complete` and `cancel` have in common: the pending promise is settled and the dialog
closed. -/
theorem WellFormed.close (h : s.WellFormed) (r : Except String Unit) :
    (settleCell s.pending r { s with visible := false }).reset.WellFormed ∧
      ∀ p, (settleCell s.pending r { s with visible := false }).reset.promises[p]? =
        if s.pending = some p then some (some r) else s.promises[p]? := by
  have hpromises : ∀ p, (settleCell s.pending r { s with visible := false }).reset.promises[p]? =
      if s.pending = some p then some (some r) else s.promises[p]? := by
    intro p
    cases hp : s.pending with
    | none => simp [settleCell, reset]
    | some p' =>
      simp only [settleCell, reset, getElem?_settle, Option.some.injEq]
      by_cases hpp : p' = p
      · subst hpp
        have hopen := (h.open_iff p').mpr hp
        rw [if_pos rfl, if_pos rfl, hopen]
        rfl
      · rw [if_neg hpp, if_neg hpp]
  refine ⟨⟨?_, rfl, rfl, fun p => ?_⟩, hpromises⟩
  · cases s.pending <;> rfl
  · -- nothing is pending any more, so no promise may be open: the one that was is settled
    rw [hpromises p]
    refine iff_of_false ?_ (by simp [reset])
    by_cases hp : s.pending = some p
    · simp [hp]
    · rw [if_neg hp]
      exact fun hopen => hp ((h.open_iff p).mp hopen)

/-- The dialog is closed by `complete` and by `cancel`. -/
theorem WellFormed.complete (h : s.WellFormed) : s.complete.WellFormed ∧
    ∀ p, s.complete.promises[p]? =
      if s.pending = some p then some (some (.ok ())) else s.promises[p]? := by
  have hclose : s.complete = (settleCell s.pending (.ok ()) { s with visible := false }).reset :=
    congrArg (fun cell => (settleCell cell _ { s with visible := false }).reset) h.resolve
  rw [hclose]
  exact h.close _

/-- A cancellation keeps it so, and rejects the pending promise and no other. -/
theorem WellFormed.cancel (h : s.WellFormed) : s.cancel.WellFormed ∧
    ∀ p, s.cancel.promises[p]? =
      if s.pending = some p then some (some (.error "step-up cancelled")) else s.promises[p]? := by
  have hclose : s.cancel =
      (settleCell s.pending (.error "step-up cancelled") { s with visible := false }).reset :=
    congrArg (fun cell => (settleCell cell _ { s with visible := false }).reset) h.reject
  rw [hclose]
  exact h.close _

end

end StepUpStore

/-! ## The monitor store -/

/-- The monitor store: what the API layer loads, as values of JavaScript, the number of alerts that
are not acknowledged, the loading flags, and what is not the API layer's. -/
structure MonitorStore where
  stats : Json := .null
  recentActivity : Json := .arr []
  loginTrends : Json := .arr []
  appUsage : Json := .arr []
  health : Json := .null
  securityEvents : Json
  securityEventsTotal : Json
  threatMetrics : Json := .null
  blockedIPs : Json
  geoAnalytics : Json := .null
  sessions : Json := .arr []
  sessionsTotal : Json := .num (text "0")
  tokenStats : Json := .null
  alertRules : Json
  alertHistory : Json := .arr []
  alertsTotal : Json := .num (text "0")
  unacknowledgedAlerts : ℤ := 0
  reports : Json := .arr []
  auditLogs : Json := .arr []
  auditLogsTotal : Json := .num (text "0")
  liveEvents : Json := .arr []
  isSSEConnected : Bool := false
  isLoading : String → Bool
  errors : String → Option String := fun _ => none

namespace MonitorStore

/-- The store of a console that has loaded nothing. -/
def init : MonitorStore :=
  { securityEvents := .arr [], securityEventsTotal := .num (text "0"), blockedIPs := .arr [],
    alertRules := .arr [], isLoading := fun _ => false }

/-- `setLoading`. -/
def setLoading (key : String) (value : Bool) (s : MonitorStore) : MonitorStore :=
  { s with isLoading := Function.update s.isLoading key value }

/-- `setSecurityEvents`. -/
def setSecurityEvents (data total : Json) (s : MonitorStore) : MonitorStore :=
  { s with securityEvents := data, securityEventsTotal := total }

/-- `setStats` and its likes: what was loaded takes the place of what was there. -/
def setStats (data : Json) (s : MonitorStore) : MonitorStore := { s with stats := data }

/-- The latest events are replaced. -/
def setRecentActivity (data : Json) (s : MonitorStore) : MonitorStore :=
  { s with recentActivity := data }

/-- The logins are replaced. -/
def setLoginTrends (data : Json) (s : MonitorStore) : MonitorStore := { s with loginTrends := data }

/-- The use of the applications is replaced. -/
def setAppUsage (data : Json) (s : MonitorStore) : MonitorStore := { s with appUsage := data }

/-- The state of the parts is replaced. -/
def setHealth (data : Json) (s : MonitorStore) : MonitorStore := { s with health := data }

/-- The threats are replaced. -/
def setThreatMetrics (data : Json) (s : MonitorStore) : MonitorStore :=
  { s with threatMetrics := data }

/-- The places are replaced. -/
def setGeoAnalytics (data : Json) (s : MonitorStore) : MonitorStore :=
  { s with geoAnalytics := data }

/-- The page of the sessions and their total are replaced. -/
def setSessions (data total : Json) (s : MonitorStore) : MonitorStore :=
  { s with sessions := data, sessionsTotal := total }

/-- The numbers of the tokens are replaced. -/
def setTokenStats (data : Json) (s : MonitorStore) : MonitorStore := { s with tokenStats := data }

/-- The page of the audit log and its total are replaced. -/
def setAuditLogs (data total : Json) (s : MonitorStore) : MonitorStore :=
  { s with auditLogs := data, auditLogsTotal := total }

/-! ### Alerts -/

/-- `setAlertHistory`. -/
def setAlertHistory (data total : Json) (unack : ℤ) (s : MonitorStore) : MonitorStore :=
  { s with alertHistory := data, alertsTotal := total, unacknowledgedAlerts := unack }

/-- What `acknowledgeAlert` writes to an alert, at the time `now`. -/
def acknowledged (note : Option Text) (now : Text) (alert : Json) : Json :=
  ((alert.setProp "acknowledged" (some (.bool true))).setProp "acknowledged_at"
    (some (.str now))).setProp "acknowledge_note" (note.map .str)

/-- `acknowledgeAlert`. -/
def acknowledgeAlert (id : Text) (note : Option Text) (now : Text) (s : MonitorStore) :
    Except String MonitorStore :=
  match s.alertHistory with
  | .arr alerts => (Json.updateId id (acknowledged note now) alerts).map fun
    | none => s
    | some alerts =>
      { s with alertHistory := .arr alerts,
               unacknowledgedAlerts := max 0 (s.unacknowledgedAlerts - 1) }
  | _ => .error Json.typeError

/-! ### Reports -/

/-- `addReport`. -/
def addReport (report : Json) (s : MonitorStore) : Except String MonitorStore :=
  (Json.unshift report s.reports).map fun data => { s with reports := data }

/-- `updateReport`. -/
def updateReport (report : Json) (s : MonitorStore) : Except String MonitorStore :=
  match s.reports with
  | .arr reports =>
    (Json.replaceProp "report_id" report reports).map fun data => { s with reports := .arr data }
  | _ => .error Json.typeError

end MonitorStore

/-! ## Lists of the monitor store -/

/-- A list of the monitor store that is loaded as a whole and changed entry by entry: where the
store keeps it, and how a new entry is added to it. -/
structure Listing where
  get : MonitorStore → Json
  set : Json → MonitorStore → MonitorStore
  add : Json → Json → Except String Json

/-- The blocked addresses; a new one is put in front. -/
def Listing.blockedIPs : Listing where
  get := MonitorStore.blockedIPs
  set data s := { s with blockedIPs := data }
  add := Json.unshift

/-- The alert rules; a new one is put at the end. -/
def Listing.alertRules : Listing where
  get := MonitorStore.alertRules
  set data s := { s with alertRules := data }
  add := Json.push

namespace MonitorStore

/-- `setBlockedIPs`. -/
def setBlockedIPs (data : Json) (s : MonitorStore) : MonitorStore := Listing.blockedIPs.set data s

/-- `setAlertRules`. -/
def setAlertRules (data : Json) (s : MonitorStore) : MonitorStore := Listing.alertRules.set data s

/-- Change a list, where the change does not throw. -/
def change (c : Listing) (f : Json → Except String Json) (s : MonitorStore) :
    Except String MonitorStore :=
  (f (c.get s)).map fun data => c.set data s

/-- `addBlockedIP`. -/
def addBlockedIP (ip : Json) : MonitorStore → Except String MonitorStore :=
  change .blockedIPs (Listing.blockedIPs.add ip)

/-- `removeBlockedIP`. -/
def removeBlockedIP (id : Text) : MonitorStore → Except String MonitorStore :=
  change .blockedIPs (Json.filterId id)

/-- `addAlertRule`. -/
def addAlertRule (rule : Json) : MonitorStore → Except String MonitorStore :=
  change .alertRules (Listing.alertRules.add rule)

/-- `updateAlertRule`. -/
def updateAlertRule (rule : Json) : MonitorStore → Except String MonitorStore :=
  change .alertRules (Json.setId rule)

/-- `removeAlertRule`. -/
def removeAlertRule (id : Text) : MonitorStore → Except String MonitorStore :=
  change .alertRules (Json.filterId id)

end MonitorStore

end Console
