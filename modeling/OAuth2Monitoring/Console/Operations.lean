import OAuth2Monitoring.Console.Contract

/-!
# Operations that fail

Every operation of the API layer that writes the monitor store, run alone. However it fails, its
promise is rejected, what the monitor store holds is what it held before, and the loading flag of
the operation is cleared.

## Main definitions

* `Operation`, `Operation.body`, `Operation.loadingKey`: the operations.
* `Failed`: what an operation was answered is a failure.

## Main results

* `Operation.sat`: what a segment of any operation does with a failure.
* `rejected_of_failed`: the run theorem.
-/

namespace Console

open JsStd EventLoop

variable {S : Type}

/-! ## The operations -/

/-- The parameters of a listing: those that are given, empty ones too. -/
def definedParams (params : List (Text × Option Text)) : List (Text × Text) :=
  params.filterMap fun p => p.2.map fun value => (p.1, value)

/-- Store the value itself. -/
def storeValue (set : Json → MonitorStore → MonitorStore) (data : Json) : Api S Unit :=
  modifyMonitor fun m => .ok (set data m)

/-- Store the list that is the property `name` of the value, with the number that is its property
`total`. -/
def storeListTotal (name total : String) (set : Json → Json → MonitorStore → MonitorStore)
    (data : Json) : Api S Unit := do
  let entries ← getProp data name
  let count ← getProp data total
  modifyMonitor fun m => .ok
    (set (Json.orFalsy entries (.arr [])) (Json.orFalsy count (.num (text "0"))) m)

/-- `monitorStore.setAlertHistory(data.alerts || [], data.total || 0, data.unacknowledged || 0)`. -/
def storeAlertHistory (data : Json) : Api S Unit := do
  let alerts ← getProp data "alerts"
  let total ← getProp data "total"
  let unack ← getProp data "unacknowledged"
  modifyMonitor fun m => .ok (m.setAlertHistory (Json.orFalsy alerts (.arr []))
    (Json.orFalsy total (.num (text "0"))) (Json.countOf unack))

/-- A request, and what the value of its body does to the monitor store. -/
def fetchThen (url : Url) (options : RequestInit) (failure : String)
    (store : Json → MonitorStore → Except String MonitorStore) : Api S Json := do
  let data ← fetchJson url options failure
  modifyMonitor (store data)
  return data

/-- A request whose body is not read, and what its success does to the monitor store. -/
def sendThen (url : Url) (options : RequestInit) (failure : String)
    (store : MonitorStore → Except String MonitorStore) : Api S Unit := do
  let response ← fetchWithAuth url options false
  if !okStatus response.status then Async.throw failure
  else modifyMonitor store

/-- The numbers at the top of the dashboard. -/
def fetchDashboardStats : Api S Json :=
  fetchInto "stats" ⟨text "/api/admin/dashboard/stats", []⟩ "Failed to fetch stats"
    (storeValue MonitorStore.setStats)

/-- The latest events of the dashboard. -/
def fetchRecentActivity (limit : Text := text "20") : Api S Json :=
  fetchInto "activity" ⟨text "/api/admin/dashboard/activity?limit=" ++ limit, []⟩
    "Failed to fetch activity" (storeList "activities" MonitorStore.setRecentActivity)

/-- The logins of these days. -/
def fetchLoginTrends (days : Text := text "30") : Api S Json :=
  fetchInto "trends" ⟨text "/api/admin/dashboard/login-trends?days=" ++ days, []⟩
    "Failed to fetch trends" (storeList "trends" MonitorStore.setLoginTrends)

/-- The use of the applications. -/
def fetchAppUsage : Api S Json :=
  fetchInto "appUsage" ⟨text "/api/admin/dashboard/app-usage", []⟩ "Failed to fetch app usage"
    (storeList "apps" MonitorStore.setAppUsage)

/-- The state of the server's parts. -/
def fetchHealth : Api S Json :=
  fetchInto "health" ⟨text "/api/admin/dashboard/health", []⟩ "Failed to fetch health"
    (storeValue MonitorStore.setHealth)

/-- The threats within a time range. -/
def fetchThreatMetrics (timeRange : Text := text "24h") : Api S Json :=
  fetchInto "threats" ⟨text "/api/admin/security/threats?period=" ++ timeRange, []⟩
    "Failed to fetch threats" (storeValue MonitorStore.setThreatMetrics)

/-- A page of the sessions, with their total. -/
def fetchSessions (params : List (Text × Option Text)) : Api S Json :=
  fetchInto "sessions" ⟨text "/api/admin/sessions", definedParams params⟩
    "Failed to fetch sessions" (storeListTotal "sessions" "total" MonitorStore.setSessions)

/-- The tokens issued within a period. -/
def fetchTokenStats (period : Text := text "24h") : Api S Json :=
  fetchInto "tokenStats" ⟨text "/api/admin/tokens/stats?period=" ++ period, []⟩
    "Failed to fetch token stats" (storeValue MonitorStore.setTokenStats)

/-- Where the logins of a period come from. -/
def fetchGeoAnalytics (period : Text := text "24h") : Api S Json :=
  fetchInto "geo" ⟨text "/api/admin/security/geo?period=" ++ period, []⟩
    "Failed to fetch geo analytics" (storeValue MonitorStore.setGeoAnalytics)

/-- A page of the alerts, with their total and the number of those not acknowledged. -/
def fetchAlertHistory (params : List (Text × Option Text)) : Api S Json :=
  fetchInto "alertHistory" ⟨text "/api/admin/alerts/history", definedParams params⟩
    "Failed to fetch alert history" storeAlertHistory

/-- `acknowledgeAlert(id, note)`; the store takes the time `now` when it is changed. -/
def acknowledgeAlert (id : Text) (note : Option Text) (now : Text) : Api S Unit :=
  sendThen ⟨text "/api/admin/alerts/" ++ id ++ text "/acknowledge", []⟩
    { method := some (text "POST"),
      body := some ((Json.obj []).setProp "note" (note.map .str)) }
    "Failed to acknowledge alert" (MonitorStore.acknowledgeAlert id note now)

/-- A report is asked for; the answer is added to the reports. -/
def generateReport (request : Json) : Api S Json :=
  fetchThen ⟨text "/api/admin/reports/security", []⟩
    { method := some (text "POST"), body := some request } "Failed to generate report"
    MonitorStore.addReport

/-- A report is asked after; the answer updates the one with its id. -/
def fetchReportStatus (reportId : Text) : Api S Json :=
  fetchThen ⟨text "/api/admin/reports/" ++ reportId, []⟩ {} "Failed to fetch report status"
    MonitorStore.updateReport

/-- A page of the audit log, with the total. -/
def fetchAuditLogs (params : List (Text × Option Text)) : Api S Json :=
  fetchInto "auditLogs" ⟨text "/api/admin/logs", searchParams params⟩ "Failed to fetch audit logs"
    (storeListTotal "logs" "total_count" MonitorStore.setAuditLogs)

/-- The operations that write the monitor store. -/
inductive Operation
  | call (c : Call)
  | fetchDashboardStats
  | fetchRecentActivity (limit : Text)
  | fetchLoginTrends (days : Text)
  | fetchAppUsage
  | fetchHealth
  | fetchThreatMetrics (timeRange : Text)
  | fetchSessions (params : List (Text × Option Text))
  | fetchTokenStats (period : Text)
  | fetchGeoAnalytics (period : Text)
  | fetchAlertHistory (params : List (Text × Option Text))
  | acknowledgeAlert (id : Text) (note : Option Text) (now : Text)
  | generateReport (request : Json)
  | fetchReportStatus (reportId : Text)
  | fetchAuditLogs (params : List (Text × Option Text))

namespace Operation

/-- The function an operation runs, and the value it gives, if any. -/
def body : Operation → Api S (Option Json)
  | call c => c.body
  | fetchDashboardStats => some <$> Console.fetchDashboardStats
  | fetchRecentActivity limit => some <$> Console.fetchRecentActivity limit
  | fetchLoginTrends days => some <$> Console.fetchLoginTrends days
  | fetchAppUsage => some <$> Console.fetchAppUsage
  | fetchHealth => some <$> Console.fetchHealth
  | fetchThreatMetrics timeRange => some <$> Console.fetchThreatMetrics timeRange
  | fetchSessions params => some <$> Console.fetchSessions params
  | fetchTokenStats period => some <$> Console.fetchTokenStats period
  | fetchGeoAnalytics period => some <$> Console.fetchGeoAnalytics period
  | fetchAlertHistory params => some <$> Console.fetchAlertHistory params
  | acknowledgeAlert id note now => (fun _ => none) <$> Console.acknowledgeAlert id note now
  | generateReport request => some <$> Console.generateReport request
  | fetchReportStatus reportId => some <$> Console.fetchReportStatus reportId
  | fetchAuditLogs params => some <$> Console.fetchAuditLogs params

/-- The loading flag of an operation, if it uses one. -/
def loadingKey : Operation → Option String
  | call (.fetchSecurityEvents _) => some "events"
  | call .fetchBlockedIPs => some "blockedIPs"
  | call .fetchAlertRules => some "alertRules"
  | fetchDashboardStats => some "stats"
  | fetchRecentActivity _ => some "activity"
  | fetchLoginTrends _ => some "trends"
  | fetchAppUsage => some "appUsage"
  | fetchHealth => some "health"
  | fetchThreatMetrics _ => some "threats"
  | fetchSessions _ => some "sessions"
  | fetchTokenStats _ => some "tokenStats"
  | fetchGeoAnalytics _ => some "geo"
  | fetchAlertHistory _ => some "alertHistory"
  | fetchAuditLogs _ => some "auditLogs"
  | _ => none

end Operation

/-! ## Failures -/

/-- What an operation was answered, newest first, is a failure: `fetch` was rejected; the status is
none of success, be it 401, or any other one, of which 403 counts when the request was sent again,
or when the body asks for no elevation; the body that is read is not JSON; or the step-up was
cancelled. -/
def Failed : Past → Prop
  | ⟨.response _, .error _⟩ :: _ => True
  | ⟨.response _, .ok response⟩ :: h =>
    okStatus response.status = false ∧ (response.status = 403 → h ≠ [])
  | ⟨.json _, .error _⟩ :: _ => True
  | ⟨.json _, .ok body⟩ :: ⟨.response _, .ok response⟩ :: _ =>
    okStatus response.status = false ∧ elevationRequired body = false
  | ⟨.elevation _, .error _⟩ :: _ => True
  | _ => False

/-- A request goes on only without a failure, and ends after one or with a response of success. -/
def failSpec : Spec (Page S) Wait.Value String Response where
  wait h _ _ _ := ¬Failed h
  done h _ _ _ := Failed h ∨ Confirms h

section

variable {url : Url} {options : RequestInit} {s₀ s : Page S}

theorem okStatus_eq_false {status : ℕ} (h : status = 401 ∨ status = 403) :
    okStatus status = false :=
  Bool.eq_false_iff.mpr (not_okStatus h)

theorem satAnswered_failSpec (h : Past) (r : ℕ) : SatAnswered (failSpec (S := S)) h r where
  error _ _ := .inl trivial
  out _ response h401 := by
    refine .inl ⟨okStatus_eq_false (.inl h401), fun h403 => ?_⟩
    rw [h401] at h403
    cases h403
  ok _ response _ h403 := by
    -- the status 403 ends a request only when it was sent again
    cases hok : okStatus response.status with
    | true => exact .inr hok
    | false => exact .inl ⟨hok, fun h403' hnil => h403 hnil h403'⟩

/-- A call of `fetchWithAuth` is rejected when its request was not answered, or refused. -/
theorem sat_fetchWithAuth_failSpec :
    (fetchWithAuth url options false).Sat settles failSpec [] s₀ s := by
  refine sat_fetchWithAuth_of id (satAnswered_failSpec _ _)
    (fun r s response h403 hfailed => hfailed.2 h403 rfl)
    (fun r s response b h403 hb => .inl ?_)
    (fun r s response body p _ hbody _ hfailed => ?_)
    (fun r s response body p e => .inl trivial) (fun r s response body p => id)
    fun r response body p r' => satAnswered_failSpec _ _
  · -- the response 403 is returned
    cases b with
    | error e => trivial
    | ok body => exact ⟨okStatus_eq_false (.inr h403), hb body rfl⟩
  · rw [hfailed.2] at hbody
    cases hbody

/-- A call whose answer was a success has not failed. -/
theorem not_failed_of_confirms {h : Past} (hh : Confirms h) : ¬Failed h := by
  unfold Confirms at hh
  split at hh
  · intro hfailed
    rw [hfailed.1] at hh
    cases hh
  · exact hh.elim

/-- The body of a response of success was read. -/
theorem not_failed_json {h : Past} {r : ℕ} {data : Json} (hh : Confirms h) :
    ¬Failed (⟨.json r, .ok data⟩ :: h) := by
  unfold Confirms at hh
  split at hh
  · intro hfailed
    rw [hfailed.1] at hh
    cases hh
  · exact hh.elim

end

/-! ## What the operations do with a failure -/

/-- The store at the beginning of an operation with this loading flag. -/
def begun (key : Option String) (m : MonitorStore) : MonitorStore :=
  key.elim m fun key => m.setLoading key true

/-- The store with the flag of the operation lowered. -/
def released (key : Option String) (m : MonitorStore) : MonitorStore :=
  key.elim m fun key => m.setLoading key false

/-- An operation that begins with the store `m` goes on only without a failure; after one it
rejects, and changes nothing but its loading flag. -/
def rejects (α : Type) (key : Option String) (m : MonitorStore) :
    Spec (Page S) Wait.Value String α where
  wait h s₀ s _ := s.monitor = kept m h s₀ ∧ ¬Failed h
  done h s₀ s r := h ≠ [] ∧
    (Failed h → (∃ e, r = .error e) ∧ s.monitor = released key s₀.monitor)

section

variable {α : Type} {url : Url} {options : RequestInit} {failure : String} {s₀ s : Page S}
  {m : MonitorStore}

/-- A request whose response has to be a success, and what is done then. -/
theorem sat_afterFetch {t : Response → Api S α} (hm : s.monitor = m)
    (hx : s.exchanges = s₀.exchanges)
    (ht : ∀ h s₁ s₂ response, h ≠ [] → s₂.monitor = s₁.monitor → Confirms h →
      (t response).Sat settles (rejects α none m) h s₁ s₂) :
    Async.Sat settles (rejects α none m) (do
      let response ← fetchWithAuth url options false
      if !okStatus response.status then Async.throw failure else t response) [] s₀ s := by
  -- the two contracts of `fetchWithAuth` together
  have hfetch : (fetchWithAuth url options false).Sat settles
      ((fetchSpec url options m).and failSpec) [] s₀ s :=
    (sat_fetchWithAuth hm hx).and sat_fetchWithAuth_failSpec
  exact sat_checked hfetch (fun _ _ _ _ hw => ⟨hw.1.1, hw.2⟩) (fun _ _ _ _ hr => hr.1)
    (fun h s₁ s₂ e h₀ hm₂ _ _ => ⟨h₀, fun _ => ⟨⟨e, rfl⟩, hm₂⟩⟩)
    fun h s₁ s₂ response h₀ hm₂ _ hh => ht h s₁ s₂ response h₀ hm₂ hh

/-- A failed `fetchJson` rejects and leaves the store alone. -/
theorem sat_fetchJson_rejects (hm : s.monitor = m) (hx : s.exchanges = s₀.exchanges) :
    (fetchJson url options failure).Sat settles (rejects Json none m) [] s₀ s := by
  refine sat_afterFetch hm hx fun h s₁ s₂ response h₀ hm₂ hh => ⟨⟨?_, not_failed_of_confirms hh⟩,
    fun a s₃ _ => ⟨List.cons_ne_nil _ _, fun hfailed => ?_⟩⟩
  · -- the store while the body is read
    obtain ⟨a, h', rfl⟩ := List.exists_cons_of_ne_nil h₀
    exact hm₂
  · cases a with
    | error e => exact ⟨⟨e, rfl⟩, rfl⟩
    | ok data => exact absurd hfailed (not_failed_json hh)

/-- What awaits nothing and does not follow a failure is free to do anything. -/
theorem sat_instant {key : Option String} {t : Api S α} {h : Past} (ht : t.Instant) (h₀ : h ≠ [])
    (hh : ¬Failed h) : t.Sat settles (rejects α key m) h s₀ s :=
  ht.sat fun _ _ => ⟨h₀, fun hfailed => absurd hfailed hh⟩

/-- A request whose body is read, and what is done with it. -/
theorem sat_afterJson {t : Json → Api S α} (ht : ∀ data, (t data).Instant) (hm : s.monitor = m)
    (hx : s.exchanges = s₀.exchanges) :
    Async.Sat settles (rejects α none m) (do
      let data ← fetchJson url options failure
      t data) [] s₀ s := by
  refine Async.Sat.andThen ((sat_fetchJson_rejects hm hx).mono (fun _ _ _ _ hw => hw)
    fun h s₁ s₂ r hr => ?_)
  obtain ⟨h₀, hfailed⟩ := hr
  cases r with
  | error e => exact ⟨h₀, fun hh => ⟨⟨e, rfl⟩, (hfailed hh).2⟩⟩
  -- the body was there, so the call has not failed
  | ok data =>
    refine sat_instant (ht data) h₀ fun hh => ?_
    obtain ⟨⟨e, he⟩, -⟩ := hfailed hh
    cases he

/-- Under a loading flag: it is cleared whatever becomes of the request. -/
theorem sat_fetchInto_rejects {key : String} {store : Json → Api S Unit}
    (hstore : ∀ data, (store data).Instant) :
    (fetchInto key url failure store).Sat settles
      (rejects Json (some key) (begun (some key) s.monitor)) [] s s := by
  have hbody : Async.Sat settles (rejects Json none (s.monitor.setLoading key true)) (do
      let data ← fetchJson url {} failure
      store data
      return data) [] s { s with monitor := s.monitor.setLoading key true } :=
    sat_afterJson (fun data => (hstore data).bind fun _ => trivial) rfl rfl
  show Async.Sat settles _ (Async.tryFinally _ _) [] s _
  refine Async.Sat.andThen (hbody.mono (fun _ _ _ _ hw => hw) fun h s₁ s₂ r hr => ?_)
  obtain ⟨h₀, hfailed⟩ := hr
  refine ⟨h₀, fun hh => ⟨(hfailed hh).1, ?_⟩⟩
  -- the flag is cleared in a store that the failed body left alone
  show s₂.monitor.setLoading key false = s₁.monitor.setLoading key false
  rw [(hfailed hh).2]
  rfl

/-- A change of the store awaits nothing. -/
theorem instant_modifyMonitor (f : MonitorStore → Except String MonitorStore) :
    (modifyMonitor f : Api S Unit).Instant := by
  unfold modifyMonitor
  intro s
  cases hf : f s.monitor <;> simp only [hf] <;> trivial

/-- Storing a list awaits nothing. -/
theorem instant_storeList (name : String) (set : Json → MonitorStore → MonitorStore)
    (data : Json) : (storeList name set data : Api S Unit).Instant :=
  Async.Instant.bind trivial fun _ => instant_modifyMonitor _

theorem instant_storeListTotal (name total : String)
    (set : Json → Json → MonitorStore → MonitorStore) (data : Json) :
    (storeListTotal name total set data : Api S Unit).Instant :=
  Async.Instant.bind trivial fun _ => Async.Instant.bind trivial fun _ => instant_modifyMonitor _

theorem instant_storeEvents (data : Json) : (storeEvents data : Api S Unit).Instant :=
  instant_storeListTotal "events" "total" MonitorStore.setSecurityEvents data

theorem instant_storeAlertHistory (data : Json) : (storeAlertHistory data : Api S Unit).Instant :=
  Async.Instant.bind trivial fun _ => Async.Instant.bind trivial fun _ =>
    Async.Instant.bind trivial fun _ => instant_modifyMonitor _

/-- An operation without a flag that stores what it fetched. -/
theorem sat_fetchThen_rejects {store : Json → MonitorStore → Except String MonitorStore} :
    (fetchThen url options failure store).Sat settles (rejects Json none s.monitor) [] s s :=
  sat_afterJson (fun data => (instant_modifyMonitor (store data)).bind fun _ => trivial) rfl rfl

theorem sat_sendThen_rejects {store : MonitorStore → Except String MonitorStore} :
    (sendThen url options failure store).Sat settles (rejects Unit none s.monitor) [] s s :=
  sat_afterFetch rfl rfl fun _ _ _ _ h₀ _ hh =>
    sat_instant (instant_modifyMonitor store) h₀ (not_failed_of_confirms hh)

/-- What a result is mapped to does not matter to a failure. -/
theorem sat_map_rejects {β : Type} {key : Option String} {t : Api S β} {h : Past} (g : β → α)
    (ht : t.Sat settles (rejects β key m) h s₀ s) :
    (g <$> t).Sat settles (rejects α key m) h s₀ s := by
  refine (ht.map g).mono (fun _ _ _ _ hw => hw) fun h s₀ s r hr => ?_
  obtain ⟨r', rfl, h₀, hfailed⟩ := hr
  refine ⟨h₀, fun hh => ?_⟩
  obtain ⟨⟨e, rfl⟩, hm⟩ := hfailed hh
  exact ⟨⟨e, rfl⟩, hm⟩

end

/-- Every operation rejects after a failure, and changes nothing but its loading flag then. -/
theorem Operation.sat (j : Operation) (s : Page S) :
    j.body.Sat settles (rejects (Option Json) j.loadingKey (begun j.loadingKey s.monitor)) [] s
      s := by
  -- one rule for each shape of the functions of the store
  cases j with
  | call c =>
    cases c with
    | fetchSecurityEvents params =>
      exact sat_map_rejects some (sat_fetchInto_rejects instant_storeEvents)
    | fetchBlockedIPs | fetchAlertRules =>
      exact sat_map_rejects some (sat_fetchInto_rejects (instant_storeList _ _))
    | blockIP entry | createAlertRule entry | updateAlertRule _ entry =>
      exact sat_map_rejects some sat_fetchThen_rejects
    | unblockIP id | deleteAlertRule id => exact sat_map_rejects _ sat_sendThen_rejects
  | fetchDashboardStats | fetchHealth | fetchThreatMetrics | fetchTokenStats | fetchGeoAnalytics =>
    exact sat_map_rejects some (sat_fetchInto_rejects fun _ => instant_modifyMonitor _)
  | fetchRecentActivity | fetchLoginTrends | fetchAppUsage =>
    exact sat_map_rejects some (sat_fetchInto_rejects (instant_storeList _ _))
  | fetchSessions | fetchAuditLogs =>
    exact sat_map_rejects some (sat_fetchInto_rejects (instant_storeListTotal _ _ _))
  | fetchAlertHistory =>
    exact sat_map_rejects some (sat_fetchInto_rejects instant_storeAlertHistory)
  | acknowledgeAlert => exact sat_map_rejects _ sat_sendThen_rejects
  | generateReport | fetchReportStatus => exact sat_map_rejects some sat_fetchThen_rejects

/-! ## Runs of one operation -/

/-- A console with operations, and what a step of it does. -/
abbrev Operations (S : Type) := Loop (Page S) Operation Wait.Value String (Option Json)

/-- The labels of a run of the operations. -/
abbrev OperationMove := Label Operation Event Wait.Value String

/-- No operation is called beside another one. -/
def RunsAlone (L : Operations S) : OperationMove → Prop
  | .call _ => L.acts = []
  | _ => True

/-- The consoles of the runs in which one operation runs alone. -/
abbrev AloneRun (srv : Server S) (p : Page S) : Operations S → Prop :=
  Reachable Operation.body settles srv.happens RunsAlone p

/-- How far an operation called with the store `m` has come, in a page with the store `m'`. -/
def Progress (m m' : MonitorStore) (j : Operation) (h : Past)
    (pause : Pause (Page S) Wait.Value String (Option Json)) : Prop :=
  match pause with
  | .waiting _ _ => m' = begun j.loadingKey m ∧ ¬Failed h
  | .settled r => Failed h →
      (∃ e, r = .error e) ∧ m' = released j.loadingKey (begun j.loadingKey m)

section

variable {srv : Server S} {p : Page S} {L : Operations S}

/-- In a run of one operation there is none yet, or it has come as far as `Progress` says. -/
theorem progress_of_run (hL : AloneRun srv p L) :
    (L.acts = [] ∧ L.shared.monitor = p.monitor) ∨ ∃ act, L.acts = [act] ∧
      act.called.monitor = p.monitor ∧
        Progress p.monitor L.shared.monitor act.job act.past act.pause := by
  refine Reachable.alone (J := fun s => s.monitor = p.monitor)
    (I := fun j c h pause s => c.monitor = p.monitor ∧ Progress p.monitor s.monitor j h pause)
    (S := fun j s => rejects (Option Json) j.loadingKey (begun j.loadingKey s.monitor))
    Operation.sat (fun _ _ hC => hC) rfl ?_ ?_ ?_ ?_ hL
  · -- the operation is called: it has no answer yet, so it cannot have ended
    intro L j s pause hm _ hp
    refine ⟨hm, ?_⟩
    cases pause with
    | settled r => exact absurd rfl hp.1
    | waiting q k =>
      rw [← hm]
      exact hp
  · -- it is answered: its next segment begins with the store as it waited
    intro j c h q k a s s' pause hI hp
    obtain ⟨hcalled, hm, -⟩ := hI
    refine ⟨hcalled, ?_⟩
    cases pause with
    | settled r =>
      intro hfailed
      obtain ⟨herror, hm'⟩ := hp.2 hfailed
      rw [hm] at hm'
      exact ⟨herror, hm'⟩
    | waiting q' k' => exact ⟨hp.1.trans hm, hp.2⟩
  · -- the rest of the page does not write the monitor store
    intro L e s hm _ he
    rw [Server.happens_monitor he, hm]
  · intro L e s j c h pause hI _ he
    rw [Server.happens_monitor he]
    exact hI

/-- An operation that runs alone and fails is rejected: the monitor store is as it was, except for
loading flags, and of these only the operation's own may differ, which is cleared. -/
theorem rejected_of_failed (hL : AloneRun srv p L) {act} (hact : act ∈ L.acts)
    (hfailed : Failed act.past) :
    (∃ e, act.pause = .settled (.error e)) ∧
      (∃ isLoading, L.shared.monitor = { p.monitor with isLoading := isLoading }) ∧
      (∀ key, act.job.loadingKey = some key → L.shared.monitor.isLoading key = false) ∧
      ∀ key, act.job.loadingKey ≠ some key →
        L.shared.monitor.isLoading key = p.monitor.isLoading key := by
  rcases progress_of_run hL with ⟨hnone, -⟩ | ⟨act', hacts, -, hprogress⟩
  · rw [hnone] at hact
    cases hact
  · rw [hacts] at hact
    obtain rfl := List.mem_singleton.mp hact
    unfold Progress at hprogress
    cases hpause : act.pause with
    | waiting q k =>
      -- an operation that was answered with a failure does not wait
      rw [hpause] at hprogress
      exact absurd hfailed hprogress.2
    | settled r =>
      rw [hpause] at hprogress
      obtain ⟨⟨e, rfl⟩, hm⟩ := hprogress hfailed
      refine ⟨⟨e, rfl⟩, ?_⟩
      rw [hm]
      -- what is left differs from the first store in the flag `key` only, if there is one
      cases act.job.loadingKey with
      | none => exact ⟨⟨_, rfl⟩, nofun, fun _ _ => rfl⟩
      | some key =>
        refine ⟨⟨_, rfl⟩, fun key' heq => ?_, fun key' hne => ?_⟩
        · obtain rfl := Option.some.inj heq
          simp [released, MonitorStore.setLoading]
        · have hkey : key' ≠ key := fun heq => hne (by rw [heq])
          simp [released, begun, MonitorStore.setLoading, hkey]

end

/-! ## A server that fails -/

/-- A server that has an error with every request. -/
def failing : Server Unit where
  serve _ _ _ o := o = .ok ⟨500, none⟩
  drift _ _ := False

/-- A request for the statistics, answered with that error. -/
def refusedStats : Operations Unit :=
  let requested := (Loop.start (Page.fresh ())).called Operation.body .fetchDashboardStats
  let replied := { requested with shared := requested.shared.served 0 () (.ok ⟨500, none⟩) }
  replied.answered 0 (answerOf replied.shared)

theorem run_refusedStats : AloneRun failing (Page.fresh ()) refusedStats := by
  have h₁ : AloneRun failing (Page.fresh ()) _ := Reachable.start.called .fetchDashboardStats rfl
  have h₂ := reachable_replied h₁ 0 () _ rfl rfl rfl trivial
  exact reachable_resumed h₂ 0 rfl fun _ => trivial

/-- It is rejected, and its flag is cleared. -/
theorem refusedStats_rejected : ∃ act ∈ refusedStats.acts, Failed act.past ∧
    (∃ e, act.pause = .settled (.error e)) ∧
      refusedStats.shared.monitor.isLoading "stats" = false := by
  obtain ⟨act, hmem, hjob, hfailed⟩ : ∃ act ∈ refusedStats.acts,
      act.job.loadingKey = some "stats" ∧ Failed act.past :=
    ⟨_, List.mem_singleton_self _, rfl, rfl, nofun⟩
  obtain ⟨hrejected, -, hcleared, -⟩ := rejected_of_failed run_refusedStats hmem hfailed
  exact ⟨act, hmem, hfailed, hrejected, hcleared "stats" hjob⟩

end Console
