import OAuth2Monitoring.Console.Stores
import OAuth2Monitoring.ToMathlib.EventLoop.Loop

/-!
# The API layer of the console

The functions of `useApi` as asynchronous functions over the page: the stores, the requests sent so
far with their replies, and a server of which only a step relation is known.

A request is sent at once and answered later; reading the body of a response is awaited apart from
the response. Between two awaits a function is not interrupted.

## Main definitions

* `Page`, `Wait`, `settles`: what the functions share, what they await, and when it is settled.
* `fetchWithAuth`: a request with one step-up.
* `fetchInto`, `sendEntry`, `deleteEntry`: the shapes the API calls have.
* `Event`, `Server.happens`: what happens to a page apart from its calls.
* `Call.body`: the calls.
-/

namespace Console

open JsStd EventLoop

/-! ## The page -/

/-- An address: the path, and the parameters before they are serialised. -/
structure Url where
  path : Text
  params : List (Text × Text) := []

/-- The options of a call of `fetch`. -/
structure RequestInit where
  method : Option Text := none
  body : Option Json := none
  headers : List (Text × Text) := []

/-- A request as it is sent. -/
structure Request where
  url : Url
  method : Option Text
  body : Option Json
  headers : List (Text × Text)

/-- The value of a header: of two of one name the later one counts. -/
def headerOf (headers : List (Text × Text)) (name : Text) : Option Text :=
  headers.reverse.lookup name

/-- Of two lists of headers the second one wins. -/
theorem headerOf_append (l m : List (Text × Text)) (name : Text) :
    headerOf (l ++ m) name = (headerOf m name).or (headerOf l name) := by
  rw [headerOf, List.reverse_append, List.lookup_append, headerOf, headerOf]

/-- What a server replies. A body that is not JSON, or cannot be read, is `none`. -/
structure Reply where
  status : ℕ
  body : Option Json

/-- A request that was sent, the auth store at that time, and its outcome. -/
structure Exchange where
  request : Request
  auth : AuthStore
  outcome : Option (Except String Reply)

/-- What the functions of the page share. `leaving` is set when the browser is sent to the login
page. -/
structure Page (S : Type) where
  auth : AuthStore
  stepUp : StepUpStore
  monitor : MonitorStore
  leaving : Bool
  exchanges : List Exchange
  server : S

/-- What a function awaits: the response to the `r`-th request, its body, or an elevation. -/
inductive Wait
  | response (r : ℕ)
  | json (r : ℕ)
  | elevation (p : ℕ)
  deriving DecidableEq

/-- A response: the request it belongs to, and its status. -/
structure Response where
  request : ℕ
  status : ℕ

/-- What is awaited is of this type. -/
@[reducible]
def Wait.Value : Wait → Type
  | response _ => Response
  | json _ => Json
  | elevation _ => Unit

/-- `response.ok`. -/
def okStatus (status : ℕ) : Bool := 200 ≤ status ∧ status ≤ 299

variable {S : Type}

/-- The answer to what a function awaits. -/
def settles (s : Page S) : (q : Wait) → Except String q.Value → Prop
  | .response r, a => ∃ x o, s.exchanges[r]? = some x ∧ x.outcome = some o ∧
      a = o.map fun reply => ⟨r, reply.status⟩
  | .json r, a => ∃ x reply, s.exchanges[r]? = some x ∧ x.outcome = some (.ok reply) ∧
      match reply.body with
      | some v => a = .ok v
      | none => ∃ e, a = .error e
  | .elevation p, a => s.stepUp.promises[p]? = some (some a)

/-- An asynchronous function of the page. -/
abbrev Api (S α : Type) := Async (Page S) Wait.Value String α

/-- Await the response to the `r`-th request, its body, and an elevation. -/
def awaitResponse (r : ℕ) : Api S Response := Async.ask (Wait.response r)

/-- The body of a response is awaited. -/
def awaitJson (r : ℕ) : Api S Json := Async.ask (Wait.json r)

/-- The promise of a dialog is awaited. -/
def awaitPromise (p : ℕ) : Api S Unit := Async.ask (Wait.elevation p)

namespace Page

/-- `fetch`: the request is sent. -/
def send (s : Page S) (request : Request) : Page S :=
  { s with exchanges := s.exchanges ++ [⟨request, s.auth, none⟩] }

/-- `authStore.setUnauthenticated(); authStore.login()`. -/
def signOut (s : Page S) : Page S :=
  { s with auth := s.auth.setUnauthenticated, leaving := true }

/-- `stepUp.request()`. -/
def requestElevation (s : Page S) : Page S := { s with stepUp := s.stepUp.request }

end Page

/-! ## Requests -/

/-- `toUpperCase`, as far as the names of methods go. -/
def upperCase (s : Text) : Text :=
  s.map fun c => if 97 ≤ c ∧ c ≤ 122 then c - 32 else c

/-- Does the method change state? A method that is not given, or empty, is `GET`. -/
def mutating (method : Option Text) : Bool :=
  let name := match method with
    | none | some [] => text "GET"
    | some m => upperCase m
  name ≠ text "GET" ∧ name ≠ text "HEAD"

/-- The request `fetchWithAuth` sends. -/
def requestOf (url : Url) (options : RequestInit) (auth : AuthStore) : Request where
  url := url
  method := options.method
  body := options.body
  headers := (text "Content-Type", text "application/json") ::
    ((if mutating options.method then auth.csrfHeaders else []) ++ options.headers)

/-- `await fetch(..)`, and what `fetchWithAuth` does with the status 401. -/
def fetchOnce (url : Url) (options : RequestInit) : Api S Response := do
  let s ← Async.read
  Async.modify fun s => s.send (requestOf url options s.auth)
  let response ← awaitResponse s.exchanges.length
  if response.status = 401 then
    -- the cached identity is dropped before the navigation to the login
    Async.modify Page.signOut
    Async.throw "Session expired"
  else return response

/-- Does the body ask for an elevation? -/
def elevationRequired (body : Json) : Bool :=
  Json.truthy (some body) && Json.isText (text "elevation_required") (body.prop "error")

/-- `await stepUp.request()`. -/
def awaitElevation : Api S Unit := do
  Async.modify Page.requestElevation
  let s ← Async.read
  -- the promise `request` returns is the one that is pending then
  match s.stepUp.pending with
  | some p => awaitPromise p
  | none => return ()

/-- `fetchWithAuth(url, options, elevated)`. -/
def fetchWithAuth (url : Url) (options : RequestInit) (elevated : Bool) : Api S Response := do
  let response ← fetchOnce url options
  if response.status = 403 ∧ !elevated then
    -- a body that cannot be read asks for nothing
    let body ← Async.tryCatch (awaitJson response.request) fun _ => pure .null
    if elevationRequired body then
      awaitElevation
      -- the function calls itself with `elevated` set, and then only sends the request
      fetchOnce url options
    else return response
  else return response

/-! ## Calls -/

/-- A property of a value, `undefined` if it has none. -/
def getProp (data : Json) (name : String) : Api S (Option Json) := Async.ret (data.get name)

/-- Change the monitor store, where the change does not throw. -/
def modifyMonitor (f : MonitorStore → Except String MonitorStore) : Api S Unit :=
  Async.get fun s =>
    match f s.monitor with
    | .ok monitor => Async.set { s with monitor := monitor } (pure ())
    | .error e => Async.throw e

/-- `monitorStore.setLoading(key, value)`. -/
def setLoading (key : String) (value : Bool) : Api S Unit :=
  Async.modify fun s => { s with monitor := s.monitor.setLoading key value }

/-- A request whose response has to be a success, and the value of its body. -/
def fetchJson (url : Url) (options : RequestInit) (failure : String) : Api S Json := do
  let response ← fetchWithAuth url options false
  if !okStatus response.status then Async.throw failure
  else awaitJson response.request

/-- Load something under a loading flag and store it. -/
def fetchInto (key : String) (url : Url) (failure : String) (store : Json → Api S Unit) :
    Api S Json := do
  setLoading key true
  Async.tryFinally
    (do
      let data ← fetchJson url {} failure
      store data
      return data)
    -- whether it has thrown or not
    (setLoading key false)

/-- The parameters of a search: those that are given and not empty. -/
def searchParams (params : List (Text × Option Text)) : List (Text × Text) :=
  params.filterMap fun p =>
    match p.2 with
    | none | some [] => none
    | some value => some (p.1, value)

/-- `monitorStore.setSecurityEvents(data.events || [], data.total || 0)`. -/
def storeEvents (data : Json) : Api S Unit := do
  let events ← getProp data "events"
  let total ← getProp data "total"
  modifyMonitor fun m => .ok
    (m.setSecurityEvents (Json.orFalsy events (.arr [])) (Json.orFalsy total (.num (text "0"))))

/-- `fetchSecurityEvents(params)`, the values as `String` gives them. -/
def fetchSecurityEvents (params : List (Text × Option Text)) : Api S Json :=
  fetchInto "events" ⟨text "/api/admin/security/events", searchParams params⟩
    "Failed to fetch events" storeEvents

/-- Store the list that is the property `name` of the value, no list counting as an empty one. -/
def storeList (name : String) (set : Json → MonitorStore → MonitorStore) (data : Json) :
    Api S Unit := do
  let entries ← getProp data name
  modifyMonitor fun m => .ok (set (Json.orFalsy entries (.arr [])) m)

/-- Send an entry, and store what the server answers. -/
def sendEntry (url : Url) (method : String) (entry : Json) (failure : String)
    (store : Json → MonitorStore → Except String MonitorStore) : Api S Json := do
  let data ← fetchJson url { method := some (text method), body := some entry } failure
  modifyMonitor (store data)
  return data

/-- Delete an entry, and drop it from the store. -/
def deleteEntry (url : Url) (failure : String)
    (drop : MonitorStore → Except String MonitorStore) : Api S Unit := do
  let response ← fetchWithAuth url { method := some (text "DELETE") } false
  if !okStatus response.status then Async.throw failure
  else modifyMonitor drop

/-- The path of a list, and the one of its entry with this id. -/
def blockedIPsPath : Text := text "/api/admin/security/blocked-ips"

/-- Where the server has the rules of the alerts. -/
def alertRulesPath : Text := text "/api/admin/alerts/rules"

/-- Where it has one entry of a list. -/
def entryPath (path id : Text) : Text := path ++ text "/" ++ id

/-- The blocked addresses are loaded. -/
def fetchBlockedIPs : Api S Json :=
  fetchInto "blockedIPs" ⟨blockedIPsPath, []⟩ "Failed to fetch blocked IPs"
    (storeList "blocked_ips" MonitorStore.setBlockedIPs)

/-- An address is blocked; the answer is put into the list. -/
def blockIP (params : Json) : Api S Json :=
  sendEntry ⟨blockedIPsPath, []⟩ "POST" params "Failed to block IP" MonitorStore.addBlockedIP

/-- An address is unblocked, and taken off the list. -/
def unblockIP (id : Text) : Api S Unit :=
  deleteEntry ⟨entryPath blockedIPsPath id, []⟩ "Failed to unblock IP"
    (MonitorStore.removeBlockedIP id)

/-- The rules of the alerts are loaded. -/
def fetchAlertRules : Api S Json :=
  fetchInto "alertRules" ⟨alertRulesPath, []⟩ "Failed to fetch alert rules"
    (storeList "rules" MonitorStore.setAlertRules)

/-- A rule is created; the answer is put into the list. -/
def createAlertRule (rule : Json) : Api S Json :=
  sendEntry ⟨alertRulesPath, []⟩ "POST" rule "Failed to create alert rule"
    MonitorStore.addAlertRule

/-- A rule is changed; the answer takes its place. -/
def updateAlertRule (id : Text) (rule : Json) : Api S Json :=
  sendEntry ⟨entryPath alertRulesPath id, []⟩ "PUT" rule "Failed to update alert rule"
    MonitorStore.updateAlertRule

/-- A rule is deleted, and taken off the list. -/
def deleteAlertRule (id : Text) : Api S Unit :=
  deleteEntry ⟨entryPath alertRulesPath id, []⟩ "Failed to delete alert rule"
    (MonitorStore.removeAlertRule id)

/-! ## What happens to a page -/

/-- A server: how it may process one request, and how its state may change by itself. -/
structure Server (S : Type) where
  serve : S → Request → S → Except String Reply → Prop
  drift : S → S → Prop

/-- What happens apart from calls: the server processes a request, the dialog is completed or
cancelled, the identity is loaded or dropped, the server changes by itself. -/
inductive Event
  | serve (r : ℕ) (o : Except String Reply)
  | complete
  | cancel
  | identify (auth : AuthStore)
  | drift

/-- An event of the environment. -/
def Server.happens (srv : Server S) (s : Page S) : Event → Page S → Prop
  | .serve r o, s' => ∃ x v, s.exchanges[r]? = some x ∧ x.outcome = none ∧
      srv.serve s.server x.request v o ∧
      s' = { s with server := v, exchanges := s.exchanges.set r { x with outcome := some o } }
  | .complete, s' => s' = { s with stepUp := s.stepUp.complete }
  | .cancel, s' => s' = { s with stepUp := s.stepUp.cancel }
  | .identify auth, s' => s' = { s with auth := auth }
  | .drift, s' => ∃ v, srv.drift s.server v ∧ s' = { s with server := v }

/-- The outcome of the `r`-th request, if there is one. -/
def Page.outcome (s : Page S) (r : ℕ) : Option (Except String Reply) :=
  (s.exchanges[r]?).bind Exchange.outcome

/-- The answer that is there for a question. -/
def answerOf (s : Page S) : (q : Wait) → Except String q.Value
  | .response r => (s.outcome r).elim (.error "none") fun o => o.map fun reply => ⟨r, reply.status⟩
  | .json r =>
    match s.outcome r with
    | some (.ok reply) => reply.body.elim (.error "none") .ok
    | _ => .error "none"
  | .elevation p => (s.stepUp.promises[p]?.join).getD (.error "none")

/-- Is there an answer to the question? -/
def hasAnswer (s : Page S) : Wait → Bool
  | .response r => (s.outcome r).isSome
  | .json r =>
    match s.outcome r with
    | some (.ok _) => true
    | _ => false
  | .elevation p => (s.stepUp.promises[p]?.join).isSome

/-- An answer that is there settles the question. -/
theorem settles_answerOf {s : Page S} {q : Wait} (h : hasAnswer s q = true) :
    settles s q (answerOf s q) := by
  cases q with
  | response r =>
    obtain ⟨o, ho⟩ := Option.isSome_iff_exists.mp h
    obtain ⟨x, hx, hout⟩ := Option.bind_eq_some_iff.mp ho
    exact ⟨x, o, hx, hout, by rw [answerOf, ho]; rfl⟩
  | json r =>
    -- a body can be read once the request was answered, and is JSON or not
    cases ho : s.outcome r with
    | none => simp [hasAnswer, ho] at h
    | some o =>
      obtain ⟨x, hx, hout⟩ := Option.bind_eq_some_iff.mp ho
      cases o with
      | error e => simp [hasAnswer, ho] at h
      | ok reply =>
        refine ⟨x, reply, hx, hout, ?_⟩
        obtain ⟨status, body⟩ := reply
        rw [answerOf, ho]
        cases body with
        | none => exact ⟨_, rfl⟩
        | some v => rfl
  | elevation p =>
    obtain ⟨a, ha⟩ := Option.isSome_iff_exists.mp h
    show s.stepUp.promises[p]? = some (some (answerOf s (.elevation p)))
    rw [answerOf, ha]
    exact Option.join_eq_some_iff.mp ha

/-- The page after the server has processed the `r`-th request and is in the state `v`. -/
def Page.served (s : Page S) (r : ℕ) (v : S) (o : Except String Reply) : Page S :=
  { s with server := v, exchanges := s.exchanges.modify r fun x => { x with outcome := some o } }

/-- The server may answer a request that is open. -/
theorem Server.happens_served {srv : Server S} {s : Page S} {r : ℕ} {v : S}
    {o : Except String Reply} {x : Exchange} (hx : s.exchanges[r]? = some x)
    (hopen : x.outcome = none) (hserve : srv.serve s.server x.request v o) :
    srv.happens s (.serve r o) (s.served r v o) := by
  refine ⟨x, v, hx, hopen, hserve, ?_⟩
  obtain ⟨hlt, hget⟩ := List.getElem?_eq_some_iff.mp hx
  unfold Page.served
  rw [List.modify_eq_set_getElem?, hx]
  rfl

/-- Nothing but a call changes the monitor store. -/
theorem Server.happens_monitor {srv : Server S} {s s' : Page S} {e : Event}
    (h : srv.happens s e s') : s'.monitor = s.monitor := by
  cases e with
  | serve r o =>
    obtain ⟨x, v, -, -, -, rfl⟩ := h
    rfl
  | drift =>
    obtain ⟨v, -, rfl⟩ := h
    rfl
  | _ =>
    obtain rfl := h
    rfl

/-- The calls of the API layer that are modelled. -/
inductive Call
  | fetchSecurityEvents (params : List (Text × Option Text))
  | fetchBlockedIPs
  | blockIP (params : Json)
  | unblockIP (id : Text)
  | fetchAlertRules
  | createAlertRule (rule : Json)
  | updateAlertRule (id : Text) (rule : Json)
  | deleteAlertRule (id : Text)

/-- The function a call runs, and the value it gives, if any. -/
def Call.body : Call → Api S (Option Json)
  | .fetchSecurityEvents params => some <$> Console.fetchSecurityEvents params
  | .fetchBlockedIPs => some <$> Console.fetchBlockedIPs
  | .blockIP params => some <$> Console.blockIP params
  | .unblockIP id => (fun _ => none) <$> Console.unblockIP id
  | .fetchAlertRules => some <$> Console.fetchAlertRules
  | .createAlertRule rule => some <$> Console.createAlertRule rule
  | .updateAlertRule id rule => some <$> Console.updateAlertRule id rule
  | .deleteAlertRule id => (fun _ => none) <$> Console.deleteAlertRule id

/-- A console with these stores, which has sent nothing yet. -/
def Page.init (auth : AuthStore) (monitor : MonitorStore) (server : S) : Page S where
  auth := auth
  stepUp := .init
  monitor := monitor
  leaving := false
  exchanges := []
  server := server

end Console
