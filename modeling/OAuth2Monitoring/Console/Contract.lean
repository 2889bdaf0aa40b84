import OAuth2Monitoring.Console.Api

/-!
# What the calls of the console do

One specification for each function of the API layer, and from these one for each call: what a
segment of the call sends, and what it changes in the monitor store.

## Main definitions

* `Sends`: the segment sends one request and awaits its response, or sends nothing.
* `Confirms`: the segment began with a response of success.
* `Call.spec`: the specification of a call.

## Main results

* `sat_fetchWithAuth_of`, `sat_checked`: the rules for `fetchWithAuth`, and for what is done with a
  response that has to be a success.
* `Call.sat`: every call satisfies its specification.
-/

namespace Console

open JsStd EventLoop

variable {S : Type}

/-- What a call was answered. -/
abbrev Past := List (Answered Wait.Value String)

/-- The answer the segment began with is a response of success. -/
def Confirms : Past → Prop
  | ⟨.response _, .ok response⟩ :: _ => okStatus response.status = true
  | _ => False

/-- The segment sends a request of `P` and awaits its response, or sends nothing. -/
def Sends (P : Request → Prop) (s₀ s : Page S) : Wait → Prop
  | .response r => r = s₀.exchanges.length ∧
      ∃ x, P x.request ∧ x.outcome = none ∧ s.exchanges = s₀.exchanges ++ [x]
  | _ => s.exchanges = s₀.exchanges

/-- A request was sent whose response is awaited, or none was sent. -/
theorem Sends.cases {P : Request → Prop} {s₀ s : Page S} {q : Wait} (h : Sends P s₀ s q) :
    s.exchanges = s₀.exchanges ∨
      q = .response s₀.exchanges.length ∧
        ∃ x, P x.request ∧ x.outcome = none ∧ s.exchanges = s₀.exchanges ++ [x] := by
  cases q with
  | response r =>
    obtain ⟨rfl, x, hx⟩ := h
    exact .inr ⟨rfl, x, hx⟩
  | _ => exact .inl h

/-- The request is the one for `url` with these options, whoever is signed in. -/
def IsRequest (url : Url) (options : RequestInit) (request : Request) : Prop :=
  ∃ auth, request = requestOf url options auth

/-- The value is the body of a reply. -/
def FromServer (s : Page S) (data : Json) : Prop :=
  ∃ x ∈ s.exchanges, ∃ reply, x.outcome = some (.ok reply) ∧ reply.body = some data

/-- What a call leaves in the monitor store at the end of a segment that does not end the call:
`m` at the end of the first segment, and later what it found. -/
def kept (m : MonitorStore) : Past → Page S → MonitorStore
  | [], _ => m
  | _ :: _, s₀ => s₀.monitor

/-! ## Requests -/

section

variable {url : Url} {options : RequestInit} {h : Past} {s₀ s : Page S} {m : MonitorStore}
  {α : Type} {T : Spec (Page S) Wait.Value String α}

/-- The rule for one request: what is left to show for each of its outcomes. -/
theorem sat_fetchOnce {T : Spec (Page S) Wait.Value String Response}
    (hwait : T.wait h s₀ (s.send (requestOf url options s.auth)) (.response s.exchanges.length))
    (hok : ∀ s₁ response, response.status ≠ 401 →
      T.done (⟨.response s.exchanges.length, .ok response⟩ :: h) s₁ s₁ (.ok response))
    (hout : ∀ (s₁ : Page S) response, response.status = 401 →
      T.done (⟨.response s.exchanges.length, .ok response⟩ :: h) s₁ s₁.signOut
        (.error "Session expired"))
    (herror : ∀ s₁ e, T.done (⟨.response s.exchanges.length, .error e⟩ :: h) s₁ s₁ (.error e)) :
    (fetchOnce url options).Sat settles T h s₀ s := by
  refine ⟨hwait, fun a s₁ _ => ?_⟩
  cases a with
  | error e => exact herror s₁ e
  | ok response =>
    show Async.Sat settles T (if response.status = 401 then _ else _) _ _ _
    -- a 401 signs the user out and throws; any other status is the answer
    by_cases h401 : response.status = 401
    · rw [if_pos h401]
      exact hout s₁ response h401
    · rw [if_neg h401]
      exact hok s₁ response h401

/-- Waiting for an elevation sends nothing and leaves the monitor store alone. -/
theorem sat_awaitElevation {T : Spec (Page S) Wait.Value String Unit} {s : Page S}
    (hwait : ∀ p, s.requestElevation.stepUp.pending = some p →
      T.wait h s₀ s.requestElevation (.elevation p))
    (hdone : ∀ p a s₁, s.requestElevation.stepUp.pending = some p →
      T.done (⟨.elevation p, a⟩ :: h) s₁ s₁ a) :
    awaitElevation.Sat settles T h s₀ s := by
  obtain ⟨p, hp⟩ := Option.isSome_iff_exists.mp (StepUpStore.pending_request s.stepUp)
  have hp' : s.requestElevation.stepUp.pending = some p := hp
  unfold awaitElevation
  simp only [Async.bind_eq, Async.modify, Async.read, Async.andThen_get, Async.andThen_set,
    Async.andThen_ret, Async.onOk_ok, Async.sat_get, Async.sat_set, hp']
  exact ⟨hwait p hp', fun a s₁ _ => hdone p a s₁ hp'⟩

/-- What is left to show of the `r`-th request, sent with the past `h`, when it is answered. The
status 403 does not end a call that was not answered before. -/
structure SatAnswered (T : Spec (Page S) Wait.Value String Response) (h : Past) (r : ℕ) : Prop where
  error : ∀ s e, T.done (⟨.response r, .error e⟩ :: h) s s (.error e)
  out : ∀ s response, response.status = 401 →
    T.done (⟨.response r, .ok response⟩ :: h) s s.signOut (.error "Session expired")
  ok : ∀ s response, response.status ≠ 401 → (h = [] → response.status ≠ 403) →
    T.done (⟨.response r, .ok response⟩ :: h) s s (.ok response)

/-- The rule for `fetchWithAuth`: what is left to show for each segment. -/
theorem sat_fetchWithAuth_of {T : Spec (Page S) Wait.Value String Response}
    (hsend : T.wait [] s₀ (s.send (requestOf url options s.auth)) (.response s.exchanges.length))
    (hfirst : SatAnswered T [] s.exchanges.length)
    (hjson : ∀ r s response, response.status = 403 →
      T.wait [⟨.response r, .ok response⟩] s s (.json response.request))
    (hreturn : ∀ r s response b, response.status = 403 →
      (∀ body, b = .ok body → elevationRequired body = false) →
      T.done [⟨.json response.request, b⟩, ⟨.response r, .ok response⟩] s s (.ok response))
    (hjoin : ∀ r s response body p, response.status = 403 → elevationRequired body = true →
      s.requestElevation.stepUp.pending = some p →
      T.wait [⟨.json response.request, .ok body⟩, ⟨.response r, .ok response⟩] s s.requestElevation
        (.elevation p))
    (hcancel : ∀ r s response body p e, T.done [⟨.elevation p, .error e⟩,
      ⟨.json response.request, .ok body⟩, ⟨.response r, .ok response⟩] s s (.error e))
    (hresend : ∀ r s response body p, T.wait [⟨.elevation p, .ok ()⟩,
      ⟨.json response.request, .ok body⟩, ⟨.response r, .ok response⟩] s
      (s.send (requestOf url options s.auth)) (.response s.exchanges.length))
    (hlast : ∀ r response body p r', SatAnswered T [⟨.elevation p, .ok ()⟩,
      ⟨.json response.request, .ok body⟩, ⟨.response r, .ok response⟩] r') :
    (fetchWithAuth url options false).Sat settles T [] s₀ s := by
  refine Async.Sat.andThen (sat_fetchOnce hsend (fun s₁ response h401 => ?_) hfirst.out
    hfirst.error)
  show Async.Sat settles _ (if response.status = 403 ∧ !false then _ else _) _ _ _
  -- only a 403 is looked into, and only the first time (`elevated` is not set yet)
  by_cases h403 : response.status = 403
  · rw [if_pos ⟨h403, rfl⟩]
    refine Async.Sat.andThen (Async.Sat.andThen ⟨hjson _ _ _ h403, fun b s₂ _ => ?_⟩)
    cases b with
    | error e =>
      -- a body that cannot be read counts as `null`, which asks for nothing
      exact hreturn _ _ _ _ h403 fun body hbody => by cases hbody
    | ok body =>
      show Async.Sat settles _ (if elevationRequired body then _ else _) _ _ _
      by_cases hbody : elevationRequired body = true
      · rw [if_pos hbody]
        refine Async.Sat.andThen (sat_awaitElevation
          (fun p hp => hjoin _ _ _ _ p h403 hbody hp) fun p a s₃ _ => ?_)
        cases a with
        | error e => exact hcancel _ _ _ _ p e
        | ok _ =>
          exact sat_fetchOnce (hresend _ _ _ _ p)
            (fun s₄ response' h401' => (hlast _ _ _ p _).ok s₄ response' h401' nofun)
            (hlast _ _ _ p _).out (hlast _ _ _ p _).error
      · rw [if_neg hbody]
        refine hreturn _ _ _ _ h403 fun body' hbody' => ?_
        obtain rfl := Except.ok.inj hbody'
        exact Bool.eq_false_iff.mpr hbody
  · rw [if_neg fun h => h403 h.1]
    exact hfirst.ok s₁ response h401 fun _ => h403

/-- How `fetchWithAuth` ends: the monitor store is left alone, nothing more is sent, and the
response is a success exactly when the segment began with one. -/
def FetchEnds (h : Past) (s₀ s : Page S) (r : Except String Response) : Prop :=
  h ≠ [] ∧ s.monitor = s₀.monitor ∧ s.exchanges = s₀.exchanges ∧
    (Confirms h ↔ ∃ response, r = .ok response ∧ okStatus response.status = true)

/-- `fetchWithAuth`: it sends nothing but its request, and a response of success ends it. -/
def fetchSpec (url : Url) (options : RequestInit) (m : MonitorStore) :
    Spec (Page S) Wait.Value String Response where
  wait h s₀ s q := s.monitor = kept m h s₀ ∧ Sends (IsRequest url options) s₀ s q ∧ ¬Confirms h
  done := FetchEnds

theorem sends_send {s₀ s : Page S} (h : s.exchanges = s₀.exchanges) :
    Sends (IsRequest url options) s₀ (s.send (requestOf url options s.auth))
      (.response s.exchanges.length) :=
  ⟨by rw [h], _, ⟨s.auth, rfl⟩, rfl, by rw [← h]; rfl⟩

theorem not_okStatus {status : ℕ} (h : status = 401 ∨ status = 403) : okStatus status ≠ true := by
  rcases h with rfl | rfl <;> decide

/-- An activation that did not begin its segment with a success ends without one. -/
theorem fetchEnds_error {h : Past} {s₀ s : Page S} {e : String} (h₀ : h ≠ [])
    (hh : ¬Confirms h) (hm : s.monitor = s₀.monitor) (hx : s.exchanges = s₀.exchanges) :
    FetchEnds h s₀ s (.error e) := by
  refine ⟨h₀, hm, hx, iff_of_false hh ?_⟩
  rintro ⟨_, hr, -⟩
  cases hr

/-- The response that began the segment is returned. -/
theorem fetchEnds_ok {h : Past} {s₀ : Page S} {r : ℕ} {response : Response} :
    FetchEnds (⟨.response r, .ok response⟩ :: h) s₀ s₀ (.ok response) := by
  refine ⟨List.cons_ne_nil _ _, rfl, rfl, fun hok => ⟨response, rfl, hok⟩, ?_⟩
  rintro ⟨_, hr, hok⟩
  cases hr
  exact hok

theorem satAnswered_fetchSpec (h : Past) (r : ℕ) :
    SatAnswered (fetchSpec (S := S) url options m) h r where
  error _ _ := fetchEnds_error (List.cons_ne_nil _ _) id rfl rfl
  out _ _ h401 := fetchEnds_error (List.cons_ne_nil _ _) (not_okStatus (.inl h401)) rfl rfl
  ok _ _ _ _ := fetchEnds_ok

/-- What a call of `fetchWithAuth` does to the page. -/
theorem sat_fetchWithAuth (hm : s.monitor = m) (hx : s.exchanges = s₀.exchanges) :
    (fetchWithAuth url options false).Sat settles (fetchSpec url options m) [] s₀ s := by
  refine sat_fetchWithAuth_of ⟨hm, sends_send hx, id⟩ (satAnswered_fetchSpec _ _)
    (fun _ _ _ h403 => ⟨rfl, rfl, not_okStatus (.inr h403)⟩) ?_
    (fun _ _ _ _ _ _ _ _ => ⟨rfl, rfl, id⟩)
    (fun _ _ _ _ _ _ => fetchEnds_error (List.cons_ne_nil _ _) id rfl rfl)
    (fun _ _ _ _ _ => ⟨rfl, sends_send rfl, id⟩) fun _ _ _ _ _ => satAnswered_fetchSpec _ _
  -- a 403 that asks for nothing is no success
  refine fun r s response b h403 _ => ⟨List.cons_ne_nil _ _, rfl, rfl, iff_of_false id ?_⟩
  rintro ⟨_, hr, hok⟩
  cases hr
  exact not_okStatus (.inr h403) hok

end

/-- A request whose response has to be a success, and what is done then. Whoever throws, be it
`fetchWithAuth` or the check of the status, the segment did not begin with a success. -/
theorem sat_checked {α : Type} {url : Url} {options : RequestInit} {failure : String}
    {s₀ s : Page S} {W : Spec (Page S) Wait.Value String Response}
    {T : Spec (Page S) Wait.Value String α} {t : Response → Api S α}
    (hfetch : (fetchWithAuth url options false).Sat settles W [] s₀ s)
    (hwait : ∀ h s₀ s q, W.wait h s₀ s q → T.wait h s₀ s q)
    (hends : ∀ h s₀ s r, W.done h s₀ s r → FetchEnds h s₀ s r)
    (hthrow : ∀ h s₁ s₂ e, h ≠ [] → s₂.monitor = s₁.monitor → s₂.exchanges = s₁.exchanges →
      ¬Confirms h → T.done h s₁ s₂ (.error e))
    (ht : ∀ h s₁ s₂ response, h ≠ [] → s₂.monitor = s₁.monitor → s₂.exchanges = s₁.exchanges →
      Confirms h → (t response).Sat settles T h s₁ s₂) :
    Async.Sat settles T (do
      let response ← fetchWithAuth url options false
      if !okStatus response.status then Async.throw failure else t response) [] s₀ s := by
  refine Async.Sat.andThen (hfetch.mono hwait fun h s₁ s₂ r hr => ?_)
  obtain ⟨h₀, hm, hx, hconfirms⟩ := hends h s₁ s₂ r hr
  cases r with
  -- the fetch threw, so no response confirms the call
  | error e =>
    refine hthrow h s₁ s₂ e h₀ hm hx fun hh => ?_
    obtain ⟨_, hr, -⟩ := hconfirms.mp hh
    cases hr
  | ok response =>
    show Async.Sat settles _ (if !okStatus response.status then _ else _) _ _ _
    by_cases hok : okStatus response.status = true
    · rw [hok, Bool.not_true, if_neg Bool.false_ne_true]
      exact ht h s₁ s₂ response h₀ hm hx (hconfirms.mpr ⟨response, rfl, hok⟩)
    · rw [Bool.eq_false_iff.mpr hok, Bool.not_false, if_pos rfl]
      -- a status that is no success is thrown as the failure of the call
      refine hthrow h s₁ s₂ failure h₀ hm hx fun hh => ?_
      obtain ⟨_, hr, hok'⟩ := hconfirms.mp hh
      cases hr
      exact hok hok'

/-! ## The shapes of the calls -/

section

variable {url : Url} {options : RequestInit} {s₀ s : Page S} {m : MonitorStore}

/-- What every call does until it ends: it sends nothing but its requests, and the monitor store
stays as the call's first segment left it or as a later one found it. -/
def Goes (P : Request → Prop) (m : MonitorStore) (h : Past) (s₀ s : Page S) (q : Wait) : Prop :=
  s.monitor = kept m h s₀ ∧ Sends P s₀ s q

/-- `fetchJson`: the value is the body of a reply. -/
def jsonSpec (url : Url) (options : RequestInit) (m : MonitorStore) :
    Spec (Page S) Wait.Value String Json where
  wait := Goes (IsRequest url options) m
  done h s₀ s r := h ≠ [] ∧ s.monitor = s₀.monitor ∧ s.exchanges = s₀.exchanges ∧
    ∀ data, r = .ok data → FromServer s₀ data

/-- A body that is read is one the server gave. -/
theorem fromServer_of_settles {s : Page S} {r : ℕ} {data : Json}
    (h : settles s (.json r) (.ok data)) : FromServer s data := by
  obtain ⟨x, reply, hx, hreply, hbody⟩ := h
  refine ⟨x, List.mem_of_getElem? hx, reply, hreply, ?_⟩
  -- a body that is no JSON makes the promise reject
  cases hb : reply.body with
  | none =>
    rw [hb] at hbody
    obtain ⟨e, he⟩ := hbody
    cases he
  | some v =>
    rw [hb] at hbody
    cases hbody
    rfl

/-- What a call of `fetchJson` does to the page. -/
theorem sat_fetchJson {failure : String} (hm : s.monitor = m) (hx : s.exchanges = s₀.exchanges) :
    (fetchJson url options failure).Sat settles (jsonSpec url options m) [] s₀ s := by
  refine sat_checked (sat_fetchWithAuth hm hx) (fun _ _ _ _ hw => ⟨hw.1, hw.2.1⟩)
    (fun _ _ _ _ => id) (fun _ _ _ _ h₀ hm₂ hx₂ _ => ⟨h₀, hm₂, hx₂, nofun⟩)
    fun h s₁ s₂ response h₀ hm₂ hx₂ _ => ?_
  -- the body is awaited, and its value comes from the server that settles it
  obtain ⟨a, h', rfl⟩ := List.exists_cons_of_ne_nil h₀
  refine ⟨⟨hm₂, hx₂⟩, fun a s₃ ha => ⟨List.cons_ne_nil _ _, rfl, rfl, fun data hdata => ?_⟩⟩
  subst hdata
  exact fromServer_of_settles ha

/-- `store` changes the monitor store by `f`, without awaiting anything. -/
def Stores (store : Json → Api S Unit) (f : Json → MonitorStore → Except String MonitorStore) :
    Prop :=
  ∀ (T : Spec (Page S) Wait.Value String Unit) data h s₀ s,
    (∀ m, f data s.monitor = .ok m → T.done h s₀ { s with monitor := m } (.ok ())) →
    (∀ e, f data s.monitor = .error e → T.done h s₀ s (.error e)) →
    (store data).Sat settles T h s₀ s

/-- A change of the store is what it is. -/
theorem stores_modifyMonitor (f : Json → MonitorStore → Except String MonitorStore) :
    Stores (S := S) (fun data => modifyMonitor (f data)) f := by
  intro T data h s₀ s hok herror
  unfold modifyMonitor
  rw [Async.sat_get]
  cases hf : f data s.monitor with
  | ok m => exact hok m hf
  | error e => exact herror e hf

/-- What `fetchSecurityEvents` stores. -/
def storedEvents (data : Json) (m : MonitorStore) : Except String MonitorStore := do
  let events ← data.get "events"
  let total ← data.get "total"
  return m.setSecurityEvents (Json.orFalsy events (.arr [])) (Json.orFalsy total (.num (text "0")))

/-- What `storeList` stores. -/
def storedList (name : String) (set : Json → MonitorStore → MonitorStore) (data : Json)
    (m : MonitorStore) : Except String MonitorStore := do
  let entries ← data.get name
  return set (Json.orFalsy entries (.arr [])) m

/-- Storing a list is what `storedList` says. -/
theorem stores_storeList (name : String) (set : Json → MonitorStore → MonitorStore) :
    Stores (S := S) (storeList name set) (storedList name set) := by
  intro T data h s₀ s hok herror
  unfold storedList at hok herror
  unfold storeList getProp
  rw [Async.bind_eq, Async.andThen_ret]
  cases hget : data.get name with
  | error e =>
    rw [hget] at herror
    exact herror e rfl
  | ok entries =>
    rw [hget] at hok
    exact hok _ rfl

theorem stores_storeEvents : Stores (S := S) storeEvents storedEvents := by
  intro T data h s₀ s hok herror
  unfold storedEvents at hok herror
  unfold storeEvents getProp
  rw [Async.bind_eq, Async.andThen_ret]
  -- a property of `null` or `undefined` throws before the store is touched
  cases hevents : data.get "events" with
  | error e =>
    rw [hevents] at herror
    exact herror e rfl
  | ok events =>
    rw [hevents] at hok herror
    rw [Async.onOk_ok, Async.bind_eq, Async.andThen_ret]
    cases htotal : data.get "total" with
    | error e =>
      rw [htotal] at herror
      exact herror e rfl
    | ok total =>
      rw [htotal] at hok
      exact hok _ rfl

/-- Loading something under a flag: `f` is applied to the store when the call succeeds, and the
flag is cleared in either case. -/
def intoSpec (key : String) (url : Url) (f : Json → MonitorStore → Except String MonitorStore)
    (m : MonitorStore) : Spec (Page S) Wait.Value String Json where
  wait := Goes (IsRequest url {}) (m.setLoading key true)
  done h s₀ s r := h ≠ [] ∧ s.exchanges = s₀.exchanges ∧
    match r with
    | .ok data => FromServer s₀ data ∧
        ∃ m, f data s₀.monitor = .ok m ∧ s.monitor = m.setLoading key false
    | .error _ => s.monitor = s₀.monitor.setLoading key false

/-- What a load does to the page. -/
theorem sat_fetchInto {key failure : String} {store : Json → Api S Unit}
    {f : Json → MonitorStore → Except String MonitorStore} (hstore : Stores store f) :
    (fetchInto key url failure store).Sat settles (intoSpec key url f s.monitor) [] s s := by
  -- the first segment sets the flag before it sends the request
  have hjson : (fetchJson url {} failure).Sat settles
      (jsonSpec url {} (s.monitor.setLoading key true)) [] s
      { s with monitor := s.monitor.setLoading key true } :=
    sat_fetchJson rfl rfl
  show Async.Sat settles _ (Async.tryFinally _ _) [] s _
  refine Async.Sat.andThen (Async.Sat.andThen ?_)
  refine hjson.mono (fun _ _ _ _ hw => hw) fun h s₁ s₂ r hr => ?_
  obtain ⟨h₀, hm, hx, hdata⟩ := hr
  cases r with
  | error e =>
    refine ⟨h₀, hx, ?_⟩
    show s₂.monitor.setLoading key false = s₁.monitor.setLoading key false
    rw [hm]
  | ok data =>
    refine Async.Sat.andThen (hstore _ data h s₁ s₂ (fun m hf => ?_) fun e hf => ?_)
    · rw [hm] at hf
      exact ⟨h₀, hx, hdata data rfl, m, hf, rfl⟩
    · refine ⟨h₀, hx, ?_⟩
      show s₂.monitor.setLoading key false = s₁.monitor.setLoading key false
      rw [hm]

/-- Sending an entry: `f` is applied to the store when the call succeeds. -/
def sendSpec (url : Url) (options : RequestInit)
    (f : Json → MonitorStore → Except String MonitorStore) (m : MonitorStore) :
    Spec (Page S) Wait.Value String Json where
  wait := Goes (IsRequest url options) m
  done h s₀ s r := h ≠ [] ∧ s.exchanges = s₀.exchanges ∧
    match r with
    | .ok data => FromServer s₀ data ∧ f data s₀.monitor = .ok s.monitor
    | .error _ => s.monitor = s₀.monitor

/-- What sending an entry does to it. -/
theorem sat_sendEntry {method failure : String} {entry : Json}
    {f : Json → MonitorStore → Except String MonitorStore} :
    (sendEntry url method entry failure f).Sat settles
      (sendSpec url { method := some (text method), body := some entry } f s.monitor) [] s s := by
  refine Async.Sat.andThen ((sat_fetchJson rfl rfl).mono (fun _ _ _ _ hw => hw)
    fun h s₁ s₂ r hr => ?_)
  obtain ⟨h₀, hm, hx, hdata⟩ := hr
  cases r with
  | error e => exact ⟨h₀, hx, hm⟩
  | ok data =>
    -- the change may throw on what the store holds by then; the entry has been sent all the same
    refine Async.Sat.andThen (stores_modifyMonitor f _ data h s₁ s₂ (fun m hf => ?_)
      fun e hf => ⟨h₀, hx, hm⟩)
    rw [hm] at hf
    exact ⟨h₀, hx, hdata data rfl, hf⟩

/-- Deleting an entry: the call succeeds, and `f` is applied to the store, in a segment that begins
with the confirmation and in which `f` does not throw. -/
def deleteSpec (url : Url) (f : MonitorStore → Except String MonitorStore) (m : MonitorStore) :
    Spec (Page S) Wait.Value String Unit where
  wait h s₀ s q := Goes (IsRequest url { method := some (text "DELETE") }) m h s₀ s q ∧ ¬Confirms h
  done h s₀ s r := h ≠ [] ∧ s.exchanges = s₀.exchanges ∧
    match r with
    | .ok () => Confirms h ∧ f s₀.monitor = .ok s.monitor
    | .error _ => s.monitor = s₀.monitor ∧ (Confirms h → ∃ e, f s₀.monitor = .error e)

/-- What deleting an entry does to it. -/
theorem sat_deleteEntry {failure : String} {f : MonitorStore → Except String MonitorStore} :
    (deleteEntry url failure f).Sat settles (deleteSpec url f s.monitor) [] s s := by
  refine sat_checked (sat_fetchWithAuth rfl rfl) (fun _ _ _ _ hw => ⟨⟨hw.1, hw.2.1⟩, hw.2.2⟩)
    (fun _ _ _ _ => id) (fun _ _ _ _ h₀ hm hx hnot => ⟨h₀, hx, hm, fun hh => absurd hh hnot⟩)
    fun h s₁ s₂ response h₀ hm hx hh => ?_
  refine stores_modifyMonitor (fun _ => f) _ .null h s₁ s₂ (fun m hf => ?_) fun e hf => ?_
  · rw [hm] at hf
    exact ⟨h₀, hx, hh, hf⟩
  · -- it was confirmed, and `f` throws
    rw [hm] at hf
    exact ⟨h₀, hx, hm, fun _ => ⟨e, hf⟩⟩

end

/-! ## The calls -/

/-- The address and the options of a call's request. -/
def Call.url : Call → Url
  | .fetchSecurityEvents params => ⟨text "/api/admin/security/events", searchParams params⟩
  | .fetchBlockedIPs | .blockIP _ => ⟨blockedIPsPath, []⟩
  | .unblockIP id => ⟨entryPath blockedIPsPath id, []⟩
  | .fetchAlertRules | .createAlertRule _ => ⟨alertRulesPath, []⟩
  | .updateAlertRule id _ | .deleteAlertRule id => ⟨entryPath alertRulesPath id, []⟩

/-- The options of the request of a call. -/
def Call.options : Call → RequestInit
  | .fetchSecurityEvents _ | .fetchBlockedIPs | .fetchAlertRules => {}
  | .blockIP entry | .createAlertRule entry =>
    { method := some (text "POST"), body := some entry }
  | .updateAlertRule _ rule => { method := some (text "PUT"), body := some rule }
  | .unblockIP _ | .deleteAlertRule _ => { method := some (text "DELETE") }

/-- What a call may do, made when the monitor store was `m`. -/
def Call.spec (m : MonitorStore) : Call → Spec (Page S) Wait.Value String (Option Json)
  | .fetchSecurityEvents params =>
    (intoSpec "events" (Call.fetchSecurityEvents params).url storedEvents m).map some
  | .fetchBlockedIPs =>
    (intoSpec "blockedIPs" Call.fetchBlockedIPs.url
      (storedList "blocked_ips" MonitorStore.setBlockedIPs) m).map some
  | .blockIP entry =>
    (sendSpec (Call.blockIP entry).url (Call.blockIP entry).options MonitorStore.addBlockedIP
      m).map some
  | .unblockIP id =>
    (deleteSpec (Call.unblockIP id).url (MonitorStore.removeBlockedIP id) m).map fun _ => none
  | .fetchAlertRules =>
    (intoSpec "alertRules" Call.fetchAlertRules.url
      (storedList "rules" MonitorStore.setAlertRules) m).map some
  | .createAlertRule rule =>
    (sendSpec (Call.createAlertRule rule).url (Call.createAlertRule rule).options
      MonitorStore.addAlertRule m).map some
  | .updateAlertRule id rule =>
    (sendSpec (Call.updateAlertRule id rule).url (Call.updateAlertRule id rule).options
      MonitorStore.updateAlertRule m).map some
  | .deleteAlertRule id =>
    (deleteSpec (Call.deleteAlertRule id).url (MonitorStore.removeAlertRule id) m).map fun _ => none

/-- Every call does what its specification says. -/
theorem Call.sat (j : Call) (s : Page S) : j.body.Sat settles (j.spec s.monitor) [] s s := by
  cases j with
  | fetchSecurityEvents params => exact (sat_fetchInto stores_storeEvents).map some
  | fetchBlockedIPs => exact (sat_fetchInto (stores_storeList _ _)).map some
  | blockIP entry => exact sat_sendEntry.map some
  | unblockIP id => exact sat_deleteEntry.map fun _ => none
  | fetchAlertRules => exact (sat_fetchInto (stores_storeList _ _)).map some
  | createAlertRule rule => exact sat_sendEntry.map some
  | updateAlertRule id rule => exact sat_sendEntry.map some
  | deleteAlertRule id => exact sat_deleteEntry.map fun _ => none

/-- The monitor store as a call's first segment leaves it. -/
def Call.begun (m : MonitorStore) : Call → MonitorStore
  | .fetchSecurityEvents _ => m.setLoading "events" true
  | .fetchBlockedIPs => m.setLoading "blockedIPs" true
  | .fetchAlertRules => m.setLoading "alertRules" true
  | _ => m

section

variable {j : Call} {m : MonitorStore} {h : Past} {s₀ s : Page S} {q : Wait}
  {r : Except String (Option Json)}

/-- Until it ends, a call sends its request and leaves the monitor store as it began. -/
theorem Call.goes (hw : (j.spec m).wait h s₀ s q) :
    Goes (IsRequest j.url j.options) (j.begun m) h s₀ s q := by
  cases j with
  | unblockIP | deleteAlertRule => exact hw.1
  | _ => exact hw

/-- A call does not end in its first segment, and sends nothing in its last one. -/
theorem Call.done_sends (hd : (j.spec m).done h s₀ s r) :
    h ≠ [] ∧ s.exchanges = s₀.exchanges := by
  cases j <;> exact ⟨hd.choose_spec.2.1, hd.choose_spec.2.2.1⟩

/-- A call ends its first segment waiting for the response to its request. -/
theorem Call.first_waits {p : Pause (Page S) Wait.Value String (Option Json)}
    (hp : p.Admits (j.spec m) [] s₀ s) : p.Waits ∧ s.monitor = j.begun m := by
  cases p with
  | settled r => exact absurd rfl (Call.done_sends hp).1
  | waiting q k => exact ⟨trivial, (Call.goes hp).1⟩

/-- A later segment that does not end the call leaves the monitor store alone. -/
theorem Call.later_waits {a : Answered Wait.Value String} (hw : (j.spec m).wait (a :: h) s₀ s q) :
    s.monitor = s₀.monitor :=
  (Call.goes hw).1

end

/-! ## Runs -/

/-- A console: the page, and the calls made so far. -/
abbrev State (S : Type) := Loop (Page S) Call Wait.Value String (Option Json)

/-- What a step of a console does. -/
abbrev Move := Label Call Event Wait.Value String

/-- The consoles a run from the page `p` passes through, each step meeting `C`. -/
abbrev Run (srv : Server S) (C : State S → Move → Prop) (p : Page S) : State S → Prop :=
  Reachable Call.body settles srv.happens C p

/-- An activation of a console. -/
abbrev Activation (S : Type) := Act (Page S) Call Wait.Value String (Option Json)

/-- The step resumes the activation `act` with the answer `a`, and its segment ends in `p`. -/
def Resumes (L : State S) (i : ℕ) (a : Answered Wait.Value String) (act : Activation S)
    (p : Pause (Page S) Wait.Value String (Option Json)) : Prop :=
  L.acts[i]? = some act ∧
    ∃ k, act.pause = .waiting a.asked k ∧ ((k a.answer).run L.shared).2 = p

/-! ## Playing a run -/

/-- A signed-in page that has loaded nothing. -/
def Page.fresh (server : S) : Page S :=
  .init { authenticated := true, user := none, csrf := none } .init server

/-- The `i`-th activation is answered with what there is. -/
def State.resumed (L : State S) (i : ℕ) : State S := L.answered i (answerOf L.shared)

/-- The server replies to the `r`-th request, and is in the state `v` then. -/
def State.replied (L : State S) (r : ℕ) (v : S) (o : Except String Reply) : State S :=
  { L with shared := L.shared.served r v o }

section

variable {ι α : Type} {body : ι → Api S α} {srv : Server S} {p : Page S}
  {C : Loop (Page S) ι Wait.Value String α → Label ι Event Wait.Value String → Prop}
  {L : Loop (Page S) ι Wait.Value String α}

/-- Any functions of the page: one of them is answered with what there is, or the server replies. -/
theorem reachable_resumed (hL : Reachable body settles srv.happens C p L) (i : ℕ)
    (hq : (L.question i).any (hasAnswer L.shared) = true) (hC : ∀ a, C L (.resume i a)) :
    Reachable body settles srv.happens C p (L.answered i (answerOf L.shared)) := by
  cases h : L.question i with
  | none =>
    rw [h] at hq
    cases hq
  | some q =>
    rw [h] at hq
    exact hL.answered i _ h (settles_answerOf hq) (hC _)

theorem reachable_replied (hL : Reachable body settles srv.happens C p L) (r : ℕ) (v : S)
    (o : Except String Reply) {x : Exchange} (hx : L.shared.exchanges[r]? = some x)
    (hopen : x.outcome = none) (hserve : srv.serve L.shared.server x.request v o)
    (hC : C L (.env (.serve r o))) :
    Reachable body settles srv.happens C p { L with shared := L.shared.served r v o } :=
  hL.happened _ (Server.happens_served hx hopen hserve) hC

end

section

variable {srv : Server S} {C : State S → Move → Prop} {p : Page S} {L : State S}

/-- A call whose answer is there may go on. -/
theorem Run.resumed (hL : Run srv C p L) (i : ℕ)
    (hq : (L.question i).any (hasAnswer L.shared) = true) (hC : ∀ a, C L (.resume i a)) :
    Run srv C p (State.resumed L i) :=
  reachable_resumed hL i hq hC

/-- The server may answer a request that is open. -/
theorem Run.replied (hL : Run srv C p L) (r : ℕ) (v : S) (o : Except String Reply)
    {x : Exchange} (hx : L.shared.exchanges[r]? = some x) (hopen : x.outcome = none)
    (hserve : srv.serve L.shared.server x.request v o) (hC : ∀ e, C L (.env e)) :
    Run srv C p (State.replied L r v o) :=
  reachable_replied hL r v o hx hopen hserve (hC _)

end

end Console
