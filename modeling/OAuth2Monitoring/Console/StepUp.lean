import OAuth2Monitoring.Console.Contract

/-!
# Step-up of concurrent requests

Any number of calls of `fetchWithAuth` over one step-up store, with any server, the dialog being
completed or cancelled at any time. A call whose request is refused for want of an elevation joins
the dialog that is open, or opens one, and sends its request once more when the dialog is completed.

## Main definitions

* `Fetch`, `Fetch.spec`: a call, and what each of its segments does.
* `Carries`: a request is the one of a call, with the tokens of a time.
* `Course`: how far a call has come.
* `closing`: what the first completion or cancellation among some steps does to the open promise.

## Main results

* `fetches_of_run`: what holds of the store and of every call in every run.
-/

namespace Console

open JsStd EventLoop

variable {S : Type}

/-! ## Calls -/

/-- A call of `fetchWithAuth`. -/
structure Fetch where
  /-- Where it goes. -/
  url : Url
  /-- The method, the body and the headers it asks for. -/
  options : RequestInit

/-- What the call runs. -/
def Fetch.body (j : Fetch) : Api S Response := fetchWithAuth j.url j.options false

/-- An activation, a console with its calls, and what a step of it does. -/
abbrev Fetching (S : Type) := Act (Page S) Fetch Wait.Value String Response

/-- The loop of a page whose calls are all of `fetchWithAuth`. -/
abbrev Fetches (S : Type) := Loop (Page S) Fetch Wait.Value String Response

/-- The labels of its steps. -/
abbrev FetchMove := Label Fetch Event Wait.Value String

/-- The segment sends the request of the call, as it is at that time, and awaits its response. -/
def Fetch.Resends (j : Fetch) (s₀ s : Page S) (r : ℕ) : Prop :=
  s = s₀.send (requestOf j.url j.options s₀.auth) ∧ r = s₀.exchanges.length

/-- A segment that leaves the requests and the step-up store alone. -/
def LeavesRequests (s₀ s : Page S) : Prop := s.exchanges = s₀.exchanges ∧ s.stepUp = s₀.stepUp

/-- What each segment of a call does, by what the call was answered before. -/
def Fetch.spec (j : Fetch) : Spec (Page S) Wait.Value String Response where
  wait h s₀ s q :=
    match h, q with
    | [], .response r => j.Resends s₀ s r
    | [⟨.response _, _⟩], .json _ => s = s₀
    | [⟨.json _, .ok body⟩, ⟨.response _, _⟩], .elevation p =>
      elevationRequired body = true ∧ s = s₀.requestElevation ∧ s.stepUp.pending = some p
    | [⟨.elevation _, .ok _⟩, ⟨.json _, _⟩, ⟨.response _, _⟩], .response r => j.Resends s₀ s r
    | _, _ => False
  done h s₀ s r :=
    match h with
    | [⟨.response _, _⟩] => LeavesRequests s₀ s
    | [⟨.json _, a⟩, ⟨.response _, _⟩] =>
      s = s₀ ∧ ∀ body, a = .ok body → elevationRequired body = false
    | [⟨.elevation _, .error e⟩, ⟨.json _, _⟩, ⟨.response _, _⟩] => s = s₀ ∧ r = .error e
    | [⟨.response _, _⟩, ⟨.elevation _, .ok _⟩, ⟨.json _, _⟩, ⟨.response _, _⟩] =>
      LeavesRequests s₀ s
    | _ => False

/-- Every call does what its specification says. -/
theorem Fetch.sat (j : Fetch) (s : Page S) : j.body.Sat settles j.spec [] s s := by
  refine sat_fetchWithAuth_of ⟨rfl, rfl⟩ ?_ (fun _ _ _ _ => rfl)
    (fun _ _ _ _ _ hbody => ⟨rfl, hbody⟩) (fun _ _ _ _ _ _ hbody hp => ⟨hbody, rfl, hp⟩)
    (fun _ _ _ _ _ _ => ⟨rfl, rfl⟩) (fun _ _ _ _ _ => ⟨rfl, rfl⟩) fun _ _ _ _ _ => ?_
  · exact ⟨fun _ _ => ⟨rfl, rfl⟩, fun _ _ _ => ⟨rfl, rfl⟩, fun _ _ _ _ => ⟨rfl, rfl⟩⟩
  · exact ⟨fun _ _ => ⟨rfl, rfl⟩, fun _ _ _ => ⟨rfl, rfl⟩, fun _ _ _ _ => ⟨rfl, rfl⟩⟩

/-- What a segment of a call does to the requests and to the step-up store. -/
theorem Fetch.effect {j : Fetch} {h : Past} {s₀ s : Page S}
    {p : Pause (Page S) Wait.Value String Response} (hp : p.Admits j.spec h s₀ s) :
    LeavesRequests s₀ s ∨
      (j.Resends s₀ s s₀.exchanges.length ∧ p.asks = some (.response s₀.exchanges.length)) ∨
      s = s₀.requestElevation := by
  cases p with
  | settled r =>
    -- a call that ends leaves requests and dialog alone
    unfold Pause.Admits Fetch.spec at hp
    dsimp only at hp
    split at hp
    · exact .inl hp
    · obtain ⟨rfl, -⟩ := hp
      exact .inl ⟨rfl, rfl⟩
    · obtain ⟨rfl, -⟩ := hp
      exact .inl ⟨rfl, rfl⟩
    · exact .inl hp
    · exact hp.elim
  | waiting q k =>
    unfold Pause.Admits Fetch.spec at hp
    dsimp only at hp
    split at hp
    · obtain ⟨hs, rfl⟩ := hp
      exact .inr (.inl ⟨⟨hs, rfl⟩, rfl⟩)
    · subst hp
      exact .inl ⟨rfl, rfl⟩
    · exact .inr (.inr hp.2.1)
    · obtain ⟨hs, rfl⟩ := hp
      exact .inr (.inl ⟨⟨hs, rfl⟩, rfl⟩)
    · exact hp.elim

/-- A call that comes to wait for an elevation waits for the pending one. -/
theorem Fetch.pending_of_waits {j : Fetch} {h : Past} {s₀ s : Page S} {p : ℕ}
    (hw : j.spec.wait h s₀ s (.elevation p)) : s.stepUp.pending = some p := by
  unfold Fetch.spec at hw
  dsimp only at hw
  split at hw
  · next hq => cases hq
  · next hq => cases hq
  · next hq =>
    cases hq
    exact hw.2.2
  · next hq => cases hq
  · exact hw.elim

/-! ## Pages over time -/

/-- What stays of a page: requests that were sent, promises that were made, and their outcomes. -/
structure Later (s s' : Page S) : Prop where
  /-- A request stays as it was sent. -/
  exchange : ∀ (r : ℕ) x, s.exchanges[r]? = some x →
    ∃ x', s'.exchanges[r]? = some x' ∧ x'.request = x.request ∧ x'.auth = x.auth
  /-- No promise is unmade. -/
  made : s.stepUp.promises.length ≤ s'.stepUp.promises.length
  /-- A settled promise stays settled as it is. -/
  settled : ∀ (p : ℕ) a, s.stepUp.promises[p]? = some (some a) →
    s'.stepUp.promises[p]? = some (some a)

section

variable {s s' : Page S}

theorem later_of_leaves (h : LeavesRequests s s') : Later s s' := by
  obtain ⟨hx, hu⟩ := h
  refine ⟨fun r x hr => ⟨x, by rw [hx, hr], rfl, rfl⟩, by rw [hu], fun p a hp => by rw [hu, hp]⟩

theorem later_send (s : Page S) (request : Request) : Later s (s.send request) := by
  refine ⟨fun r x hr => ⟨x, ?_, rfl, rfl⟩, Nat.le_refl _, fun p a hp => hp⟩
  obtain ⟨hlt, -⟩ := List.getElem?_eq_some_iff.mp hr
  exact (List.getElem?_append_left hlt).trans hr

theorem later_requestElevation (s : Page S) : Later s s.requestElevation := by
  refine ⟨fun r x hr => ⟨x, hr, rfl, rfl⟩, ?_, fun p a hp => ?_⟩
  · have hlen := StepUpStore.length_promises_request s.stepUp
    show s.stepUp.promises.length ≤ s.stepUp.request.promises.length
    rw [hlen]
    split <;> omega
  · obtain ⟨hlt, -⟩ := List.getElem?_eq_some_iff.mp hp
    exact (StepUpStore.getElem?_promises_request hlt).trans hp

/-- A segment of a call leads to a later page. -/
theorem later_of_effect {j : Fetch} {h : Past} {p : Pause (Page S) Wait.Value String Response}
    (hp : p.Admits j.spec h s s') : Later s s' := by
  rcases Fetch.effect hp with h | ⟨⟨rfl, -⟩, -⟩ | rfl
  · exact later_of_leaves h
  · exact later_send s _
  · exact later_requestElevation s

theorem later_settleCell (cell : Option ℕ) (a : Except String Unit) (s : Page S) : Later s
    { s with
      stepUp := (StepUpStore.settleCell cell a { s.stepUp with visible := false }).reset } := by
  obtain ⟨hlen, hkeep⟩ := StepUpStore.settleCell_promises cell a { s.stepUp with visible := false }
  exact ⟨fun r x hr => ⟨x, hr, rfl, rfl⟩, hlen.ge, hkeep⟩

/-- An event changes no request, and no promise that is settled. -/
theorem later_of_happens {srv : Server S} {e : Event} (h : srv.happens s e s') : Later s s' := by
  cases e with
  | serve r o =>
    obtain ⟨x, v, hx, -, -, rfl⟩ := h
    refine ⟨fun r' x' hr' => ?_, Nat.le_refl _, fun _ _ hp => hp⟩
    obtain ⟨hlt, -⟩ := List.getElem?_eq_some_iff.mp hx
    -- a reply fills in the outcome: the request and its tokens are kept
    by_cases hr : r = r'
    · subst hr
      rw [hx, Option.some.injEq] at hr'
      subst hr'
      exact ⟨_, List.getElem?_set_self hlt, rfl, rfl⟩
    · exact ⟨x', by rw [List.getElem?_set_ne hr, hr'], rfl, rfl⟩
  | complete =>
    obtain rfl := h
    exact later_settleCell _ _ s
  | cancel =>
    obtain rfl := h
    exact later_settleCell _ _ s
  | identify auth =>
    obtain rfl := h
    exact later_of_leaves ⟨rfl, rfl⟩
  | drift =>
    obtain ⟨v, -, rfl⟩ := h
    exact later_of_leaves ⟨rfl, rfl⟩

/-- The cells of the store agree after a segment and after an event. -/
theorem wellFormed_of_effect {j : Fetch} {h : Past}
    {p : Pause (Page S) Wait.Value String Response} (hs : s.stepUp.WellFormed)
    (hp : p.Admits j.spec h s s') : s'.stepUp.WellFormed := by
  rcases Fetch.effect hp with ⟨-, hu⟩ | ⟨⟨rfl, -⟩, -⟩ | rfl
  · rwa [hu]
  · exact hs
  · exact hs.request

/-- What happens to the page keeps the store of the dialogs well formed. -/
theorem wellFormed_of_happens {srv : Server S} {e : Event} (hs : s.stepUp.WellFormed)
    (h : srv.happens s e s') : s'.stepUp.WellFormed := by
  -- only the two buttons of the dialog touch the store
  cases e with
  | serve r o =>
    obtain ⟨x, v, -, -, -, rfl⟩ := h
    exact hs
  | complete =>
    obtain rfl := h
    exact hs.complete.1
  | cancel =>
    obtain rfl := h
    exact hs.cancel.1
  | identify auth =>
    obtain rfl := h
    exact hs
  | drift =>
    obtain ⟨v, -, rfl⟩ := h
    exact hs

end

/-! ## The request of a call -/

/-- The request is the one of the call, sent with the tokens of `auth`. -/
structure Carries (j : Fetch) (auth : AuthStore) (request : Request) : Prop where
  /-- It goes where the call goes. -/
  url : request.url = j.url
  /-- It has the method of the call. -/
  method : request.method = j.options.method
  /-- It has the body of the call. -/
  body : request.body = j.options.body
  /-- The headers of the options are sent. -/
  given : ∀ name value, headerOf j.options.headers name = some value →
    headerOf request.headers name = some value
  /-- The body is announced as JSON, unless the options say otherwise. -/
  contentType : headerOf j.options.headers (text "Content-Type") = none →
    headerOf request.headers (text "Content-Type") = some (text "application/json")
  /-- Where the method changes state, the token of `auth` is sent. -/
  csrf : mutating j.options.method = true → ∀ token, auth.csrf = some token → token ≠ [] →
    headerOf j.options.headers (text "X-CSRF-Token") = none →
      headerOf request.headers (text "X-CSRF-Token") = some token
  /-- Where it does not, or there is no token, none is sent. -/
  unmarked : mutating j.options.method = false ∨ auth.csrf.getD [] = [] →
    headerOf j.options.headers (text "X-CSRF-Token") = none →
      headerOf request.headers (text "X-CSRF-Token") = none

/-- The headers of a request: those of the options, else the token, else the content type. -/
theorem headerOf_requestOf (url : Url) (options : RequestInit) (auth : AuthStore) (name : Text) :
    headerOf (requestOf url options auth).headers name =
      ((headerOf options.headers name).or
        (headerOf (if mutating options.method then auth.csrfHeaders else []) name)).or
        (headerOf [(text "Content-Type", text "application/json")] name) := by
  show headerOf ([_] ++ (_ ++ _)) name = _
  rw [headerOf_append, headerOf_append]

/-- What `fetchWithAuth` sends is the request of its call. -/
theorem carries_requestOf (j : Fetch) (auth : AuthStore) :
    Carries j auth (requestOf j.url j.options auth) where
  url := rfl
  method := rfl
  body := rfl
  given name value h := by rw [headerOf_requestOf, h, Option.some_or, Option.some_or]
  contentType h := by
    rw [headerOf_requestOf, h, Option.none_or]
    -- the header with the token has another name
    have hcsrf : headerOf (if mutating j.options.method then auth.csrfHeaders else [])
        (text "Content-Type") = none := by
      unfold AuthStore.csrfHeaders
      split
      · split <;> rfl
      · rfl
    rw [hcsrf, Option.none_or]
    rfl
  csrf hmutating token htoken hne h := by
    obtain ⟨c, rest, rfl⟩ := List.exists_cons_of_ne_nil hne
    rw [headerOf_requestOf, h, Option.none_or, if_pos hmutating, AuthStore.csrfHeaders, htoken]
    rfl
  unmarked hnone h := by
    rw [headerOf_requestOf, h, Option.none_or]
    have hcsrf : (if mutating j.options.method then auth.csrfHeaders else []) = [] := by
      rcases hnone with hsafe | htoken
      · exact if_neg (Bool.eq_false_iff.mp hsafe)
      · have : auth.csrfHeaders = [] := by
          unfold AuthStore.csrfHeaders
          split
          · rfl
          · rfl
          · next token hne hsome =>
            rw [hsome] at htoken
            exact absurd htoken hne
        rw [this, ite_self]
    rw [hcsrf]
    rfl

/-! ## The course of a call -/

/-- The `r`-th request is the one of the call, with the tokens of the time it was sent. -/
def Mine (s : Page S) (j : Fetch) (r : ℕ) : Prop :=
  ∃ x, s.exchanges[r]? = some x ∧ Carries j x.auth x.request

/-- How far the call has come: its request is sent; it is answered, and the call ends, or reads the
body; it ends with the response, or waits for an elevation; it ends when that is cancelled, or has
sent its request once more, and ends when that is answered. -/
inductive Course (s : Page S) (j : Fetch) :
    Past → Pause (Page S) Wait.Value String Response → Prop
  | sent {r : ℕ} {k} (hr : Mine s j r) : Course s j [] (.waiting (.response r) k)
  | replied {r : ℕ} {a o} (hr : Mine s j r) : Course s j [⟨.response r, a⟩] (.settled o)
  | refused {r r' : ℕ} {a k} (hr : Mine s j r) :
      Course s j [⟨.response r, a⟩] (.waiting (.json r') k)
  | returned {r r' : ℕ} {a b o} (hr : Mine s j r) :
      Course s j [⟨.json r', b⟩, ⟨.response r, a⟩] (.settled o)
  | joined {r r' p : ℕ} {a b k} (hr : Mine s j r) (hp : p < s.stepUp.promises.length) :
      Course s j [⟨.json r', b⟩, ⟨.response r, a⟩] (.waiting (.elevation p) k)
  | cancelled {r r' p : ℕ} {a b e} (hr : Mine s j r)
      (hp : s.stepUp.promises[p]? = some (some (.error e))) :
      Course s j [⟨.elevation p, .error e⟩, ⟨.json r', b⟩, ⟨.response r, a⟩] (.settled (.error e))
  | resent {r r' p q : ℕ} {a b k} (hr : Mine s j r)
      (hp : s.stepUp.promises[p]? = some (some (.ok ()))) (hq : Mine s j q) :
      Course s j [⟨.elevation p, .ok ()⟩, ⟨.json r', b⟩, ⟨.response r, a⟩]
        (.waiting (.response q) k)
  | ended {r r' p q : ℕ} {a b c o} (hr : Mine s j r)
      (hp : s.stepUp.promises[p]? = some (some (.ok ()))) (hq : Mine s j q) :
      Course s j [⟨.response q, c⟩, ⟨.elevation p, .ok ()⟩, ⟨.json r', b⟩, ⟨.response r, a⟩]
        (.settled o)

section

variable {s s' : Page S} {j : Fetch} {h : Past} {p : Pause (Page S) Wait.Value String Response}

/-- A request of a call stays one. -/
theorem Mine.later {r : ℕ} (hr : Mine s j r) (hs : Later s s') : Mine s' j r := by
  obtain ⟨x, hx, hrequest⟩ := hr
  obtain ⟨x', hx', hsame, hauth⟩ := hs.exchange r x hx
  exact ⟨x', hx', by rwa [hsame, hauth]⟩

/-- What other calls and the environment do leaves a call where it is. -/
theorem Course.later (hc : Course s j h p) (hs : Later s s') : Course s' j h p := by
  cases hc with
  | sent hr => exact .sent (hr.later hs)
  | replied hr => exact .replied (hr.later hs)
  | refused hr => exact .refused (hr.later hs)
  | returned hr => exact .returned (hr.later hs)
  | joined hr hp => exact .joined (hr.later hs) (hp.trans_le hs.made)
  | cancelled hr hp => exact .cancelled (hr.later hs) (hs.settled _ _ hp)
  | resent hr hp hq => exact .resent (hr.later hs) (hs.settled _ _ hp) (hq.later hs)
  | ended hr hp hq => exact .ended (hr.later hs) (hs.settled _ _ hp) (hq.later hs)

/-- The request that is sent again is one of the call. -/
theorem mine_of_resends {r : ℕ} (hr : j.Resends s s' r) : Mine s' j r := by
  obtain ⟨rfl, rfl⟩ := hr
  exact ⟨_, List.getElem?_concat_length, carries_requestOf j s.auth⟩

/-- The first segment of a call. -/
theorem Course.first (hp : p.Admits j.spec [] s s') : Course s' j [] p := by
  cases p with
  | settled r => exact hp.elim
  | waiting q k =>
    cases q with
    | response r => exact .sent (mine_of_resends hp)
    | json r => exact hp.elim
    | elevation p => exact hp.elim

/-- The next segment of a call, after an answer. -/
theorem Course.next {q : Wait} {k} {a : Except String q.Value} (hc : Course s j h (.waiting q k))
    (ha : settles s q a) (hp : p.Admits j.spec (⟨q, a⟩ :: h) s s') (hs : s'.stepUp.WellFormed) :
    Course s' j (⟨q, a⟩ :: h) p := by
  -- each stage awaits one question, and the specification leaves few ways on from its answer
  have hlater := later_of_effect hp
  cases hc with
  | sent hr =>
    cases p with
    | settled o => exact .replied (hr.later hlater)
    | waiting q k =>
      cases q with
      | json r => exact .refused (hr.later hlater)
      | _ => exact hp.elim
  | refused hr =>
    cases p with
    | settled o => exact .returned (hr.later hlater)
    | waiting q k =>
      cases q with
      | elevation p =>
        cases a with
        | error e => exact hp.elim
        | ok body =>
          obtain ⟨-, -, hpending⟩ := hp
          obtain ⟨hmade, -⟩ := List.getElem?_eq_some_iff.mp ((hs.open_iff p).mpr hpending)
          exact .joined (hr.later hlater) hmade
      | _ => cases a <;> exact hp.elim
  | joined hr hmade =>
    cases a with
    | error e =>
      cases p with
      | settled o =>
        obtain ⟨-, rfl⟩ := hp
        exact .cancelled (hr.later hlater) (hlater.settled _ _ ha)
      | waiting q k => exact hp.elim
    | ok _ =>
      cases p with
      | settled o => exact hp.elim
      | waiting q k =>
        cases q with
        | response r =>
          exact .resent (hr.later hlater) (hlater.settled _ _ ha) (mine_of_resends hp)
        | _ => exact hp.elim
  | resent hr hpromise hq =>
    cases p with
    | settled o =>
      exact .ended (hr.later hlater) (hlater.settled _ _ hpromise) (hq.later hlater)
    | waiting q k => cases q <;> exact hp.elim

end

/-! ## Runs -/

/-- The consoles that any run of such calls passes through. -/
abbrev FetchRun (srv : Server S) (p : Page S) : Fetches S → Prop :=
  Reachable Fetch.body settles srv.happens (fun _ _ => True) p

/-- What a call asked for, the last question first, and the requests among that. -/
def questions (act : Fetching S) : List Wait :=
  act.pause.asks.toList ++ act.past.map Answered.asked

/-- The request whose response is awaited. -/
def responseOf : Wait → Option ℕ
  | .response r => some r
  | _ => none

/-- The requests whose responses a call has awaited. -/
def requestsOf (act : Fetching S) : List ℕ := (questions act).filterMap responseOf

/-- The invariant of a run. -/
structure Orderly (L : Fetches S) : Prop where
  /-- The step-up store is well formed. -/
  store : L.shared.stepUp.WellFormed
  /-- Every call is on its course. -/
  course : ∀ act ∈ L.acts, Course L.shared act.job act.past act.pause
  /-- Every request is one of a call. -/
  covered : ∀ r < L.shared.exchanges.length, ∃ act ∈ L.acts, r ∈ requestsOf act

/-- A segment sends a request only to await its response. -/
theorem exchanges_of_effect {j : Fetch} {h : Past} {s s' : Page S}
    {p : Pause (Page S) Wait.Value String Response} (hp : p.Admits j.spec h s s') {r : ℕ}
    (hr : r < s'.exchanges.length) : r < s.exchanges.length ∨ p.asks = some (.response r) := by
  rcases Fetch.effect hp with ⟨hx, -⟩ | ⟨⟨rfl, -⟩, hasks⟩ | rfl
  · exact .inl (hx ▸ hr)
  · have hlen : r < s.exchanges.length + 1 := by simpa [Page.send] using hr
    rcases Nat.lt_succ_iff_lt_or_eq.mp hlen with hlt | rfl
    · exact .inl hlt
    · exact .inr hasks
  · exact .inl hr

/-- What happens to the page sends none. -/
theorem length_exchanges_of_happens {srv : Server S} {e : Event} {s s' : Page S}
    (h : srv.happens s e s') : s'.exchanges.length = s.exchanges.length := by
  cases e with
  | serve r o =>
    obtain ⟨x, v, -, -, -, rfl⟩ := h
    exact List.length_set
  | drift =>
    obtain ⟨v, -, rfl⟩ := h
    rfl
  | _ =>
    obtain rfl := h
    rfl

/-- A request that is asked for is one of the call's. -/
theorem mem_requestsOf {act : Fetching S} {r : ℕ} (h : act.pause.asks = some (.response r)) :
    r ∈ requestsOf act := by
  simp [requestsOf, questions, h, responseOf]

section

variable {srv : Server S} {auth : AuthStore} {monitor : MonitorStore} {server : S} {L : Fetches S}

/-- Every run is orderly. -/
theorem orderly_of_run (hL : FetchRun srv (.init auth monitor server) L) : Orderly L := by
  have hstart : Orderly (Loop.start (Page.init auth monitor server)) :=
    ⟨StepUpStore.wellFormed_init, fun _ hact => absurd hact List.not_mem_nil,
      fun _ hr => absurd hr (Nat.not_lt_zero _)⟩
  refine Reachable.invariant (S := fun j _ => j.spec) Fetch.sat hstart ?_ ?_ ?_ hL
  · -- a call begins
    intro L j s p hI _ _ hp
    refine ⟨wellFormed_of_effect hI.store hp, fun act hact => ?_, fun r hr => ?_⟩
    · rcases List.mem_append.mp hact with hact | hact
      · exact (hI.course act hact).later (later_of_effect hp)
      · obtain rfl := List.mem_singleton.mp hact
        exact .first hp
    · rcases exchanges_of_effect hp hr with hr | hasks
      · obtain ⟨act, hact, hmem⟩ := hI.covered r hr
        exact ⟨act, List.mem_append_left _ hact, hmem⟩
      · exact ⟨_, List.mem_append_right _ List.mem_cons_self, mem_requestsOf hasks⟩
  · -- a call is answered
    intro L i j c h q k a s p hI _ hwait ha _ hp
    have hstore := wellFormed_of_effect hI.store hp
    obtain ⟨hlt, -⟩ := List.getElem?_eq_some_iff.mp hwait
    refine ⟨hstore, fun act hact => ?_, fun r hr => ?_⟩
    · rcases List.mem_or_eq_of_mem_set hact with hact | rfl
      · exact (hI.course act hact).later (later_of_effect hp)
      · exact (hI.course _ (List.mem_of_getElem? hwait)).next ha hp hstore
    · rcases exchanges_of_effect hp hr with hr | hasks
      · -- the call that is answered keeps the requests it asked for
        obtain ⟨act, hact, hmem⟩ := hI.covered r hr
        by_cases hsame : act = ⟨j, c, h, .waiting q k⟩
        · subst hsame
          refine ⟨_, List.mem_set hlt _, ?_⟩
          obtain ⟨w, hw, hrw⟩ := List.mem_filterMap.mp hmem
          exact List.mem_filterMap.mpr ⟨w, List.mem_append_right _ hw, hrw⟩
        · exact ⟨act, mem_set_of_ne hwait hact hsame, hmem⟩
      · exact ⟨_, List.mem_set hlt _, mem_requestsOf hasks⟩
  · -- an event adds no request
    intro L e s hI _ he
    refine ⟨wellFormed_of_happens hI.store he,
      fun act hact => (hI.course act hact).later (later_of_happens he), fun r hr => ?_⟩
    exact hI.covered r (length_exchanges_of_happens he ▸ hr)

/-! ## What a call does -/

/-- The elevations a call waited for. -/
def elevationOf : Wait → Option ℕ
  | .elevation p => some p
  | _ => none

/-- The promises a call has awaited. -/
def elevationsOf (act : Fetching S) : List ℕ := (questions act).filterMap elevationOf

/-- What holds of a call at any time. -/
structure Kept (s : Page S) (act : Fetching S) : Prop where
  /-- It has sent at most two requests. -/
  requests_le : (requestsOf act).length ≤ 2
  /-- All of them are its own, with the tokens of the time. -/
  mine : ∀ r ∈ requestsOf act, Mine s act.job r
  /-- It has waited for at most one elevation. -/
  elevations_le : (elevationsOf act).length ≤ 1
  /-- The second request was sent after the elevation was completed. -/
  elevated : (requestsOf act).length = 2 → ∃ p, ⟨.elevation p, .ok ()⟩ ∈ act.past
  /-- When the elevation was cancelled, the call ended with its error and sent no second request. -/
  cancelled : ∀ p e, ⟨.elevation p, .error e⟩ ∈ act.past →
    act.pause = .settled (.error e) ∧ (requestsOf act).length = 1
  /-- The elevation answered what its promise was settled with. -/
  answered : ∀ p a, ⟨.elevation p, a⟩ ∈ act.past → settles s (.elevation p) a
  /-- A promise it waits for is the pending one, or is settled. -/
  joined : ∀ p, act.pause.asks = some (.elevation p) →
    s.stepUp.pending = some p ∨ ∃ a, settles s (.elevation p) a

/-- What is known of the course of a call gives the guarantee. -/
theorem Course.kept {s : Page S} {act : Fetching S} (hs : s.stepUp.WellFormed)
    (hc : Course s act.job act.past act.pause) : Kept s act := by
  obtain ⟨j, c, h, pause⟩ := act
  -- a promise that was made is the pending one, or is settled
  have hjoin (p : ℕ) (hp : p < s.stepUp.promises.length) :
      s.stepUp.pending = some p ∨ ∃ a, settles s (.elevation p) a := by
    cases hget : s.stepUp.promises[p]? with
    | none => exact absurd (List.getElem?_eq_none_iff.mp hget) (Nat.not_le.mpr hp)
    | some outcome =>
      cases outcome with
      | none => exact .inl ((hs.open_iff p).mp hget)
      | some a => exact .inr ⟨a, hget⟩
  cases hc with
  | sent hr | replied hr | refused hr | returned hr =>
    constructor <;> simp [requestsOf, elevationsOf, questions, responseOf, elevationOf,
      Pause.asks, List.filterMap_cons, hr]
  | joined hr hp =>
    constructor <;> simp [requestsOf, elevationsOf, questions, responseOf, elevationOf,
      Pause.asks, List.filterMap_cons, hr]
    exact hjoin _ hp
  | cancelled hr hp =>
    constructor <;> simp [requestsOf, elevationsOf, questions, responseOf, elevationOf,
      Pause.asks, List.filterMap_cons, hr]
    exact hp
  | resent hr hp hq | ended hr hp hq =>
    constructor <;> simp [requestsOf, elevationsOf, questions, responseOf, elevationOf,
      Pause.asks, List.filterMap_cons, hr, hq]
    exact hp

/-! ## What becomes of a promise -/

/-- What the first completion or cancellation among these steps settles the open promise with. -/
def closing : List FetchMove → Option (Except String Unit)
  | [] => none
  | .env .complete :: _ => some (.ok ())
  | .env .cancel :: _ => some (.error "step-up cancelled")
  | _ :: moves => closing moves

theorem closing_of_not_env {l : FetchMove} (h : ∀ e, l ≠ .env e) (moves : List FetchMove) :
    closing (l :: moves) = closing moves := by
  cases l with
  | call j => rfl
  | resume i a => rfl
  | env e => exact absurd rfl (h e)

variable {L' : Fetches S}

/-- Every step leads to a later page. -/
theorem later_of_step {l : FetchMove} (hL : FetchRun srv (.init auth monitor server) L)
    (h : Step Fetch.body settles srv.happens L l L') : Later L.shared L'.shared := by
  rcases hL.segment (S := fun j _ => j.spec) Fetch.sat h with
    ⟨-, j, c, a, p, hp⟩ | ⟨e, -, he⟩
  · exact later_of_effect hp
  · exact later_of_happens he

/-- A settled promise stays as it is. -/
theorem settled_of_runs {moves : List FetchMove} {p : ℕ} {a : Except String Unit}
    (hL : FetchRun srv (.init auth monitor server) L)
    (h : Runs Fetch.body settles srv.happens L moves L')
    (hp : L.shared.stepUp.promises[p]? = some (some a)) :
    L'.shared.stepUp.promises[p]? = some (some a) := by
  induction h with
  | nil => exact hp
  | cons hstep _ ih =>
    exact ih (hL.step trivial hstep) ((later_of_step hL hstep).settled p a hp)

/-- The pending promise over one step: it stays pending, or the step settles it. -/
theorem pending_step {l : FetchMove} {p : ℕ} (hL : FetchRun srv (.init auth monitor server) L)
    (h : Step Fetch.body settles srv.happens L l L') (hp : L.shared.stepUp.pending = some p) :
    (L'.shared.stepUp.pending = some p ∧ ∀ moves, closing (l :: moves) = closing moves) ∨
      ∃ a, L'.shared.stepUp.promises[p]? = some (some a) ∧
        ∀ moves, closing (l :: moves) = some a := by
  rcases hL.segment (S := fun j _ => j.spec) Fetch.sat h with
    ⟨hl, j, c, a, pause, hpause⟩ | ⟨e, rfl, he⟩
  · refine .inl ⟨?_, closing_of_not_env hl⟩
    -- a further call joins the pending promise, and makes none
    rcases Fetch.effect hpause with ⟨-, hu⟩ | ⟨⟨hs, -⟩, -⟩ | hs
    · rw [hu, hp]
    · rw [hs]
      exact hp
    · rw [hs]
      show L.shared.stepUp.request.pending = some p
      rw [StepUpStore.request_of_pending hp, hp]
  · have hstore := (orderly_of_run hL).store
    cases e with
    | serve r o =>
      obtain ⟨x, v, -, -, -, hs⟩ := he
      exact .inl ⟨by rw [hs]; exact hp, fun _ => rfl⟩
    | complete =>
      refine .inr ⟨_, ?_, fun _ => rfl⟩
      rw [he]
      exact (hstore.complete.2 p).trans (if_pos hp)
    | cancel =>
      refine .inr ⟨_, ?_, fun _ => rfl⟩
      rw [he]
      exact (hstore.cancel.2 p).trans (if_pos hp)
    | identify auth => exact .inl ⟨by rw [he]; exact hp, fun _ => rfl⟩
    | drift =>
      obtain ⟨v, -, hs⟩ := he
      exact .inl ⟨by rw [hs]; exact hp, fun _ => rfl⟩

/-- The first completion or cancellation that follows settles the pending promise. -/
theorem promise_of_runs {moves : List FetchMove} {p : ℕ}
    (hL : FetchRun srv (.init auth monitor server) L)
    (h : Runs Fetch.body settles srv.happens L moves L')
    (hp : L.shared.stepUp.pending = some p) :
    L'.shared.stepUp.promises[p]? = some (closing moves) := by
  induction h with
  | nil => exact ((orderly_of_run hL).store.open_iff p).mpr hp
  | cons hstep hruns ih =>
    -- the steps go on from the one that settles the promise, or from one that leaves it pending
    have hL' := hL.step trivial hstep
    rcases pending_step hL hstep hp with ⟨hp', hclosing⟩ | ⟨a, ha, hclosing⟩
    · rw [hclosing]
      exact ih hL' hp'
    · rw [hclosing]
      exact settled_of_runs hL' hruns ha

/-- A call comes to wait for the pending promise. -/
theorem pending_of_joined {i p : ℕ} {a : Answered Wait.Value String}
    (hL : FetchRun srv (.init auth monitor server) L)
    (h : Step Fetch.body settles srv.happens L (.resume i a) L')
    (hi : L'.question i = some (.elevation p)) : L'.shared.stepUp.pending = some p := by
  cases h with
  | @resume _ j c past q k a hwait ha =>
    have hsat := hL.coherent (S := fun j _ => j.spec) Fetch.sat _ (List.mem_of_getElem? hwait)
    have hadmits := (hsat a L.shared ha).run.1
    obtain ⟨hlt, -⟩ := List.getElem?_eq_some_iff.mp hwait
    rw [Loop.question_eq, List.getElem?_set_self hlt] at hi
    -- what it awaits now was pending when its segment ended
    cases hpause : ((k a).run L.shared).2 with
    | settled r =>
      rw [hpause] at hi
      cases hi
    | waiting q' k' =>
      rw [hpause] at hi hadmits
      cases hi
      exact Fetch.pending_of_waits hadmits

/-- A request is recorded with the auth store of the time it is sent. -/
theorem auth_of_step {l : FetchMove} {r : ℕ} {x : Exchange}
    (hL : FetchRun srv (.init auth monitor server) L)
    (h : Step Fetch.body settles srv.happens L l L') (hx : L'.shared.exchanges[r]? = some x)
    (hr : L.shared.exchanges.length ≤ r) : x.auth = L.shared.auth := by
  obtain ⟨hlt, -⟩ := List.getElem?_eq_some_iff.mp hx
  -- only the segment that sends it adds a request
  rcases hL.segment (S := fun j _ => j.spec) Fetch.sat h with
    ⟨-, j, c, a, pause, hpause⟩ | ⟨e, -, he⟩
  · rcases Fetch.effect hpause with ⟨hsame, -⟩ | ⟨⟨hs, -⟩, -⟩ | hs
    · rw [hsame] at hlt
      omega
    · rw [hs] at hx hlt
      have hlen : r < L.shared.exchanges.length + 1 := by simpa [Page.send] using hlt
      obtain rfl : r = L.shared.exchanges.length := by omega
      rw [Page.send, List.getElem?_concat_length, Option.some.injEq] at hx
      rw [← hx]
    · rw [hs] at hlt
      exact absurd hlt (Nat.not_lt.mpr hr)
  · rw [length_exchanges_of_happens he] at hlt
    omega

/-- In every run of calls of `fetchWithAuth`: the dialog is visible exactly while a promise is
pending, and that is the only open one; every call keeps to what `Kept` says; every request is one
of a call, with the tokens of the time it was sent; and when a call has come to wait for an
elevation, the first completion or cancellation that follows settles its promise, and is what the
call is answered. -/
theorem fetches_of_run (hL : FetchRun srv (.init auth monitor server) L) :
    (L.shared.stepUp.visible = true ↔ ∃ p, L.shared.stepUp.pending = some p) ∧
      (∀ p, L.shared.stepUp.pending = some p ↔ L.shared.stepUp.promises[p]? = some none) ∧
      (∀ act ∈ L.acts, Kept L.shared act) ∧
      (∀ r < L.shared.exchanges.length, ∃ act ∈ L.acts, r ∈ requestsOf act) ∧
      (∀ l L' r x, Step Fetch.body settles srv.happens L l L' →
        L'.shared.exchanges[r]? = some x → L.shared.exchanges.length ≤ r →
        x.auth = L.shared.auth) ∧
      ∀ i a p L', Step Fetch.body settles srv.happens L (.resume i a) L' →
        L'.question i = some (.elevation p) →
        ∀ moves L'', Runs Fetch.body settles srv.happens L' moves L'' →
          L''.shared.stepUp.promises[p]? = some (closing moves) ∧
            ∃ act, L''.acts[i]? = some act ∧ (act.pause.asks = some (.elevation p) ∨
              ∃ a, ⟨.elevation p, a⟩ ∈ act.past ∧ closing moves = some a) := by
  have horderly := orderly_of_run hL
  refine ⟨?_, fun p => (horderly.store.open_iff p).symm,
    fun act hact => (horderly.course act hact).kept horderly.store, horderly.covered,
    fun l L' r x hstep => auth_of_step hL hstep, fun i a p L' hstep hi moves L'' hruns => ?_⟩
  · rw [horderly.store.visible, Option.isSome_iff_exists]
  · have hL' := hL.step trivial hstep
    have hpromise := promise_of_runs hL' hruns (pending_of_joined hL hstep hi)
    refine ⟨hpromise, ?_⟩
    -- the call waits still, or was answered with the outcome of the promise
    rw [Loop.question_eq] at hi
    obtain ⟨act, hact, hasks⟩ := Option.bind_eq_some_iff.mp hi
    cases hpause : act.pause with
    | settled o =>
      rw [hpause] at hasks
      cases hasks
    | waiting q k =>
      rw [hpause] at hasks
      cases hasks
      obtain ⟨act', hact', hwait | ⟨b, hb⟩⟩ := hruns.waiting hact hpause
      · exact ⟨act', hact', .inl (by rw [hwait]; rfl)⟩
      · have horderly' := orderly_of_run (hL'.runs hruns)
        have hkept := (horderly'.course act' (List.mem_of_getElem? hact')).kept horderly'.store
        have hsettled : L''.shared.stepUp.promises[p]? = some (some b) := hkept.answered p b hb
        rw [hpromise, Option.some.injEq] at hsettled
        exact ⟨act', hact', .inr ⟨b, hb, hsettled⟩⟩

end

/-! ## One call -/

/-- The body of a refusal for want of an elevation. -/
def elevationBody : Json := .obj [(text "error", .str (text "elevation_required"))]

/-- What a server replies that refuses requests until the session is elevated. -/
def elevatingReply (elevated : Bool) : Reply :=
  if elevated then ⟨200, none⟩ else ⟨403, some elevationBody⟩

/-- That server; its state is whether the session is elevated. -/
def elevating : Server Bool where
  serve elevated _ elevated' o := elevated' = elevated ∧ o = .ok (elevatingReply elevated)
  drift _ elevated := elevated = true

/-- `revokeUserTokens` of a user: the request it sends. -/
def revokeUserTokens (id : Text) : Fetch where
  url := ⟨text "/api/admin/users/" ++ id ++ text "/revoke-tokens", []⟩
  options := { method := some (text "POST") }

/-- The loop after an answer, a reply, and the elevation of the session. -/
def Fetches.resumed (L : Fetches S) (i : ℕ) : Fetches S := L.answered i (answerOf L.shared)

/-- The server answers a request, refusing it until it has noted an elevation. -/
def Fetches.replied (L : Fetches Bool) (r : ℕ) : Fetches Bool :=
  { L with shared := L.shared.served r L.shared.server (.ok (elevatingReply L.shared.server)) }

/-- The server takes note of an elevation. -/
def Fetches.elevated (L : Fetches Bool) : Fetches Bool :=
  { L with shared := { L.shared with server := true } }

/-- The dialog is completed. -/
def Fetches.completed (L : Fetches S) : Fetches S :=
  { L with shared := { L.shared with stepUp := L.shared.stepUp.complete } }

/-- The identity is loaded again, with a new token. -/
def Fetches.identified (L : Fetches S) (token : Text) : Fetches S :=
  { L with shared := { L.shared with auth := { L.shared.auth with csrf := some token } } }

/-- A page of a signed-in user, with a token. -/
def signedInPage : Page Bool :=
  .init { authenticated := true, user := none, csrf := some (text "t") } .init false

/-- One call: it is refused, and waits for an elevation. -/
def refusedCall : Fetches Bool :=
  ((Fetches.replied ((Loop.start signedInPage).called Fetch.body (revokeUserTokens (text "1")))
    0).resumed 0).resumed 0

/-- The token changes, the dialog is completed, and the request sent again. -/
def resentCall : Fetches Bool :=
  ((refusedCall.elevated.identified (text "u")).completed).resumed 0

/-- The request of that call, with a token. -/
def revocation (token : Text) : Request where
  url := ⟨text "/api/admin/users/1/revoke-tokens", []⟩
  method := some (text "POST")
  body := none
  headers := [(text "Content-Type", text "application/json"), (text "X-CSRF-Token", token)]

section

variable {C : Fetches Bool → FetchMove → Prop} {p : Page Bool} {L : Fetches Bool}

theorem run_replied (hL : Reachable Fetch.body settles elevating.happens C p L) (r : ℕ)
    {x : Exchange} (hx : L.shared.exchanges[r]? = some x) (hopen : x.outcome = none)
    (hC : ∀ o, C L (.env (.serve r o))) :
    Reachable Fetch.body settles elevating.happens C p (L.replied r) :=
  reachable_replied hL r _ _ hx hopen ⟨rfl, rfl⟩ (hC _)

theorem run_elevated (hL : Reachable Fetch.body settles elevating.happens C p L)
    (hC : C L (.env .drift)) :
    Reachable Fetch.body settles elevating.happens C p L.elevated :=
  hL.happened .drift ⟨true, rfl, rfl⟩ hC

theorem run_completed (hL : Reachable Fetch.body settles elevating.happens C p L)
    (hC : C L (.env .complete)) :
    Reachable Fetch.body settles elevating.happens C p L.completed :=
  hL.happened .complete rfl hC

end

theorem run_refusedCall : FetchRun elevating signedInPage refusedCall := by
  have h₁ : FetchRun elevating signedInPage _ :=
    Reachable.start.called (revokeUserTokens (text "1")) trivial
  have h₂ := run_replied h₁ 0 rfl rfl fun _ => trivial
  have h₃ := reachable_resumed h₂ 0 rfl fun _ => trivial
  exact reachable_resumed h₃ 0 (by decide +kernel) fun _ => trivial

theorem run_resentCall : FetchRun elevating signedInPage resentCall := by
  have h₁ := run_elevated run_refusedCall trivial
  have h₂ := h₁.happened
    (.identify { refusedCall.elevated.shared.auth with csrf := some (text "u") }) rfl trivial
  have h₃ := run_completed h₂ trivial
  exact reachable_resumed h₃ 0 (by decide +kernel) fun _ => trivial

/-- While the call waits the dialog is visible; the request that was sent again is the second one
of the call, with the token of that time. -/
theorem resentCall_kept :
    (refusedCall.shared.stepUp.visible = true ∧ ∃ p, refusedCall.shared.stepUp.pending = some p) ∧
      resentCall.shared.exchanges.map Exchange.request =
        [revocation (text "t"), revocation (text "u")] ∧
      ∀ act ∈ resentCall.acts, (requestsOf act).length = 2 ∧ Kept resentCall.shared act := by
  have hvisible : refusedCall.shared.stepUp.visible = true := by decide +kernel
  have hrefused := fetches_of_run run_refusedCall
  have hresent := fetches_of_run run_resentCall
  refine ⟨⟨hvisible, hrefused.1.mp hvisible⟩, rfl,
    fun act hact => ⟨?_, hresent.2.2.1 act hact⟩⟩
  revert act
  decide +kernel

end Console
