import OAuth2Monitoring.Console.StepUp
import OAuth2Monitoring.ToMathlib.EventLoop.Part

/-!
# Confirming a step-up

The dialog that asks for the password, and for a code where one is wanted, beside the calls of
`fetchWithAuth` that wait for it. While an elevation is under way its button is disabled, but the
return key in a field of the form confirms again, so several elevations can be under way at a time.

The dialog shows what a failed elevation threw. Where a property of `null` was read that is the text
of the engine, which is a parameter here: `readOfNull`.

## Main definitions

* `Screen`: the page with the form of the dialog and the elevations that were sent.
* `elevate`, `confirm`: `authStore.elevate`, and what the dialog does with it.
* `Elevates`: what the request of an elevation carries.
* `Throws`: what a failed elevation throws.
* `ScreenEvent`, `Server.occurs`: what happens to a screen apart from its functions.

## Main results

* `sat_confirm`: what each segment of `confirm` does.
-/

namespace Console

open JsStd EventLoop

variable {S : Type}

/-! ## The screen -/

/-- The form of the dialog. -/
structure Form where
  /-- What is typed into the field of the password. -/
  password : Text
  /-- What is typed into the field of the code. -/
  mfaCode : Text
  /-- The field of the code is shown. -/
  mfaRequired : Bool
  /-- The message above the fields. -/
  error : Option Text
  /-- An elevation is under way: the buttons are disabled. -/
  loading : Bool

/-- The form when the dialog opens. -/
def Form.blank : Form :=
  { password := [], mfaCode := [], mfaRequired := false, error := none, loading := false }

/-- What the functions of the dialog and of the page share. -/
structure Screen (S : Type) where
  /-- The page behind the dialog. -/
  page : Page S
  /-- The form of the dialog. -/
  form : Form
  /-- Whether the watcher of the dialog saw it visible when it ran last. -/
  watched : Bool
  /-- The requests of `authStore.elevate`, in the order they were sent. -/
  elevations : List Exchange

/-- What a confirmation awaits: the response to the `n`-th elevation, or its body. -/
inductive ElevateWait
  | response (n : ℕ)
  | json (n : ℕ)
  deriving DecidableEq

/-- What is awaited is of this type: a status, or a value. -/
@[reducible]
def ElevateWait.Value : ElevateWait → Type
  | response _ => ℕ
  | json _ => Json

/-- The answer to what a function of the screen awaits. -/
def screenSettles (t : Screen S) :
    (q : Wait ⊕ ElevateWait) → Except String (Sum.elim Wait.Value ElevateWait.Value q) → Prop
  | .inl q, a => settles t.page q a
  | .inr (.response n), a => ∃ x o, t.elevations[n]? = some x ∧ x.outcome = some o ∧
      a = o.map Reply.status
  | .inr (.json n), a => ∃ x reply, t.elevations[n]? = some x ∧ x.outcome = some (.ok reply) ∧
      match reply.body with
      | some v => a = .ok v
      | none => ∃ e, a = .error e

/-- An asynchronous function of the screen. -/
abbrev Ui (S α : Type) := Async (Screen S) (Sum.elim Wait.Value ElevateWait.Value) String α

/-- The page is a part of the screen. -/
def Screen.pagePart : Part (Screen S) (Page S) where
  get := Screen.page
  put p t := { t with page := p }
  get_put _ _ := rfl
  put_put _ _ _ := rfl
  put_get _ := rfl

namespace Screen

/-- `fetch('/bff/elevate', ..)`: the request is sent. -/
def sendElevation (t : Screen S) (request : Request) : Screen S :=
  { t with elevations := t.elevations ++ [⟨request, t.page.auth, none⟩] }

/-- The form is changed. -/
def setForm (t : Screen S) (form : Form) : Screen S := { t with form := form }

/-- `stepUp.complete()`. -/
def complete (t : Screen S) : Screen S :=
  { t with page := { t.page with stepUp := t.page.stepUp.complete } }

/-- `cancel()`. -/
def cancel (t : Screen S) : Screen S :=
  { t with page := { t.page with stepUp := t.page.stepUp.cancel } }

/-- The watcher of the dialog runs: if the dialog has opened since, the form is reset. -/
def flush (t : Screen S) : Screen S :=
  { t with
    watched := t.page.stepUp.visible
    form := if t.page.stepUp.visible && !t.watched then .blank else t.form }

end Screen

/-! ## Confirming -/

/-- What is sent to elevate the session. A code that is `undefined` is left out. -/
def elevateRequest (password : Text) (mfaCode : Option Text) (auth : AuthStore) : Request where
  url := ⟨text "/bff/elevate", []⟩
  method := some (text "POST")
  body := some (.obj ((text "password", .str password) ::
    (mfaCode.map fun code => (text "mfa_code", .str code)).toList))
  headers := (text "Content-Type", text "application/json") :: auth.csrfHeaders

/-- The request is one for an elevation with this password and this code, sent with the tokens of
`auth`. -/
structure Elevates (password : Text) (mfaCode : Option Text) (auth : AuthStore)
    (request : Request) : Prop where
  /-- It goes to the gateway. -/
  url : request.url = ⟨text "/bff/elevate", []⟩
  /-- It is a `POST`. -/
  method : request.method = some (text "POST")
  /-- Its body names the password. -/
  password : request.body.bind (Json.prop "password") = some (.str password)
  /-- Its body names the code, if there is one. -/
  code : request.body.bind (Json.prop "mfa_code") = mfaCode.map .str
  /-- The body is announced as JSON. -/
  contentType : headerOf request.headers (text "Content-Type") = some (text "application/json")
  /-- The token of `auth` is sent. -/
  csrf : ∀ token, auth.csrf = some token → token ≠ [] →
    headerOf request.headers (text "X-CSRF-Token") = some token

/-- What `authStore.elevate` sends is such a request. -/
theorem elevates_elevateRequest (password : Text) (mfaCode : Option Text) (auth : AuthStore) :
    Elevates password mfaCode auth (elevateRequest password mfaCode auth) where
  url := rfl
  method := rfl
  password := by cases mfaCode <;> rfl
  code := by cases mfaCode <;> rfl
  contentType := by
    -- the header with the token has another name
    unfold elevateRequest AuthStore.csrfHeaders
    split <;> rfl
  csrf token htoken hne := by
    obtain ⟨c, rest, rfl⟩ := List.exists_cons_of_ne_nil hne
    unfold elevateRequest AuthStore.csrfHeaders
    rw [htoken]
    rfl

section

variable (readOfNull : Text)

/-- The message of the error that is thrown when an elevation is refused with this body. A body that
cannot be read counts as an empty object. -/
def elevateMessage (body : Except String Json) : Text :=
  match (body.toOption.getD (.obj [])).get "error" with
  | .error _ => readOfNull
  | .ok v => (Json.orFalsy v (.str (text "Step-up failed"))).toText

/-- `authStore.elevate(password, mfaCode)`. An error it throws is given by its message. -/
def elevate (password : Text) (mfaCode : Option Text) : Ui S (Except Text Unit) := do
  let t ← Async.read
  Async.modify fun t => t.sendElevation (elevateRequest password mfaCode t.page.auth)
  Async.andThen (Async.ask (Q := Wait ⊕ ElevateWait) (.inr (.response t.elevations.length))) fun
    | .error e => pure (.error (text e))
    | .ok status =>
      if okStatus status then pure (.ok ())
      else
        Async.andThen (Async.ask (Q := Wait ⊕ ElevateWait) (.inr (.json t.elevations.length)))
          fun body => pure (.error (elevateMessage readOfNull body))

/-- What a failed elevation throws, by its outcome. -/
inductive Throws : Except String Reply → Text → Prop
  /-- The request failed, with this error. -/
  | unreached (e : String) : Throws (.error e) (text e)
  /-- The body of the refusal cannot be read. -/
  | unread {status : ℕ} (h : okStatus status = false) :
      Throws (.ok ⟨status, none⟩) (text "Step-up failed")
  /-- The body is `null`. -/
  | null {status : ℕ} (h : okStatus status = false) : Throws (.ok ⟨status, some .null⟩) readOfNull
  /-- The body names an error. -/
  | named {status : ℕ} {body e : Json} (h : okStatus status = false)
      (hbody : body.prop "error" = some e) (he : Json.truthy (some e) = true) :
      Throws (.ok ⟨status, some body⟩) e.toText
  /-- The body names none. -/
  | unnamed {status : ℕ} {body : Json} (h : okStatus status = false) (hbody : body ≠ .null)
      (he : Json.truthy (body.prop "error") = false) :
      Throws (.ok ⟨status, some body⟩) (text "Step-up failed")

/-- What is thrown for a refusal is what its body says. -/
theorem throws_elevateMessage {reply : Reply} (h : okStatus reply.status = false) :
    Throws readOfNull (.ok reply)
      (elevateMessage readOfNull (reply.body.elim (.error "") .ok)) := by
  obtain ⟨status, body⟩ := reply
  cases body with
  | none => exact .unread h
  | some v =>
    by_cases hnull : v = .null
    · subst hnull
      exact .null h
    · have hget : v.get "error" = .ok (v.prop "error") := by
        cases v with
        | null => exact absurd rfl hnull
        | _ => rfl
      have hmessage : elevateMessage readOfNull (.ok v) =
          (Json.orFalsy (v.prop "error") (.str (text "Step-up failed"))).toText := by
        show (match v.get "error" with | .error _ => _ | .ok v => _) = _
        rw [hget]
      show Throws readOfNull _ (elevateMessage readOfNull (.ok v))
      rw [hmessage]
      -- a value that is falsy counts as none
      cases hprop : v.prop "error" with
      | none => exact .unnamed h hnull (by rw [hprop]; rfl)
      | some e =>
        cases he : Json.truthy (some e) with
        | true =>
          rw [Json.orFalsy, he, if_pos rfl]
          exact .named h hprop he
        | false =>
          rw [Json.orFalsy, he, if_neg Bool.false_ne_true]
          exact .unnamed h hnull (by rw [hprop, he])

end

/-- What the dialog says about an error with this message. -/
def errorText (message : Text) : Text :=
  if message = text "mfa_required" then text "Enter your MFA code to continue."
  else if message = text "invalid mfa code" then text "Invalid MFA code."
  else if message = text "invalid credentials" then text "Invalid password."
  else message

/-- The code `confirm` hands over. -/
def Form.code (form : Form) : Option Text := if form.mfaRequired then some form.mfaCode else none

namespace Screen

/-- The changes `confirm` makes to the form. -/
def passwordMissing (t : Screen S) : Screen S :=
  t.setForm { t.form with error := some (text "Password is required.") }

/-- The form while the elevation is under way. -/
def began (t : Screen S) : Screen S := t.setForm { t.form with loading := true, error := none }

/-- The form with what a failed elevation has thrown. -/
def refused (t : Screen S) (message : Text) : Screen S :=
  t.setForm { t.form with
    mfaRequired := t.form.mfaRequired || message = text "mfa_required"
    error := some (errorText message) }

/-- The form after the elevation. -/
def ended (t : Screen S) : Screen S := t.setForm { t.form with loading := false }

end Screen

section

variable (readOfNull : Text)

/-- `confirm()`. -/
def confirm : Ui S Unit := do
  let t ← Async.read
  if t.form.password = [] then Async.modify Screen.passwordMissing
  else
    Async.modify Screen.began
    Async.tryFinally
      (do
        let outcome ← elevate readOfNull t.form.password t.form.code
        match outcome with
        | .ok _ => Async.modify Screen.complete
        | .error message => Async.modify fun t => t.refused message)
      (Async.modify Screen.ended)

/-- What a segment of `confirm` does, by what it was answered before: the screen it leaves, and what
it awaits then. -/
inductive ConfirmSegment (t : Screen S) : List (Answered (Sum.elim Wait.Value ElevateWait.Value)
    String) → Screen S → Option (Wait ⊕ ElevateWait) → Prop
  | missing (h : t.form.password = []) : ConfirmSegment t [] t.passwordMissing none
  | sends (h : t.form.password ≠ []) : ConfirmSegment t []
      (t.began.sendElevation (elevateRequest t.form.password t.form.code t.page.auth))
      (some (.inr (.response t.elevations.length)))
  | reads {n status : ℕ} (h : okStatus status = false) :
      ConfirmSegment t [⟨.inr (.response n), .ok status⟩] t (some (.inr (.json n)))
  | completes {n status : ℕ} (h : okStatus status = true) :
      ConfirmSegment t [⟨.inr (.response n), .ok status⟩] t.complete.ended none
  | fails {n : ℕ} {e : String} :
      ConfirmSegment t [⟨.inr (.response n), .error e⟩] (t.refused (text e)).ended none
  | told {n n' status : ℕ} {body : Except String Json} :
      ConfirmSegment t [⟨.inr (.json n), body⟩, ⟨.inr (.response n'), .ok status⟩]
        (t.refused (elevateMessage readOfNull body)).ended none

/-- The specification of `confirm`. -/
def confirmSpec : Spec (Screen S) (Sum.elim Wait.Value ElevateWait.Value) String Unit where
  wait h t₀ t q := ConfirmSegment readOfNull t₀ h t (some q)
  done h t₀ t _ := ConfirmSegment readOfNull t₀ h t none

/-- `confirm` does what its specification says. -/
theorem sat_confirm (t : Screen S) :
    (confirm readOfNull).Sat screenSettles (confirmSpec readOfNull) [] t t := by
  show Async.Sat screenSettles (confirmSpec readOfNull)
    (if t.form.password = [] then _ else _) [] t t
  by_cases hpassword : t.form.password = []
  · rw [if_pos hpassword]
    exact .missing hpassword
  · rw [if_neg hpassword]
    refine ⟨.sends hpassword, fun a t₁ _ => ?_⟩
    cases a with
    | error e => exact .fails
    | ok status =>
      show Async.Sat screenSettles _
        (Async.andThen (Async.andThen (if okStatus status then _ else _) _) _) _ _ _
      by_cases hok : okStatus status = true
      · rw [if_pos hok]
        exact .completes hok
      · rw [if_neg hok]
        exact ⟨.reads (Bool.eq_false_iff.mpr hok), fun body t₂ _ => .told⟩

end

/-! ## Runs -/

/-- How `confirm` is called. -/
inductive Confirming
  | button
  | returnKey

/-- What happens to a screen apart from its functions: something to the page, the server processes
the `n`-th elevation, the button that cancels, something is typed, the watcher runs. -/
inductive ScreenEvent
  | page (e : Event)
  | elevated (n : ℕ) (o : Except String Reply)
  | cancel
  | enter (password mfaCode : Text)
  | flush

/-- What happens to the page other than by the dialog. -/
def Event.apart : Event → Bool
  | .complete | .cancel => false
  | _ => true

/-- An event of the screen. The button that cancels is disabled while an elevation is under way. -/
def Server.occurs (srv : Server S) (t : Screen S) : ScreenEvent → Screen S → Prop
  | .page e, t' => e.apart = true ∧ ∃ p, srv.happens t.page e p ∧ t' = { t with page := p }
  | .elevated n o, t' => ∃ x v, t.elevations[n]? = some x ∧ x.outcome = none ∧
      srv.serve t.page.server x.request v o ∧
      t' = { t with
        page := { t.page with server := v }
        elevations := t.elevations.set n { x with outcome := some o } }
  | .cancel, t' => t.form.loading = false ∧ t' = t.cancel
  | .enter password mfaCode, t' =>
      t' = t.setForm { t.form with password := password, mfaCode := mfaCode }
  | .flush, t' => t' = t.flush

/-- The calls of `fetchWithAuth`, and of `confirm` beside them. -/
abbrev screenBody (readOfNull : Text) : Fetch ⊕ Confirming → Ui S (Response ⊕ Unit) :=
  beside Screen.pagePart Fetch.body fun _ => Sum.inr <$> confirm readOfNull

/-- The loop of a page with its dialog. -/
abbrev Dialogue (S : Type) := Loop (Screen S) (Fetch ⊕ Confirming)
  (Sum.elim Wait.Value ElevateWait.Value) String (Response ⊕ Unit)

/-- The labels of its steps. -/
abbrev DialogueMove := Label (Fetch ⊕ Confirming) ScreenEvent
  (Sum.elim Wait.Value ElevateWait.Value) String

/-- The button that confirms is disabled while an elevation is under way. -/
def Clickable (L : Dialogue S) (l : DialogueMove) : Prop :=
  l = .call (.inr .button) → L.shared.form.loading = false

/-- A page of which no dialog was opened. -/
def Screen.init (page : Page S) : Screen S where
  page := page
  form := .blank
  watched := false
  elevations := []

/-- The screens that any run passes through whose steps meet `C`. -/
abbrev DialogueRun (readOfNull : Text) (srv : Server S)
    (C : Dialogue S → DialogueMove → Prop) (p : Page S) : Dialogue S → Prop :=
  Reachable (screenBody readOfNull) screenSettles srv.occurs C (.init p)

/-- What each function of the screen does. -/
def screenSpec (readOfNull : Text) (j : Fetch ⊕ Confirming) (_ : Screen S) :
    Spec (Screen S) (Sum.elim Wait.Value ElevateWait.Value) String (Response ⊕ Unit) :=
  match j with
  | .inl j => j.spec.within Screen.pagePart
  | .inr _ => Spec.map Sum.inr (confirmSpec readOfNull)

/-- Every function of the screen does what its specification says. -/
theorem sat_screenBody (readOfNull : Text) (j : Fetch ⊕ Confirming) (t : Screen S) :
    (screenBody readOfNull j).Sat screenSettles (screenSpec readOfNull j t) [] t t := by
  cases j with
  | inl j => exact Async.Sat.within (h := []) (fun _ _ _ ha => ha) (j.sat t.page) rfl
  | inr b => exact (sat_confirm readOfNull t).map Sum.inr

/-- A segment of `confirm`, from the specification. -/
theorem segment_of_admits {readOfNull : Text} {b : Confirming} {c t₀ t : Screen S}
    {h : List (Answered (Sum.elim Wait.Value ElevateWait.Value) String)}
    {p : Pause (Screen S) (Sum.elim Wait.Value ElevateWait.Value) String (Response ⊕ Unit)}
    (hp : p.Admits (screenSpec readOfNull (.inr b) c) h t₀ t) :
    ConfirmSegment readOfNull t₀ h t p.asks := by
  cases p with
  | settled r =>
    obtain ⟨_, _, hp⟩ := hp
    exact hp
  | waiting q k => exact hp

end Console
