import OAuth2Monitoring.Console.Confirm

/-!
# The step-up dialog

What completes the dialog, in every run of calls of `fetchWithAuth` and of confirmations beside
them.

## Main definitions

* `Turn`: what a step can do to a screen and to what the confirmations await.
* `Spending`, `FormKept`, `Single`: the invariants.
* `Earned`: what holds of the dialog and of the calls that wait for it.

## Main results

* `earned_of_run`: no dialog is completed but by an elevation of its own that was accepted.
* `ownElevation_of_run`: without the return key it is one that was sent while the dialog was open.
-/

namespace Console

open JsStd EventLoop

variable {S : Type} {readOfNull : Text}

/-! ## What a step can do -/

/-- The elevation went well. -/
def Accepted (t : Screen S) (n : ℕ) : Prop :=
  ∃ x reply, t.elevations[n]? = some x ∧ x.outcome = some (.ok reply) ∧
    okStatus reply.status = true

/-- The elevation failed, and threw this message. -/
def FailedWith (readOfNull : Text) (t : Screen S) (n : ℕ) (message : Text) : Prop :=
  ∃ x o, t.elevations[n]? = some x ∧ x.outcome = some o ∧ Throws readOfNull o message

/-- The promise is resolved. -/
def Resolved (t : Screen S) (p : ℕ) : Prop :=
  t.page.stepUp.promises[p]? = some (some (.ok ()))

/-- What a confirmation awaits, and the screen it was called in. -/
def awaiting (act : Act (Screen S) (Fetch ⊕ Confirming)
    (Sum.elim Wait.Value ElevateWait.Value) String (Response ⊕ Unit)) :
    Option (ElevateWait × Screen S) :=
  (act.pause.asks.bind Sum.getRight?).map fun q => (q, act.called)

/-- What the `i`-th function awaits, if it is a confirmation. -/
def Dialogue.awaits (L : Dialogue S) (i : ℕ) : Option (ElevateWait × Screen S) :=
  L.acts[i]?.bind awaiting

/-- What a step can do to a screen and to what the confirmations await; `B` says how a confirmation
may be called in it. -/
inductive Turn (readOfNull : Text) (B : Confirming → Prop) (t : Screen S)
    (w : ℕ → Option (ElevateWait × Screen S)) :
    Screen S → (ℕ → Option (ElevateWait × Screen S)) → Prop
  | apart {p : Page S} (hstore : p.stepUp = t.page.stepUp ∨ p.stepUp = t.page.stepUp.request) :
      Turn readOfNull B t w { t with page := p } w
  | elevated {n : ℕ} {x : Exchange} {o : Except String Reply} {v : S}
      (hx : t.elevations[n]? = some x) (hopen : x.outcome = none) :
      Turn readOfNull B t w { t with
        page := { t.page with server := v }
        elevations := t.elevations.set n { x with outcome := some o } } w
  | cancel (h : t.form.loading = false) : Turn readOfNull B t w t.cancel w
  | enter (password mfaCode : Text) :
      Turn readOfNull B t w (t.setForm { t.form with password := password, mfaCode := mfaCode }) w
  | flush : Turn readOfNull B t w t.flush w
  | missing (h : t.form.password = []) : Turn readOfNull B t w t.passwordMissing w
  | send {b : Confirming} (hb : B b) {i : ℕ} (hi : w i = none) (h : t.form.password ≠ []) :
      Turn readOfNull B t w
        (t.began.sendElevation (elevateRequest t.form.password t.form.code t.page.auth))
        (Function.update w i (some (.response t.elevations.length, t)))
  | read {i n : ℕ} {c : Screen S} (hi : w i = some (.response n, c)) {x : Exchange} {reply : Reply}
      (hx : t.elevations[n]? = some x) (ho : x.outcome = some (.ok reply))
      (h : okStatus reply.status = false) :
      Turn readOfNull B t w t (Function.update w i (some (.json n, c)))
  | complete {i n : ℕ} {c : Screen S} (hi : w i = some (.response n, c)) (h : Accepted t n) :
      Turn readOfNull B t w t.complete.ended (Function.update w i none)
  | fail {i n : ℕ} {c : Screen S} (hi : w i = some (.response n, c)) {x : Exchange} {e : String}
      (hx : t.elevations[n]? = some x) (ho : x.outcome = some (.error e)) :
      Turn readOfNull B t w (t.refused (text e)).ended (Function.update w i none)
  | told {i n : ℕ} {c : Screen S} (hi : w i = some (.json n, c)) {x : Exchange} {reply : Reply}
      (hx : t.elevations[n]? = some x) (ho : x.outcome = some (.ok reply)) :
      Turn readOfNull B t w
        (t.refused (elevateMessage readOfNull (reply.body.elim (.error "") .ok))).ended
        (Function.update w i none)

section

variable {srv : Server S} {p : Page S} {C : Dialogue S → DialogueMove → Prop} {L L' : Dialogue S}
  {l : DialogueMove}

/-- A segment of `fetchWithAuth` changes the page alone, and asks for an elevation at most. -/
theorem apart_of_admits {j : Fetch} {c t₀ t : Screen S}
    {h : List (Answered (Sum.elim Wait.Value ElevateWait.Value) String)}
    {p : Pause (Screen S) (Sum.elim Wait.Value ElevateWait.Value) String (Response ⊕ Unit)}
    (hp : p.Admits (screenSpec readOfNull (.inl j) c) h t₀ t) :
    (∃ h₀ : Past, h = h₀.map Answered.within) ∧ t = { t₀ with page := t.page } ∧
      p.asks.bind Sum.getRight? = none ∧ (t.page.stepUp = t₀.page.stepUp ∨
        t.page.stepUp = t₀.page.stepUp.request) := by
  have hstore (h₀ : Past) (p₀ : Pause (Page S) Wait.Value String Response)
      (hp₀ : p₀.Admits j.spec h₀ t₀.page t.page) :
      t.page.stepUp = t₀.page.stepUp ∨ t.page.stepUp = t₀.page.stepUp.request := by
    rcases Fetch.effect hp₀ with ⟨-, hu⟩ | ⟨⟨hs, -⟩, -⟩ | hs
    · exact .inl hu
    · exact .inl (by rw [hs]; rfl)
    · exact .inr (by rw [hs]; rfl)
  cases p with
  | settled r =>
    obtain ⟨ht, h₀, r₀, hpast, -, hdone⟩ := hp
    exact ⟨⟨h₀, hpast⟩, ht, rfl, hstore h₀ (.settled r₀) hdone⟩
  | waiting q k =>
    obtain ⟨ht, h₀, q₀, hpast, rfl, hwait⟩ := hp
    exact ⟨⟨h₀, hpast⟩, ht, rfl, hstore h₀ (.waiting q₀ fun _ => .ret (.error "")) hwait⟩

/-- What the confirmations await after another call has started. -/
theorem awaits_append (L : Dialogue S) (t : Screen S) (act) :
    Dialogue.awaits { shared := t, acts := L.acts ++ [act] } =
      Function.update L.awaits L.acts.length (awaiting act) := by
  funext i
  rcases Nat.lt_trichotomy i L.acts.length with hlt | rfl | hgt
  · rw [Function.update_of_ne hlt.ne, Dialogue.awaits, Dialogue.awaits,
      List.getElem?_append_left hlt]
  · simp [Dialogue.awaits]
  · rw [Function.update_of_ne hgt.ne', Dialogue.awaits, Dialogue.awaits,
      List.getElem?_eq_none (by simp; omega), List.getElem?_eq_none hgt.le]

/-- What they await after a call has gone on. -/
theorem awaits_set {L : Dialogue S} {i : ℕ} {act} (hi : L.acts[i]? = some act) (t : Screen S)
    (act') : Dialogue.awaits { shared := t, acts := L.acts.set i act' } =
      Function.update L.awaits i (awaiting act') := by
  obtain ⟨hlt, -⟩ := List.getElem?_eq_some_iff.mp hi
  funext i'
  by_cases hsame : i' = i
  · subst hsame
    rw [Function.update_self, Dialogue.awaits, List.getElem?_set_self hlt]
    rfl
  · rw [Function.update_of_ne hsame, Dialogue.awaits, Dialogue.awaits,
      List.getElem?_set_ne (Ne.symm hsame)]

theorem awaits_length (L : Dialogue S) : L.awaits L.acts.length = none := by
  simp [Dialogue.awaits]

/-- A call: one of `fetchWithAuth` sends its request; a confirmation finds no password, or sends an
elevation. -/
theorem turn_of_call {B : Confirming → Prop} {j : Fetch ⊕ Confirming} {t : Screen S}
    {pause : Pause (Screen S) (Sum.elim Wait.Value ElevateWait.Value) String (Response ⊕ Unit)}
    (hp : pause.Admits (screenSpec readOfNull j L.shared) [] L.shared t)
    (hB : ∀ b, j = .inr b → B b) :
    Turn readOfNull B L.shared L.awaits t
      (Dialogue.awaits { shared := t, acts := L.acts ++ [⟨j, L.shared, [], pause⟩] }) := by
  rw [awaits_append]
  cases j with
  | inl j =>
    obtain ⟨-, ht, hasks, hstore⟩ := apart_of_admits hp
    have hnone : awaiting ⟨.inl j, L.shared, [], pause⟩ = none := by simp [awaiting, hasks]
    rw [hnone, Function.update_eq_self_iff.mpr (awaits_length L).symm, ht]
    exact .apart hstore
  | inr b =>
    have hseg := segment_of_admits hp
    generalize hasks : pause.asks = asks at hseg
    cases hseg with
    | missing hpassword =>
      have hnone : awaiting ⟨.inr b, L.shared, [], pause⟩ = none := by simp [awaiting, hasks]
      rw [hnone, Function.update_eq_self_iff.mpr (awaits_length L).symm]
      exact .missing hpassword
    | sends hpassword =>
      have hsome : awaiting ⟨.inr b, L.shared, [], pause⟩ =
          some (.response L.shared.elevations.length, L.shared) := by simp [awaiting, hasks]
      rw [hsome]
      exact .send (hB b rfl) (awaits_length L) hpassword

/-- A confirmation is answered: it goes on to read the body of a refusal, or it ends. -/
theorem turn_of_answer {B : Confirming → Prop} {i : ℕ} {c t₀ t : Screen S}
    {w : ℕ → Option (ElevateWait × Screen S)} {q : Wait ⊕ ElevateWait}
    {a : Except String (Sum.elim Wait.Value ElevateWait.Value q)}
    {past : List (Answered (Sum.elim Wait.Value ElevateWait.Value) String)}
    {asks : Option (Wait ⊕ ElevateWait)} (hi : ∀ v, q = .inr v → w i = some (v, c))
    (ha : screenSettles t₀ q a) (hseg : ConfirmSegment readOfNull t₀ (⟨q, a⟩ :: past) t asks) :
    Turn readOfNull B t₀ w t
      (Function.update w i ((asks.bind Sum.getRight?).map fun q => (q, c))) := by
  cases hseg with
  | reads hok =>
    obtain ⟨x, o, hx, ho, hanswer⟩ := ha
    cases o with
    | error e => cases hanswer
    | ok reply =>
      cases hanswer
      exact .read (hi _ rfl) hx ho hok
  | completes hok =>
    obtain ⟨x, o, hx, ho, hanswer⟩ := ha
    cases o with
    | error e => cases hanswer
    | ok reply =>
      cases hanswer
      exact .complete (hi _ rfl) ⟨x, reply, hx, ho, hok⟩
  | fails =>
    obtain ⟨x, o, hx, ho, hanswer⟩ := ha
    cases o with
    | error e =>
      cases hanswer
      exact .fail (hi _ rfl) hx ho
    | ok reply => cases hanswer
  | @told n n' status body =>
    obtain ⟨x, reply, hx, ho, hbody⟩ := ha
    have hmessage : elevateMessage readOfNull body =
        elevateMessage readOfNull (reply.body.elim (.error "") .ok) := by
      -- whatever it failed with, a body that cannot be read counts as an empty object
      cases hb : reply.body with
      | none =>
        rw [hb] at hbody
        obtain ⟨e, rfl⟩ := hbody
        rfl
      | some v =>
        rw [hb] at hbody
        rw [hbody]
        rfl
    rw [hmessage]
    exact .told (hi _ rfl) hx ho

/-- The `i`-th function is answered. -/
theorem turn_of_resume {B : Confirming → Prop} {i : ℕ} {j : Fetch ⊕ Confirming} {c t : Screen S}
    {past : List (Answered (Sum.elim Wait.Value ElevateWait.Value) String)}
    {q : Wait ⊕ ElevateWait} {k} {a : Except String (Sum.elim Wait.Value ElevateWait.Value q)}
    {pause : Pause (Screen S) (Sum.elim Wait.Value ElevateWait.Value) String (Response ⊕ Unit)}
    (hact : L.acts[i]? = some ⟨j, c, past, .waiting q k⟩) (ha : screenSettles L.shared q a)
    (hp : pause.Admits (screenSpec readOfNull j c) (⟨q, a⟩ :: past) L.shared t) :
    Turn readOfNull B L.shared L.awaits t
      (Dialogue.awaits { shared := t, acts := L.acts.set i ⟨j, c, ⟨q, a⟩ :: past, pause⟩ }) := by
  rw [awaits_set hact]
  cases j with
  | inl j =>
    obtain ⟨⟨h₀, hpast⟩, ht, hasks, hstore⟩ := apart_of_admits hp
    have hnone : awaiting ⟨.inl j, c, ⟨q, a⟩ :: past, pause⟩ = none := by simp [awaiting, hasks]
    have hbefore : L.awaits i = none := by
      -- what a call of `fetchWithAuth` was answered is none of the dialog's
      cases h₀ with
      | nil => cases hpast
      | cons x h₀ =>
        cases hpast
        simp [Dialogue.awaits, hact, awaiting, Pause.asks]
    rw [hnone, Function.update_eq_self_iff.mpr hbefore.symm, ht]
    exact .apart hstore
  | inr b =>
    refine turn_of_answer (fun v hq => ?_) ha (segment_of_admits hp)
    subst hq
    simp [Dialogue.awaits, hact, awaiting, Pause.asks]

/-- An event leaves what the confirmations await. -/
theorem turn_of_occurs {B : Confirming → Prop} {t t' : Screen S} {e : ScreenEvent}
    {w : ℕ → Option (ElevateWait × Screen S)} (he : srv.occurs t e t') :
    Turn readOfNull B t w t' w := by
  cases e with
  | page e =>
    obtain ⟨hapart, p, hp, rfl⟩ := he
    -- only the dialog settles its promise
    refine .apart (.inl ?_)
    cases e with
    | serve r o =>
      obtain ⟨x, v, -, -, -, rfl⟩ := hp
      rfl
    | complete => cases hapart
    | cancel => cases hapart
    | identify auth =>
      obtain rfl := hp
      rfl
    | drift =>
      obtain ⟨v, -, rfl⟩ := hp
      rfl
  | elevated n o =>
    obtain ⟨x, v, hx, hopen, -, rfl⟩ := he
    exact .elevated hx hopen
  | cancel =>
    obtain ⟨hloading, rfl⟩ := he
    exact .cancel hloading
  | enter password mfaCode =>
    obtain rfl := he
    exact .enter password mfaCode
  | flush =>
    obtain rfl := he
    exact .flush

/-- What a step from a reachable screen can do. -/
theorem turn_of_step {B : Confirming → Prop} (hL : DialogueRun readOfNull srv C p L)
    (h : Step (screenBody readOfNull) screenSettles srv.occurs L l L')
    (hB : ∀ b, l = .call (.inr b) → B b) :
    Turn readOfNull B L.shared L.awaits L'.shared L'.awaits := by
  cases h with
  | call j =>
    exact turn_of_call (sat_screenBody readOfNull j L.shared).run.1 fun b hb => hB b (hb ▸ rfl)
  | resume i a hact ha =>
    have hsat := hL.coherent (sat_screenBody readOfNull) _ (List.mem_of_getElem? hact)
    exact turn_of_resume hact ha (hsat a L.shared ha).run.1
  | env e he => exact turn_of_occurs he

/-- The induction rule for the turns of a run. -/
theorem turns_of_run {I : Screen S → (ℕ → Option (ElevateWait × Screen S)) → Prop}
    {B : Screen S → Confirming → Prop} (hC : ∀ L b, C L (.call (.inr b)) → B L.shared b)
    (hstart : I (.init p) fun _ => none)
    (hturn : ∀ t w t' w', I t w → Turn readOfNull (B t) t w t' w' → I t' w')
    (hL : DialogueRun readOfNull srv C p L) : I L.shared L.awaits := by
  induction hL with
  | start => exact hstart
  | @step L L' l hreach hl hstep ih =>
    exact hturn _ _ _ _ ih (turn_of_step hreach hstep fun b hb => hC L b (hb ▸ hl))

end

/-! ## Elevations over time -/

/-- Elevations that were sent stay, and so do their outcomes. -/
def Onward (t t' : Screen S) : Prop :=
  ∀ (n : ℕ) x, t.elevations[n]? = some x → ∃ x', t'.elevations[n]? = some x' ∧
    x'.request = x.request ∧ x'.auth = x.auth ∧ ∀ o, x.outcome = some o → x'.outcome = some o

section

variable {B : Confirming → Prop} {t t' : Screen S} {w w' : ℕ → Option (ElevateWait × Screen S)}
  {n : ℕ}

/-- What was sent stays sent, and what was answered stays answered. -/
theorem onward_of_turn (h : Turn readOfNull B t w t' w') : Onward t t' := by
  have hsame {t' : Screen S} (h : t'.elevations = t.elevations) : Onward t t' :=
    fun n x hx => ⟨x, by rw [h, hx], rfl, rfl, fun _ ho => ho⟩
  cases h with
  | @elevated n x o v hx hopen =>
    intro n' x' hx'
    obtain ⟨hlt, -⟩ := List.getElem?_eq_some_iff.mp hx
    -- what is answered was not answered before
    by_cases hn : n = n'
    · subst hn
      obtain rfl := Option.some.inj (hx.symm.trans hx')
      refine ⟨_, List.getElem?_set_self hlt, rfl, rfl, fun o' ho' => ?_⟩
      rw [hopen] at ho'
      cases ho'
    · exact ⟨x', (List.getElem?_set_ne hn).trans hx', rfl, rfl, fun _ ho => ho⟩
  | send =>
    intro n' x' hx'
    obtain ⟨hlt, -⟩ := List.getElem?_eq_some_iff.mp hx'
    exact ⟨x', (List.getElem?_append_left hlt).trans hx', rfl, rfl, fun _ ho => ho⟩
  | _ => exact hsame rfl

/-- An elevation that was accepted stays so. -/
theorem Accepted.onward (h : Accepted t n) (ht : Onward t t') : Accepted t' n := by
  obtain ⟨x, reply, hx, ho, hok⟩ := h
  obtain ⟨x', hx', -, -, hout⟩ := ht n x hx
  exact ⟨x', reply, hx', hout _ ho, hok⟩

theorem FailedWith.onward {message : Text} (h : FailedWith readOfNull t n message)
    (ht : Onward t t') : FailedWith readOfNull t' n message := by
  obtain ⟨x, o, hx, ho, hmessage⟩ := h
  obtain ⟨x', hx', -, -, hout⟩ := ht n x hx
  exact ⟨x', o, hx', hout _ ho, hmessage⟩

theorem Accepted.lt (h : Accepted t n) : n < t.elevations.length := by
  obtain ⟨x, -, hx, -⟩ := h
  exact (List.getElem?_eq_some_iff.mp hx).1

/-! ## Promises over time -/

/-- A turn resolves no promise but the one of the dialog that is completed, by a confirmation whose
elevation was accepted. -/
theorem resolved_of_turn (h : Turn readOfNull B t w t' w') {q : ℕ} (hq : Resolved t' q) :
    Resolved t q ∨ (t.page.stepUp.resolvePending = some q ∧ ∃ i n c,
      w i = some (.response n, c) ∧ Accepted t n ∧ w' = Function.update w i none) := by
  have hsettle (cell : Option ℕ) (a : Except String Unit)
      (hq : (StepUpStore.settleCell cell a { t.page.stepUp with visible := false }).promises[q]? =
        some (some (.ok ()))) : Resolved t q ∨ (cell = some q ∧ a = .ok ()) := by
    cases cell with
    | none => exact .inl hq
    | some p =>
      rw [StepUpStore.settleCell, StepUpStore.getElem?_settle] at hq
      split at hq
      · next hpq =>
        -- a promise that is settled already stays as it is
        obtain ⟨o, ho, hsame⟩ := Option.map_eq_some_iff.mp hq
        cases o with
        | none => exact .inr ⟨by rw [hpq], Option.some.inj hsame⟩
        | some a' =>
          obtain rfl : a' = .ok () := Option.some.inj hsame
          exact .inl ho
      · exact .inl hq
  cases h with
  | apart hstore =>
    rcases hstore with hstore | hstore
    · exact .inl (by rwa [Resolved, hstore] at hq)
    · rw [Resolved, hstore] at hq
      -- the promise that a request makes is open
      by_cases hlt : q < t.page.stepUp.promises.length
      · rw [StepUpStore.getElem?_promises_request hlt] at hq
        exact .inl hq
      · unfold StepUpStore.request at hq
        split at hq
        · exact .inl hq
        · rw [List.getElem?_append_right (Nat.not_lt.mp hlt), List.getElem?_singleton] at hq
          split at hq <;> cases hq
  | cancel hloading =>
    rcases hsettle _ _ hq with hq | ⟨-, ha⟩
    · exact .inl hq
    · cases ha
  | complete hi hn =>
    rcases hsettle _ _ hq with hq | ⟨hcell, -⟩
    · exact .inl hq
    · exact .inr ⟨hcell, _, _, _, hi, hn, rfl⟩
  | _ => exact .inl hq

/-- The number of the elevation. -/
def ElevateWait.number : ElevateWait → ℕ
  | response n => n
  | json n => n

/-- What is awaited after one confirmation has gone on: that one's, or another's as before. -/
theorem update_eq_some {i j : ℕ} {v y : Option (ElevateWait × Screen S)}
    (h : Function.update w i v j = y) : (j = i ∧ v = y) ∨ (j ≠ i ∧ w j = y) := by
  by_cases hj : j = i
  · subst hj
    rw [Function.update_self] at h
    exact .inl ⟨rfl, h⟩
  · rw [Function.update_of_ne hj] at h
    exact .inr ⟨hj, h⟩

/-- The `n`-th elevation was sent in the screen `c`: with the password its form held, with the code
it held if one was wanted, and with the tokens of the time. -/
def SentIn (t c : Screen S) (n : ℕ) : Prop :=
  n = c.elevations.length ∧ ∃ x, t.elevations[n]? = some x ∧ x.auth = c.page.auth ∧
    Elevates c.form.password (if c.form.mfaRequired then some c.form.mfaCode else none) c.page.auth
      x.request

theorem SentIn.onward {c : Screen S} (h : SentIn t c n) (ht : Onward t t') : SentIn t' c n := by
  obtain ⟨hn, x, hx, hauth, hrequest⟩ := h
  obtain ⟨x', hx', hrequest', hauth', -⟩ := ht n x hx
  exact ⟨hn, x', hx', hauth'.trans hauth, hrequest' ▸ hrequest⟩

theorem SentIn.lt {c : Screen S} (h : SentIn t c n) : n < t.elevations.length := by
  obtain ⟨-, x, hx, -⟩ := h
  exact (List.getElem?_eq_some_iff.mp hx).1

/-- What confirmations await, and what promises were resolved by: every confirmation awaits an
elevation of its own, and every promise was resolved by one of its own that nothing awaits. -/
structure Spending (t : Screen S) (w : ℕ → Option (ElevateWait × Screen S)) : Prop where
  waits : ∀ i q c, w i = some (q, c) → SentIn t c q.number
  apart : ∀ i i' q q' c c', w i = some (q, c) → w i' = some (q', c') → q.number = q'.number →
    i = i'
  spent : ∃ f : ℕ → ℕ, (∀ p p', Resolved t p → Resolved t p' → f p = f p' → p = p') ∧
    (∀ p, Resolved t p → Accepted t (f p)) ∧
    ∀ p, Resolved t p → ∀ i n c, w i = some (.response n, c) → f p ≠ n

/-- What is awaited after a turn was awaited before it by the same confirmation, or is an elevation
that was sent in it. -/
theorem awaits_of_turn (h : Turn readOfNull B t w t' w') {i : ℕ} {q : ElevateWait} {c : Screen S}
    (hi : w' i = some (q, c)) :
    (∃ q₀, w i = some (q₀, c) ∧ q₀.number = q.number ∧ ∀ n, q = .response n → q₀ = .response n) ∨
      (w i = none ∧ q = .response t.elevations.length ∧ SentIn t' c t.elevations.length ∧
        ∀ j, j ≠ i → w' j = w j) := by
  have hold {i₀ : ℕ} (hi : Function.update w i₀ none i = some (q, c)) : ∃ q₀, w i = some (q₀, c) ∧
      q₀.number = q.number ∧ ∀ n, q = .response n → q₀ = .response n := by
    rcases update_eq_some hi with ⟨-, hnone⟩ | ⟨-, hi⟩
    · cases hnone
    · exact ⟨q, hi, rfl, fun _ hq => hq⟩
  cases h with
  | @send b hb i₀ hi₀ hpassword =>
    rcases update_eq_some hi with ⟨rfl, hq⟩ | ⟨-, hi⟩
    · cases hq
      have hsent : SentIn (t.began.sendElevation
          (elevateRequest t.form.password t.form.code t.page.auth)) t t.elevations.length :=
        ⟨rfl, _, List.getElem?_concat_length, rfl, elevates_elevateRequest ..⟩
      exact .inr ⟨hi₀, rfl, hsent, fun j hj => Function.update_of_ne hj _ _⟩
    · exact .inl ⟨q, hi, rfl, fun _ hq => hq⟩
  | read hi₀ =>
    rcases update_eq_some hi with ⟨rfl, hq⟩ | ⟨-, hi⟩
    · cases hq
      exact .inl ⟨_, hi₀, rfl, nofun⟩
    · exact .inl ⟨q, hi, rfl, fun _ hq => hq⟩
  | complete => exact .inl (hold hi)
  | fail => exact .inl (hold hi)
  | told => exact .inl (hold hi)
  | _ => exact .inl ⟨q, hi, rfl, fun _ hq => hq⟩

/-- A step keeps the invariant of what the confirmations await. -/
theorem spending_turn (hI : Spending t w) (h : Turn readOfNull B t w t' w') : Spending t' w' := by
  have honward := onward_of_turn h
  obtain ⟨f, hinj, haccepted, hfree⟩ := hI.spent
  refine ⟨fun i q c hi => ?_, fun i i' q q' c c' hi hi' hsame => ?_, ?_⟩
  · rcases awaits_of_turn h hi with ⟨q₀, hi, hq, -⟩ | ⟨-, rfl, hsent, -⟩
    · exact hq ▸ (hI.waits i q₀ c hi).onward honward
    · exact hsent
  · -- an elevation that is sent has a number that none had before
    rcases awaits_of_turn h hi with ⟨q₀, hi, hq, -⟩ | ⟨-, rfl, -, hrest⟩ <;>
      rcases awaits_of_turn h hi' with ⟨q₀', hi', hq', -⟩ | ⟨hnone, rfl, -, -⟩
    · exact hI.apart i i' _ _ _ _ hi hi' (hq.trans (hsame.trans hq'.symm))
    · have hlt := (hI.waits i q₀ c hi).lt
      rw [hq, hsame] at hlt
      exact absurd hlt (lt_irrefl _)
    · have hlt := (hI.waits i' q₀' c' hi').lt
      rw [hq', ← hsame] at hlt
      exact absurd hlt (lt_irrefl _)
    · by_contra hne
      rw [hrest i' (Ne.symm hne), hnone] at hi'
      cases hi'
  · by_cases hall : ∀ q, Resolved t' q → Resolved t q
    · refine ⟨f, fun p p' hp hp' => hinj p p' (hall p hp) (hall p' hp'),
        fun p hp => (haccepted p (hall p hp)).onward honward, fun p hp i n c hi => ?_⟩
      rcases awaits_of_turn h hi with ⟨q₀, hi, -, hq⟩ | ⟨-, hq, -⟩
      · exact hfree p (hall p hp) i n c (hq n rfl ▸ hi)
      · cases hq
        exact (haccepted p (hall p hp)).lt.ne
    · -- the promise that is resolved is charged to the elevation of the confirmation that ends
      obtain ⟨q, hq⟩ := not_forall.mp hall
      obtain ⟨hq, hopen⟩ := Classical.not_imp.mp hq
      obtain ⟨hcell, i, n, c, hi, hn, rfl⟩ := (resolved_of_turn h hq).resolve_left hopen
      have hcases (p : ℕ) (hp : Resolved t' p) : p = q ∨ (p ≠ q ∧ Resolved t p) := by
        by_cases hpq : p = q
        · exact .inl hpq
        · refine .inr ⟨hpq, (resolved_of_turn h hp).resolve_right ?_⟩
          rintro ⟨hcell', -⟩
          exact hpq (Option.some.inj (hcell'.symm.trans hcell))
      refine ⟨Function.update f q n, fun p p' hp hp' heq => ?_, fun p hp => ?_,
        fun p hp i' n' c' hi' => ?_⟩
      · rcases hcases p hp with rfl | ⟨hpq, hp⟩ <;> rcases hcases p' hp' with rfl | ⟨hpq', hp'⟩
        · rfl
        · rw [Function.update_self, Function.update_of_ne hpq'] at heq
          exact absurd heq.symm (hfree p' hp' i n c hi)
        · rw [Function.update_self, Function.update_of_ne hpq] at heq
          exact absurd heq (hfree p hp i n c hi)
        · rw [Function.update_of_ne hpq, Function.update_of_ne hpq'] at heq
          exact hinj p p' hp hp' heq
      · rcases hcases p hp with rfl | ⟨hpq, hp⟩
        · rw [Function.update_self]
          exact hn.onward honward
        · rw [Function.update_of_ne hpq]
          exact (haccepted p hp).onward honward
      · rcases update_eq_some hi' with ⟨-, hnone⟩ | ⟨hne, hi'⟩
        · cases hnone
        · rcases hcases p hp with rfl | ⟨hpq, hp⟩
          · rw [Function.update_self]
            exact fun hsame => hne (hI.apart i i' _ _ c c' hi hi' hsame).symm
          · rw [Function.update_of_ne hpq]
            exact hfree p hp i' n' c' hi'

/-! ## The form over time -/

theorem FailedWith.lt {message : Text} (h : FailedWith readOfNull t n message) :
    n < t.elevations.length := by
  obtain ⟨x, -, hx, -⟩ := h
  exact (List.getElem?_eq_some_iff.mp hx).1

/-- The `n`-th elevation failed for want of a code. -/
abbrev AskedForCode (readOfNull : Text) (t : Screen S) (n : ℕ) : Prop :=
  FailedWith readOfNull t n (text "mfa_required")

/-- What the form shows, and what was sent of it. -/
structure FormKept (readOfNull : Text) (t : Screen S)
    (w : ℕ → Option (ElevateWait × Screen S)) : Prop where
  /-- An elevation carries a password, and a code only after one had failed for want of it. -/
  sent : ∀ (n : ℕ) x, t.elevations[n]? = some x → ∃ password code, password ≠ [] ∧
    Elevates password code x.auth x.request ∧
    (code ≠ none → ∃ m < n, AskedForCode readOfNull t m)
  /-- The field of the code is shown only after that. -/
  code : t.form.mfaRequired = true → ∃ m, AskedForCode readOfNull t m
  /-- The form says that an elevation is under way only while one is. -/
  loading : t.form.loading = true → ∃ i q c, w i = some (q, c)
  /-- It shows that the password is missing, or what a failed elevation threw. -/
  shown : ∀ e, t.form.error = some e → e = text "Password is required." ∨
    ∃ m message, FailedWith readOfNull t m message ∧ e = errorText message
  /-- A body that is read is one of a refusal. -/
  reads : ∀ i n c, w i = some (.json n, c) → ∃ x reply, t.elevations[n]? = some x ∧
    x.outcome = some (.ok reply) ∧ okStatus reply.status = false

/-- The part of it that depends on the elevations alone. -/
theorem sent_turn (hI : FormKept readOfNull t w) (h : Turn readOfNull B t w t' w') (n : ℕ)
    (x : Exchange) (hx : t'.elevations[n]? = some x) : ∃ password code, password ≠ [] ∧
      Elevates password code x.auth x.request ∧
      (code ≠ none → ∃ m < n, AskedForCode readOfNull t' m) := by
  have honward := onward_of_turn h
  by_cases hlt : n < t.elevations.length
  · -- it was sent before, and stays as it was
    obtain ⟨x', hx', hrequest, hauth, -⟩ := honward n _ (List.getElem?_eq_getElem hlt)
    obtain rfl := Option.some.inj (hx.symm.trans hx')
    obtain ⟨password, code, hpassword, hsent, hcode⟩ :=
      hI.sent n _ (List.getElem?_eq_getElem hlt)
    refine ⟨password, code, hpassword, by rwa [hrequest, hauth], fun hne => ?_⟩
    obtain ⟨m, hm, hasked⟩ := hcode hne
    exact ⟨m, hm, hasked.onward honward⟩
  · -- it is sent in this turn, with what the form holds
    cases h with
    | send hb hi hpassword =>
      have hlen : n < t.elevations.length + 1 := by
        simpa [Screen.sendElevation, Screen.began, Screen.setForm] using
          (List.getElem?_eq_some_iff.mp hx).1
      obtain rfl : n = t.elevations.length := by omega
      obtain rfl := Option.some.inj (List.getElem?_concat_length.symm.trans hx)
      refine ⟨t.form.password, t.form.code, hpassword, elevates_elevateRequest .., fun hne => ?_⟩
      have hform : t.form.mfaRequired = true := by
        by_contra hform
        exact hne (if_neg hform)
      obtain ⟨m, hasked⟩ := hI.code hform
      exact ⟨m, hasked.lt, hasked.onward honward⟩
    | elevated hx₀ hopen =>
      rw [List.getElem?_eq_none (by simpa using hlt)] at hx
      cases hx
    | _ => exact absurd (List.getElem?_eq_some_iff.mp hx).1 hlt

/-- What is read of an elevation is the body of a refusal. -/
theorem reads_turn (hI : FormKept readOfNull t w) (h : Turn readOfNull B t w t' w') (i n : ℕ)
    (c : Screen S) (hi : w' i = some (.json n, c)) : ∃ x reply, t'.elevations[n]? = some x ∧
      x.outcome = some (.ok reply) ∧ okStatus reply.status = false := by
  have hold (h₀ : ∃ x reply, t.elevations[n]? = some x ∧ x.outcome = some (.ok reply) ∧
      okStatus reply.status = false) : ∃ x reply, t'.elevations[n]? = some x ∧
      x.outcome = some (.ok reply) ∧ okStatus reply.status = false := by
    obtain ⟨x, reply, hx, ho, hok⟩ := h₀
    obtain ⟨x', hx', -, -, hout⟩ := onward_of_turn h n x hx
    exact ⟨x', reply, hx', hout _ ho, hok⟩
  have hrest {i₀ : ℕ} {v : Option (ElevateWait × Screen S)}
      (hi : Function.update w i₀ v i = some (.json n, c)) (hv : v ≠ some (.json n, c)) :
      w i = some (.json n, c) := by
    rcases update_eq_some hi with ⟨-, hsame⟩ | ⟨-, hi⟩
    · exact absurd hsame hv
    · exact hi
  refine hold ?_
  cases h with
  | send => exact hI.reads i n c (hrest hi nofun)
  | read hi₀ hx ho hok =>
    rcases update_eq_some hi with ⟨-, hsame⟩ | ⟨-, hi⟩
    · cases hsame
      exact ⟨_, _, hx, ho, hok⟩
    · exact hI.reads i n c hi
  | complete => exact hI.reads i n c (hrest hi nofun)
  | fail => exact hI.reads i n c (hrest hi nofun)
  | told => exact hI.reads i n c (hrest hi nofun)
  | _ => exact hI.reads i n c hi

/-- What the error that ends a confirmation was. -/
theorem refused_of_turn (hI : FormKept readOfNull t w) (h : Turn readOfNull B t w t' w') :
    t'.form = t.form ∨ t'.form = .blank ∨
      (∃ message n, FailedWith readOfNull t n message ∧ t' = (t.refused message).ended) ∨
      (t'.form.mfaRequired = t.form.mfaRequired ∧
        (t'.form.error = none ∨ t'.form.error = t.form.error ∨
          t'.form.error = some (text "Password is required."))) := by
  cases h with
  | flush =>
    show (if _ then _ else _) = _ ∨ (if _ then _ else _) = _ ∨ _
    split
    · exact .inr (.inl rfl)
    · exact .inl rfl
  | enter => exact .inr (.inr (.inr ⟨rfl, .inr (.inl rfl)⟩))
  | missing => exact .inr (.inr (.inr ⟨rfl, .inr (.inr rfl)⟩))
  | send => exact .inr (.inr (.inr ⟨rfl, .inl rfl⟩))
  | complete => exact .inr (.inr (.inr ⟨rfl, .inr (.inl rfl)⟩))
  | fail hi hx ho => exact .inr (.inr (.inl ⟨_, _, ⟨_, _, hx, ho, .unreached _⟩, rfl⟩))
  | @told i n c hi x reply hx ho =>
    -- the body was read because the status was none of success
    obtain ⟨x', reply', hx', ho', hok⟩ := hI.reads i n c hi
    obtain rfl := Option.some.inj (hx.symm.trans hx')
    cases ho.symm.trans ho'
    exact .inr (.inr (.inl ⟨_, n, ⟨x, _, hx, ho, throws_elevateMessage _ hok⟩, rfl⟩))
  | _ => exact .inl rfl

/-- The form says that an elevation is under way only while one is. -/
theorem loading_turn (hI : FormKept readOfNull t w) (h : Turn readOfNull B t w t' w')
    (hform : t'.form.loading = true) : ∃ i q c, w' i = some (q, c) := by
  cases h with
  | flush =>
    unfold Screen.flush at hform
    dsimp only at hform
    split at hform
    · cases hform
    · exact hI.loading hform
  | send => exact ⟨_, _, _, Function.update_self _ _ _⟩
  | read => exact ⟨_, _, _, Function.update_self _ _ _⟩
  | complete => cases hform
  | fail => cases hform
  | told => cases hform
  | _ => exact hI.loading hform

/-- A step keeps the invariant of the form. -/
theorem formKept_turn (hI : FormKept readOfNull t w) (h : Turn readOfNull B t w t' w') :
    FormKept readOfNull t' w' := by
  have honward := onward_of_turn h
  have hcode (hform : t.form.mfaRequired = true) : ∃ m, AskedForCode readOfNull t' m := by
    obtain ⟨m, hasked⟩ := hI.code hform
    exact ⟨m, hasked.onward honward⟩
  have hshown (e : Text) (he : t.form.error = some e) : e = text "Password is required." ∨
      ∃ m message, FailedWith readOfNull t' m message ∧ e = errorText message := by
    rcases hI.shown e he with he | ⟨m, message, hm, he⟩
    · exact .inl he
    · exact .inr ⟨m, message, hm.onward honward, he⟩
  refine ⟨sent_turn hI h, fun hform => ?_, loading_turn hI h, fun e he => ?_, reads_turn hI h⟩
  · rcases refused_of_turn hI h with hsame | hblank | ⟨message, n, hn, rfl⟩ | ⟨hsame, -⟩
    · exact hcode (hsame ▸ hform)
    · rw [hblank] at hform
      cases hform
    · -- a code was wanted before, or it is now
      rcases Bool.or_eq_true_iff.mp hform with hform | hmessage
      · exact hcode hform
      · exact ⟨n, of_decide_eq_true hmessage ▸ hn.onward honward⟩
    · exact hcode (hsame ▸ hform)
  · rcases refused_of_turn hI h with hsame | hblank | ⟨message, n, hn, rfl⟩ | ⟨-, herror⟩
    · exact hshown e (hsame ▸ he)
    · rw [hblank] at he
      cases he
    · obtain rfl := Option.some.inj he
      exact .inr ⟨n, message, hn.onward honward, rfl⟩
    · rcases herror with herror | herror | herror
      · rw [herror] at he
        cases he
      · exact hshown e (herror ▸ he)
      · exact .inl (Option.some.inj (he.symm.trans herror))

end

/-! ## The page behind the dialog -/

/-- The server as the page sees it: an elevation may change its state at any time. -/
def Server.elevated (srv : Server S) : Server S where
  serve := srv.serve
  drift v v' := srv.drift v v' ∨ ∃ request o, srv.serve v request v' o

section

variable {srv : Server S} {C : Dialogue S → DialogueMove → Prop} {auth : AuthStore}
  {monitor : MonitorStore} {server : S} {L L' : Dialogue S} {l : DialogueMove}

/-- For the page, a segment of `confirm` completes the dialog or does nothing. -/
theorem stutters_of_segment {h : List (Answered (Sum.elim Wait.Value ElevateWait.Value) String)}
    {t t' : Screen S} {asks : Option (Wait ⊕ ElevateWait)}
    (hseg : ConfirmSegment readOfNull t h t' asks) :
    Stutters Screen.pagePart srv.elevated.happens t t' := by
  cases hseg with
  | completes => exact .inr ⟨.complete, rfl⟩
  | _ => exact .inl rfl

/-- For the page, what the user does to the form is nothing. -/
theorem stutters_of_occurs {t t' : Screen S} {e : ScreenEvent} (he : srv.occurs t e t') :
    Stutters Screen.pagePart srv.elevated.happens t t' := by
  cases e with
  | page e =>
    obtain ⟨-, p, hp, rfl⟩ := he
    refine .inr ⟨e, ?_⟩
    cases e with
    | drift =>
      obtain ⟨v, hv, rfl⟩ := hp
      exact ⟨v, .inl hv, rfl⟩
    | _ => exact hp
  | elevated n o =>
    obtain ⟨x, v, -, -, hserve, rfl⟩ := he
    exact .inr ⟨.drift, v, .inr ⟨_, _, hserve⟩, rfl⟩
  | cancel =>
    obtain ⟨-, rfl⟩ := he
    exact .inr ⟨.cancel, rfl⟩
  | _ =>
    obtain rfl := he
    exact .inl rfl

/-- Seen from the page, a run is one of `fetchWithAuth` with the dialog as its environment. -/
theorem page_of_run (hL : DialogueRun readOfNull srv C (.init auth monitor server) L) :
    ∃ acts, FetchRun srv.elevated (.init auth monitor server) ⟨L.shared.page, acts⟩ ∧
      Embeds Screen.pagePart acts L.acts := by
  have hsettles (t : Screen S) (q : Wait) (a : Except String q.Value)
      (ha : screenSettles t (.inl q) a) : settles t.page q a := ha
  refine Reachable.part (P := Screen.pagePart) (S := screenSpec readOfNull)
    (sat_screenBody readOfNull) hsettles ?_ ?_ hL
  · exact fun _ _ _ _ _ _ hp => stutters_of_segment (segment_of_admits hp)
  · exact fun _ _ _ he => stutters_of_occurs he

/-- It holds of a new screen. -/
theorem spending_init {p : Page S} (hp : p.stepUp = .init) :
    Spending (.init p) fun _ => none := by
  have hnone (q : ℕ) : ¬Resolved (.init p) q := by
    show ¬p.stepUp.promises[q]? = some (some (.ok ()))
    rw [hp]
    exact nofun
  refine ⟨fun i q c hi => ?_, fun i i' q q' c c' hi => ?_, id, ?_⟩
  · cases hi
  · cases hi
  · exact ⟨fun _ _ hq => absurd hq (hnone _), fun _ hq => absurd hq (hnone _),
      fun _ hq => absurd hq (hnone _)⟩

theorem formKept_init (p : Page S) : FormKept readOfNull (.init p) fun _ => none := by
  constructor
  · intro n x hx
    cases hx
  · intro hform
    cases hform
  · intro hform
    cases hform
  · intro e he
    cases he
  · intro i n c hi
    cases hi

/-- In every run no two promises are resolved by one elevation. -/
theorem spending_of_run {p : Page S} (hp : p.stepUp = .init)
    (hL : DialogueRun readOfNull srv C p L) : Spending L.shared L.awaits :=
  turns_of_run (I := Spending) (B := fun _ _ => True) (fun _ _ _ => trivial) (spending_init hp)
    (fun _ _ _ _ hI h => spending_turn hI h) hL

/-- In every run the invariant of the form holds. -/
theorem formKept_of_run {p : Page S} (hL : DialogueRun readOfNull srv C p L) :
    FormKept readOfNull L.shared L.awaits :=
  turns_of_run (I := FormKept readOfNull) (B := fun _ _ => True) (fun _ _ _ => trivial)
    (formKept_init p) (fun _ _ _ _ hI h => formKept_turn hI h) hL

/-- What holds of the dialog and of the calls that wait for it. -/
structure Earned (readOfNull : Text) (L : Dialogue S) : Prop where
  /-- A promise is resolved by an elevation of its own that was accepted. -/
  spent : ∃ f : ℕ → ℕ, (∀ p p', Resolved L.shared p → Resolved L.shared p' → f p = f p' → p = p') ∧
    ∀ p, Resolved L.shared p → Accepted L.shared (f p)
  /-- A call keeps to what it does alone, and sends its request once more after an elevation that
  was accepted. -/
  kept : ∀ x ∈ L.acts, ∀ j, x.job = .inl j → ∃ act : Fetching S, act.job = j ∧
    x = act.within Screen.pagePart x.called ∧ Kept L.shared.page act ∧
    ((requestsOf act).length = 2 → ∃ n, Accepted L.shared n)
  /-- An elevation carries a password, and a code only after one had failed for want of it. -/
  sent : ∀ (n : ℕ) x, L.shared.elevations[n]? = some x → ∃ password code,
    password ≠ [] ∧ Elevates password code x.auth x.request ∧
    (code ≠ none → ∃ m < n, AskedForCode readOfNull L.shared m)
  /-- The dialog says that an elevation is under way only while one is. -/
  loading : L.shared.form.loading = true → ∃ i q c, L.awaits i = some (q, c)
  /-- It shows that the password is missing, or what a failed elevation threw. -/
  shown : ∀ e, L.shared.form.error = some e → e = text "Password is required." ∨
    ∃ m message, FailedWith readOfNull L.shared m message ∧ e = errorText message

/-- In every run of calls beside the dialog, whatever is typed and clicked: the dialog is completed
by an elevation of its own that was accepted, and no call sends its request once more without. -/
theorem earned_of_run (hL : DialogueRun readOfNull srv C (.init auth monitor server) L) :
    Earned readOfNull L := by
  obtain ⟨acts, hrun, hembeds⟩ := page_of_run hL
  obtain ⟨f, hinj, haccepted, -⟩ := (spending_of_run rfl hL).spent
  have hform := formKept_of_run hL
  refine ⟨⟨f, hinj, haccepted⟩, fun x hx j hj => ?_, hform.sent, hform.loading, hform.shown⟩
  obtain ⟨act, hact, c, rfl⟩ := hembeds.mem hx hj
  have horderly := orderly_of_run hrun
  have hkept : Kept L.shared.page act := (horderly.course act hact).kept horderly.store
  refine ⟨act, Sum.inl.inj hj, rfl, hkept, fun htwice => ?_⟩
  -- the elevation it waited for was completed, so it was earned
  obtain ⟨p, hp⟩ := hkept.elevated htwice
  exact ⟨f p, haccepted p (hkept.answered p (.ok ()) hp)⟩

/-! ## Without the return key -/

/-- `confirm` is called by the button of a dialog that is shown, and not while an elevation is under
way. -/
def ByButton (L : Dialogue S) (l : DialogueMove) : Prop :=
  ∀ b, l = .call (.inr b) → b = .button ∧ L.shared.form.loading = false ∧
    L.shared.watched = true ∧ L.shared.page.stepUp.visible = true

/-- One confirmation is under way at most, and it was called in the dialog that is open. -/
structure Single (t : Screen S) (w : ℕ → Option (ElevateWait × Screen S)) : Prop where
  store : t.page.stepUp.WellFormed
  under : ∀ i q c, w i = some (q, c) → t.form.loading = true ∧ t.watched = true ∧
    ∃ p, t.page.stepUp.pending = some p ∧ c.page.stepUp.pending = some p
  alone : ∀ i i' y y', w i = some y → w i' = some y' → i = i'

/-- A step keeps the invariant of the dialogs when only the enabled button confirms. -/
theorem single_turn {t t' : Screen S} {w w' : ℕ → Option (ElevateWait × Screen S)}
    (hI : Single t w) (h : Turn readOfNull (fun b => b = .button ∧ t.form.loading = false ∧
      t.watched = true ∧ t.page.stepUp.visible = true) t w t' w') : Single t' w' := by
  -- nothing is under way when the form does not say so
  have hidle (hform : t.form.loading = false) (i : ℕ) : w i = none := by
    refine Option.eq_none_iff_forall_ne_some.mpr fun y hi => ?_
    rw [(hI.under i _ _ hi).1] at hform
    cases hform
  -- the confirmation that ends was the only one
  have hends {i : ℕ} {y : ElevateWait × Screen S} (hi : w i = some y) (j : ℕ) :
      Function.update w i none j = none := by
    refine Option.eq_none_iff_forall_ne_some.mpr fun y' hj => ?_
    rcases update_eq_some hj with ⟨-, hnone⟩ | ⟨hne, hj⟩
    · cases hnone
    · exact hne (hI.alone j i _ _ hj hi)
  have hnone {t' : Screen S} {w' : ℕ → Option (ElevateWait × Screen S)}
      (hstore : t'.page.stepUp.WellFormed) (hw : ∀ j, w' j = none) : Single t' w' := by
    refine ⟨hstore, fun i q c hi => ?_, fun i i' y y' hi => ?_⟩ <;>
    · rw [hw] at hi
      cases hi
  cases h with
  | apart hstore =>
    rcases hstore with hstore | hstore
    · exact ⟨hstore ▸ hI.store, hstore ▸ hI.under, hI.alone⟩
    · refine ⟨hstore ▸ hI.store.request, fun i q c hi => ?_, hI.alone⟩
      -- a request joins the dialog that is open
      obtain ⟨hform, hwatched, p, hp, hc⟩ := hI.under i q c hi
      refine ⟨hform, hwatched, p, ?_, hc⟩
      dsimp only
      rw [hstore, StepUpStore.request_of_pending hp, hp]
  | elevated hx hopen => exact ⟨hI.store, hI.under, hI.alone⟩
  | cancel hform => exact hnone hI.store.cancel.1 (hidle hform)
  | enter password mfaCode => exact ⟨hI.store, hI.under, hI.alone⟩
  | flush =>
    refine ⟨hI.store, fun i q c hi => ?_, hI.alone⟩
    -- the watcher has seen the dialog open already, so the form stays
    obtain ⟨hform, hwatched, p, hp, hc⟩ := hI.under i q c hi
    have hvisible : t.page.stepUp.visible = true := by rw [hI.store.visible, hp]; rfl
    refine ⟨?_, hvisible, p, hp, hc⟩
    show (if t.page.stepUp.visible && !t.watched then Form.blank else t.form).loading = true
    rw [hwatched, Bool.not_true, Bool.and_false, if_neg Bool.false_ne_true, hform]
  | missing hpassword => exact ⟨hI.store, hI.under, hI.alone⟩
  | @send b hb i hi hpassword =>
    obtain ⟨-, hform, hwatched, hvisible⟩ := hb
    obtain ⟨p, hp⟩ := Option.isSome_iff_exists.mp (hI.store.visible.symm.trans hvisible)
    have honly (j : ℕ) (y : ElevateWait × Screen S)
        (hj : Function.update w i (some (.response t.elevations.length, t)) j = some y) :
        j = i ∧ y.2 = t := by
      rcases update_eq_some hj with ⟨hji, hy⟩ | ⟨-, hj⟩
      · exact ⟨hji, congrArg Prod.snd (Option.some.inj hy).symm⟩
      · rw [hidle hform] at hj
        cases hj
    refine ⟨hI.store, fun j q c hj => ?_, fun j j' y y' hj hj' => ?_⟩
    · obtain rfl : c = t := (honly j (q, c) hj).2
      exact ⟨rfl, hwatched, p, hp, hp⟩
    · exact (honly j y hj).1.trans (honly j' y' hj').1.symm
  | @read i n c hi x reply hx ho hok =>
    have hback (j : ℕ) (y : ElevateWait × Screen S)
        (hj : Function.update w i (some (.json n, c)) j = some y) :
        ∃ q, w j = some (q, y.2) := by
      rcases update_eq_some hj with ⟨rfl, hy⟩ | ⟨-, hj⟩
      · obtain rfl := Option.some.inj hy
        exact ⟨_, hi⟩
      · exact ⟨y.1, hj⟩
    refine ⟨hI.store, fun j q c' hj => ?_, fun j j' y y' hj hj' => ?_⟩
    · obtain ⟨q₀, hj⟩ := hback j (q, c') hj
      exact hI.under j q₀ c' hj
    · obtain ⟨q₀, hj⟩ := hback j y hj
      obtain ⟨q₀', hj'⟩ := hback j' y' hj'
      exact hI.alone j j' _ _ hj hj'
  | complete hi hn => exact hnone hI.store.complete.1 (hends hi)
  | fail hi hx ho => exact hnone hI.store (hends hi)
  | told hi hx ho => exact hnone hI.store (hends hi)

/-- In every run in which only the button confirms, one elevation is under way at most. -/
theorem single_of_run (hL : DialogueRun readOfNull srv ByButton (.init auth monitor server) L) :
    Single L.shared L.awaits := by
  have hstart : Single (.init (.init auth monitor server) : Screen S) fun _ => none := by
    refine ⟨StepUpStore.wellFormed_init, fun i q c hi => ?_, fun i i' y y' hi => ?_⟩ <;> cases hi
  exact turns_of_run (I := Single) (fun L b hb => hb b rfl) hstart
    (fun _ _ _ _ hI h => single_turn hI h) hL

/-- In every run in which only the button confirms, a step that resolves a promise does so for the
dialog that is open, by an elevation that was sent while it was, with what its form held then, and
that was accepted. -/
theorem ownElevation_of_run (hL : DialogueRun readOfNull srv ByButton (.init auth monitor server) L)
    (h : Step (screenBody readOfNull) screenSettles srv.occurs L l L') {p : ℕ}
    (hp : Resolved L'.shared p) (hopen : ¬Resolved L.shared p) :
    ∃ i n c, L.awaits i = some (.response n, c) ∧
      L.shared.page.stepUp.pending = some p ∧ c.page.stepUp.pending = some p ∧
      SentIn L.shared c n ∧ Accepted L.shared n := by
  have hturn := turn_of_step (B := fun _ => True) hL h fun _ _ => trivial
  obtain ⟨hcell, i, n, c, hi, hn, -⟩ := (resolved_of_turn hturn hp).resolve_left hopen
  have hsingle := single_of_run hL
  obtain ⟨-, -, p', hp', hc⟩ := hsingle.under i _ c hi
  -- the promise the store resolves is the pending one
  rw [hsingle.store.resolve] at hcell
  obtain rfl := Option.some.inj (hcell.symm.trans hp')
  exact ⟨i, n, c, hi, hp', hc, (spending_of_run rfl hL).waits i _ c hi, hn⟩

end

/-! ## One dialog -/

/-- The outcome of the `n`-th elevation, if there is one. -/
def Screen.outcome (t : Screen S) (n : ℕ) : Option (Except String Reply) :=
  (t.elevations[n]?).bind Exchange.outcome

/-- The answer that is there for a question of the screen. -/
def screenAnswer (t : Screen S) :
    (q : Wait ⊕ ElevateWait) → Except String (Sum.elim Wait.Value ElevateWait.Value q)
  | .inl q => answerOf t.page q
  | .inr (.response n) => (t.outcome n).elim (.error "none") fun o => o.map Reply.status
  | .inr (.json n) =>
    match t.outcome n with
    | some (.ok reply) => reply.body.elim (.error "none") .ok
    | _ => .error "none"

/-- Is there an answer to the question? -/
def hasScreenAnswer (t : Screen S) : Wait ⊕ ElevateWait → Bool
  | .inl q => hasAnswer t.page q
  | .inr (.response n) => (t.outcome n).isSome
  | .inr (.json n) =>
    match t.outcome n with
    | some (.ok _) => true
    | _ => false

/-- An answer that is there settles the question. -/
theorem screenSettles_answer {t : Screen S} {q : Wait ⊕ ElevateWait}
    (h : hasScreenAnswer t q = true) : screenSettles t q (screenAnswer t q) := by
  cases q with
  | inl q => exact settles_answerOf h
  | inr q =>
    cases q with
    | response n =>
      obtain ⟨o, ho⟩ := Option.isSome_iff_exists.mp h
      obtain ⟨x, hx, hout⟩ := Option.bind_eq_some_iff.mp ho
      exact ⟨x, o, hx, hout, by rw [screenAnswer, ho]; rfl⟩
    | json n =>
      cases ho : t.outcome n with
      | none => simp [hasScreenAnswer, ho] at h
      | some o =>
        obtain ⟨x, hx, hout⟩ := Option.bind_eq_some_iff.mp ho
        cases o with
        | error e => simp [hasScreenAnswer, ho] at h
        | ok reply =>
          refine ⟨x, reply, hx, hout, ?_⟩
          obtain ⟨status, body⟩ := reply
          rw [screenAnswer, ho]
          cases body with
          | none => exact ⟨_, rfl⟩
          | some v => rfl

/-- The dialogue after an answer. -/
def Dialogue.resumed (L : Dialogue S) (i : ℕ) : Dialogue S := L.answered i (screenAnswer L.shared)

/-- The dialogue with another screen. -/
def Dialogue.on (L : Dialogue S) (t : Screen S) : Dialogue S := { L with shared := t }

/-- A function whose answer is there is answered. -/
theorem dialogue_resumed {srv : Server S} {C : Dialogue S → DialogueMove → Prop} {p : Page S}
    {L : Dialogue S} (hL : DialogueRun readOfNull srv C p L) (i : ℕ)
    (hq : (L.question i).any (hasScreenAnswer L.shared) = true) (hC : ∀ a, C L (.resume i a)) :
    DialogueRun readOfNull srv C p (L.resumed i) := by
  cases h : L.question i with
  | none =>
    rw [h] at hq
    cases hq
  | some q =>
    rw [h] at hq
    exact hL.answered i _ h (screenSettles_answer hq) (hC _)

/-- The screen after the server has processed the `n`-th elevation. -/
def Screen.answered (t : Screen S) (n : ℕ) (v : S) (o : Except String Reply) : Screen S :=
  { t with
    page := { t.page with server := v }
    elevations := t.elevations.modify n fun x => { x with outcome := some o } }

/-- The server may process an elevation that is open. -/
theorem occurs_answered {srv : Server S} {t : Screen S} {n : ℕ} {v : S} {o : Except String Reply}
    {x : Exchange} (hx : t.elevations[n]? = some x) (hopen : x.outcome = none)
    (hserve : srv.serve t.page.server x.request v o) :
    srv.occurs t (.elevated n o) (t.answered n v o) := by
  refine ⟨x, v, hx, hopen, hserve, ?_⟩
  unfold Screen.answered
  rw [List.modify_eq_set_getElem?, hx]
  rfl

/-- What the engine says of a property of `null`. -/
def nullMessage : Text := text "data is null"

/-- The body of an elevation that is refused for want of a code. -/
def codeWanted : Json := .obj [(text "error", .str (text "mfa_required"))]

/-- A server that elevates the session when it is asked to, or wants a code first, and refuses
requests until then. The elevation may end at any time. -/
def elevatingOnDemand : Server Bool where
  serve elevated request elevated' o :=
    if request.url.path = text "/bff/elevate" then
      elevated' = true ∧ o = .ok ⟨200, none⟩ ∨ elevated' = elevated ∧ o = .ok ⟨401, some codeWanted⟩
    else elevated' = elevated ∧ o = .ok (elevatingReply elevated)
  drift _ _ := True

/-- The dialogue with another page. -/
def Dialogue.onPage (L : Dialogue S) (p : Page S) : Dialogue S := L.on { L.shared with page := p }

/-- The elevation has ended, and the next call is sent. -/
def Dialogue.asks (L : Dialogue Bool) (id : Text) : Dialogue Bool :=
  (L.onPage { L.shared.page with server := false }).called (screenBody nullMessage)
    (.inl (revokeUserTokens id))

/-- Its request is refused. -/
def Dialogue.refused (L : Dialogue Bool) (r : ℕ) : Dialogue Bool :=
  L.onPage (L.shared.page.served r false (.ok (elevatingReply false)))

/-- It waits for the dialog. -/
def Dialogue.waits (L : Dialogue Bool) (id : Text) (i : ℕ) : Dialogue Bool :=
  (((L.asks id).refused L.shared.page.exchanges.length).resumed i).resumed i

/-- The first call waits. -/
def waitingCall : Dialogue Bool := Dialogue.waits (Loop.start (.init signedInPage)) (text "1") 0

/-- A password and a code are typed. -/
def Screen.typed (t : Screen S) (password mfaCode : Text) : Screen S :=
  t.setForm { t.form with password := password, mfaCode := mfaCode }

/-- The password is typed and confirmed. -/
def confirming : Dialogue Bool :=
  (Dialogue.on waitingCall (waitingCall.shared.flush.typed (text "pw") [])).called
    (screenBody nullMessage) (.inr .button)

/-- The elevation is refused, for want of a code. -/
def codeAsked : Dialogue Bool :=
  ((confirming.on (confirming.shared.answered 0 false (.ok ⟨401, some codeWanted⟩))).resumed
    1).resumed 1

/-- The code is typed and confirmed. -/
def confirmingCode : Dialogue Bool :=
  (codeAsked.on (codeAsked.shared.typed (text "pw") (text "123456"))).called
    (screenBody nullMessage) (.inr .button)

/-- The elevation is accepted. -/
def acceptedOne : Dialogue Bool :=
  confirmingCode.on (confirmingCode.shared.answered 1 true (.ok ⟨200, none⟩))

/-- The dialog is completed. -/
def completedOne : Dialogue Bool := acceptedOne.resumed 2

/-- The request is sent once more. -/
def resentOne : Dialogue Bool := completedOne.resumed 0

/-- The return key has confirmed a second time meanwhile. The first elevation is accepted, and
completes the dialog. -/
def completedLate : Dialogue Bool :=
  let L : Dialogue Bool := confirming.called (screenBody nullMessage) (.inr .returnKey)
  (L.on (L.shared.answered 0 true (.ok ⟨200, none⟩))).resumed 1

/-- Another call waits for the next dialog, and then the second elevation is accepted. -/
def acceptedLate : Dialogue Bool :=
  let L : Dialogue Bool := completedLate.waits (text "2") 3
  L.on (L.shared.answered 1 true (.ok ⟨200, none⟩))

/-- The steps of `Dialogue.waits`, where the two answers are there. -/
theorem run_waits {C : Dialogue Bool → DialogueMove → Prop} {L : Dialogue Bool}
    (hC : ∀ L l, (∀ b, l ≠ .call (.inr b)) → C L l)
    (hL : DialogueRun nullMessage elevatingOnDemand C signedInPage L) (id : Text) (i : ℕ)
    {L' : Dialogue Bool} (hL' : L' = (L.asks id).refused L.shared.page.exchanges.length)
    (hq : (L'.question i).any (hasScreenAnswer L'.shared) = true)
    (hq' : ((L'.resumed i).question i).any (hasScreenAnswer (L'.resumed i).shared) = true) :
    DialogueRun nullMessage elevatingOnDemand C signedInPage (L.waits id i) := by
  subst hL'
  have hdrift := hL.happened (.page .drift)
    ⟨rfl, { L.shared.page with server := false }, ⟨false, trivial, rfl⟩, rfl⟩ (hC _ _ nofun)
  have hcall := hdrift.called (.inl (revokeUserTokens id)) (hC _ _ nofun)
  have hserve := hcall.happened (.page (.serve L.shared.page.exchanges.length
    (.ok (elevatingReply false)))) ⟨rfl, _, Server.happens_served List.getElem?_concat_length rfl
      ⟨rfl, rfl⟩, rfl⟩ (hC _ _ nofun)
  exact dialogue_resumed (dialogue_resumed hserve i hq fun _ => hC _ _ nofun) i hq'
    fun _ => hC _ _ nofun

/-- A call whose request was refused opens the dialog. -/
theorem run_waitingCall :
    DialogueRun nullMessage elevatingOnDemand ByButton signedInPage waitingCall :=
  run_waits (fun _ _ h b hb => absurd hb (h b)) .start (text "1") 0 rfl rfl (by decide +kernel)

theorem run_confirming :
    DialogueRun nullMessage elevatingOnDemand ByButton signedInPage confirming := by
  have h₁ := run_waitingCall.happened .flush rfl nofun
  have h₂ := h₁.happened (.enter (text "pw") []) rfl nofun
  exact h₂.called (.inr .button) fun b hb => by
    cases hb
    exact ⟨rfl, by decide +kernel⟩

/-- The server may accept an elevation. -/
theorem occurs_accepted {t : Screen Bool} {n : ℕ} {x : Exchange} (hx : t.elevations[n]? = some x)
    (hopen : x.outcome = none) (hpath : x.request.url.path = text "/bff/elevate") :
    elevatingOnDemand.occurs t (.elevated n (.ok ⟨200, none⟩))
      (t.answered n true (.ok ⟨200, none⟩)) :=
  occurs_answered hx hopen ((if_pos hpath).mpr (.inl ⟨rfl, rfl⟩))

theorem run_codeAsked :
    DialogueRun nullMessage elevatingOnDemand ByButton signedInPage codeAsked := by
  have h₁ := run_confirming.happened (.elevated 0 (.ok ⟨401, some codeWanted⟩))
    (occurs_answered rfl rfl (.inr ⟨rfl, rfl⟩)) nofun
  have h₂ := dialogue_resumed h₁ 1 (by decide +kernel) fun _ => nofun
  exact dialogue_resumed h₂ 1 (by decide +kernel) fun _ => nofun

theorem run_acceptedOne :
    DialogueRun nullMessage elevatingOnDemand ByButton signedInPage acceptedOne := by
  have h₁ := run_codeAsked.happened (.enter (text "pw") (text "123456")) rfl nofun
  have h₂ : DialogueRun nullMessage elevatingOnDemand ByButton signedInPage confirmingCode :=
    h₁.called (.inr .button) fun b hb => by
      cases hb
      exact ⟨rfl, by decide +kernel⟩
  exact h₂.happened (.elevated 1 (.ok ⟨200, none⟩)) (occurs_accepted rfl rfl rfl) nofun

theorem run_resentOne :
    DialogueRun nullMessage elevatingOnDemand ByButton signedInPage resentOne := by
  have h₁ : DialogueRun nullMessage elevatingOnDemand ByButton signedInPage completedOne :=
    dialogue_resumed run_acceptedOne 2 (by decide +kernel) fun _ => nofun
  exact dialogue_resumed h₁ 0 (by decide +kernel) fun _ => nofun

/-- The dialog has shown that a code is wanted, and its second elevation was accepted. The call has
sent its request twice. -/
theorem resentOne_earned :
    codeAsked.shared.form.error = some (text "Enter your MFA code to continue.") ∧
      Earned nullMessage codeAsked ∧ resentOne.shared.elevations.length = 2 ∧
      resentOne.shared.page.exchanges.length = 2 ∧ Resolved resentOne.shared 0 ∧
      Earned nullMessage resentOne :=
  ⟨rfl, earned_of_run run_codeAsked, by decide +kernel, by decide +kernel, rfl,
    earned_of_run run_resentOne⟩

/-- The elevation that completes the dialog was sent in it, with the code. -/
theorem completedOne_own : ∃ i n c, acceptedOne.awaits i = some (.response n, c) ∧
    acceptedOne.shared.page.stepUp.pending = some 0 ∧ c.page.stepUp.pending = some 0 ∧
      SentIn acceptedOne.shared c n ∧ Accepted acceptedOne.shared n := by
  have hanswer : screenSettles acceptedOne.shared (.inr (.response 1)) (.ok (200 : ℕ)) :=
    ⟨_, _, rfl, rfl, rfl⟩
  have hstep : Step (screenBody nullMessage) screenSettles elevatingOnDemand.occurs acceptedOne
      (.resume 2 ⟨.inr (.response 1), .ok (200 : ℕ)⟩) completedOne :=
    .resume acceptedOne 2 _ rfl hanswer
  exact ownElevation_of_run run_acceptedOne hstep rfl nofun

theorem run_acceptedLate :
    DialogueRun nullMessage elevatingOnDemand Clickable signedInPage acceptedLate := by
  have hC (L : Dialogue Bool) (l : DialogueMove) (h : ∀ b, l ≠ .call (.inr b)) : Clickable L l :=
    fun hl => absurd hl (h _)
  have h₁ : DialogueRun nullMessage elevatingOnDemand Clickable signedInPage confirming :=
    run_confirming.mono fun L l h hl => (h _ hl).2.1
  have h₂ := h₁.called (.inr .returnKey) nofun
  have h₃ := h₂.happened (.elevated 0 (.ok ⟨200, none⟩)) (occurs_accepted rfl rfl rfl) nofun
  have h₄ := dialogue_resumed h₃ 1 (by decide +kernel) fun _ => nofun
  have h₅ : DialogueRun nullMessage elevatingOnDemand Clickable signedInPage
      (completedLate.waits (text "2") 3) :=
    run_waits hC h₄ (text "2") 3 rfl (by decide +kernel) (by decide +kernel)
  exact h₅.happened (.elevated 1 (.ok ⟨200, none⟩)) (occurs_accepted rfl rfl rfl) nofun

/-- With the return key an elevation that was sent in one dialog can complete the next one. -/
theorem acceptedLate_resumed :
    DialogueRun nullMessage elevatingOnDemand Clickable signedInPage acceptedLate ∧
      ∃ c, acceptedLate.awaits 2 = some (.response 1, c) ∧ c.page.stepUp.pending = some 0 ∧
        ¬Resolved acceptedLate.shared 1 ∧ Resolved (acceptedLate.resumed 2).shared 1 :=
  ⟨run_acceptedLate, _, rfl, rfl, nofun, rfl⟩

end Console
