import OAuth2Monitoring.Console.Stores
import OAuth2Monitoring.ToMathlib.Modify

/-!
# The count of alerts that are not acknowledged

The monitor store keeps the alert history and, next to it, the number of alerts that are not
acknowledged. `acknowledgeAlert` changes both.

## Main definitions

* `MonitorStore.acknowledgeAll`: calls one after the other.
* `Decreases`: the count went down by the number of alerts that became acknowledged.
* `MonitorStore.Fresh`: the call acknowledges an alert that was not, or finds none.

## Main results

* `decreases_iff_fresh`: the count follows the history over a sequence of calls exactly when every
  call is fresh, or is made when the count is zero.
-/

namespace Console

open JsStd

/-! ## The history -/

/-- An alert counts as acknowledged when its property is truthy. -/
def isAcknowledged (alert : Json) : Bool := Json.truthy (alert.prop "acknowledged")

/-- The alerts that are not acknowledged. -/
def unacknowledged (alerts : List Json) : ℕ := alerts.countP fun alert => !isAcknowledged alert

/-- The alerts that have become acknowledged since the history was `alerts`. -/
def newlyAcknowledged (alerts alerts' : List Json) : ℕ :=
  (alerts.zip alerts').countP fun x => !isAcknowledged x.1 && isAcknowledged x.2

/-- The alert a call finds. -/
def hasId (id : Text) (alert : Json) : Bool :=
  Json.strictEq (alert.prop "id") (some (.num id))

/-- The history as a list. -/
def MonitorStore.alerts (s : MonitorStore) : List Json :=
  match s.alertHistory with
  | .arr alerts => alerts
  | _ => []

/-- The history is an array without `null`. -/
structure MonitorStore.HasHistory (s : MonitorStore) : Prop where
  is_array : s.alertHistory = .arr s.alerts
  no_null : s.alerts.any Json.isNull = false

/-- The count has gone down by the number of alerts that have become acknowledged. -/
def Decreases (s s' : MonitorStore) : Prop :=
  s'.unacknowledgedAlerts + newlyAcknowledged s.alerts s'.alerts = s.unacknowledgedAlerts

/-- A call of `acknowledgeAlert`, and when it is made. -/
structure Acknowledgement where
  id : Text
  note : Option Text := none
  now : Text

namespace MonitorStore

/-- Calls one after the other. -/
def acknowledgeAll (s : MonitorStore) : List Acknowledgement → Except String MonitorStore
  | [] => .ok s
  | c :: calls =>
    match s.acknowledgeAlert c.id c.note c.now with
    | .ok s' => s'.acknowledgeAll calls
    | .error e => .error e

/-- The alert with this id, if there is one, is not acknowledged yet. -/
def Fresh (s : MonitorStore) (id : Text) : Prop :=
  ∀ alert ∈ s.alerts.find? (hasId id), isAcknowledged alert = false

end MonitorStore

/-! ## One call -/

section

variable {alert : Json} {id now : Text} {note : Option Text} {s s' : MonitorStore}

/-- An object is acknowledged afterwards, whatever it was. -/
theorem isAcknowledged_acknowledged {name : String} {v : Json} (h : alert.prop name = some v) :
    isAcknowledged (MonitorStore.acknowledged note now alert) = true := by
  obtain ⟨fields, rfl⟩ := Json.eq_obj_of_prop h
  unfold isAcknowledged MonitorStore.acknowledged
  rw [Json.prop_setProp_of_ne (by decide), Json.prop_setProp_of_ne (by decide),
    Json.prop_setProp_self]
  rfl

/-- Acknowledging is not undone. -/
theorem isAcknowledged_mono (h : isAcknowledged alert = true) :
    isAcknowledged (MonitorStore.acknowledged note now alert) = true := by
  unfold isAcknowledged at h
  cases hprop : alert.prop "acknowledged" with
  | none =>
    rw [hprop] at h
    cases h
  | some v => exact isAcknowledged_acknowledged hprop

/-- No entry becomes `null`. -/
theorem no_null_modify {alerts : List Json} (h : alerts.any Json.isNull = false) (k : ℕ) :
    (alerts.modify k (MonitorStore.acknowledged note now)).any Json.isNull = false := by
  have hsame : ∀ alert, (MonitorStore.acknowledged note now alert).isNull = alert.isNull := by
    intro alert
    cases alert <;> rfl
  rw [List.any_eq_false, ← List.countP_eq_zero] at h ⊢
  rw [List.countP_modify_of_same hsame, h]

/-- What a call does: it finds no alert, or it acknowledges the one it finds, whether that was so
before or not. -/
theorem acknowledgeAlert_cases (h : s.HasHistory) (id : Text) (note : Option Text) (now : Text) :
    (s.alerts.find? (hasId id) = none ∧ s.acknowledgeAlert id note now = .ok s) ∨
      ∃ k alert s', s.alerts.find? (hasId id) = some alert ∧ s.alerts[k]? = some alert ∧
        s.acknowledgeAlert id note now = .ok s' ∧ s'.HasHistory ∧
        s'.alerts = s.alerts.modify k (MonitorStore.acknowledged note now) ∧
        s'.unacknowledgedAlerts = max 0 (s.unacknowledgedAlerts - 1) ∧
        isAcknowledged (MonitorStore.acknowledged note now alert) = true := by
  have hcall : s.acknowledgeAlert id note now =
      .ok ((s.alerts.findIdx? (hasId id)).elim s fun k =>
        { s with alertHistory := .arr (s.alerts.modify k (MonitorStore.acknowledged note now)),
                 unacknowledgedAlerts := max 0 (s.unacknowledgedAlerts - 1) }) := by
    unfold MonitorStore.acknowledgeAlert
    rw [h.is_array]
    simp only [Json.updateId_eq h.no_null]
    change Except.map _ (Except.ok ((s.alerts.findIdx? (hasId id)).map _)) = _
    cases s.alerts.findIdx? (hasId id) <;> rfl
  rw [hcall]
  -- the entry that is updated is the first one with the id, which `find?` gives too
  cases hk : s.alerts.findIdx? (hasId id) with
  | none =>
    refine .inl ⟨List.find?_eq_none.mpr fun alert hmem => ?_, rfl⟩
    rw [List.findIdx?_eq_none_iff.mp hk alert hmem]
    exact Bool.false_ne_true
  | some k =>
    obtain ⟨hlt, hid, hfirst⟩ := List.findIdx?_eq_some_iff_getElem.mp hk
    have hfind : s.alerts.find? (hasId id) = some s.alerts[k] :=
      List.find?_eq_some_iff_getElem.mpr
        ⟨hid, k, hlt, rfl, fun j hj => by simpa using hfirst j hj⟩
    refine .inr ⟨k, s.alerts[k], _, hfind, List.getElem?_eq_getElem hlt, rfl, ⟨rfl, ?_⟩, rfl, rfl,
      isAcknowledged_acknowledged (Json.strictEq_num.mp hid)⟩
    exact no_null_modify h.no_null k

/-- An alert that is acknowledged stays so, in every place of the history. -/
def Grows (s s' : MonitorStore) : Prop :=
  List.Forall₂ (fun alert alert' => isAcknowledged alert = true → isAcknowledged alert' = true)
    s.alerts s'.alerts

theorem Grows.refl (s : MonitorStore) : Grows s s := List.forall₂_same.mpr fun _ _ h => h

theorem Grows.trans {s'' : MonitorStore} (h : Grows s s') (h' : Grows s' s'') : Grows s s'' :=
  List.forall₂_trans (fun _ _ _ hab hbc ha => hbc (hab ha)) h h'

/-- How far the count is above the number of alerts that are not acknowledged. -/
def slack (s : MonitorStore) : ℤ := s.unacknowledgedAlerts - unacknowledged s.alerts

/-- The count follows the history exactly when it stays as far above the number as it was. -/
theorem decreases_iff_slack (h : Grows s s') : Decreases s s' ↔ slack s' = slack s := by
  have hcount : newlyAcknowledged s.alerts s'.alerts + unacknowledged s'.alerts =
      unacknowledged s.alerts := List.countP_zip_add h
  unfold Decreases slack
  omega

/-- One call: it ends, and the count follows the history exactly when the alert was not acknowledged
before, or there was nothing to take from the count. -/
theorem acknowledgeAlert_spec (h : s.HasHistory) (id : Text) (note : Option Text) (now : Text) :
    ∃ s', s.acknowledgeAlert id note now = .ok s' ∧ s'.HasHistory ∧ Grows s s' ∧
      (0 ≤ slack s → (slack s' = slack s ↔ s.Fresh id ∨ s.unacknowledgedAlerts = 0)) := by
  obtain ⟨hfind, hcall⟩ | ⟨k, alert, s', hfind, hk, hcall, hhist, halerts, hcount, hack⟩ :=
    acknowledgeAlert_cases h id note now
  · refine ⟨s, hcall, h, .refl s, fun _ => iff_of_true rfl (.inl fun alert hmem => ?_)⟩
    rw [hfind] at hmem
    cases hmem
  · refine ⟨s', hcall, hhist, ?_, ?_⟩
    · unfold Grows
      rw [halerts]
      exact List.forall₂_modify (fun _ h => h) (fun _ => isAcknowledged_mono) _ _
    · intro hslack
      have hfresh : s.Fresh id ↔ isAcknowledged alert = false := by
        simp [MonitorStore.Fresh, hfind]
      have hmodify := List.countP_modify (fun alert => !isAcknowledged alert)
        (MonitorStore.acknowledged note now) hk
      rw [← halerts, hack] at hmodify
      rw [hfresh]
      unfold slack unacknowledged at hslack ⊢
      rw [hcount]
      -- the alert counts among those not acknowledged exactly when the call is fresh
      cases hwas : isAcknowledged alert with
      | false =>
        simp only [hwas, Bool.not_false, Bool.not_true, if_true, Bool.false_eq_true, if_false]
          at hmodify
        simp only [true_or, iff_true]
        omega
      | true =>
        simp only [hwas, Bool.not_true, Bool.false_eq_true, if_false] at hmodify
        simp only [Bool.true_eq_false, false_or]
        omega

/-! ## A sequence of calls -/

theorem acknowledgeAll_cons {s₁ : MonitorStore} {c : Acknowledgement}
    (h : s.acknowledgeAlert c.id c.note c.now = .ok s₁) (calls : List Acknowledgement) :
    s.acknowledgeAll (c :: calls) = s₁.acknowledgeAll calls := by
  rw [MonitorStore.acknowledgeAll, h]

/-- Calls end, and leave acknowledged what is. -/
theorem acknowledgeAll_grows (h : s.HasHistory) (calls : List Acknowledgement) :
    ∃ s', s.acknowledgeAll calls = .ok s' ∧ Grows s s' := by
  induction calls generalizing s with
  | nil => exact ⟨s, rfl, .refl s⟩
  | cons c calls ih =>
    obtain ⟨s₁, hcall, hhist, hgrows, -⟩ := acknowledgeAlert_spec h c.id c.note c.now
    obtain ⟨s', hcalls, hgrows'⟩ := ih hhist
    exact ⟨s', (acknowledgeAll_cons hcall calls).trans hcalls, hgrows.trans hgrows'⟩

/-- Over a sequence of calls the count stays as far above the number as it was exactly when each
call keeps it there. -/
theorem acknowledgeAll_slack (h : s.HasHistory) (hslack : 0 ≤ slack s)
    (calls : List Acknowledgement) :
    (∀ n, ∃ s', s.acknowledgeAll (calls.take n) = .ok s' ∧ slack s' = slack s) ↔
      ∀ (n : ℕ) c, calls[n]? = some c → ∃ s', s.acknowledgeAll (calls.take n) = .ok s' ∧
        (s'.Fresh c.id ∨ s'.unacknowledgedAlerts = 0) := by
  induction calls generalizing s with
  | nil =>
    refine iff_of_true (fun n => ⟨s, ?_, rfl⟩) fun n c hc => ?_
    · rw [List.take_nil]
      rfl
    · cases hc
  | cons c calls ih =>
    obtain ⟨s₁, hcall, hhist, -, hstep⟩ := acknowledgeAlert_spec h c.id c.note c.now
    replace hstep := hstep hslack
    have htail : ∀ n, s.acknowledgeAll ((c :: calls).take (n + 1)) =
        s₁.acknowledgeAll (calls.take n) := fun n => acknowledgeAll_cons hcall _
    constructor
    · -- the state after the first call is one of the run, and begins the rest of it
      intro hrun
      have hkeep : slack s₁ = slack s := by
        obtain ⟨s', hs', hkeep⟩ := hrun 1
        rw [htail 0] at hs'
        cases hs'
        exact hkeep
      have hrest := (ih hhist (hkeep ▸ hslack)).mp fun n => by
        rw [← htail n, hkeep]
        exact hrun (n + 1)
      intro n c' hc'
      cases n with
      | zero =>
        cases hc'
        exact ⟨s, rfl, hstep.mp hkeep⟩
      | succ n =>
        rw [htail n]
        exact hrest n c' hc'
    · -- the first call meets its condition, so the rest begins as far above as this run
      intro hcalls
      have hkeep : slack s₁ = slack s := by
        obtain ⟨s', hs', hfresh⟩ := hcalls 0 c rfl
        cases hs'
        exact hstep.mpr hfresh
      have hrest := (ih hhist (hkeep ▸ hslack)).mpr fun n c' hc' => by
        rw [← htail n]
        exact hcalls (n + 1) c' hc'
      intro n
      cases n with
      | zero => exact ⟨s, rfl, rfl⟩
      | succ n =>
        rw [htail n, ← hkeep]
        exact hrest n

/-- The count follows the history over a sequence of calls, after each of them, exactly when every
call finds an alert that is not acknowledged, or none, or is made when the count is zero. -/
theorem decreases_iff_fresh (h : s.HasHistory)
    (hle : (unacknowledged s.alerts : ℤ) ≤ s.unacknowledgedAlerts)
    (calls : List Acknowledgement) :
    (∀ n, ∃ s', s.acknowledgeAll (calls.take n) = .ok s' ∧ Decreases s s') ↔
      ∀ (n : ℕ) c, calls[n]? = some c → ∃ s', s.acknowledgeAll (calls.take n) = .ok s' ∧
        (s'.Fresh c.id ∨ s'.unacknowledgedAlerts = 0) := by
  rw [← acknowledgeAll_slack h (Int.sub_nonneg_of_le hle) calls]
  refine forall_congr' fun n => exists_congr fun s' => and_congr_right fun hs' => ?_
  obtain ⟨s'', hs'', hgrows⟩ := acknowledgeAll_grows h (calls.take n)
  rw [hs'] at hs''
  cases hs''
  exact decreases_iff_slack hgrows

end

/-- Two alerts, neither acknowledged, as they were loaded. -/
def loadedAlerts : MonitorStore :=
  MonitorStore.init.setAlertHistory
    (.arr [.obj [(text "id", .num (text "1")), (text "acknowledged", .bool false)],
      .obj [(text "id", .num (text "2")), (text "acknowledged", .bool false)]])
    (.num (text "2")) 2

theorem loadedAlerts_hasHistory : loadedAlerts.HasHistory := ⟨rfl, rfl⟩

/-- The two alerts are acknowledged one after the other, then one that is not there. -/
def onceEach : List Acknowledgement :=
  [{ id := text "2", now := text "t" }, { id := text "1", now := text "t" },
    { id := text "3", now := text "t" }]

/-- Each alert is acknowledged once, and the count follows. -/
theorem onceEach_followed : ∃ s', loadedAlerts.acknowledgeAll onceEach = .ok s' ∧
    Decreases loadedAlerts s' := by
  refine (decreases_iff_fresh loadedAlerts_hasHistory (by decide) onceEach).mpr ?_ 3
  intro n c hc
  match n, hc with
  | 0, hc =>
    cases hc
    exact ⟨_, rfl, .inl (by unfold MonitorStore.Fresh; decide)⟩
  | 1, hc =>
    cases hc
    exact ⟨_, rfl, .inl (by unfold MonitorStore.Fresh; decide)⟩
  | 2, hc =>
    cases hc
    exact ⟨_, rfl, .inl (by unfold MonitorStore.Fresh; decide)⟩

/-- The first alert is acknowledged twice, as by a form that is submitted twice: the count is zero
although the other alert is not acknowledged. -/
theorem acknowledged_twice :
    loadedAlerts.HasHistory ∧
      (unacknowledged loadedAlerts.alerts : ℤ) ≤ loadedAlerts.unacknowledgedAlerts ∧
      ∃ s', loadedAlerts.acknowledgeAll
          [{ id := text "1", now := text "t" }, { id := text "1", now := text "t" }] = .ok s' ∧
        ¬ Decreases loadedAlerts s' ∧ s'.unacknowledgedAlerts = 0 ∧
        unacknowledged s'.alerts = 1 := by
  refine ⟨loadedAlerts_hasHistory, by decide, _, rfl, ?_, by decide, by decide⟩
  unfold Decreases
  decide

end Console
