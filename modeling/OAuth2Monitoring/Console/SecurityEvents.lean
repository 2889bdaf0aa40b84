import OAuth2Monitoring.Console.Contract

/-!
# Overlapping loads of the security events

All calls of `fetchSecurityEvents` write the same fields of the monitor store and one loading flag.
The store shows the latest call that succeeded as long as no success arrives behind a later one,
and the flag says whether a call is in flight as long as each call settles alone. Rapid changes of
the filters break both.

## Main definitions

* `latest`: the data of the most recently issued call that succeeded.
* `Alone`, `InOrder`: the conditions on a step.

## Main results

* `table_of_inOrder`: in order, the store shows the latest success.
* `securityEvents_of_alone`: alone, it does and the flag is exact.
* `not_alone_step`: a call that settles while another one is in flight clears the flag.
-/

namespace Console

open JsStd EventLoop

variable {S : Type}

/-! ## The table and its flag -/

/-- The events that are shown, and their number. -/
def table (m : MonitorStore) : Json × Json := (m.securityEvents, m.securityEventsTotal)

/-- What the store shows of an answer. -/
def tableOf (data : Json) : Json × Json :=
  (Json.orFalsy (data.prop "events") (.arr []),
    Json.orFalsy (data.prop "total") (.num (text "0")))

/-- The store says that events are being loaded. -/
def Flagged (m : MonitorStore) : Prop := m.isLoading "events" = true

instance (m : MonitorStore) : Decidable (Flagged m) := inferInstanceAs (Decidable (_ = true))

/-- Does the call load security events? -/
def Call.isEvents : Call → Bool
  | .fetchSecurityEvents _ => true
  | _ => false

/-- The call is in flight. -/
def EventsWait (act : Activation S) : Prop := act.job.isEvents = true ∧ act.pause.Waits

/-- Some call is in flight. -/
def InFlight (L : State S) : Prop := ∃ act ∈ L.acts, EventsWait act

instance (act : Activation S) : Decidable (EventsWait act) :=
  inferInstanceAs (Decidable (_ ∧ _))

instance (L : State S) : Decidable (InFlight L) :=
  inferInstanceAs (Decidable (∃ act ∈ L.acts, EventsWait act))

/-- The data of a call that succeeded. -/
def succeeded (act : Activation S) : Option Json :=
  match act.job, act.pause with
  | .fetchSecurityEvents _, .settled (.ok data) => data
  | _, _ => none

/-- The data of the most recently issued call that succeeded. -/
def latest (L : State S) : Option Json := (L.acts.filterMap succeeded).getLast?

/-- A call that the step settles is the only one in flight. -/
def Alone (L : State S) : Move → Prop
  | .resume i a => ∀ act p, Resumes L i a act p → act.job.isEvents = true → ¬p.Waits →
      ∀ i' act', L.acts[i']? = some act' → EventsWait act' → i' = i
  | _ => True

/-- No later call has succeeded before one that the step lets succeed. -/
def InOrder (L : State S) : Move → Prop
  | .resume i a => ∀ act p, Resumes L i a act p → (succeeded { act with pause := p }).isSome →
      ∀ i' act', L.acts[i']? = some act' → (succeeded act').isSome → i' < i
  | _ => True

/-! ## What the calls do to the table -/

/-- The two stores show the same table under the same flag. -/
def SameTable (m m' : MonitorStore) : Prop :=
  table m' = table m ∧ m'.isLoading "events" = m.isLoading "events"

theorem SameTable.refl (m : MonitorStore) : SameTable m m := ⟨rfl, rfl⟩

theorem SameTable.trans {m m' m'' : MonitorStore} (h : SameTable m m') (h' : SameTable m' m'') :
    SameTable m m'' := ⟨h'.1.trans h.1, h'.2.trans h.2⟩

theorem sameTable_setLoading {key : String} (hkey : key ≠ "events") (value : Bool)
    (m : MonitorStore) : SameTable m (m.setLoading key value) :=
  ⟨rfl, Function.update_of_ne hkey.symm _ _⟩

/-- A change of another list leaves the table. -/
theorem sameTable_change {c : Listing} (hc : ∀ data m, SameTable m (c.set data m))
    {f : Json → Except String Json} {m m' : MonitorStore} (h : MonitorStore.change c f m = .ok m') :
    SameTable m m' := by
  unfold MonitorStore.change at h
  cases hf : f (c.get m) with
  | error e =>
    rw [hf] at h
    cases h
  | ok data =>
    rw [hf] at h
    cases h
    exact hc data m

theorem sameTable_storedList {name : String} {set : Json → MonitorStore → MonitorStore}
    (hset : ∀ data m, SameTable m (set data m)) {data : Json} {m m' : MonitorStore}
    (h : storedList name set data m = .ok m') : SameTable m m' := by
  unfold storedList at h
  cases hget : data.get name with
  | error e =>
    rw [hget] at h
    cases h
  | ok entries =>
    rw [hget] at h
    cases h
    exact hset _ m

/-- What is stored of an answer is its table, and the flag is not touched. -/
theorem table_storedEvents {data : Json} {m m' : MonitorStore}
    (h : storedEvents data m = .ok m') : table m' = tableOf data := by
  cases data with
  | null => cases h
  | _ =>
    cases h
    rfl

/-- Nor does the start of another operation. -/
theorem sameTable_begun {j : Call} (hj : j.isEvents = false) (m : MonitorStore) :
    SameTable m (j.begun m) := by
  cases j with
  | fetchSecurityEvents => cases hj
  | fetchBlockedIPs => exact sameTable_setLoading (by decide) true m
  | fetchAlertRules => exact sameTable_setLoading (by decide) true m
  | _ => exact .refl m

section

variable {j : Call} {m : MonitorStore} {h : Past} {s₀ s : Page S}
  {r : Except String (Option Json)}

/-- Another load leaves the table. -/
theorem sameTable_into {key : String} {url : Url} (hkey : key ≠ "events")
    {f : Json → MonitorStore → Except String MonitorStore}
    (hf : ∀ data m m', f data m = .ok m' → SameTable m m') {r : Except String Json}
    (hd : (intoSpec key url f m).done h s₀ s r) : SameTable s₀.monitor s.monitor := by
  obtain ⟨-, -, hr⟩ := hd
  cases r with
  | error e =>
    have hm : s.monitor = s₀.monitor.setLoading key false := hr
    rw [hm]
    exact sameTable_setLoading hkey false _
  | ok data =>
    obtain ⟨-, m', hm', hm⟩ := hr
    rw [hm]
    exact (hf data _ m' hm').trans (sameTable_setLoading hkey false m')

theorem sameTable_send {url : Url} {options : RequestInit}
    {f : Json → MonitorStore → Except String MonitorStore}
    (hf : ∀ data m m', f data m = .ok m' → SameTable m m') {r : Except String Json}
    (hd : (sendSpec url options f m).done h s₀ s r) : SameTable s₀.monitor s.monitor := by
  obtain ⟨-, -, hr⟩ := hd
  cases r with
  | error e =>
    have hm : s.monitor = s₀.monitor := hr
    rw [hm]
    exact .refl _
  | ok data => exact hf data _ _ hr.2

theorem sameTable_delete {url : Url} {f : MonitorStore → Except String MonitorStore}
    (hf : ∀ m m', f m = .ok m' → SameTable m m') {r : Except String Unit}
    (hd : (deleteSpec url f m).done h s₀ s r) : SameTable s₀.monitor s.monitor := by
  obtain ⟨-, -, hr⟩ := hd
  cases r with
  | error e =>
    rw [hr.1]
    exact .refl _
  | ok _ => exact hf _ _ hr.2

/-- The other calls do not touch the table or its flag. -/
theorem Call.sameTable (hj : j.isEvents = false) (hd : (j.spec m).done h s₀ s r) :
    SameTable s₀.monitor s.monitor := by
  have hips : ∀ data m, SameTable m (Listing.blockedIPs.set data m) := fun _ _ => ⟨rfl, rfl⟩
  have hrules : ∀ data m, SameTable m (Listing.alertRules.set data m) := fun _ _ => ⟨rfl, rfl⟩
  -- the other calls write the blocked addresses and the rules
  cases j with
  | fetchSecurityEvents params => cases hj
  | fetchBlockedIPs =>
    exact sameTable_into (by decide) (fun _ _ _ => sameTable_storedList hips) (hd.choose_spec.2)
  | blockIP entry => exact sameTable_send (fun _ _ _ => sameTable_change hips) (hd.choose_spec.2)
  | unblockIP id => exact sameTable_delete (fun _ _ => sameTable_change hips) (hd.choose_spec.2)
  | fetchAlertRules =>
    exact sameTable_into (by decide) (fun _ _ _ => sameTable_storedList hrules) (hd.choose_spec.2)
  | createAlertRule rule =>
    exact sameTable_send (fun _ _ _ => sameTable_change hrules) (hd.choose_spec.2)
  | updateAlertRule id rule =>
    exact sameTable_send (fun _ _ _ => sameTable_change hrules) (hd.choose_spec.2)
  | deleteAlertRule id =>
    exact sameTable_delete (fun _ _ => sameTable_change hrules) (hd.choose_spec.2)

/-- A call that ends clears the flag; one that succeeds shows its data, one that fails changes
nothing else. -/
theorem Call.eventsDone {params : List (Text × Option Text)}
    (hd : ((Call.fetchSecurityEvents params).spec m).done h s₀ s r) :
    ¬Flagged s.monitor ∧
      ((∃ data, r = .ok (some data) ∧ table s.monitor = tableOf data) ∨
        ∃ e, r = .error e ∧ table s.monitor = table s₀.monitor) := by
  -- the flag is cleared in `finally`, whatever came of the call
  have hflag : ∀ m : MonitorStore, ¬Flagged (m.setLoading "events" false) := fun m h => by
    simp [Flagged, MonitorStore.setLoading] at h
  obtain ⟨r', rfl, -, -, hr⟩ := hd
  cases r' with
  | error e =>
    have hm : s.monitor = s₀.monitor.setLoading "events" false := hr
    rw [hm]
    exact ⟨hflag _, .inr ⟨e, rfl, rfl⟩⟩
  | ok data =>
    obtain ⟨-, m', hm', hm⟩ := hr
    rw [hm]
    have htable : table m' = tableOf data := table_storedEvents hm'
    exact ⟨hflag _, .inl ⟨data, rfl, htable⟩⟩

end

/-! ## The latest success -/

section

variable {L : State S} {i : ℕ} {act act' : Activation S}

/-- A call that waits has not succeeded yet. -/
theorem succeeded_of_waits (h : act.pause.Waits) : succeeded act = none := by
  unfold succeeded
  split
  · next hp =>
    rw [hp] at h
    exact absurd h Pause.waits_settled
  · rfl

theorem succeeded_of_not_events (h : act.job.isEvents = false) : succeeded act = none := by
  unfold succeeded
  split
  · next hj _ =>
    rw [hj] at h
    cases h
  · rfl

/-- Replacing an activation that has not succeeded by one that has not either changes nothing. -/
theorem filterMap_set_of_none {A B : Type} {f : A → Option B} {l : List A} {x y : A}
    (hx : l[i]? = some x) (hfx : f x = none) (hfy : f y = none) :
    (l.set i y).filterMap f = l.filterMap f := by
  induction l generalizing i with
  | nil => rfl
  | cons z l ih =>
    cases i with
    | zero =>
      obtain rfl : z = x := by simpa using hx
      simp [hfx, hfy]
    | succ i =>
      rw [List.set_cons_succ, List.filterMap_cons, List.filterMap_cons, ih (by simpa using hx)]

/-- An element with a value that no element behind it has is the last one with a value. -/
theorem getLast?_filterMap_set {A B : Type} {f : A → Option B} {l : List A} {x y : A} {b : B}
    (hx : l[i]? = some x) (hfy : f y = some b)
    (hlast : ∀ i' z, l[i']? = some z → (f z).isSome → i' < i) :
    ((l.set i y).filterMap f).getLast? = some b := by
  obtain ⟨hlt, -⟩ := List.getElem?_eq_some_iff.mp hx
  -- what has a value stands in front of the place that is set
  have hbehind : (l.drop (i + 1)).filterMap f = [] := by
    rw [List.filterMap_eq_nil_iff]
    intro z hz
    obtain ⟨k, hk⟩ := List.mem_iff_getElem?.mp hz
    rw [List.getElem?_drop] at hk
    by_contra hne
    have := hlast _ z hk (Option.isSome_iff_ne_none.mpr hne)
    omega
  rw [List.set_eq_take_append_cons_drop, if_pos hlt, List.filterMap_append, List.filterMap_cons,
    hfy, hbehind]
  simp

end

/-! ## Runs -/

section

variable {srv : Server S} {p : Page S} {L : State S}

/-- The store shows the latest success, and `t` as long as there is none. -/
def ShowsLatest (t : Json × Json) (L : State S) : Prop :=
  table L.shared.monitor = (latest L).elim t tableOf

/-- What holds while every call settles alone: the flag is exact, and a call issued after one in
flight is in flight as well. -/
structure Tidy (L : State S) : Prop where
  flag : Flagged L.shared.monitor ↔ InFlight L
  behind : ∀ (i i' : ℕ) (act act' : Activation S), i < i' → L.acts[i]? = some act →
    EventsWait act → L.acts[i']? = some act' → act'.job.isEvents = true → act'.pause.Waits

section

variable {t : Json × Json} {s c : Page S} {i : ℕ} {j : Call} {h : Past} {q : Wait}
  {k : Except String q.Value → Api S (Option Json)} {a : Except String q.Value}
  {pause : Pause (Page S) Wait.Value String (Option Json)}

/-! ### A call comes in -/

/-- It has not succeeded yet, and leaves the table alone. -/
theorem ShowsLatest.call (hL : ShowsLatest t L)
    (hp : pause.Admits (j.spec L.shared.monitor) [] L.shared s) :
    ShowsLatest t { shared := s, acts := L.acts ++ [⟨j, L.shared, [], pause⟩] } := by
  obtain ⟨hwaits, hm⟩ := Call.first_waits hp
  have hlatest : latest { L with shared := s, acts := L.acts ++ [⟨j, L.shared, [], pause⟩] } =
      latest L := by
    unfold latest
    rw [List.filterMap_append, List.filterMap_cons, succeeded_of_waits hwaits]
    simp
  have htable : table s.monitor = table L.shared.monitor := by
    rw [hm]
    cases j <;> rfl
  unfold ShowsLatest
  rw [hlatest]
  exact htable.trans hL

/-- It sets the flag exactly if it loads events, and then it is in flight. -/
theorem Tidy.flag_call (hL : Tidy L)
    (hp : pause.Admits (j.spec L.shared.monitor) [] L.shared s) :
    Flagged s.monitor ↔
      InFlight { shared := s, acts := L.acts ++ [⟨j, L.shared, [], pause⟩] } := by
  obtain ⟨hwaits, hm⟩ := Call.first_waits hp
  by_cases hj : j.isEvents = true
  · have hflag : Flagged s.monitor := by
      rw [hm]
      cases j with
      | fetchSecurityEvents => simp [Flagged, Call.begun, MonitorStore.setLoading]
      | _ => cases hj
    exact iff_of_true hflag ⟨_, List.mem_append_right _ (List.mem_singleton_self _), hj, hwaits⟩
  -- another call does neither
  · have hsame := (sameTable_begun (Bool.eq_false_iff.mpr hj) L.shared.monitor).2
    have hflag : Flagged s.monitor ↔ Flagged L.shared.monitor := by
      unfold Flagged
      rw [hm, hsame]
    refine hflag.trans (hL.flag.trans ⟨?_, ?_⟩)
    · rintro ⟨act, hact, hwait⟩
      exact ⟨act, List.mem_append_left _ hact, hwait⟩
    · rintro ⟨act, hact, hwait⟩
      rcases List.mem_append.mp hact with hact | hact
      · exact ⟨act, hact, hwait⟩
      · obtain rfl := List.mem_singleton.mp hact
        exact absurd hwait.1 hj

/-- A call that starts keeps the flag tidy. -/
theorem Tidy.call (hL : Tidy L) (hp : pause.Admits (j.spec L.shared.monitor) [] L.shared s) :
    Tidy { shared := s, acts := L.acts ++ [⟨j, L.shared, [], pause⟩] } := by
  refine ⟨hL.flag_call hp, fun i i' act act' hlt hact hwait hact' hev => ?_⟩
  obtain ⟨hlt', -⟩ := List.getElem?_eq_some_iff.mp hact'
  rw [List.length_append, List.length_singleton] at hlt'
  rw [List.getElem?_append_left (by omega)] at hact
  by_cases hlast : i' < L.acts.length
  · rw [List.getElem?_append_left hlast] at hact'
    exact hL.behind i i' act act' hlt hact hwait hact' hev
  · -- the later one is the call that has just come in
    obtain rfl : i' = L.acts.length := by omega
    rw [List.getElem?_concat_length, Option.some.injEq] at hact'
    subst hact'
    exact (Call.first_waits hp).1

/-! ### A call is answered -/

/-- An activation that was answered and has not succeeded is not the latest success. -/
theorem latest_set (hact : L.acts[i]? = some ⟨j, c, h, .waiting q k⟩)
    (hnew : succeeded (⟨j, c, ⟨q, a⟩ :: h, pause⟩ : Activation S) = none) :
    latest { L with shared := s, acts := L.acts.set i ⟨j, c, ⟨q, a⟩ :: h, pause⟩ } =
      latest L := by
  have hnone : succeeded (⟨j, c, h, .waiting q k⟩ : Activation S) = none :=
    succeeded_of_waits trivial
  unfold latest
  rw [filterMap_set_of_none hact hnone hnew]

/-- Only a success changes the table, and it is the latest one if none behind it was earlier. -/
theorem ShowsLatest.resume (hL : ShowsLatest t L) (hC : InOrder L (.resume i ⟨q, a⟩))
    (hact : L.acts[i]? = some ⟨j, c, h, .waiting q k⟩) (hrun : (k a).run L.shared = (s, pause))
    (hp : pause.Admits (j.spec c.monitor) (⟨q, a⟩ :: h) L.shared s) :
    ShowsLatest t { shared := s, acts := L.acts.set i ⟨j, c, ⟨q, a⟩ :: h, pause⟩ } := by
  unfold ShowsLatest
  cases pause with
  | waiting q' k' =>
    have hgoes : succeeded (⟨j, c, ⟨q, a⟩ :: h, .waiting q' k'⟩ : Activation S) = none :=
      succeeded_of_waits trivial
    rw [latest_set hact hgoes]
    have hm : s.monitor = L.shared.monitor := Call.later_waits hp
    show table s.monitor = _
    rw [hm]
    exact hL
  | settled r =>
    by_cases hj : j.isEvents = true
    · cases j with
      | fetchSecurityEvents params =>
        rcases (Call.eventsDone hp).2 with ⟨data, rfl, htable⟩ | ⟨e, rfl, htable⟩
        · -- a success: it becomes the latest one
          have hresumes :
              Resumes L i ⟨q, a⟩ ⟨_, c, h, .waiting q k⟩ (.settled (.ok (some data))) :=
            ⟨hact, k, rfl, by rw [hrun]⟩
          have hlatest := getLast?_filterMap_set (f := succeeded)
            (y := ⟨.fetchSecurityEvents params, c, ⟨q, a⟩ :: h, .settled (.ok (some data))⟩)
            hact rfl
            (hC _ _ hresumes rfl)
          unfold latest
          rw [hlatest]
          exact htable
        · rw [latest_set hact rfl]
          exact htable.trans hL
      | _ => cases hj
    · rw [latest_set hact (succeeded_of_not_events (Bool.eq_false_iff.mpr hj))]
      exact (Call.sameTable (Bool.eq_false_iff.mpr hj) hp).1.trans hL

/-- A call that ends clears the flag. It was the only one in flight. -/
theorem tidy_of_ends (hC : Alone L (.resume i ⟨q, a⟩))
    (hact : L.acts[i]? = some ⟨j, c, h, .waiting q k⟩) (hrun : (k a).run L.shared = (s, pause))
    (hp : pause.Admits (j.spec c.monitor) (⟨q, a⟩ :: h) L.shared s)
    (hends : j.isEvents = true ∧ ¬pause.Waits) :
    Tidy { shared := s, acts := L.acts.set i ⟨j, c, ⟨q, a⟩ :: h, pause⟩ } := by
  have hresumes : Resumes L i ⟨q, a⟩ ⟨j, c, h, .waiting q k⟩ pause := ⟨hact, k, rfl, by rw [hrun]⟩
  -- every other one would have been in flight beside it
  have hnone : ∀ (i' : ℕ) (act' : Activation S),
      (L.acts.set i ⟨j, c, ⟨q, a⟩ :: h, pause⟩)[i']? = some act' → ¬EventsWait act' := by
    intro i' act' hact' hwait
    rcases getElem?_set_cases hact hact' with ⟨-, rfl⟩ | ⟨hne, hact'⟩
    · exact hends.2 hwait.2
    · exact hne (hC _ _ hresumes hends.1 hends.2 i' act' hact' hwait)
  refine ⟨iff_of_false ?_ ?_, fun i' _ act _ _ hact' hwait => absurd hwait (hnone i' act hact')⟩
  · cases pause with
    | waiting q' k' => exact absurd trivial hends.2
    | settled r =>
      cases j with
      | fetchSecurityEvents params => exact (Call.eventsDone hp).1
      | _ => cases hends.1
  · rintro ⟨act', hact', hwait⟩
    obtain ⟨i', hi'⟩ := List.mem_iff_getElem?.mp hact'
    exact hnone i' act' hi' hwait

/-- A call that goes on, or that does not concern events, leaves the flag alone, and what is in
flight. -/
theorem Tidy.goesOn (hL : Tidy L) (hact : L.acts[i]? = some ⟨j, c, h, .waiting q k⟩)
    (hp : pause.Admits (j.spec c.monitor) (⟨q, a⟩ :: h) L.shared s)
    (hends : ¬(j.isEvents = true ∧ ¬pause.Waits)) :
    Tidy { shared := s, acts := L.acts.set i ⟨j, c, ⟨q, a⟩ :: h, pause⟩ } := by
  have hiff : EventsWait (⟨j, c, ⟨q, a⟩ :: h, pause⟩ : Activation S) ↔
      EventsWait (⟨j, c, h, .waiting q k⟩ : Activation S) :=
    ⟨fun hw => ⟨hw.1, trivial⟩, fun hw => ⟨hw.1, not_not.mp fun hn => hends ⟨hw.1, hn⟩⟩⟩
  have hsame : SameTable L.shared.monitor s.monitor := by
    cases pause with
    | waiting q' k' =>
      rw [Call.later_waits hp]
      exact .refl _
    | settled r =>
      have hj : j.isEvents = false := Bool.eq_false_iff.mpr fun hj => hends ⟨hj, id⟩
      exact Call.sameTable hj hp
  refine ⟨?_, fun i₁ i₂ act₁ act₂ hlt hact₁ hwait₁ hact₂ hev₂ => ?_⟩
  · have hflag : Flagged s.monitor ↔ Flagged L.shared.monitor := by
      unfold Flagged
      rw [hsame.2]
    exact hflag.trans (hL.flag.trans (exists_mem_set_iff hact hiff).symm)
  · -- the earlier one was in flight before the answer too
    have hwait₁' : ∃ act, L.acts[i₁]? = some act ∧ EventsWait act := by
      rcases getElem?_set_cases hact hact₁ with ⟨rfl, rfl⟩ | ⟨-, hact₁⟩
      · exact ⟨_, hact, hiff.mp hwait₁⟩
      · exact ⟨act₁, hact₁, hwait₁⟩
    obtain ⟨act, hact₁', hwait⟩ := hwait₁'
    rcases getElem?_set_cases hact hact₂ with ⟨rfl, rfl⟩ | ⟨-, hact₂⟩
    · exact not_not.mp fun hn => hends ⟨hev₂, hn⟩
    · exact hL.behind i₁ i₂ act act₂ hlt hact₁' hwait hact₂ hev₂

end

/-! ### All steps -/

/-- As long as no success arrives behind a later one, the store shows the latest success, and what
it showed at the start while there is none. -/
theorem table_of_inOrder (hL : Run srv InOrder p L) :
    table L.shared.monitor = (latest L).elim (table p.monitor) tableOf := by
  refine Reachable.invariant (I := ShowsLatest (table p.monitor))
    (S := fun j s => j.spec s.monitor) Call.sat rfl ?_ ?_ ?_ hL
  · intro L j s pause ih _ _ hp
    exact ih.call hp
  · intro L i j c h q k a s pause ih hC hact _ hrun hp
    exact ih.resume hC hact hrun hp
  · intro L e s ih _ he
    -- the environment does not touch the store
    show table s.monitor = _
    rw [Server.happens_monitor he]
    exact ih

/-- When loads settle alone, the flag is up exactly while one is under way. -/
theorem tidy_of_alone (hp : ¬Flagged p.monitor) (hL : Run srv Alone p L) : Tidy L := by
  refine Reachable.invariant (I := Tidy) (S := fun j s => j.spec s.monitor) Call.sat ?_ ?_ ?_ ?_ hL
  · refine ⟨iff_of_false hp ?_, fun i i' act act' _ hact => by simp at hact⟩
    rintro ⟨act, hact, -⟩
    cases hact
  · intro L j s pause ih _ _ hpause
    exact ih.call hpause
  · intro L i j c h q k a s pause ih hC hact _ hrun hpause
    by_cases hends : j.isEvents = true ∧ ¬pause.Waits
    · exact tidy_of_ends hC hact hrun hpause hends
    · exact ih.goesOn hact hpause hends
  · intro L e s ih _ he
    refine ⟨?_, ih.behind⟩
    show Flagged s.monitor ↔ _
    rw [Server.happens_monitor he]
    exact ih.flag

/-- Calls that settle alone succeed in order. -/
theorem inOrder_of_alone (hp : ¬Flagged p.monitor) (hL : Run srv Alone p L) :
    Run srv InOrder p L := by
  induction hL with
  | start => exact .start
  | @step L L' l hreach hl hstep ih =>
    refine ih.step ?_ hstep
    cases l with
    | call | env => trivial
    | resume i a =>
      rintro act pause ⟨hact, k, hk, -⟩ hsucceeds i' act' hact' hsucceeded
      have hwait : act.pause.Waits := by
        rw [hk]
        trivial
      have hev : ∀ act : Activation S, (succeeded act).isSome → act.job.isEvents = true :=
        fun act hs => by
          by_contra hj
          rw [succeeded_of_not_events (Bool.eq_false_iff.mpr hj)] at hs
          cases hs
      have hdone : ¬act'.pause.Waits := fun hw => by
        rw [succeeded_of_waits hw] at hsucceeded
        cases hsucceeded
      -- calls settle behind all earlier ones, so a later one would still be in flight
      by_contra hlt
      rcases Nat.lt_or_eq_of_le (Nat.le_of_not_lt hlt) with hlt | rfl
      · have hbefore : EventsWait act :=
          ⟨hev { act with pause := pause } hsucceeds, hwait⟩
        exact hdone ((tidy_of_alone hp hreach).behind i i' act act' hlt hact hbefore hact'
          (hev _ hsucceeded))
      · rw [hact, Option.some.injEq] at hact'
        subst hact'
        exact hdone hwait

/-- In every run in which each call settles while no other one is in flight: the flag is set exactly
while a call is in flight, and the store shows the data of the most recently issued call that
succeeded. -/
theorem securityEvents_of_alone (hp : ¬Flagged p.monitor) (hL : Run srv Alone p L) :
    (¬InFlight L → ∀ data, latest L = some data → table L.shared.monitor = tableOf data) ∧
      (Flagged L.shared.monitor ↔ InFlight L) := by
  refine ⟨fun _ data hdata => ?_, (tidy_of_alone hp hL).flag⟩
  rw [table_of_inOrder (inOrder_of_alone hp hL), hdata]
  rfl

/-- A call that settles while another one is in flight clears the flag: up to the first such step
the flag is exact, and behind it it is not. -/
theorem not_alone_step {L' : State S} {l : Move} (hL : Run srv Alone p L) (hl : ¬Alone L l)
    (hstep : Step Call.body settles srv.happens L l L') :
    InFlight L' ∧ ¬Flagged L'.shared.monitor := by
  cases hstep with
  | call | env => exact absurd trivial hl
  | @resume i j c h q k a hact ha =>
    simp only [Alone, not_forall] at hl
    obtain ⟨act, pause, ⟨hact', k', hk', rfl⟩, hj, hends, i', act', hact'', hwait, hne⟩ := hl
    rw [hact, Option.some.injEq] at hact'
    subst hact'
    cases hk'
    -- the other call waits on, and the one that settles has cleared the flag
    refine ⟨⟨act', ?_, hwait⟩, ?_⟩
    · exact List.mem_of_getElem? (by rw [List.getElem?_set_ne (Ne.symm hne), hact''])
    · have hsat := hL.coherent (S := fun j s => j.spec s.monitor) Call.sat _
        (List.mem_of_getElem? hact)
      have hadmits := (hsat a L.shared ha).run.1
      cases j with
      | fetchSecurityEvents params =>
        cases hpause : ((k a).run L.shared).2 with
        | waiting q' k' =>
          rw [hpause] at hends
          exact absurd trivial hends
        | settled r =>
          rw [hpause] at hadmits
          exact (Call.eventsDone hadmits).1
      | _ => cases hj

end

/-! ## Two loads -/

/-- A server that may reply anything. -/
def anyServer : Server Unit where
  serve _ _ _ _ := True
  drift _ _ := True

/-- A page that has loaded nothing. -/
def freshPage : Page Unit := .fresh ()

/-- The answer for the first filter: no events. -/
def firstAnswer : Json := .obj [(text "events", .arr []), (text "total", .num (text "0"))]

/-- The answer for the second filter: one event. -/
def secondAnswer : Json := .obj [(text "events", .arr [.null]), (text "total", .num (text "1"))]

/-- A call whose settling leaves none in flight settles alone. -/
theorem alone_of_only {L : State Unit} {i : ℕ}
    (hL : ∀ i' < L.acts.length, (L.acts[i']?).any (fun act => decide (EventsWait act)) =
      true → i' = i) (a : Answered Wait.Value String) : Alone L (.resume i a) := by
  intro act pause _ _ _ i' act' hact' hwait
  obtain ⟨hlt, -⟩ := List.getElem?_eq_some_iff.mp hact'
  exact hL i' hlt (by rw [hact']; exact decide_eq_true hwait)

/-- A load that succeeds. -/
def oneLoad : State Unit :=
  State.resumed (State.resumed (State.replied
    ((Loop.start freshPage).called Call.body (.fetchSecurityEvents [])) 0 ()
      (.ok ⟨200, some firstAnswer⟩)) 0) 0

/-- The filter is changed, and the events are loaded again. -/
def secondAsked : State Unit :=
  oneLoad.called Call.body (.fetchSecurityEvents [(text "severity", some (text "high"))])

/-- This load succeeds too. -/
def twoLoads : State Unit :=
  State.resumed (State.resumed (State.replied secondAsked 1 () (.ok ⟨200, some secondAnswer⟩)) 1) 1

theorem run_oneLoad : Run anyServer Alone freshPage oneLoad := by
  have h₁ : Run anyServer Alone freshPage _ :=
    Reachable.start.called (.fetchSecurityEvents []) trivial
  have h₂ := Run.replied h₁ 0 () (.ok ⟨200, some firstAnswer⟩) rfl rfl trivial fun _ => trivial
  have h₃ := Run.resumed h₂ 0 rfl (alone_of_only (by decide +kernel))
  exact Run.resumed h₃ 0 rfl (alone_of_only (by decide +kernel))

theorem run_secondAsked : Run anyServer Alone freshPage secondAsked :=
  run_oneLoad.called (.fetchSecurityEvents [(text "severity", some (text "high"))]) trivial

theorem run_twoLoads : Run anyServer Alone freshPage twoLoads := by
  have h₁ := Run.replied run_secondAsked 1 () (.ok ⟨200, some secondAnswer⟩) rfl rfl trivial
    fun _ => trivial
  have h₂ := Run.resumed h₁ 1 rfl (alone_of_only (by decide +kernel))
  exact Run.resumed h₂ 1 rfl (alone_of_only (by decide +kernel))

/-- The page shows what was loaded first until the second load has succeeded, the flag being set
meanwhile, and then what was loaded last. -/
theorem twoLoads_shown :
    (table oneLoad.shared.monitor = tableOf firstAnswer ∧ ¬Flagged oneLoad.shared.monitor) ∧
      Flagged secondAsked.shared.monitor ∧
      table twoLoads.shared.monitor = tableOf secondAnswer ∧ ¬Flagged twoLoads.shared.monitor := by
  have hfirst := securityEvents_of_alone (by decide) run_oneLoad
  have hsecond := securityEvents_of_alone (by decide) run_secondAsked
  have hboth := securityEvents_of_alone (by decide) run_twoLoads
  have hlanded : ¬InFlight oneLoad := by decide +kernel
  have hlanded' : ¬InFlight twoLoads := by decide +kernel
  exact ⟨⟨hfirst.1 hlanded firstAnswer rfl, mt hfirst.2.mp hlanded⟩,
    hsecond.2.mpr (by decide +kernel), hboth.1 hlanded' secondAnswer rfl,
    mt hboth.2.mp hlanded'⟩

/-- Two loads, one behind the other: the second one is answered first. -/
def secondLoaded : State Unit :=
  State.resumed (State.resumed (State.replied
    (((Loop.start freshPage).called Call.body (.fetchSecurityEvents [])).called Call.body
      (.fetchSecurityEvents [])) 1 () (.ok ⟨200, some secondAnswer⟩)) 1) 1

/-- Then the answer to the first one arrives. -/
def firstLoaded : State Unit :=
  State.resumed (State.resumed (State.replied secondLoaded 0 () (.ok ⟨200, some firstAnswer⟩)) 0) 0

theorem run_secondLoaded : Run anyServer (fun _ _ => True) freshPage secondLoaded := by
  have h₁ : Run anyServer (fun _ _ => True) freshPage _ :=
    Reachable.start.called (.fetchSecurityEvents []) trivial
  have h₂ := h₁.called (.fetchSecurityEvents []) trivial
  have h₃ := Run.replied h₂ 1 () (.ok ⟨200, some secondAnswer⟩) rfl rfl trivial fun _ => trivial
  have h₄ := Run.resumed h₃ 1 rfl fun _ => trivial
  exact Run.resumed h₄ 1 rfl fun _ => trivial

theorem run_firstLoaded : Run anyServer (fun _ _ => True) freshPage firstLoaded := by
  have h₁ := Run.replied run_secondLoaded 0 () (.ok ⟨200, some firstAnswer⟩) rfl rfl trivial
    fun _ => trivial
  have h₂ := Run.resumed h₁ 0 rfl fun _ => trivial
  exact Run.resumed h₂ 0 rfl fun _ => trivial

/-- The flag is cleared while the first load is in flight, and in the end the page shows the answer
for the filter that was left. -/
theorem firstLoaded_shown :
    (InFlight secondLoaded ∧ ¬Flagged secondLoaded.shared.monitor) ∧
      (¬InFlight firstLoaded ∧ latest firstLoaded = some secondAnswer ∧
        table firstLoaded.shared.monitor = tableOf firstAnswer) ∧
      ¬∀ (S : Type) (srv : Server S) (p : Page S) (L : State S), ¬Flagged p.monitor →
        Run srv (fun _ _ => True) p L →
        (¬InFlight L → ∀ data, latest L = some data → table L.shared.monitor = tableOf data) ∧
          (Flagged L.shared.monitor ↔ InFlight L) := by
  have hflight : InFlight secondLoaded ∧ ¬Flagged secondLoaded.shared.monitor := by
    decide +kernel
  have hlanded : ¬InFlight firstLoaded := by decide +kernel
  refine ⟨hflight, ⟨hlanded, rfl, rfl⟩, fun hall => ?_⟩
  have hrun := hall Unit anyServer freshPage firstLoaded (by decide) run_firstLoaded
  have hshown : table firstLoaded.shared.monitor = tableOf secondAnswer :=
    hrun.1 hlanded secondAnswer rfl
  -- the totals differ
  have htotal : (text "0") = (text "1") := Json.num.inj (congrArg Prod.snd hshown)
  exact absurd htotal (by decide)

end Console
